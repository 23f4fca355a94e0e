import PageTree.Binary64

/-!
# Facts about texts

What the other proofs use of texts: when characters are the same code point, which texts hold a surrogate,
and that the decimal digits of a number spell it.
-/

set_option autoImplicit false

namespace PageTree

namespace CodePoint

/-- Different characters are different code points. -/
@[simp] theorem ofChar_inj {a b : Char} : ofChar a = ofChar b ↔ a = b := by
  constructor
  · intro h
    have hval : a.toNat = b.toNat := congrArg CodePoint.val h
    exact Char.toNat_inj.mp hval
  · rintro rfl
    rfl

/-- A code point is determined by its number. -/
theorem ext_val {a b : CodePoint} (h : a.val = b.val) : a = b := by
  cases a
  cases b
  simp only [mk.injEq]
  exact h

/-- No character is a surrogate. -/
theorem isSurrogate_ofChar (c : Char) : (ofChar c).isSurrogate = false := by
  have h := c.valid
  simp only [UInt32.isValidChar, Nat.isValidChar] at h
  have hval : (ofChar c).val = c.val.toNat := rfl
  simp only [isSurrogate, hval, Bool.and_eq_false_iff, decide_eq_false_iff_not]
  omega

/-- The code points of the digits follow that of zero. -/
theorem val_digit (n : Nat) : (digit n).val = 48 + n % 10 := by
  have h : ∀ m < 10, (ofChar (Char.ofNat ('0'.toNat + m))).val = 48 + m := by decide
  exact h (n % 10) (Nat.mod_lt n (by decide))

/-- The digit of a number is a digit. -/
theorem isDigit_digit (n : Nat) : (digit n).isDigit = true := by
  have hval := val_digit n
  have hlt := Nat.mod_lt n (y := 10) (by decide)
  have h0 : '0'.toNat = 48 := rfl
  have h9 : '9'.toNat = 57 := rfl
  simp only [isDigit, hval, h0, h9, Bool.and_eq_true, decide_eq_true_eq]
  omega

/-- A digit is no other character. -/
theorem ne_ofChar_of_isDigit {x : CodePoint} {c : Char} (hx : x.isDigit = true)
    (h : (ofChar c).isDigit = false) : x ≠ ofChar c := by
  rintro rfl
  rw [h] at hx
  exact absurd hx (by decide)

/-- The code point of a number has this number. -/
theorem val_of_ofNat? {n : Nat} {c : CodePoint} (h : ofNat? n = some c) : c.val = n := by
  unfold ofNat? at h
  split at h
  · exact congrArg val (Option.some.inj h).symm
  · cases h

end CodePoint

namespace Text

/-- A surrogate stands in two texts, one behind the other, just if it stands in one of them. -/
theorem hasSurrogate_append (s t : Text) :
    hasSurrogate (s ++ t) = (s.hasSurrogate || t.hasSurrogate) := by
  simp only [hasSurrogate, List.any_append]

/-- No surrogate stands in a text that is written in this library. -/
theorem hasSurrogate_text (s : String) : hasSurrogate (text s) = false := by
  simp [hasSurrogate, text, CodePoint.isSurrogate_ofChar]

/-- Unifying line ends brings no surrogate into a text. -/
theorem hasSurrogate_unifyLines (s : Text) : hasSurrogate (unifyLines s) = hasSurrogate s := by
  have hfeed := CodePoint.isSurrogate_ofChar '\n'
  have hreturn := CodePoint.isSurrogate_ofChar '\r'
  fun_induction unifyLines s with
  | case1 => rfl
  | case2 => simp [hasSurrogate, hfeed, hreturn]
  | case3 r ih =>
      simp only [hasSurrogate, List.any_cons, hfeed, hreturn, Bool.false_or] at ih ⊢
      exact ih
  | case4 y r _ ih =>
      simp only [hasSurrogate, List.any_cons, hfeed, hreturn, Bool.false_or] at ih ⊢
      exact ih
  | case5 x s _ ih =>
      simp only [hasSurrogate, List.any_cons] at ih ⊢
      rw [ih]

/-- Texts without surrogates, put one behind the other with a separator between them. -/
theorem hasSurrogate_join {separator : Text} (hseparator : separator.hasSurrogate = false)
    {pieces : List Text} (h : ∀ s ∈ pieces, s.hasSurrogate = false) :
    hasSurrogate (join separator pieces) = false := by
  fun_induction join separator pieces with
  | case1 => rfl
  | case2 s => exact h s (List.mem_singleton_self s)
  | case3 s t rest ih =>
      have hfirst := h s List.mem_cons_self
      have hrest := ih fun u hu => h u (List.mem_cons_of_mem s hu)
      rw [hasSurrogate_append, hasSurrogate_append, hfirst, hseparator, hrest]
      rfl

/-- One character makes a text without surrogates. -/
theorem hasSurrogate_singleton_ofChar (c : Char) : hasSurrogate [CodePoint.ofChar c] = false := by
  simp [hasSurrogate, CodePoint.isSurrogate_ofChar]

/-! ## Decimal digits -/

/-- Digits are read from the left. -/
theorem digitsValue_append_digit (s : Text) (n : Nat) :
    digitsValue (s ++ [CodePoint.digit n]) = 10 * digitsValue s + n % 10 := by
  have hval := CodePoint.val_digit n
  have h0 : '0'.toNat = 48 := rfl
  simp only [digitsValue, List.foldl_append, List.foldl_cons, List.foldl_nil, hval, h0]
  omega

/-- The decimal digits of a number spell it. -/
theorem digitsValue_ofNat (n : Nat) : digitsValue (ofNat n) = n := by
  induction n using Nat.strongRecOn with
  | ind n ih =>
      rw [ofNat]
      split
      · have h := digitsValue_append_digit [] n
        simp only [List.nil_append] at h
        rw [h, Nat.mod_eq_of_lt (by assumption)]
        simp [digitsValue]
      · rw [digitsValue_append_digit, ih (n / 10) (by omega)]
        omega

/-- Different numbers have different decimal forms. -/
theorem ofNat_injective : Function.Injective ofNat := by
  intro n m h
  rw [← digitsValue_ofNat n, h, digitsValue_ofNat]

/-- The decimal form of a number is made of digits. -/
theorem isDigit_of_mem_ofNat (n : Nat) : ∀ c ∈ ofNat n, c.isDigit = true := by
  induction n using Nat.strongRecOn with
  | ind n ih =>
      rw [ofNat]
      split
      · simp [CodePoint.isDigit_digit]
      · intro c hc
        rcases List.mem_append.mp hc with hc | hc
        · exact ih (n / 10) (by omega) c hc
        · rw [List.mem_singleton.mp hc]
          exact CodePoint.isDigit_digit _

/-- No surrogate stands in the decimal form of a number. -/
theorem hasSurrogate_ofNat (n : Nat) : hasSurrogate (ofNat n) = false := by
  induction n using Nat.strongRecOn with
  | ind n ih =>
      rw [ofNat]
      split
      · exact hasSurrogate_singleton_ofChar _
      · have hdigit : hasSurrogate [CodePoint.digit (n % 10)] = false :=
          hasSurrogate_singleton_ofChar _
        rw [hasSurrogate_append, ih (n / 10) (by omega), hdigit]
        rfl

/-- No surrogate stands in the decimal form of an integer. -/
theorem hasSurrogate_ofInt (n : Int) : hasSurrogate (ofInt n) = false := by
  cases n with
  | ofNat n => exact hasSurrogate_ofNat n
  | negSucc n =>
      show (CodePoint.isSurrogate (CodePoint.ofChar '-') || hasSurrogate (ofNat (n + 1))) = false
      rw [CodePoint.isSurrogate_ofChar, hasSurrogate_ofNat]
      rfl

end Text

end PageTree
