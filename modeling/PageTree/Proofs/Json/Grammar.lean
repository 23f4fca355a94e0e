import PageTree.Json.Reader

/-!
# The grammar of JSON

`Spells d s v` says that the text `s` is a JSON text for the value `v` in the dialect `d`. The rules say it
of each kind of value on its own, without a word about the machine that reads: a text is built from its
parts, and the value from theirs.

Blanks may stand around every value, so they are a rule of their own. The members of an object are spelled
as they are given, and a key may be given more than once. What object that is, `Members.ofList` says.
-/

set_option autoImplicit false

namespace PageTree.Json

/-- A text of blanks. -/
def IsBlank (s : Text) : Prop := ∀ c ∈ s, isSpace c = true

/-! ## Words -/

/-- The words, and the values they stand for. -/
inductive SpellsWord (d : Dialect) : Text → Value → Prop
  | null : SpellsWord d (text "null") .null
  | yes : SpellsWord d (text "true") (.bool true)
  | no : SpellsWord d (text "false") (.bool false)
  | notNumber (h : d.admitsInfinite = true) : SpellsWord d (text "NaN") (.float .nan)
  | infinite (h : d.admitsInfinite = true) : SpellsWord d (text "Infinity") (.float (.infinite false))
  | minusInfinite (h : d.admitsInfinite = true) :
      SpellsWord d (text "-Infinity") (.float (.infinite true))

/-! ## Numbers -/

/-- One digit or more. -/
structure IsDigits (s : Text) : Prop where
  nonempty : s ≠ []
  digits : ∀ c ∈ s, c.isDigit = true

/-- The digits of a whole number. Only zero begins with a zero. -/
inductive IsWhole : Text → Prop
  | zero : IsWhole (text "0")
  | digits {c : CodePoint} {s : Text} (hfirst : c.isDigit = true) (hzero : c ≠ CodePoint.ofChar '0')
      (h : ∀ x ∈ s, x.isDigit = true) : IsWhole (c :: s)

/-- An integer. A minus may stand before it, but no plus. -/
inductive IsInteger : Text → Prop
  | positive {s : Text} (h : IsWhole s) : IsInteger s
  | negative {s : Text} (h : IsWhole s) : IsInteger (CodePoint.ofChar '-' :: s)

/-- An integer and a fraction. -/
inductive IsFraction : Text → Prop
  | point {s t : Text} (h : IsInteger s) (ht : IsDigits t) : IsFraction (s ++ CodePoint.ofChar '.' :: t)

/-- The letter before an exponent. -/
def IsMark (c : CodePoint) : Prop := c = CodePoint.ofChar 'e' ∨ c = CodePoint.ofChar 'E'

/-- The sign of an exponent. -/
def IsSign (c : CodePoint) : Prop := c = CodePoint.ofChar '+' ∨ c = CodePoint.ofChar '-'

/-- An exponent. -/
inductive IsExponent : Text → Prop
  | plain {c : CodePoint} {s : Text} (hmark : IsMark c) (h : IsDigits s) : IsExponent (c :: s)
  | signed {c sign : CodePoint} {s : Text} (hmark : IsMark c) (hsign : IsSign sign) (h : IsDigits s) :
      IsExponent (c :: sign :: s)

/-- The numbers, and the values they stand for. An integer that is too large for the dialect counts as a
floating-point number, as does what has a fraction or an exponent. -/
inductive SpellsNumber (d : Dialect) : Text → Value → Prop
  | integer {s : Text} (h : IsInteger s)
      (hfits : d.keepsLargeIntegers = true ∨ fits64 (integerOf s) = true) :
      SpellsNumber d s (.int (integerOf s))
  | large {s : Text} {v : Value} (h : IsInteger s) (hkeeps : d.keepsLargeIntegers = false)
      (hlarge : fits64 (integerOf s) = false) (hv : floatOf? d s = some v) : SpellsNumber d s v
  | fraction {s : Text} {v : Value} (h : IsFraction s) (hv : floatOf? d s = some v) : SpellsNumber d s v
  | exponent {s t : Text} {v : Value} (h : IsInteger s ∨ IsFraction s) (ht : IsExponent t)
      (hv : floatOf? d (s ++ t) = some v) : SpellsNumber d (s ++ t) v

/-! ## Strings -/

/-- Hexadecimal digits, and the number they stand for. -/
inductive HexDigits : Text → Nat → Prop
  | nil : HexDigits [] 0
  | snoc {s : Text} {n k : Nat} {c : CodePoint} (h : HexDigits s n) (hc : c.hexValue? = some k) :
      HexDigits (s ++ [c]) (n * 16 + k)

/-- What stands between the marks of a string, and the text it stands for. A numeric escape for the second
half of a surrogate pair makes one code point with the first half, if that stands right before it. -/
inductive Quoted : Text → Text → Prop
  | nil : Quoted [] []
  | plain {s t : Text} {c : CodePoint} (h : Quoted s t) (hmark : c ≠ CodePoint.ofChar '"')
      (hbackslash : c ≠ CodePoint.ofChar '\\') (hcontrol : 0x20 ≤ c.val) : Quoted (s ++ [c]) (t ++ [c])
  | letter {s t : Text} {c e : CodePoint} (h : Quoted s t) (he : escaped? c = some e) :
      Quoted (s ++ [CodePoint.ofChar '\\', c]) (t ++ [e])
  | unit {s t hex : Text} {c : CodePoint} (h : Quoted s t) (hhex : HexDigits hex c.val)
      (hlength : hex.length = 4)
      (hsingle : ∀ front high, t = front ++ [high] → high.isHighSurrogate = true →
        c.isLowSurrogate = false) :
      Quoted (s ++ (text "\\u" ++ hex)) (t ++ [c])
  | pair {s t hex : Text} {high low c : CodePoint} (h : Quoted s (t ++ [high]))
      (hhigh : high.isHighSurrogate = true) (hhex : HexDigits hex low.val) (hlength : hex.length = 4)
      (hlow : low.isLowSurrogate = true)
      (hc : c.val = 0x10000 + (high.val - 0xD800) * 0x400 + (low.val - 0xDC00)) :
      Quoted (s ++ (text "\\u" ++ hex)) (t ++ [c])

/-! ## Values -/

mutual

/-- A text is a JSON text for a value. -/
inductive Spells (d : Dialect) : Text → Value → Prop
  | blanks {before s behind : Text} {v : Value} (hbefore : IsBlank before) (h : SpellsBare d s v)
      (hbehind : IsBlank behind) : Spells d (before ++ s ++ behind) v

/-- A text without blanks around it is a JSON text for a value. -/
inductive SpellsBare (d : Dialect) : Text → Value → Prop
  | word {s : Text} {v : Value} (h : SpellsWord d s v) : SpellsBare d s v
  | number {s : Text} {v : Value} (h : SpellsNumber d s v) : SpellsBare d s v
  | string {s t : Text} (h : Quoted s t)
      (ht : d.admitsLoneSurrogates = true ∨ t.hasSurrogate = false) :
      SpellsBare d (CodePoint.ofChar '"' :: (s ++ [CodePoint.ofChar '"'])) (.str t)
  | array {s : Text} {items : List Value} (h : SpellsItems d s items) :
      SpellsBare d (CodePoint.ofChar '[' :: (s ++ [CodePoint.ofChar ']'])) (.array items)
  | object {s : Text} {given : List (Text × Value)} (h : SpellsMembers d s given) :
      SpellsBare d (CodePoint.ofChar '{' :: (s ++ [CodePoint.ofChar '}'])) (.object (Members.ofList given))

/-- What stands between the brackets of an array. -/
inductive SpellsItems (d : Dialect) : Text → List Value → Prop
  | none {s : Text} (h : IsBlank s) : SpellsItems d s []
  | one {s : Text} {v : Value} (h : Spells d s v) : SpellsItems d s [v]
  | more {s t : Text} {items : List Value} {v : Value} (h : SpellsItems d s items) (hne : items ≠ [])
      (hv : Spells d t v) : SpellsItems d (s ++ CodePoint.ofChar ',' :: t) (items ++ [v])

/-- What stands between the braces of an object: the members as they are given. -/
inductive SpellsMembers (d : Dialect) : Text → List (Text × Value) → Prop
  | none {s : Text} (h : IsBlank s) : SpellsMembers d s []
  | one {k s : Text} {key : Text} {v : Value} (hkey : Spells d k (.str key)) (hv : Spells d s v) :
      SpellsMembers d (k ++ CodePoint.ofChar ':' :: s) [(key, v)]
  | more {r k s : Text} {given : List (Text × Value)} {key : Text} {v : Value}
      (h : SpellsMembers d r given) (hne : given ≠ []) (hkey : Spells d k (.str key))
      (hv : Spells d s v) :
      SpellsMembers d (r ++ CodePoint.ofChar ',' :: (k ++ CodePoint.ofChar ':' :: s))
        (given ++ [(key, v)])

end

/-- A text is a JSON text for an object with these members, as they are given. -/
inductive SpellsObject (d : Dialect) : Text → List (Text × Value) → Prop
  | braces {before s behind : Text} {given : List (Text × Value)} (hbefore : IsBlank before)
      (h : SpellsMembers d s given) (hbehind : IsBlank behind) :
      SpellsObject d (before ++ CodePoint.ofChar '{' :: (s ++ [CodePoint.ofChar '}']) ++ behind) given

/-! ## What the rules say of blanks, strings and objects -/

section Spelled

variable {d : Dialect} {s : Text} {v : Value}

/-- The empty text is blank. -/
theorem isBlank_nil : IsBlank [] := by simp [IsBlank]

/-- Two blank texts, one behind the other, are blank. -/
theorem IsBlank.append {t : Text} (hs : IsBlank s) (ht : IsBlank t) : IsBlank (s ++ t) := by
  intro c hc
  rcases List.mem_append.mp hc with hfirst | hsecond
  · exact hs c hfirst
  · exact ht c hsecond

/-- A blank text stays blank with a blank behind it. -/
theorem IsBlank.snoc {c : CodePoint} (h : IsBlank s) (hc : isSpace c = true) : IsBlank (s ++ [c]) :=
  h.append (by simpa [IsBlank] using hc)

/-- A value that is spelled without blanks around it is spelled. -/
theorem SpellsBare.spells (h : SpellsBare d s v) : Spells d s v := by
  have hspelled := Spells.blanks isBlank_nil h isBlank_nil
  simpa only [List.nil_append, List.append_nil] using hspelled

/-- A blank behind a value belongs to its spelling. -/
theorem Spells.behind {c : CodePoint} (h : Spells d s v) (hc : isSpace c = true) :
    Spells d (s ++ [c]) v := by
  cases h with
  | blanks hbefore h hbehind =>
      rw [List.append_assoc]
      exact .blanks hbefore h (hbehind.snoc hc)

/-- Where there are no items, nothing but blanks stands between the brackets. -/
theorem SpellsItems.isBlank (h : SpellsItems d s []) : IsBlank s := by
  generalize hnil : ([] : List Value) = items at h
  cases h with
  | none h => exact h
  | one => cases hnil
  | more => simp at hnil

/-- Where there are no members, nothing but blanks stands between the braces. -/
theorem SpellsMembers.isBlank (h : SpellsMembers d s []) : IsBlank s := by
  generalize hnil : ([] : List (Text × Value)) = given at h
  cases h with
  | none h => exact h
  | one => cases hnil
  | more => simp at hnil

/-- What is large, or has a fraction or an exponent, is a floating-point number. -/
theorem exists_float_of_floatOf? (h : floatOf? d s = some v) : ∃ x, v = .float x := by
  unfold floatOf? at h
  split at h
  · split at h
    · exact ⟨_, (Option.some.inj h).symm⟩
    · cases h
  · exact ⟨_, (Option.some.inj h).symm⟩
  · cases h

/-- A number stands for an integer or for a floating-point number. -/
theorem SpellsNumber.isNumber (h : SpellsNumber d s v) : (∃ n, v = .int n) ∨ ∃ x, v = .float x := by
  cases h with
  | integer => exact .inl ⟨_, rfl⟩
  | large _ _ _ hv => exact .inr (exists_float_of_floatOf? hv)
  | fraction _ hv => exact .inr (exists_float_of_floatOf? hv)
  | exponent _ _ hv => exact .inr (exists_float_of_floatOf? hv)

/-- A text is spelled between marks. -/
theorem spellsBare_str_iff {t : Text} :
    SpellsBare d s (.str t) ↔ ∃ q, Quoted q t ∧ (d.admitsLoneSurrogates = true ∨ t.hasSurrogate = false) ∧
      s = CodePoint.ofChar '"' :: (q ++ [CodePoint.ofChar '"']) := by
  constructor
  · intro h
    cases h with
    | word h => cases h
    | number h => obtain ⟨n, hn⟩ | ⟨x, hx⟩ := h.isNumber <;> contradiction
    | string h ht => exact ⟨_, h, ht, rfl⟩
  · rintro ⟨q, h, ht, rfl⟩
    exact .string h ht

/-- An object is spelled between braces, by its members as they are given. -/
theorem spells_object_iff {members : Members} :
    Spells d s (.object members) ↔ ∃ given, SpellsObject d s given ∧ Members.ofList given = members := by
  constructor
  · intro h
    cases h with
    | blanks hbefore h hbehind =>
        cases h with
        | word h => cases h
        | number h => obtain ⟨n, hn⟩ | ⟨x, hx⟩ := h.isNumber <;> contradiction
        | object h => exact ⟨_, .braces hbefore h hbehind, rfl⟩
  · rintro ⟨given, hgiven, rfl⟩
    cases hgiven with
    | braces hbefore h hbehind => exact .blanks hbefore (.object h) hbehind

end Spelled

end PageTree.Json
