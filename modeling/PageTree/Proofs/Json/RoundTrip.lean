import PageTree.Json.Printer
import PageTree.Proofs.Json.Completeness

/-!
# What is written in JSON can be read again

`read?_write` is the main statement: in every dialect, the JSON form of a value is read as that value. It
holds of values that have a JSON form (`obstacle?` finds nothing) and that are *faithful*: no
floating-point numbers, and no key twice in an object. How deep arrays and objects may stand inside each other
matters to the writer only: the reader takes what has been written, whatever room there was.

What is written is spelled by the grammar of JSON (`spells_write`), and all that the grammar spells is read.
So nothing has to be said here about how the reader works.
-/

set_option autoImplicit false

namespace PageTree.Json

/-! ## Faithful values -/

mutual

/-- A value without floating-point numbers, in whose objects no key occurs twice. -/
def Faithful : Value → Prop
  | .float _ => False
  | .array items => FaithfulItems items
  | .object members => (members.map Prod.fst).Nodup ∧ FaithfulMembers members
  | _ => True

/-- Items that are faithful. -/
def FaithfulItems : List Value → Prop
  | [] => True
  | v :: rest => Faithful v ∧ FaithfulItems rest

/-- Members whose values are faithful. -/
def FaithfulMembers : List (Text × Value) → Prop
  | [] => True
  | (_, v) :: rest => Faithful v ∧ FaithfulMembers rest

end

/-- Items are faithful just if each of them is. -/
theorem faithfulItems_iff {items : List Value} : FaithfulItems items ↔ ∀ v ∈ items, Faithful v := by
  induction items with
  | nil => simp [FaithfulItems]
  | cons v rest ih => simp [FaithfulItems, ih]

/-- Members are faithful just if the value of each is. -/
theorem faithfulMembers_iff {members : List (Text × Value)} :
    FaithfulMembers members ↔ ∀ m ∈ members, Faithful m.2 := by
  induction members with
  | nil => simp [FaithfulMembers]
  | cons m rest ih => simp [FaithfulMembers, ih]

/-! ## Obstacles -/

/-- Only a surrogate stands in the way of a text. -/
theorem textObstacle?_eq_none {s : Text} : textObstacle? s = none ↔ s.hasSurrogate = false := by
  simp [textObstacle?]

section Room

variable {room : Nat}

/-- Nothing stands in the way of a text without surrogates, whatever room there is. -/
theorem obstacle?_str {s : Text} (h : s.hasSurrogate = false) : obstacle? room (.str s) = none :=
  textObstacle?_eq_none.mpr h

/-- Nothing stands in the way of items just if nothing stands in the way of any of them. -/
theorem itemObstacle?_eq_none {items : List Value} :
    itemObstacle? room items = none ↔ ∀ v ∈ items, obstacle? room v = none := by
  induction items with
  | nil => simp [itemObstacle?]
  | cons v rest ih => simp [itemObstacle?, ih]

/-- Nothing stands in the way of members just if no key holds a surrogate and nothing stands in the way of
any value. -/
theorem memberObstacle?_eq_none {members : List (Text × Value)} :
    memberObstacle? room members = none ↔
      ∀ m ∈ members, m.1.hasSurrogate = false ∧ obstacle? room m.2 = none := by
  induction members with
  | nil => simp [memberObstacle?]
  | cons m rest ih => simp [memberObstacle?, textObstacle?_eq_none, ih, and_assoc]

/-- An array takes the place of one that may stand around its items. -/
theorem obstacle?_array_eq_none {items : List Value} :
    obstacle? room (.array items) = none ↔ ∃ inner, room = inner + 1 ∧ itemObstacle? inner items = none := by
  cases room <;> simp [obstacle?]

/-- An object takes the place of one that may stand around its values. -/
theorem obstacle?_object_eq_none {members : List (Text × Value)} :
    obstacle? room (.object members) = none ↔
      ∃ inner, room = inner + 1 ∧ memberObstacle? inner members = none := by
  cases room <;> simp [obstacle?]

end Room

/-! ## Texts -/

/-- A hexadecimal digit is read as its number. -/
theorem hexValue?_hexDigit (n : Nat) : (CodePoint.hexDigit n).hexValue? = some (n % 16) := by
  have h : ∀ m < 16, (CodePoint.hexDigit m).hexValue? = some m := by decide
  have hmod : CodePoint.hexDigit n = CodePoint.hexDigit (n % 16) := by
    simp only [CodePoint.hexDigit, Nat.mod_mod]
  rw [hmod]
  exact h (n % 16) (Nat.mod_lt n (by decide))

/-- The numeric escape of a control code. -/
theorem hexDigits_control {c : CodePoint} (h : c.val < 0x20) :
    HexDigits (text "00" ++ [CodePoint.hexDigit (c.val / 16), CodePoint.hexDigit c.val]) c.val := by
  have hzeros : HexDigits (text "00") 0 :=
    (HexDigits.nil.snoc (c := '0') (k := 0) rfl).snoc (c := '0') (k := 0) rfl
  have hdigits := (hzeros.snoc (hexValue?_hexDigit (c.val / 16))).snoc (hexValue?_hexDigit c.val)
  have hval : (0 * 16 + c.val / 16 % 16) * 16 + c.val % 16 = c.val := by omega
  rw [hval, List.append_assoc] at hdigits
  exact hdigits

/-- A code point is quoted by the way in which it is written. -/
theorem Quoted.writePoint {s t : Text} (h : Quoted s t) (c : CodePoint) :
    Quoted (s ++ writePoint c) (t ++ [c]) := by
  unfold Json.writePoint
  -- The code points with an escape of their own, then the other control codes, then what stands for itself.
  split
  · next hc => subst hc; exact .letter h rfl
  split
  · next hc => subst hc; exact .letter h rfl
  split
  · next hc => rw [show c = ⟨0x08, by decide⟩ from CodePoint.ext_val hc]; exact .letter h rfl
  split
  · next hc => rw [show c = ⟨0x0C, by decide⟩ from CodePoint.ext_val hc]; exact .letter h rfl
  split
  · next hc => subst hc; exact .letter h rfl
  split
  · next hc => subst hc; exact .letter h rfl
  split
  · next hc => subst hc; exact .letter h rfl
  split
  · next hcontrol =>
      refine .unit h (hexDigits_control hcontrol) rfl fun _ _ _ _ => ?_
      simp only [CodePoint.isLowSurrogate, Bool.and_eq_false_iff, decide_eq_false_iff_not]
      omega
  · next hmark hbackslash _ _ _ _ _ hcontrol => exact .plain h hmark hbackslash (Nat.not_lt.mp hcontrol)

/-- What is quoted stays so with more code points written behind it. -/
theorem Quoted.flatMap_writePoint {s t : Text} (h : Quoted s t) (rest : Text) :
    Quoted (s ++ rest.flatMap Json.writePoint) (t ++ rest) := by
  induction rest generalizing s t with
  | nil =>
      rw [List.flatMap_nil, List.append_nil, List.append_nil]
      exact h
  | cons c rest ih =>
      have hrest := ih (h.writePoint c)
      rw [List.append_assoc, List.append_assoc] at hrest
      exact hrest

/-- A text without surrogates is spelled by its written form. -/
theorem spells_writeText (d : Dialect) {s : Text} (h : s.hasSurrogate = false) :
    Spells d (writeText s) (.str s) :=
  (SpellsBare.string (Quoted.nil.flatMap_writePoint s) (.inr h)).spells

/-! ## Integers -/

/-- The decimal form of a positive number does not begin with a zero. -/
theorem ofNat_eq_digits {n : Nat} (hn : 0 < n) : ∃ c rest, Text.ofNat n = c :: rest ∧
    c.isDigit = true ∧ c ≠ CodePoint.ofChar '0' ∧ ∀ x ∈ rest, x.isDigit = true := by
  induction n using Nat.strongRecOn with
  | ind n ih =>
      rw [Text.ofNat]
      split
      · next hlt =>
          refine ⟨CodePoint.digit n, [], rfl, CodePoint.isDigit_digit n, ?_, by simp⟩
          intro hzero
          have hval := CodePoint.val_digit n
          rw [hzero] at hval
          have h0 : (CodePoint.ofChar '0').val = 48 := rfl
          omega
      · obtain ⟨c, rest, hsplit, hdigit, hzero, hrest⟩ := ih (n / 10) (by omega) (by omega)
        refine ⟨c, rest ++ [CodePoint.digit (n % 10)], by rw [hsplit]; rfl, hdigit, hzero, ?_⟩
        intro x hx
        rcases List.mem_append.mp hx with hx | hx
        · exact hrest x hx
        · rw [List.mem_singleton.mp hx]
          exact CodePoint.isDigit_digit _

/-- The decimal form of a natural number is a whole number. -/
theorem isWhole_ofNat (n : Nat) : IsWhole (Text.ofNat n) := by
  cases n with
  | zero =>
      rw [Text.ofNat]
      exact .zero
  | succ n =>
      obtain ⟨c, rest, hsplit, hdigit, hzero, hrest⟩ := ofNat_eq_digits (n := n + 1) (by omega)
      rw [hsplit]
      exact .digits hdigit hzero hrest

/-- The decimal form of an integer is an integer. -/
theorem isInteger_ofInt (n : Int) : IsInteger (Text.ofInt n) := by
  cases n with
  | ofNat n => exact .positive (isWhole_ofNat n)
  | negSucc n => exact .negative (isWhole_ofNat (n + 1))

/-- A whole number has no sign of its own. -/
theorem IsWhole.cutSign {s : Text} (h : IsWhole s) : Binary64.cutSign s = (false, s) := by
  cases h with
  | zero => rfl
  | digits hdigit hzero hrest =>
      have hminus := CodePoint.ne_ofChar_of_isDigit (c := '-') hdigit rfl
      have hplus := CodePoint.ne_ofChar_of_isDigit (c := '+') hdigit rfl
      simp only [Binary64.cutSign, hminus, hplus, ↓reduceIte]

/-- The decimal form of an integer stands for the integer. -/
theorem integerOf_ofInt (n : Int) : integerOf (Text.ofInt n) = n := by
  cases n with
  | ofNat n =>
      show integerOf (Text.ofNat n) = (n : Int)
      simp [integerOf, (isWhole_ofNat n).cutSign, Text.digitsValue_ofNat]
  | negSucc n =>
      have hcut : Binary64.cutSign (Text.ofInt (.negSucc n)) = (true, Text.ofNat (n + 1)) := rfl
      simp only [integerOf, hcut, Text.digitsValue_ofNat, ↓reduceIte]
      rfl

/-- An integer of at most 64 bits is spelled by its decimal form. -/
theorem spells_ofInt (d : Dialect) {n : Int} (hfits : fits64 n = true) :
    Spells d (Text.ofInt n) (.int n) := by
  have hvalue := integerOf_ofInt n
  have hnumber := SpellsNumber.integer (d := d) (isInteger_ofInt n) (.inr (by rw [hvalue, hfits]))
  rw [hvalue] at hnumber
  exact (SpellsBare.number hnumber).spells

/-! ## Values -/

/-- Pieces with a separator between them: each piece but the first has one before it. -/
theorem join_cons (separator s : Text) (rest : List Text) :
    Text.join separator (s :: rest) = s ++ rest.flatMap fun t => separator ++ t := by
  induction rest generalizing s with
  | nil => simp [Text.join]
  | cons t rest ih =>
      rw [Text.join, ih t]
      simp

/-- A key that is new to an object comes last in it. -/
theorem set_of_notMem {key : Text} (v : Value) {members : Members}
    (h : key ∉ members.map Prod.fst) : Members.set key v members = members ++ [(key, v)] := by
  induction members with
  | nil => rfl
  | cons m rest ih =>
      obtain ⟨k, w⟩ := m
      simp only [List.map_cons, List.mem_cons, not_or] at h
      rw [Members.set, if_neg (Ne.symm h.1), ih h.2]
      rfl

/-- Members of which no key occurs twice make an object as they are given. -/
theorem ofList_of_nodup {members : List (Text × Value)} (h : (members.map Prod.fst).Nodup) :
    Members.ofList members = members := by
  induction members using List.reverseRecOn with
  | nil => rfl
  | append_singleton front m ih =>
      rw [List.map_append, List.nodup_append] at h
      obtain ⟨hfront, -, hdisjoint⟩ := h
      rw [Members.ofList_append, ih hfront, set_of_notMem]
      exact fun hmem => hdisjoint m.1 hmem m.1 (by simp) rfl

mutual

/-- A value is spelled by its written form. -/
theorem spells_write (d : Dialect) : (room : Nat) → (v : Value) → Faithful v → obstacle? room v = none →
    Spells d (write v) v
  | _, .null, _, _ => (SpellsBare.word .null).spells
  | _, .bool true, _, _ => (SpellsBare.word .yes).spells
  | _, .bool false, _, _ => (SpellsBare.word .no).spells
  | _, .int n, _, hplain => spells_ofInt d (by simpa [obstacle?] using hplain)
  | _, .float _, hfaithful, _ => hfaithful.elim
  | _, .str s, _, hplain => spells_writeText d (textObstacle?_eq_none.mp hplain)
  | _, .array [], _, _ => (SpellsBare.array (.none isBlank_nil)).spells
  | _, .array (v :: rest), hfaithful, hplain => by
      simp only [Faithful, FaithfulItems] at hfaithful
      obtain ⟨room, -, hplain⟩ := obstacle?_array_eq_none.mp hplain
      simp only [itemObstacle?, Option.or_eq_none_iff] at hplain
      have hfirst := spells_write d room v hfaithful.1 hplain.1
      have hitems := spells_items d room rest hfaithful.2 hplain.2 (.one hfirst) (by simp)
      rw [← join_cons] at hitems
      exact (SpellsBare.array hitems).spells
  | _, .object [], _, _ => (SpellsBare.object (.none isBlank_nil)).spells
  | _, .object ((key, v) :: rest), hfaithful, hplain => by
      simp only [Faithful, FaithfulMembers] at hfaithful
      obtain ⟨hnodup, hvalue, hmembers⟩ := hfaithful
      obtain ⟨room, -, hplain⟩ := obstacle?_object_eq_none.mp hplain
      simp only [memberObstacle?, Option.or_eq_none_iff] at hplain
      obtain ⟨hkey, hplainValue, hplainRest⟩ := hplain
      have hfirst := spells_write d room v hvalue hplainValue
      have hgiven := spells_members d room rest hmembers hplainRest
        (.one (spells_writeText d (textObstacle?_eq_none.mp hkey)) hfirst) (by simp)
      have hobject := (SpellsBare.object hgiven).spells
      rw [List.singleton_append, ofList_of_nodup hnodup] at hobject
      show Spells d (CodePoint.ofChar '{' ::
        (Text.join (text ",") ((writeText key ++ text ":" ++ write v) :: writeMembers rest) ++
          [CodePoint.ofChar '}'])) _
      rw [join_cons, List.append_assoc (writeText key)]
      exact hobject

/-- Further items of an array. -/
theorem spells_items (d : Dialect) : (room : Nat) → (items : List Value) → FaithfulItems items →
    itemObstacle? room items = none →
      ∀ {s : Text} {done : List Value}, SpellsItems d s done → done ≠ [] →
      SpellsItems d (s ++ (writeItems items).flatMap fun t => text "," ++ t) (done ++ items)
  | _, [], _, _, s, done, h, _ => by
      rw [List.append_nil]
      exact (List.append_nil s).symm ▸ h
  | room, v :: rest, hfaithful, hplain, s, done, h, hne => by
      simp only [FaithfulItems] at hfaithful
      simp only [itemObstacle?, Option.or_eq_none_iff] at hplain
      have hfirst := h.more hne (spells_write d room v hfaithful.1 hplain.1)
      have hrest := spells_items d room rest hfaithful.2 hplain.2 hfirst (by simp)
      rw [List.append_assoc, List.append_assoc] at hrest
      exact hrest

/-- Further members of an object. -/
theorem spells_members (d : Dialect) : (room : Nat) → (members : List (Text × Value)) →
    FaithfulMembers members → memberObstacle? room members = none →
      ∀ {s : Text} {done : List (Text × Value)}, SpellsMembers d s done → done ≠ [] →
      SpellsMembers d (s ++ (writeMembers members).flatMap fun t => text "," ++ t) (done ++ members)
  | _, [], _, _, s, done, h, _ => by
      rw [List.append_nil]
      exact (List.append_nil s).symm ▸ h
  | room, (key, v) :: rest, hfaithful, hplain, s, done, h, hne => by
      simp only [FaithfulMembers] at hfaithful
      simp only [memberObstacle?, Option.or_eq_none_iff] at hplain
      have hkey := spells_writeText d (textObstacle?_eq_none.mp hplain.1)
      have hfirst := h.more hne hkey (spells_write d room v hfaithful.1 hplain.2.1)
      have hrest := spells_members d room rest hfaithful.2 hplain.2.2 hfirst (by simp)
      rw [List.append_assoc, List.append_assoc] at hrest
      show SpellsMembers d (s ++ (text "," ++ (writeText key ++ text ":" ++ write v) ++
        (writeMembers rest).flatMap fun t => text "," ++ t)) _
      rw [List.append_assoc (writeText key)]
      exact hrest

end

/-- The JSON form of a value is read as the value, in every dialect. -/
theorem read?_write (d : Dialect) {room : Nat} {v : Value} (hfaithful : Faithful v)
    (hplain : obstacle? room v = none) : read? d (write v) = some v :=
  (spells_write d room v hfaithful hplain).read?_eq

end PageTree.Json
