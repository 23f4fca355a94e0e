import PageTree.Proofs.Json.Completeness
import Mathlib.Tactic.SplitIfs

/-!
# What is read is spelled by the grammar

`read?_eq_some_iff` is the main statement: the texts that the reader takes are those that the grammar has for
some value, and that value is what is read.

`Consumed` says of each state of the reader what the text read so far is: which arrays and objects are open in
it, what of them has been spelled, and what has been spelled of the innermost thing that is not finished yet.
It holds at the start, and each step keeps it.
-/

set_option autoImplicit false

namespace PageTree.Json

/-! ## What has been read of a number -/

/-- The spellings that end with a part of a number. -/
inductive SpellsPart : NumberPart → Text → Prop
  | sign : SpellsPart .sign (text "-")
  | zero {s : Text} (h : IsInteger s) : SpellsPart .zero s
  | whole {s : Text} (h : ∀ t : Text, (∀ c ∈ t, c.isDigit = true) → IsInteger (s ++ t)) :
      SpellsPart .whole s
  | point {s : Text} (h : IsInteger s) : SpellsPart .point (s ++ [CodePoint.ofChar '.'])
  | fraction {s : Text} (h : IsFraction s) : SpellsPart .fraction s
  | exponentMark {s : Text} {c : CodePoint} (h : IsInteger s ∨ IsFraction s) (hmark : IsMark c) :
      SpellsPart .exponentMark (s ++ [c])
  | exponentSign {s : Text} {c sign : CodePoint} (h : IsInteger s ∨ IsFraction s) (hmark : IsMark c)
      (hsign : IsSign sign) : SpellsPart .exponentSign (s ++ [c, sign])
  | exponent {s t : Text} (h : IsInteger s ∨ IsFraction s) (ht : IsExponent t) :
      SpellsPart .exponent (s ++ t)

section Numbers

variable {s : Text} {c : CodePoint}

/-- One digit is a text of digits. -/
theorem isDigits_singleton (hc : c.isDigit = true) : IsDigits [c] := ⟨by simp, by simpa using hc⟩

/-- Digits go on with a digit. -/
theorem IsDigits.snoc (h : IsDigits s) (hc : c.isDigit = true) : IsDigits (s ++ [c]) := by
  refine ⟨by simp, fun x hx => ?_⟩
  rcases List.mem_append.mp hx with hold | hnew
  · exact h.digits x hold
  · rw [List.mem_singleton.mp hnew]
    exact hc

/-- A fraction goes on with a digit. -/
theorem IsFraction.snoc (h : IsFraction s) (hc : c.isDigit = true) : IsFraction (s ++ [c]) := by
  cases h with
  | point h ht =>
      rw [List.append_assoc]
      exact .point h (ht.snoc hc)

/-- An exponent goes on with a digit. -/
theorem IsExponent.snoc (h : IsExponent s) (hc : c.isDigit = true) : IsExponent (s ++ [c]) := by
  cases h with
  | plain hmark h => exact .plain hmark (h.snoc hc)
  | signed hmark hsign h => exact .signed hmark hsign (h.snoc hc)

/-- What is an integer with any digits behind it is one without them. -/
theorem isInteger_of_continued (h : ∀ t : Text, (∀ c ∈ t, c.isDigit = true) → IsInteger (s ++ t)) :
    IsInteger s := by
  have hself := h [] (by simp)
  rw [List.append_nil] at hself
  exact hself

/-- A part of a number, and what continues it. -/
theorem SpellsPart.next {part next : NumberPart} (h : SpellsPart part s)
    (hnext : part.next? c = some next) : SpellsPart next (s ++ [c]) := by
  cases h with
  | sign =>
      simp only [NumberPart.next?] at hnext
      split_ifs at hnext with hzero hdigit <;> cases hnext
      · subst hzero
        exact .zero (.negative .zero)
      · exact .whole fun t ht => .negative (.digits hdigit hzero ht)
  | zero h =>
      simp only [NumberPart.next?] at hnext
      split_ifs at hnext with hpoint hmark <;> cases hnext
      · subst hpoint
        exact .point h
      · exact .exponentMark (.inl h) hmark
  | whole h =>
      have hinteger := isInteger_of_continued h
      simp only [NumberPart.next?] at hnext
      split_ifs at hnext with hdigit hpoint hmark <;> cases hnext
      · refine .whole fun t ht => ?_
        rw [List.append_assoc]
        exact h _ (List.forall_mem_cons.mpr ⟨hdigit, ht⟩)
      · subst hpoint
        exact .point hinteger
      · exact .exponentMark (.inl hinteger) hmark
  | point h =>
      simp only [NumberPart.next?] at hnext
      split_ifs at hnext with hdigit
      cases hnext
      rw [List.append_assoc]
      exact .fraction (.point h (isDigits_singleton hdigit))
  | fraction h =>
      simp only [NumberPart.next?] at hnext
      split_ifs at hnext with hdigit hmark <;> cases hnext
      · exact .fraction (h.snoc hdigit)
      · exact .exponentMark (.inr h) hmark
  | exponentMark h hmark =>
      simp only [NumberPart.next?] at hnext
      split_ifs at hnext with hdigit hsign <;> cases hnext
      · rw [List.append_assoc]
        exact .exponent h (.plain hmark (isDigits_singleton hdigit))
      · rw [List.append_assoc]
        exact .exponentSign h hmark hsign
  | exponentSign h hmark hsign =>
      simp only [NumberPart.next?] at hnext
      split_ifs at hnext with hdigit
      cases hnext
      rw [List.append_assoc]
      exact .exponent h (.signed hmark hsign (isDigits_singleton hdigit))
  | exponent h ht =>
      simp only [NumberPart.next?] at hnext
      split_ifs at hnext with hdigit
      cases hnext
      rw [List.append_assoc]
      exact .exponent h (ht.snoc hdigit)

/-- What ends with the sign of a number is a minus. -/
theorem SpellsPart.eq_minus (h : SpellsPart .sign s) : s = text "-" := by
  cases h
  rfl

/-- What has been read of a number spells the number, if the number can end there. -/
theorem SpellsPart.spellsNumber {d : Dialect} {part : NumberPart} {v : Value} (h : SpellsPart part s)
    (hv : numberOf? d part s = some v) : SpellsNumber d s v := by
  have hinteger : IsInteger s → part = .zero ∨ part = .whole → SpellsNumber d s v := by
    intro hs hpart
    rw [numberOf?_integer hpart] at hv
    split at hv
    · next hfits =>
        obtain rfl := Option.some.inj hv
        exact .integer hs (by simpa using hfits)
    · next hlarge =>
        simp only [Bool.or_eq_true, not_or, Bool.not_eq_true] at hlarge
        exact .large hs hlarge.1 hlarge.2 hv
  cases h with
  | zero h => exact hinteger h (.inl rfl)
  | whole h => exact hinteger (isInteger_of_continued h) (.inr rfl)
  | fraction h => exact .fraction h hv
  | exponent h ht => exact .exponent h ht hv
  | _ => cases hv

end Numbers

/-! ## What has been read of a string -/

/-- What has been read behind the first mark of a string, and the text it stands for so far. -/
inductive SpellsPartly : Escape → Text → Text → Prop
  | outside {s t : Text} (h : Quoted s t) : SpellsPartly .outside s t
  | backslash {s t : Text} (h : Quoted s t) : SpellsPartly .backslash (s ++ [CodePoint.ofChar '\\']) t
  | hex {s t hex : Text} {missing n : Nat} (h : Quoted s t) (hhex : HexDigits hex n)
      (hlength : hex.length + missing = 4) (hmissing : missing ≠ 0) :
      SpellsPartly (.hex missing n) (s ++ (text "\\u" ++ hex)) t

/-! ## What has been read of arrays and objects -/

/-- What stands before an item: nothing before the first, the other items and a comma otherwise. -/
inductive LeadsItem (d : Dialect) : Text → List Value → Prop
  | first : LeadsItem d [] []
  | comma {s : Text} {items : List Value} (h : SpellsItems d s items) (hne : items ≠ []) :
      LeadsItem d (s ++ [CodePoint.ofChar ',']) items

/-- What stands before a member. -/
inductive LeadsMember (d : Dialect) : Text → List (Text × Value) → Prop
  | first : LeadsMember d [] []
  | comma {s : Text} {given : List (Text × Value)} (h : SpellsMembers d s given) (hne : given ≠ []) :
      LeadsMember d (s ++ [CodePoint.ofChar ',']) given

/-- What stands before a value inside some frames. -/
inductive Opens (d : Dialect) : List Frame → Text → Prop
  | nil : Opens d [] []
  | array {frames : List Frame} {outer before lead : Text} {items : List Value}
      (h : Opens d frames outer) (hbefore : IsBlank before) (hlead : LeadsItem d lead items) :
      Opens d (.array items.reverse :: frames) (outer ++ before ++ CodePoint.ofChar '[' :: lead)
  | object {frames : List Frame} {outer before lead k key : Text} {given : List (Text × Value)}
      (h : Opens d frames outer) (hbefore : IsBlank before) (hlead : LeadsMember d lead given)
      (hkey : Spells d k (.str key)) :
      Opens d (.object (Members.ofList given) key :: frames)
        (outer ++ before ++ CodePoint.ofChar '{' :: (lead ++ k ++ [CodePoint.ofChar ':']))

/-- A text ends with the beginning of a value inside some frames. -/
inductive Begins (d : Dialect) (frames : List Frame) (s : Text) : Text → Prop
  | behind {outer before : Text} (h : Opens d frames outer) (hbefore : IsBlank before) :
      Begins d frames s (outer ++ before ++ s)

/-- A text ends with the beginning of a key, behind the members of an object. -/
inductive BeginsKey (d : Dialect) (frames : List Frame) (members : Members) (s : Text) : Text → Prop
  | behind {lead before u : Text} {given : List (Text × Value)} (hlead : LeadsMember d lead given)
      (hmembers : Members.ofList given = members) (hbefore : IsBlank before)
      (h : Begins d frames (CodePoint.ofChar '{' :: (lead ++ before ++ s)) u) :
      BeginsKey d frames members s u

/-- A text ends with the beginning of a string in its place. -/
def Place.Begins (d : Dialect) (frames : List Frame) : Place → Text → Text → Prop
  | .value => Json.Begins d frames
  | .key members => BeginsKey d frames members

/-- What has been read when the reader is in a state. -/
inductive Consumed (d : Dialect) : State → Text → Prop
  | value {frames : List Frame} {u : Text} (h : Begins d frames [] u) : Consumed d ⟨frames, .value⟩ u
  | firstItem {frames : List Frame} {before u : Text} (hbefore : IsBlank before)
      (h : Begins d frames (CodePoint.ofChar '[' :: before) u) :
      Consumed d ⟨.array [] :: frames, .firstItem⟩ u
  | firstKey {frames : List Frame} {before u : Text} (hbefore : IsBlank before)
      (h : Begins d frames (CodePoint.ofChar '{' :: before) u) : Consumed d ⟨frames, .firstKey⟩ u
  | nextKey {frames : List Frame} {members : Members} {u : Text} (h : BeginsKey d frames members [] u) :
      Consumed d ⟨frames, .nextKey members⟩ u
  | colon {frames : List Frame} {members : Members} {k key u : Text} (hkey : Spells d k (.str key))
      (h : BeginsKey d frames members k u) : Consumed d ⟨frames, .colon members key⟩ u
  | string {frames : List Frame} (place : Place) {escape : Escape} {q soFar u : Text}
      (hq : SpellsPartly escape q soFar.reverse)
      (h : place.Begins d frames (CodePoint.ofChar '"' :: q) u) :
      Consumed d ⟨frames, .string place soFar escape⟩ u
  | word {frames : List Frame} {w rest u : Text} {v : Value} (hw : SpellsWord d (w ++ rest) v)
      (h : Begins d frames w u) : Consumed d ⟨frames, .word rest v⟩ u
  | number {frames : List Frame} {part : NumberPart} {soFar u : Text}
      (hpart : SpellsPart part soFar.reverse) (h : Begins d frames soFar.reverse u) :
      Consumed d ⟨frames, .number part soFar⟩ u
  | after {frames : List Frame} {t u : Text} {v : Value} (ht : Spells d t v) (h : Begins d frames t u) :
      Consumed d ⟨frames, .after v⟩ u

/-! ## Steps -/

section Steps

variable {d : Dialect} {frames : List Frame} {u s lead t : Text} {c : CodePoint} {v : Value}

/-- A spelled value may have blanks before it. -/
theorem Spells.before {before : Text} (hbefore : IsBlank before) (h : Spells d s v) :
    Spells d (before ++ s) v := by
  cases h with
  | blanks hfirst h hbehind =>
      have hspelled := Spells.blanks (hbefore.append hfirst) h hbehind
      simpa only [List.append_assoc] using hspelled

/-- A value behind what leads to an item is one item more. -/
theorem LeadsItem.item {items : List Value} (h : LeadsItem d lead items) (hv : Spells d t v) :
    SpellsItems d (lead ++ t) (items ++ [v]) := by
  cases h with
  | first => exact .one hv
  | comma h hne =>
      rw [List.append_assoc]
      exact .more h hne hv

/-- A key, a colon and a value behind what leads to a member are one member more. -/
theorem LeadsMember.member {given : List (Text × Value)} {k key : Text} (h : LeadsMember d lead given)
    (hkey : Spells d k (.str key)) (hv : Spells d t v) :
    SpellsMembers d (lead ++ (k ++ CodePoint.ofChar ':' :: t)) (given ++ [(key, v)]) := by
  cases h with
  | first => exact .one hkey hv
  | comma h hne =>
      rw [List.append_assoc]
      exact .more h hne hkey hv

/-- What has been opened, with blanks and the beginning of a value behind it, is a text that ends with this
beginning. -/
theorem Begins.of_eq {outer before : Text} (h : Opens d frames outer) (hbefore : IsBlank before)
    (hu : u = outer ++ before ++ s) : Begins d frames s u := by
  subst hu
  exact .behind h hbefore

/-- Where something has just been opened, nothing of a value has been read. -/
theorem Opens.begins (h : Opens d frames u) : Begins d frames [] u := .of_eq h isBlank_nil (by simp)

/-- A code point that is read continues the beginning of a value. -/
theorem Begins.snoc (h : Begins d frames s u) (c : CodePoint) :
    Begins d frames (s ++ [c]) (u ++ [c]) := by
  cases h with
  | behind h hbefore =>
      rw [List.append_assoc]
      exact .behind h hbefore

/-- A code point that is read continues the beginning of a key. -/
theorem BeginsKey.snoc {members : Members} (h : BeginsKey d frames members s u) (c : CodePoint) :
    BeginsKey d frames members (s ++ [c]) (u ++ [c]) := by
  cases h with
  | behind hlead hmembers hbefore h =>
      refine .behind hlead hmembers hbefore ?_
      have hnext := h.snoc c
      simpa only [List.cons_append, List.append_assoc] using hnext

/-- A code point that is read continues the beginning of a string in its place. -/
theorem Place.Begins.snoc {place : Place} (h : place.Begins d frames s u) (c : CodePoint) :
    place.Begins d frames (s ++ [c]) (u ++ [c]) := by
  cases place with
  | value => exact Json.Begins.snoc h c
  | key members => exact BeginsKey.snoc h c

/-! ### Strings -/

/-- The end of a string: a value has been read, or a key. -/
theorem endString_consumed {place : Place} {q soFar : Text} {r : Reading} (hq : Quoted q soFar.reverse)
    (h : place.Begins d frames (CodePoint.ofChar '"' :: q) u) (hr : endString d place soFar = some r) :
    Consumed d ⟨frames, r⟩ (u ++ [CodePoint.ofChar '"']) := by
  simp only [endString] at hr
  split_ifs at hr with hsurrogate
  have hspelled : Spells d (CodePoint.ofChar '"' :: q ++ [CodePoint.ofChar '"']) (.str soFar.reverse) := by
    apply SpellsBare.spells
    refine .string hq ?_
    cases hlone : d.admitsLoneSurrogates with
    | true => exact .inl rfl
    | false => exact .inr (by simpa [hlone] using hsurrogate)
  cases place with
  | value =>
      obtain rfl := Option.some.inj hr
      exact .after hspelled (h.snoc '"')
  | key members =>
      obtain rfl := Option.some.inj hr
      exact .colon hspelled (h.snoc '"')

/-- A numeric escape: its code point stands on its own, or makes a pair with the one before. -/
theorem addUnit_quoted {q soFar joined hex : Text} {n : Nat} (hq : Quoted q soFar.reverse)
    (hhex : HexDigits hex n) (hlength : hex.length = 4) (hadd : addUnit n soFar = some joined) :
    Quoted (q ++ (text "\\u" ++ hex)) joined.reverse := by
  obtain ⟨c, hc, hadd⟩ := Option.bind_eq_some_iff.mp hadd
  obtain rfl := CodePoint.val_of_ofNat? hc
  cases soFar with
  | nil =>
      obtain rfl := Option.some.inj hadd
      exact .unit hq hhex hlength fun front high hnil => by simp at hnil
  | cons high rest =>
      rw [List.reverse_cons] at hq
      dsimp only at hadd
      split_ifs at hadd with hpair
      · obtain ⟨whole, hwhole, hadd⟩ := Option.bind_eq_some_iff.mp hadd
        obtain rfl := Option.some.inj hadd
        rw [List.reverse_cons]
        exact .pair hq hpair.1 hhex hlength hpair.2 (CodePoint.val_of_ofNat? hwhole)
      · obtain rfl := Option.some.inj hadd
        rw [List.reverse_cons, List.reverse_cons]
        refine .unit hq hhex hlength fun front first hsplit hhigh => ?_
        obtain rfl := List.singleton_inj.mp (List.append_inj' hsplit rfl).2
        cases hlow : c.isLowSurrogate with
        | false => rfl
        | true => exact absurd ⟨hhigh, hlow⟩ hpair

/-- A step inside a string keeps track of what has been read. -/
theorem inString_consumed {place : Place} {q soFar : Text} {escape : Escape} {r : Reading}
    (hq : SpellsPartly escape q soFar.reverse)
    (h : place.Begins d frames (CodePoint.ofChar '"' :: q) u)
    (hr : inString d place soFar c escape = some r) : Consumed d ⟨frames, r⟩ (u ++ [c]) := by
  have hsnoc : ∀ {q : Text}, place.Begins d frames (CodePoint.ofChar '"' :: q) u →
      place.Begins d frames (CodePoint.ofChar '"' :: (q ++ [c])) (u ++ [c]) := fun h => h.snoc c
  cases hq with
  | outside hq =>
      simp only [inString] at hr
      split_ifs at hr with hmark hbackslash hcontrol
      · subst hmark
        exact endString_consumed hq h hr
      · obtain rfl := Option.some.inj hr
        subst hbackslash
        exact .string place (.backslash hq) (hsnoc h)
      · obtain rfl := Option.some.inj hr
        refine .string place (.outside ?_) (hsnoc h)
        rw [List.reverse_cons]
        exact .plain hq hmark hbackslash (Nat.not_lt.mp hcontrol)
  | backslash hq =>
      simp only [inString] at hr
      split_ifs at hr with hunicode
      · obtain rfl := Option.some.inj hr
        subst hunicode
        refine .string place ?_ (hsnoc h)
        rw [List.append_assoc]
        exact .hex hq .nil rfl (by decide)
      · obtain ⟨e, he, rfl⟩ := Option.map_eq_some_iff.mp hr
        refine .string place (.outside ?_) (hsnoc h)
        rw [List.append_assoc, List.reverse_cons]
        exact .letter hq he
  | @hex q t hex missing n hq hhex hlength hmissing =>
      obtain ⟨k, hk, hr⟩ := Option.bind_eq_some_iff.mp hr
      have hdigits : HexDigits (hex ++ [c]) (n * 16 + k) := .snoc hhex hk
      have hsplit : q ++ (text "\\u" ++ hex) ++ [c] = q ++ (text "\\u" ++ (hex ++ [c])) := by simp
      dsimp only at hr
      split_ifs at hr with hlast
      · obtain ⟨joined, hadd, hr⟩ := Option.bind_eq_some_iff.mp hr
        obtain rfl := Option.some.inj hr
        refine .string place (.outside ?_) (hsnoc h)
        rw [hsplit]
        refine addUnit_quoted hq hdigits ?_ hadd
        rw [List.length_append, List.length_singleton]
        omega
      · obtain rfl := Option.some.inj hr
        refine .string place ?_ (hsnoc h)
        rw [hsplit]
        refine .hex hq hdigits ?_ (by omega)
        rw [List.length_append, List.length_singleton]
        omega

/-! ### Values -/

/-- If there is a next state, a text is what has been read in it. -/
def Keeps (d : Dialect) (u : Text) (next : Option State) : Prop := ∀ s, next = some s → Consumed d s u

/-- Where there is no next state, there is nothing to keep track of. -/
theorem Keeps.none : Keeps d u none := nofun

/-- A next state keeps track of a text if the text is what has been read in it. -/
theorem Keeps.some {next : State} (h : Consumed d next u) : Keeps d u (some next) := by
  intro s hs
  exact Option.some.inj hs ▸ h

/-- A choice between two next states keeps track if both do. -/
theorem Keeps.ite {p : Prop} [Decidable p] {x y : Option State} (hx : p → Keeps d u x)
    (hy : ¬ p → Keeps d u y) : Keeps d u (if p then x else y) := by
  by_cases h : p
  · rw [if_pos h]
    exact hx h
  · rw [if_neg h]
    exact hy h

/-- A code point that leads to a state of its own. -/
theorem Keeps.char {x : CodePoint} {next : State} {y : Option State}
    (hx : Consumed d next (u ++ [x])) (hy : c ≠ x → Keeps d (u ++ [c]) y) :
    Keeps d (u ++ [c]) (if c = x then Option.some next else y) := by
  apply Keeps.ite
  · rintro rfl
    exact .some hx
  · exact hy

/-- The first code point of a value keeps track of what has been read. -/
theorem beginValue_keeps (h : Begins d frames [] u) : Keeps d (u ++ [c]) (beginValue d frames c) := by
  unfold beginValue
  -- A string, an array or an object.
  refine .char (.string .value (.outside .nil) (h.snoc '"')) fun _ => ?_
  refine .char (.firstItem isBlank_nil (h.snoc '[')) fun _ => ?_
  refine .char (.firstKey isBlank_nil (h.snoc '{')) fun _ => ?_
  -- The words that both dialects have.
  refine .char (.word .null (h.snoc 'n')) fun _ => ?_
  refine .char (.word .yes (h.snoc 't')) fun _ => ?_
  refine .char (.word .no (h.snoc 'f')) fun _ => ?_
  -- The three ways in which a number begins.
  apply Keeps.ite
  · rintro rfl
    exact .some (.number .sign (h.snoc '-'))
  intro _
  apply Keeps.ite
  · rintro rfl
    exact .some (.number (.zero (.positive .zero)) (h.snoc '0'))
  intro hzero
  apply Keeps.ite
  · intro hdigit
    exact .some (.number (.whole fun t ht => .positive (.digits hdigit hzero ht)) (h.snoc c))
  intro _
  -- The words for numbers, where the dialect has them.
  simp only [Bool.and_eq_true, decide_eq_true_eq]
  apply Keeps.ite
  · rintro ⟨hadmits, rfl⟩
    exact .some (.word (.notNumber hadmits) (h.snoc 'N'))
  intro _
  apply Keeps.ite
  · rintro ⟨hadmits, rfl⟩
    exact .some (.word (.infinite hadmits) (h.snoc 'I'))
  · exact fun _ => .none

/-- What stands behind a value: a comma, or the end of what is open. -/
theorem afterValue_keeps (ht : Spells d t v) (h : Begins d frames t u) :
    Keeps d (u ++ [c]) (afterValue v c frames) := by
  cases h with
  | behind hopens hblank =>
      have hspelled := ht.before hblank
      cases hopens with
      | nil => exact .none
      | array hopens hbefore hlead =>
          have hitems := hlead.item hspelled
          refine .char (.value ?_) fun _ => .char ?_ fun _ => .none
          · have hnext := (hopens.array hbefore (.comma hitems (by simp))).begins
            simpa using hnext
          · rw [List.reverse_cons, List.reverse_reverse]
            exact .after (SpellsBare.array hitems).spells (.of_eq hopens hbefore (by simp))
      | object hopens hbefore hlead hkey =>
          have hmembers := hlead.member hkey hspelled
          refine .char (.nextKey ?_) fun _ => .char ?_ fun _ => .none
          · refine .behind (.comma hmembers (by simp)) (Members.ofList_append _ _ _) isBlank_nil ?_
            exact .of_eq hopens hbefore (by simp)
          · rw [← Members.ofList_append]
            exact .after (SpellsBare.object hmembers).spells (.of_eq hopens hbefore (by simp))

/-- A code point behind a value keeps track of what has been read. -/
theorem stepAfter_keeps (ht : Spells d t v) (h : Begins d frames t u) :
    Keeps d (u ++ [c]) (stepAfter frames v c) := by
  refine .ite (fun hspace => .some (.after (ht.behind hspace) (h.snoc c))) fun _ => ?_
  exact afterValue_keeps ht h

/-- A blank where a value is expected belongs to what stands before the value. -/
theorem Begins.blank (h : Begins d frames [] u) (hc : isSpace c = true) :
    Begins d frames [] (u ++ [c]) := by
  cases h with
  | behind h hbefore => exact .of_eq h (hbefore.snoc hc) (by simp)

/-- A blank before a key is a part of what stands before it. -/
theorem BeginsKey.blank {members : Members} (h : BeginsKey d frames members [] u)
    (hc : isSpace c = true) : BeginsKey d frames members [] (u ++ [c]) := by
  cases h with
  | behind hlead hmembers hbefore h =>
      refine .behind hlead hmembers (hbefore.snoc hc) ?_
      have hnext := h.snoc c
      simpa using hnext

/-- Behind an opening brace, a first key begins. -/
theorem Begins.firstKey {before : Text} (hbefore : IsBlank before)
    (h : Begins d frames (CodePoint.ofChar '{' :: before) u) : BeginsKey d frames [] [] u :=
  .behind .first rfl hbefore (by simpa using h)

/-- Behind an opening bracket, a first item begins. -/
theorem Begins.firstItem {before : Text} (hbefore : IsBlank before)
    (h : Begins d frames (CodePoint.ofChar '[' :: before) u) :
    Begins d (.array [] :: frames) [] u := by
  cases h with
  | behind h hblank => exact .of_eq (.array h hblank .first) hbefore (by simp)

/-- Behind a key and its colon, the value of the key begins. -/
theorem BeginsKey.colon {members : Members} {k key : Text} (hkey : Spells d k (.str key))
    (h : BeginsKey d frames members k u) :
    Begins d (.object members key :: frames) [] (u ++ [CodePoint.ofChar ':']) := by
  cases h with
  | behind hlead hmembers hbefore h =>
      subst hmembers
      cases h with
      | behind h hblank =>
          exact .of_eq (.object h hblank hlead (hkey.before hbefore)) isBlank_nil (by simp)

/-- Every step keeps track of what has been read. -/
theorem step_keeps {s : State} (h : Consumed d s u) (c : CodePoint) :
    Keeps d (u ++ [c]) (step d s c) := by
  cases h with
  | value h =>
      refine .ite (fun hspace => .some (.value (h.blank hspace))) fun _ => ?_
      exact beginValue_keeps h
  | firstItem hbefore h =>
      refine .ite (fun hspace => .some (.firstItem (hbefore.snoc hspace) (h.snoc c))) fun _ => ?_
      refine .char (.after (SpellsBare.array (.none hbefore)).spells (h.snoc ']')) fun _ => ?_
      exact beginValue_keeps (h.firstItem hbefore)
  | firstKey hbefore h =>
      refine .ite (fun hspace => .some (.firstKey (hbefore.snoc hspace) (h.snoc c))) fun _ => ?_
      refine .char (.after (SpellsBare.object (.none hbefore)).spells (h.snoc '}')) fun _ => ?_
      have hkey := (h.firstKey hbefore).snoc '"'
      exact .char (.string (.key []) (.outside .nil) hkey) fun _ => .none
  | @nextKey _ members _ h =>
      refine .ite (fun hspace => .some (.nextKey (h.blank hspace))) fun _ => ?_
      exact .char (.string (.key members) (.outside .nil) (h.snoc '"')) fun _ => .none
  | colon hkey h =>
      refine .ite (fun hspace => .some (.colon (hkey.behind hspace) (h.snoc c))) fun _ => ?_
      exact .char (.value (h.colon hkey)) fun _ => .none
  | string place hq h =>
      intro next hnext
      obtain ⟨r, hr, rfl⟩ := Option.map_eq_some_iff.mp hnext
      exact inString_consumed hq h hr
  | @word frames w rest _ v hw h =>
      cases rest with
      | nil =>
          rw [List.append_nil] at hw
          exact stepAfter_keeps (SpellsBare.word hw).spells h
      | cons x more =>
          cases more with
          | nil => exact .char (.after (SpellsBare.word hw).spells (h.snoc x)) fun _ => .none
          | cons y more => exact .char (.word (by simpa using hw) (h.snoc x)) fun _ => .none
  | @number frames part soFar _ hpart h =>
      simp only [step]
      split
      · next next hnext =>
          refine .some (.number ?_ ?_)
          · rw [List.reverse_cons]
            exact hpart.next hnext
          · rw [List.reverse_cons]
            exact h.snoc c
      · simp only [Bool.and_eq_true, beq_iff_eq, decide_eq_true_eq]
        apply Keeps.ite
        · rintro ⟨⟨hadmits, rfl⟩, rfl⟩
          rw [hpart.eq_minus] at h
          exact .some (.word (.minusInfinite hadmits) (h.snoc 'I'))
        · intro _
          split
          · next v hv => exact stepAfter_keeps (SpellsBare.number (hpart.spellsNumber hv)).spells h
          · exact .none
  | after ht h => exact stepAfter_keeps ht h

end Steps

/-! ## Runs -/

section Runs

variable {d : Dialect} {s last : State} {u t : Text} {v : Value}

/-- At the start, nothing has been read. -/
theorem start_consumed (d : Dialect) : Consumed d start [] := .value Opens.nil.begins

/-- A whole run keeps track of what has been read. -/
theorem run_consumed (h : Consumed d s u) (hrun : run d s t = some last) : Consumed d last (u ++ t) := by
  induction t generalizing s u with
  | nil =>
      obtain rfl := Option.some.inj hrun
      rw [List.append_nil]
      exact h
  | cons c rest ih =>
      simp only [run] at hrun
      split at hrun
      · next next hnext =>
          rw [List.append_cons]
          exact ih (step_keeps h c next hnext) hrun
      · cases hrun

/-- Where nothing is open, all that has been read belongs to one value. -/
theorem spells_of_begins (h : Begins d [] t u) (ht : Spells d t v) : Spells d u v := by
  cases h with
  | behind h hbefore =>
      cases h
      exact ht.before hbefore

/-- What has been read when the reader may stop spells the value that it stops with. -/
theorem spells_of_finish (h : Consumed d s u) (hfinish : finish d s = some v) : Spells d u v := by
  cases h with
  | @number frames part soFar _ hpart h =>
      cases frames with
      | nil => exact spells_of_begins h (SpellsBare.number (hpart.spellsNumber hfinish)).spells
      | cons frame frames => cases hfinish
  | @after frames _ _ _ ht h =>
      cases frames with
      | nil =>
          obtain rfl := Option.some.inj hfinish
          exact spells_of_begins h ht
      | cons frame frames => cases hfinish
  | _ => simp [finish] at hfinish

/-- A text is read as a value just if the grammar has it for that value. -/
theorem read?_eq_some_iff : read? d t = some v ↔ Spells d t v := by
  constructor
  · intro hread
    unfold read? at hread
    split at hread
    · next last hrun => exact spells_of_finish (run_consumed (start_consumed d) hrun) hread
    · cases hread
  · exact Spells.read?_eq

end Runs

end PageTree.Json
