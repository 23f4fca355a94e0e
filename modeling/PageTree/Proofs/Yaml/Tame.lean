import PageTree.MetadataFile
import PageTree.Proofs.Yaml.Remainder

/-!
# Tame documents

Faults that are not foreseen come from tags, from escapes with eight digits, and from floating-point numbers
in base sixty with very many parts. A text is tame if it has no exclamation mark, no such escape, and not so
many colons. What is left of a tame text is tame.
-/

set_option autoImplicit false

namespace PageTree.Yaml

/-- A text without anything that faults come from which are not foreseen. -/
structure IsTame (s : Text) : Prop where
  noTag : CodePoint.ofChar '!' ∉ s
  noLongEscape : ¬ text "\\U" <:+: s
  fewColons : s.count (CodePoint.ofChar ':') < Number.mostSixtieths

/-- An end of a tame text is tame. -/
theorem IsTame.of_suffix {s t : Text} (h : IsTame s) (hsuffix : t <:+ s) : IsTame t where
  noTag hmem := h.noTag (hsuffix.subset hmem)
  noLongEscape hescape := h.noLongEscape (hescape.trans hsuffix.isInfix)
  fewColons := Nat.lt_of_le_of_lt (hsuffix.sublist.count_le _) h.fewColons

/-- A value that is good, or a fault that is foreseen. -/
def Yields {α : Type} (good : α → Prop) (x : Except YamlFault α) : Prop :=
  Ensures good (fun fault => fault.isForeseen = true) x

/-! ## Quoted scalars -/

namespace Quoted

/-- A place from which no fault follows that is not foreseen: an escape has four digits at most. -/
def Place.Admits (t : Text) : Place → Prop
  | .escape => t.head? ≠ some (CodePoint.ofChar 'U')
  | .hex missing value => missing ≤ 4 ∧ value < Nat.pow 16 (4 - missing)
  | _ => True

/-- A number below that of the eight-digit escapes that go wrong is a code point, or a fault that is
foreseen. -/
theorem numbered_yields {n : Nat} (h : n < 0x80000000) : Yields (fun _ => True) (numbered n) := by
  unfold numbered
  split
  · exact trivial
  · rw [if_pos h]
    rfl

variable {double : Bool} {soFar : Text} {place : Place} {c : CodePoint} {rest : Text}

/-- What a step leads to. -/
def Step.Admits (t : Text) : Step → Prop
  | .stop => True
  | .go _ place => place.Admits t

/-- Inside a quoted scalar, a step in a tame text leads to an admissible place. -/
theorem inside_admits (h : IsTame (c :: rest)) : (inside double soFar c).Admits rest := by
  have hescape : c = '\\' → rest.head? ≠ some (CodePoint.ofChar 'U') := by
    rintro rfl hhead
    obtain ⟨more, rfl⟩ : ∃ more, rest = CodePoint.ofChar 'U' :: more := by
      cases rest with
      | nil => cases hhead
      | cons d more => exact ⟨more, by rw [Option.some.inj hhead]⟩
    exact h.noLongEscape ⟨[], more, rfl⟩
  unfold inside
  split_ifs with hblank hbreak hdouble hquote hbackslash
  · exact trivial
  · exact trivial
  · exact trivial
  · exact hescape hbackslash
  · exact trivial
  · exact trivial
  · exact trivial

/-- A hexadecimal digit has a number below sixteen. -/
theorem hexValue?_lt {n : Nat} (h : c.hexValue? = some n) : n < 16 := by
  have hdigit : c.isDigit = true → c.val ≤ 57 := by
    unfold CodePoint.isDigit
    rw [Bool.and_eq_true]
    exact fun hrange => of_decide_eq_true hrange.2
  unfold CodePoint.hexValue? at h
  split_ifs at h with hc hlower hupper
  · have hval := hdigit hc
    have hzero : '0'.toNat = 48 := rfl
    have hn := Option.some.inj h
    omega
  · have ha : 'a'.toNat = 97 := rfl
    have hf : 'f'.toNat = 102 := rfl
    have hn := Option.some.inj h
    omega
  · have ha : 'A'.toNat = 65 := rfl
    have hf : 'F'.toNat = 70 := rfl
    have hn := Option.some.inj h
    omega

/-- An escape other than the long one leads to an admissible place. -/
theorem escaped_yields (h : c ≠ 'U') : Yields (Step.Admits rest) (escaped soFar c) := by
  have hsmall : ∀ e ∈ escapes, e.2 < 0x80000000 := by decide
  unfold escaped
  split
  · next e n hfind =>
      have hn := hsmall _ (List.mem_of_find?_eq_some hfind)
      exact (numbered_yields hn).map fun _ _ => trivial
  · split
    · next width hwidth =>
        unfold hexWidth? at hwidth
        split_ifs at hwidth with hx hu
        · obtain rfl := Option.some.inj hwidth
          exact ⟨by decide, by decide⟩
        · obtain rfl := Option.some.inj hwidth
          exact ⟨by decide, by decide⟩
    · split
      · exact trivial
      · rfl

/-- From an admissible place, a step in a tame text leads to one, or meets a fault that is foreseen. -/
theorem step_yields (h : IsTame (c :: rest)) (hplace : place.Admits (c :: rest)) :
    Yields (Step.Admits rest) (step double soFar place c) := by
  cases place with
  | inside => exact inside_admits h
  | mark =>
      unfold step
      dsimp only
      split <;> exact trivial
  | blanks passed =>
      unfold step
      dsimp only
      split_ifs
      · exact trivial
      · exact trivial
      · exact inside_admits h
  | lines first more =>
      unfold step
      dsimp only
      split_ifs
      · exact trivial
      · exact trivial
      · exact inside_admits h
  | escape =>
      apply escaped_yields
      rintro rfl
      exact hplace rfl
  | hex missing value =>
      obtain ⟨hmissing, hvalue⟩ := hplace
      unfold step
      dsimp only
      split
      · rfl
      · next n hn =>
          have hdigit := hexValue?_lt hn
          -- The last digit makes a number below 16 ^ 4; any other one keeps the bound for its place.
          split
          · have hbound : Nat.pow 16 (4 - missing) ≤ 65536 :=
              Nat.pow_le_pow_right (by decide) (Nat.sub_le 4 missing)
            refine (numbered_yields ?_).map fun _ _ => trivial
            omega
          · have hshift : Nat.pow 16 (4 - (missing - 1)) = Nat.pow 16 (4 - missing) * 16 := by
              have hmore : 4 - (missing - 1) = 4 - missing + 1 := by omega
              rw [hmore]
              rfl
            refine ⟨by omega, ?_⟩
            rw [hshift]
            omega

/-- Reading a quoted scalar of a tame text leaves an end of it, or meets a fault that is foreseen. -/
theorem read_yields {m : Mark} {t : Text} (h : IsTame t) (hplace : place.Admits t) :
    Yields (fun r => r.2.rest <:+ t) (read double soFar place m t) := by
  induction t generalizing soFar place m with
  | nil =>
      unfold read
      split
      · exact List.suffix_rfl
      · rfl
  | cons c rest ih =>
      have hstep : Yields (Step.Admits rest)
          (step double soFar place c) := step_yields h hplace
      have hrest := h.of_suffix (List.suffix_cons c rest)
      unfold read
      cases hresult : step double soFar place c with
      | error fault =>
          rw [hresult] at hstep
          exact hstep
      | ok st =>
          rw [hresult] at hstep
          cases st with
          | stop =>
              show (if place.isMark then (⟨m, c :: rest⟩ : Cursor) else ⟨m.pass c, rest⟩).rest <:+ c :: rest
              split
              · exact List.suffix_rfl
              · exact List.suffix_cons c rest
          | go soFar' place' =>
              dsimp only
              split
              · rfl
              · exact (ih hrest hstep).imp fun r hr => hr.trans (List.suffix_cons c rest)

end Quoted

/-! ## Plain scalars -/

namespace Plain

/-- No line end is turned into a colon. -/
theorem ne_colon_breakPoint (c : CodePoint) : breakPoint c ≠ CodePoint.ofChar ':' := by
  unfold breakPoint
  split
  · next hval =>
      rintro rfl
      exact absurd hval (by decide)
  · decide

/-- The colons in what was passed between two words. There are none, but that is not needed. -/
def Place.colons : Place → Nat
  | .word => 0
  | .spaces passed => passed.count (CodePoint.ofChar ':')
  | .lines first more => (first :: more).count (CodePoint.ofChar ':')

/-- What was passed between two words brings no more colons than it had. -/
theorem count_toText_le (place : Place) :
    place.toText.count (CodePoint.ofChar ':') ≤ place.colons := by
  cases place with
  | word => exact Nat.le_refl _
  | spaces passed => exact Nat.le_refl _
  | lines first more =>
      unfold Place.toText Place.colons
      dsimp only
      split
      · split
        · exact Nat.zero_le _
        · exact List.count_le_count_cons
      · exact Nat.le_refl _

/-- A plain scalar has no more colons than what it is read from. -/
theorem count_read_le (flow : Bool) (indent : Nat) (soFar : Text) (place : Place) (m : Mark) (s : Text) :
    (read flow indent soFar place m s).value.count (CodePoint.ofChar ':') ≤
      soFar.count (CodePoint.ofChar ':') + place.colons + s.count (CodePoint.ofChar ':') := by
  have hbreak (c : CodePoint) : (breakPoint c == CodePoint.ofChar ':') = false :=
    beq_false_of_ne (ne_colon_breakPoint c)
  -- In every case a code point goes to what has been read or is dropped.
  fun_induction read flow indent soFar place m s
  case case16 soFar m c rest first more _ _ _ ih =>
    have hjoined := count_toText_le (.lines first more)
    simp only [Place.colons, List.count_reverse, List.count_append, List.count_cons] at *
    omega
  all_goals
    simp only [Place.colons, List.count_reverse, List.count_append, List.count_cons, List.count_nil,
      hbreak, Bool.false_eq_true, if_false] at *
    omega

end Plain

end PageTree.Yaml
