import PageTree.Proofs.Text.Cut
import PageTree.Proofs.Yaml.Untagged
import PageTree.Yaml.Reader

/-!
# The faults of tame documents

A node that has its tag from its form has a value, or a fault that is foreseen: a plain scalar is only
taken for a number or a time if it looks like one. `read_yields` concludes that all faults of a tame text are
foreseen.
-/

set_option autoImplicit false

namespace PageTree

/-! ## Small letters -/

/-- No capital letter has a colon for its small letter. -/
theorem CodePoint.count_lower_le (c : CodePoint) :
    c.lower.count (ofChar ':') ≤ [c].count (ofChar ':') := by
  -- Capital letters stand behind the colon, and so do the small letters at their distance.
  have hruns : ∀ r ∈ capitalLetters, 58 < r.first ∧ 58 < (r.first : Int) + r.distance := by
    decide +kernel
  have hcolon : (ofChar ':').val = 58 := rfl
  unfold lower
  split
  · exact Nat.zero_le _
  · split
    · exact Nat.le_refl _
    · next r hfind =>
        obtain ⟨hfirst, hsmall⟩ := hruns r (List.mem_of_find?_eq_some hfind)
        have hcontains := List.find?_some hfind
        have hge : r.first ≤ c.val := by
          unfold LetterRun.contains at hcontains
          simp only [Bool.and_eq_true, decide_eq_true_eq] at hcontains
          exact hcontains.1.1
        have hne : (ofNat? (c.val + r.distance).toNat).getD c ≠ ofChar ':' := by
          unfold ofNat?
          split
          · intro heq
            have hval := congrArg CodePoint.val heq
            simp only [Option.getD_some, hcolon] at hval
            omega
          · rintro rfl
            omega
        rw [List.count_singleton, beq_false_of_ne hne]
        exact Nat.zero_le _

/-- In small letters, a text has no more colons. -/
theorem Text.count_lower_le (s : Text) :
    (Text.lower s).count (CodePoint.ofChar ':') ≤ s.count (CodePoint.ofChar ':') := by
  induction s with
  | nil => exact Nat.le_refl _
  | cons c rest ih =>
      have hc := c.count_lower_le
      have hlower : Text.lower (c :: rest) = c.lower ++ Text.lower rest := rfl
      rw [hlower, List.count_append, ← List.singleton_append, List.count_append]
      omega

/-- A text is cut into one piece more than it has occurrences of the code point. -/
theorem Text.length_splitAll (c : CodePoint) (s : Text) :
    (Text.splitAll c s).length = s.count c + 1 := by
  induction s with
  | nil => rfl
  | cons x rest ih =>
      unfold splitAll
      by_cases hx : x = c
      · rw [if_pos hx, List.length_cons, ih, hx, List.count_cons_self]
      · rw [if_neg hx, List.count_cons_of_ne hx]
        cases hpieces : splitAll c rest with
        | nil => simp [hpieces] at ih
        | cons piece pieces =>
            rw [hpieces] at ih
            exact ih

/-- What stands in a piece of a text stands in the text. -/
theorem Text.mem_of_mem_splitAll {c x : CodePoint} {s piece : Text} (h : piece ∈ Text.splitAll c s)
    (hx : x ∈ piece) : x ∈ s := by
  induction s generalizing piece with
  | nil =>
      rw [splitAll, List.mem_singleton] at h
      exact h ▸ hx
  | cons y rest ih =>
      unfold splitAll at h
      split at h
      · rcases List.mem_cons.mp h with rfl | h
        · cases hx
        · exact List.mem_cons_of_mem y (ih h hx)
      · split at h
        · obtain rfl := List.mem_singleton.mp h
          obtain rfl := List.mem_singleton.mp hx
          exact List.mem_cons_self
        · next first pieces hpieces =>
            rw [hpieces] at ih
            rcases List.mem_cons.mp h with rfl | h
            · rcases List.mem_cons.mp hx with rfl | hx
              · exact List.mem_cons_self
              · exact List.mem_cons_of_mem y (ih List.mem_cons_self hx)
            · exact List.mem_cons_of_mem y (ih (List.mem_cons_of_mem first h) hx)

namespace Yaml

/-! ## Numbers -/

namespace Number

/-- Spelled in a base, a text is an integer, or a fault that is foreseen. -/
theorem spelled_yields (base : Nat) (s : Text) : Yields (fun _ => True) (spelled base s) := by
  unfold spelled
  dsimp only
  split
  · rfl
  · split
    · rfl
    · exact trivial

/-- Parts in base sixty are an integer, or a fault that is foreseen. -/
theorem sexagesimal_yields (parts : List Text) : Yields (fun _ => True) (sexagesimal parts) :=
  (Ensures.mapM (spelled_yields 10) parts).bind fun _ _ => trivial

/-- What stands behind a sign is an integer if it is not empty, or a fault that is foreseen. -/
theorem readUnsigned_yields {s : Text} (h : s ≠ []) : Yields (fun _ => True) (readUnsigned s) := by
  cases s with
  | nil => exact absurd rfl h
  | cons c rest =>
      unfold readUnsigned
      dsimp only
      split_ifs
      · exact trivial
      · exact spelled_yields _ _
      · exact spelled_yields _ _
      · exact spelled_yields _ _
      · exact sexagesimal_yields _
      · exact spelled_yields _ _

/-- A text with a digit in it is an integer, or is none for a reason that is foreseen. -/
theorem readInt_yields {s : Text} (h : ∃ c ∈ s, c.isDigit = true) :
    Yields (fun _ => True) (readInt s) := by
  obtain ⟨c, hc, hdigit⟩ := h
  have hne : ∀ d : CodePoint, d.isDigit = false → c ≠ d := by
    rintro d hd rfl
    rw [hdigit] at hd
    cases hd
  have hkept : c ∈ dropLines s := List.mem_filter.mpr ⟨hc, bne_iff_ne.mpr (hne '_' (by decide))⟩
  unfold readInt
  cases hdropped : dropLines s with
  | nil =>
      rw [hdropped] at hkept
      cases hkept
  | cons x rest =>
      rw [hdropped] at hkept
      -- The digit is no sign, so it is behind the sign if there is one.
      have hbehind (hx : x.isDigit = false) : rest ≠ [] :=
        List.ne_nil_of_mem (List.mem_of_ne_of_mem (hne x hx) hkept)
      dsimp only
      split_ifs with hminus hplus
      · exact (readUnsigned_yields (hbehind (hminus ▸ by decide))).map fun _ _ => trivial
      · exact readUnsigned_yields (hbehind (hplus ▸ by decide))
      · exact readUnsigned_yields (List.cons_ne_nil x rest)

/-- Leaving out the sign adds no code points. -/
theorem mem_of_mem_unsigned {s : Text} {c : CodePoint} (h : c ∈ unsigned s) : c ∈ s := by
  cases s with
  | nil => exact h
  | cons x rest =>
      simp only [unsigned] at h
      split at h
      · exact List.mem_cons_of_mem x h
      · exact h

/-- A text of digits holds a digit. -/
theorem exists_digit_of_isDigits {s : Text} (h : isDigits s = true) : ∃ c ∈ s, c.isDigit = true := by
  cases s with
  | nil => cases h
  | cons c rest =>
      unfold isDigits at h
      rw [Bool.and_eq_true] at h
      exact ⟨c, List.mem_cons_self, h.1⟩

/-- The digits of a positive number hold a digit. -/
theorem exists_digit_of_isPositive {s : Text} (h : isPositive s = true) :
    ∃ c ∈ s, c.isDigit = true := by
  unfold isPositive at h
  rw [Bool.and_eq_true] at h
  exact exists_digit_of_isDigits h.1

/-- A number with a mark for its base holds the zero of the mark. -/
theorem zero_mem_of_isBased {mark : String} {isPoint : CodePoint → Bool} {s : Text}
    (hmark : CodePoint.ofChar '0' ∈ text mark) (h : isBased mark isPoint s = true) :
    ∃ c ∈ s, c.isDigit = true := by
  unfold isBased at h
  rw [Bool.and_eq_true, Bool.and_eq_true] at h
  have hprefix := List.isPrefixOf_iff_prefix.mp h.1.1
  exact ⟨CodePoint.ofChar '0', hprefix.subset hmark, by decide⟩

/-- What looks like an integer has a digit in it. -/
theorem exists_digit_of_isInt {s : Text} (h : isInt s = true) : ∃ c ∈ s, c.isDigit = true := by
  have hunsigned : ∃ c ∈ unsigned s, c.isDigit = true := by
    unfold isInt at h
    simp only [Bool.or_eq_true, decide_eq_true_eq] at h
    rcases h with ((((hbinary | hoctal) | hzero) | hdecimal) | hhex) | hsexagesimal
    · exact zero_mem_of_isBased (by decide) hbinary
    · exact zero_mem_of_isBased (by decide) hoctal
    · rw [hzero]
      exact ⟨CodePoint.ofChar '0', by decide, by decide⟩
    · exact exists_digit_of_isPositive hdecimal
    · exact zero_mem_of_isBased (by decide) hhex
    · unfold isSexagesimal at hsexagesimal
      split at hsexagesimal
      · next part next more hparts =>
          rw [Bool.and_eq_true, Bool.and_eq_true] at hsexagesimal
          obtain ⟨c, hc, hdigit⟩ := exists_digit_of_isPositive hsexagesimal.1.1
          exact ⟨c, Text.mem_of_mem_splitAll (hparts ▸ List.mem_cons_self) hc, hdigit⟩
      · cases hsexagesimal
  obtain ⟨c, hc, hdigit⟩ := hunsigned
  exact ⟨c, mem_of_mem_unsigned hc, hdigit⟩

/-- A floating-point number with not too many parts in base sixty passes its check, or has a fault that is
foreseen. -/
theorem checkUnsignedFloat_yields {s : Text} (h : s.count (CodePoint.ofChar ':') < mostSixtieths) :
    Yields (fun _ => True) (checkUnsignedFloat s) := by
  have hparts : (if s.contains (CodePoint.ofChar ':') then Text.splitAll ':' s else [s]).length ≤
      mostSixtieths := by
    split
    · rw [Text.length_splitAll]
      exact h
    · exact Nat.succ_le_succ (Nat.zero_le _)
  unfold checkUnsignedFloat
  extract_lets parts
  split_ifs with hword hbad hmany
  · exact trivial
  · rfl
  · exact absurd hparts (Nat.not_le_of_gt hmany)
  · exact trivial

/-- A text with a point in it and without too many colons is a floating-point number, or is none for a reason
that is foreseen. -/
theorem checkFloat_yields {s : Text} (h : CodePoint.ofChar '.' ∈ s)
    (hcolons : s.count (CodePoint.ofChar ':') < mostSixtieths) :
    Yields (fun _ => True) (checkFloat s) := by
  have hpoint : CodePoint.ofChar '.' ∈ (CodePoint.ofChar '.').lower := by decide +kernel
  have hkept : CodePoint.ofChar '.' ∈ Text.lower (dropLines s) :=
    List.mem_flatMap.mpr ⟨_, List.mem_filter.mpr ⟨h, by decide⟩, hpoint⟩
  have hfew : (Text.lower (dropLines s)).count (CodePoint.ofChar ':') < mostSixtieths := by
    have hlower := Text.count_lower_le (dropLines s)
    have hdropped : (dropLines s).count (CodePoint.ofChar ':') ≤ s.count (CodePoint.ofChar ':') :=
      List.filter_sublist.count_le _
    omega
  unfold checkFloat
  cases hlower : Text.lower (dropLines s) with
  | nil =>
      rw [hlower] at hkept
      cases hkept
  | cons c rest =>
      rw [hlower] at hfew
      have hrest : rest.count (CodePoint.ofChar ':') ≤ (c :: rest).count (CodePoint.ofChar ':') :=
        List.count_le_count_cons
      apply checkUnsignedFloat_yields
      split <;> omega

/-- What looks like a floating-point number has a point in it. -/
theorem point_mem_of_isFloat {s : Text} (h : isFloat s = true) : CodePoint.ofChar '.' ∈ s := by
  by_contra hnone
  have hcut := Text.cut_of_notMem fun hmem => hnone (mem_of_mem_unsigned hmem)
  unfold isFloat at h
  dsimp only at h
  rw [hcut] at h
  cases h

end Number

/-! ## Scalars -/

/-- Dropping a line end adds no code points. -/
theorem mem_of_mem_dropLineEnd {s : Text} {c : CodePoint} (h : c ∈ Timestamp.dropLineEnd s) : c ∈ s := by
  unfold Timestamp.dropLineEnd at h
  split at h
  · exact List.dropLast_subset s h
  · exact h

namespace Node

/-- A word is a truth value, or a fault that is foreseen. -/
theorem truthOf_yields (s : Text) : Yields (fun _ => True) (truthOf s) := by
  unfold truthOf
  dsimp only
  split_ifs
  · exact trivial
  · exact trivial
  · rfl

/-- A text that has the form of a time is a time, or a fault that is foreseen. -/
theorem timeOf_yields {s : Text} (h : (Timestamp.ofText? s).isSome = true) :
    Yields (fun _ => True) (timeOf s) := by
  obtain ⟨t, ht⟩ := Option.isSome_iff_exists.mp h
  unfold timeOf
  rw [ht]
  dsimp only
  split
  · rfl
  · exact trivial

/-- A plain scalar without too many colons has a value, or a fault that is foreseen. -/
theorem scalarOf_plain_yields {s : Text} (h : s.count (CodePoint.ofChar ':') < Number.mostSixtieths) :
    Yields (fun _ => True) (scalarOf (Tag.ofPlain s) s) := by
  unfold Tag.ofPlain
  extract_lets line
  split_ifs with hline htruth hfloat hint hmerge hnull htime hvalue hreserved
  · exact trivial
  · exact (truthOf_yields s).map fun _ _ => trivial
  · have hpoint := mem_of_mem_dropLineEnd (Number.point_mem_of_isFloat hfloat)
    exact (Number.checkFloat_yields hpoint h).map fun _ _ => trivial
  · obtain ⟨c, hc, hdigit⟩ := Number.exists_digit_of_isInt hint
    exact (Number.readInt_yields ⟨c, mem_of_mem_dropLineEnd hc, hdigit⟩).map fun _ _ => trivial
  · rfl
  · exact trivial
  · have hsome : (Timestamp.ofLine? line).isSome = true := by
      cases hof : Timestamp.ofLine? line with
      | none => simp [hof] at htime
      | some t => rfl
    exact (timeOf_yields hsome).map fun _ _ => trivial
  · rfl
  · rfl
  · exact trivial

/-! ## Checks -/

/-- The value of a scalar is determined by its tag and its text. -/
theorem scalarValue_scalar (tag : Tag) (s : Text) : (scalar tag s).scalarValue = scalarOf tag s := by
  cases tag <;> rfl

/-- A node without tags passes its check, or has a fault that is foreseen. -/
theorem check_yields {n : Node} (hn : n.IsUntagged) : Yields (fun _ => True) n.check := by
  unfold check
  split
  · exact trivial
  · next hmutable =>
      cases hn with
      | plain h =>
          rw [scalarValue_scalar]
          exact (scalarOf_plain_yields h).map fun _ _ => trivial
      | quoted content => exact trivial
      | sequence h => exact absurd rfl hmutable
      | mapping hkeys hvalues => exact absurd rfl hmutable
      | enclosing name => exact absurd rfl hmutable

/-- An entry without tags passes its check, or has a fault that is foreseen. -/
theorem checkEntry_yields {e : Node × Node} (he : IsUntaggedEntry e) :
    Yields (fun _ => True) (checkEntry e) := by
  unfold checkEntry
  refine (check_yields he.1).bind fun _ _ => ?_
  split
  · rfl
  · exact check_yields he.2

/-- Items without tags pass their check, or have a fault that is foreseen. -/
theorem checkAll_yields {items : List Node} (h : ∀ n ∈ items, n.IsUntagged) :
    Yields (fun _ => True) (checkAll items) := by
  induction items with
  | nil => exact trivial
  | cons n rest ih =>
      obtain ⟨hn, hrest⟩ := List.forall_mem_cons.mp h
      exact (check_yields hn).bind fun _ _ => ih hrest

/-- Entries without tags pass their check, or have a fault that is foreseen. -/
theorem checkEntries_yields {entries : List (Node × Node)} (h : ∀ e ∈ entries, IsUntaggedEntry e) :
    Yields (fun _ => True) (checkEntries entries) := by
  induction entries with
  | nil => exact trivial
  | cons e rest ih =>
      obtain ⟨he, hrest⟩ := List.forall_mem_cons.mp h
      exact (checkEntry_yields he).bind fun _ _ => ih hrest

/-! ## Merging -/

/-- Taking the sign of a key as a text leaves a node that has its tag from its form. -/
theorem isUntagged_plainKey {n : Node} (hn : n.IsUntagged) : n.plainKey.IsUntagged := by
  unfold plainKey
  split
  · exact .quoted _
  · exact hn

/-- Entries whose nodes have their tags from their form, or a fault that is foreseen. -/
def GivesUntagged (x : Except YamlFault (List (Node × Node))) : Prop :=
  Yields (fun entries => ∀ e ∈ entries, IsUntaggedEntry e) x

/-- Two lists of entries have their tags from their form if each of them does. -/
theorem isUntaggedEntry_append {a b : List (Node × Node)} (ha : ∀ e ∈ a, IsUntaggedEntry e)
    (hb : ∀ e ∈ b, IsUntaggedEntry e) : ∀ e ∈ a ++ b, IsUntaggedEntry e := by
  intro e he
  rcases List.mem_append.mp he with he | he
  · exact ha e he
  · exact hb e he

mutual

/-- The entries that a mapping takes over and its own have their tags from their form. -/
theorem merged_yields : (entries : List (Node × Node)) → (∀ e ∈ entries, IsUntaggedEntry e) →
    Yields (fun r => (∀ e ∈ r.1, IsUntaggedEntry e) ∧ ∀ e ∈ r.2, IsUntaggedEntry e) (merged entries)
  | [], _ => by
      rw [merged]
      exact ⟨by simp, by simp⟩
  | (k, v) :: rest, h => by
      obtain ⟨⟨hk, hv⟩, hrest⟩ := List.forall_mem_cons.mp h
      rw [merged]
      split
      · refine (takenFrom_yields v hv).bind fun taken htaken => ?_
        refine (merged_yields rest hrest).bind fun r hr => ?_
        exact ⟨isUntaggedEntry_append htaken hr.1, hr.2⟩
      · refine (merged_yields rest hrest).bind fun r hr => ?_
        exact ⟨hr.1, List.forall_mem_cons.mpr ⟨⟨isUntagged_plainKey hk, hv⟩, hr.2⟩⟩

/-- The entries that a mapping gives away have their tags from their form. -/
theorem givenBy_yields : (n : Node) → n.IsUntagged → GivesUntagged (givenBy n)
  | .scalar tag content, _ => by
      rw [givenBy]
      · rfl
      · nofun
      · nofun
  | .sequence anchor tag items, _ => by
      rw [givenBy]
      · rfl
      · nofun
      · nofun
  | .mapping anchor tag entries, hn => by
      have hentries : ∀ e ∈ entries, IsUntaggedEntry e := by
        cases hn with
        | mapping hkeys hvalues => exact fun e he => ⟨hkeys e he, hvalues e he⟩
      rw [givenBy]
      exact (merged_yields entries hentries).bind fun r hr => isUntaggedEntry_append hr.1 hr.2
  | .enclosing name, _ => by
      rw [givenBy]
      intro e he
      cases he

/-- The entries that are taken over from a node have their tags from their form. -/
theorem takenFrom_yields : (n : Node) → n.IsUntagged → GivesUntagged (takenFrom n)
  | .scalar tag content, _ => by
      rw [takenFrom]
      · rfl
      · nofun
      · nofun
      · nofun
  | .sequence anchor tag items, hn => by
      have hitems : ∀ n ∈ items, n.IsUntagged := by
        cases hn with
        | sequence h => exact h
      rw [takenFrom]
      exact takenFromAll_yields items hitems
  | .mapping anchor tag entries, hn => by
      have hentries : ∀ e ∈ entries, IsUntaggedEntry e := by
        cases hn with
        | mapping hkeys hvalues => exact fun e he => ⟨hkeys e he, hvalues e he⟩
      rw [takenFrom]
      exact (merged_yields entries hentries).bind fun r hr => isUntaggedEntry_append hr.1 hr.2
  | .enclosing name, _ => by
      rw [takenFrom]
      intro e he
      cases he

/-- The entries that are taken over from nodes have their tags from their form. -/
theorem takenFromAll_yields : (items : List Node) → (∀ n ∈ items, n.IsUntagged) →
    GivesUntagged (takenFromAll items)
  | [], _ => by
      rw [takenFromAll]
      intro e he
      cases he
  | n :: rest, h => by
      obtain ⟨hn, hrest⟩ := List.forall_mem_cons.mp h
      rw [takenFromAll]
      refine (givenBy_yields n hn).bind fun first hfirst => ?_
      refine (takenFromAll_yields rest hrest).bind fun others hothers => ?_
      exact isUntaggedEntry_append hothers hfirst

end

/-- All entries of a mapping, merged ones included, have their tags from their form. -/
theorem allEntries_yields {entries : List (Node × Node)} (h : ∀ e ∈ entries, IsUntaggedEntry e) :
    GivesUntagged (allEntries entries) :=
  (merged_yields entries h).bind fun _ hr => isUntaggedEntry_append hr.1 hr.2

/-! ## Opening -/

/-- A scalar can be opened, or has a fault that is foreseen. -/
theorem opened_scalar_yields (tag : Tag) (s : Text) :
    Yields (fun inner => ∀ m ∈ inner, m.IsUntagged) (scalar tag s).opened := by
  have hopened : (scalar tag s).opened = if tag.isMutable then .error .malformed else .ok [] := by
    cases tag <;> rfl
  rw [hopened]
  split
  · rfl
  · intro m hm
    cases hm

/-- The nodes in a node have their tags from their form. -/
theorem opened_yields {n : Node} (hn : n.IsUntagged) :
    Yields (fun inner => ∀ m ∈ inner, m.IsUntagged) n.opened := by
  cases hn with
  | plain h => exact opened_scalar_yields _ _
  | quoted content => exact opened_scalar_yields _ _
  | sequence h => exact (checkAll_yields h).map fun _ _ => h
  | mapping hkeys hvalues =>
      refine (allEntries_yields fun e he => ⟨hkeys e he, hvalues e he⟩).bind fun entries hentries => ?_
      refine (checkEntries_yields hentries).bind fun _ _ => ?_
      intro m hm
      obtain ⟨e, he, rfl⟩ := List.mem_map.mp hm
      exact (hentries e he).2
  | enclosing name =>
      intro m hm
      cases hm

/-- The nodes in nodes have their tags from their form. -/
theorem openAll_yields {nodes : List Node} (h : ∀ n ∈ nodes, n.IsUntagged) :
    Yields (fun inner => ∀ m ∈ inner, m.IsUntagged) (openAll nodes) := by
  induction nodes with
  | nil =>
      intro m hm
      cases hm
  | cons n rest ih =>
      obtain ⟨hn, hrest⟩ := List.forall_mem_cons.mp h
      refine (opened_yields hn).bind fun first hfirst => ?_
      refine (ih hrest).bind fun others hothers => ?_
      intro m hm
      rcases List.mem_append.mp hm with hm | hm
      · exact hfirst m hm
      · exact hothers m hm

/-- Opening nodes level by level meets no fault that is not foreseen. -/
theorem openLevels_yields (fuel : Nat) {nodes : List Node} (h : ∀ n ∈ nodes, n.IsUntagged) :
    Yields (fun _ => True) (openLevels fuel nodes) := by
  induction fuel generalizing nodes with
  | zero => exact trivial
  | succ fuel ih =>
      unfold openLevels
      split
      · exact trivial
      · exact (openAll_yields h).bind fun inner hinner => ih hinner

/-- A node without tags has a value, or a fault that is foreseen. -/
theorem toValue_yields {n : Node} (hn : n.IsUntagged) : Yields (fun _ => True) n.toValue := by
  unfold toValue
  refine (check_yields hn).bind fun _ _ => ?_
  exact (openLevels_yields _ (List.forall_mem_singleton.mpr hn)).bind fun _ _ => trivial

end Node

/-- Reading a tame text yields a value or a fault that is foreseen. -/
theorem read_yields {s : Text} (h : IsTame s) : Yields (fun _ => True) (read s) := by
  have hdocument := Document.ofText_untagged h
  unfold read
  split
  · rfl
  · split
    · next fault hfault =>
        rw [hfault] at hdocument
        exact hdocument
    · exact trivial
    · next n hn =>
        rw [hn] at hdocument
        exact Node.toValue_yields (hdocument n rfl)

end Yaml

end PageTree
