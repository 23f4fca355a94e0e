import PageTree.Text
import Mathlib.Data.List.DropRight

/-!
# Cutting texts

A text is cut at the first or at the last occurrence of a code point. What is put behind a text changes
nothing about a cut at a first occurrence that is there already, and decides where the last occurrence is.
`dropTrailing` is the library's `List.rdropWhile`; the text that it leaves is followed by nothing but the
code point that it drops.
-/

set_option autoImplicit false

namespace PageTree.Text

variable {c : CodePoint} {s t : Text}

/-- A text without the code point goes before the cut of what stands behind it. -/
theorem cut_append_of_notMem (h : c ∉ s) (t : Text) :
    cut c (s ++ t) = (s ++ (cut c t).1, (cut c t).2) := by
  induction s with
  | nil => rfl
  | cons x rest ih =>
      have hne : x ≠ c := fun heq => h (heq ▸ List.mem_cons_self)
      have hrest : c ∉ rest := fun hmem => h (List.mem_cons_of_mem x hmem)
      rw [List.cons_append, cut, if_neg hne, ih hrest]
      rfl

/-- A text without the code point is not cut. -/
theorem cut_of_notMem (h : c ∉ s) : cut c s = (s, none) := by
  have happend := cut_append_of_notMem h []
  rw [List.append_nil] at happend
  rw [happend]
  simp [cut]

/-- A text is cut at the first occurrence. -/
theorem cut_of_split (h : c ∉ s) (t : Text) : cut c (s ++ c :: t) = (s, some t) := by
  rw [cut_append_of_notMem h]
  simp [cut]

/-- If a code point occurs, it occurs for the first time somewhere. -/
theorem exists_first (h : c ∈ s) : ∃ front rest, s = front ++ c :: rest ∧ c ∉ front := by
  obtain ⟨front, rest, hs, hfront⟩ := List.eq_append_cons_of_mem h
  exact ⟨front, rest, hs, hfront⟩

/-- What stands behind the first occurrence goes along. -/
theorem cut_append_of_mem (h : c ∈ s) (t : Text) :
    ∃ front rest, cut c s = (front, some rest) ∧ cut c (s ++ t) = (front, some (rest ++ t)) := by
  obtain ⟨front, rest, rfl, hfront⟩ := exists_first h
  refine ⟨front, rest, cut_of_split hfront rest, ?_⟩
  rw [List.append_assoc, List.cons_append]
  exact cut_of_split hfront (rest ++ t)

/-- A text without the code point is not cut from behind. -/
theorem cutLast_of_notMem (h : c ∉ s) : cutLast c s = (none, s) := by
  unfold cutLast
  rw [cut_of_notMem fun hmem => h (List.mem_reverse.mp hmem)]
  simp

/-- A text is cut from behind at the last occurrence. -/
theorem cutLast_of_split (s : Text) (h : c ∉ t) : cutLast c (s ++ c :: t) = (some s, t) := by
  have hreverse : (s ++ c :: t).reverse = t.reverse ++ c :: s.reverse := by simp
  unfold cutLast
  rw [hreverse, cut_of_split fun hmem => h (List.mem_reverse.mp hmem)]
  simp

/-- If a code point occurs, it occurs for the last time somewhere. -/
theorem exists_last (h : c ∈ s) : ∃ front rest, s = front ++ c :: rest ∧ c ∉ rest := by
  obtain ⟨rest, front, hs, hrest⟩ := exists_first (List.mem_reverse.mpr h)
  refine ⟨front.reverse, rest.reverse, ?_, fun hmem => hrest (List.mem_reverse.mp hmem)⟩
  have hback := congrArg List.reverse hs
  rw [List.reverse_reverse] at hback
  rw [hback]
  simp

/-! ## Dropping at the end -/

/-- Dropping a code point at the end is dropping while it is the last one. -/
theorem dropTrailing_eq_rdropWhile (c : CodePoint) (s : Text) :
    dropTrailing c s = s.rdropWhile (· == c) := rfl

/-- What is dropped are occurrences of the code point alone. -/
theorem exists_eq_dropTrailing_append (c : CodePoint) (s : Text) :
    ∃ n, s = dropTrailing c s ++ List.replicate n c := by
  have hsplit := List.rdropWhile_append_rtakeWhile (p := (· == c)) (l := s)
  have hall : s.rtakeWhile (· == c) = List.replicate (s.rtakeWhile (· == c)).length c := by
    rw [List.eq_replicate_iff]
    refine ⟨rfl, fun x hx => ?_⟩
    have hpoint : (x == c) = true := List.mem_rtakeWhile_imp (p := (· == c)) hx
    exact beq_iff_eq.mp hpoint
  refine ⟨(s.rtakeWhile (· == c)).length, ?_⟩
  rw [dropTrailing_eq_rdropWhile, ← hall]
  exact hsplit.symm

/-- Nothing is dropped just if the text does not end with the code point. -/
theorem dropTrailing_eq_self_iff : dropTrailing c s = s ↔ s.getLast? ≠ some c := by
  rw [dropTrailing_eq_rdropWhile, List.rdropWhile_eq_self_iff]
  cases hlast : s.getLast? with
  | none =>
      rw [List.getLast?_eq_none_iff] at hlast
      simp [hlast]
  | some x =>
      have hne : s ≠ [] := by
        rintro rfl
        simp at hlast
      rw [List.getLast?_eq_getLast_of_ne_nil hne, Option.some.injEq] at hlast
      simp [hne, hlast]

/-- What is left does not end with the code point. -/
theorem getLast?_dropTrailing (c : CodePoint) (s : Text) :
    (dropTrailing c s).getLast? ≠ some c := by
  have hself : dropTrailing c (dropTrailing c s) = dropTrailing c s :=
    List.rdropWhile_idempotent (· == c) s
  exact dropTrailing_eq_self_iff.mp hself

/-- More occurrences at the end are dropped, too. -/
theorem dropTrailing_append_replicate (s : Text) (n : Nat) :
    dropTrailing c (s ++ List.replicate n c) = dropTrailing c s := by
  induction n with
  | zero => simp
  | succ n ih =>
      rw [List.replicate_succ', ← List.append_assoc, dropTrailing_eq_rdropWhile,
        List.rdropWhile_concat_pos (· == c) _ _ (beq_self_eq_true c)]
      exact ih

end PageTree.Text
