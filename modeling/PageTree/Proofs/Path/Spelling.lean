import Mathlib.Data.List.Infix
import Mathlib.Data.List.TakeWhile
import Mathlib.Logic.Relation
import PageTree.Path
import PageTree.Proofs.Text

/-!
# Spellings of a path

A text that spells a path may hold more than it needs: the name `.`, a second slash, a slash at the end.
Texts that differ in nothing else are spellings of each other (`Path.Respelled`), and they are read as the
same path (`ofText_eq_of_respelled`). A path that has been read has no such signs left (`Path.Normal`), so its
text is a spelling of it again (`ofText_toText`).
-/

set_option autoImplicit false

namespace PageTree

/-! ## Pieces of a text -/

namespace Text

variable {c : CodePoint}

/-- A text that is cut at a character leaves at least one piece. -/
theorem splitAll_ne_nil (c : CodePoint) (s : Text) : splitAll c s ≠ [] := by
  cases s with
  | nil => exact nofun
  | cons x rest =>
      unfold splitAll
      split
      · exact nofun
      · split <;> exact nofun

/-- Two texts with the character between them leave the pieces of both. -/
theorem splitAll_append (c : CodePoint) (s t : Text) :
    splitAll c (s ++ c :: t) = splitAll c s ++ splitAll c t := by
  induction s with
  | nil => simp [splitAll]
  | cons x rest ih =>
      rw [List.cons_append, splitAll, splitAll, ih]
      by_cases hx : x = c
      · simp [hx]
      · obtain ⟨piece, pieces, hpieces⟩ := List.exists_cons_of_ne_nil (splitAll_ne_nil c rest)
        simp [hx, hpieces]

/-- A text without the character is left in one piece. -/
theorem splitAll_of_notMem {s : Text} (h : c ∉ s) : splitAll c s = [s] := by
  induction s with
  | nil => rfl
  | cons x rest ih =>
      obtain ⟨hx, hrest⟩ := List.ne_and_not_mem_of_not_mem_cons h
      rw [splitAll, if_neg hx.symm, ih hrest]

/-- No piece holds the character. -/
theorem notMem_of_mem_splitAll {s piece : Text} (h : piece ∈ splitAll c s) : c ∉ piece := by
  induction s generalizing piece with
  | nil =>
      rw [splitAll, List.mem_singleton] at h
      exact h ▸ List.not_mem_nil
  | cons x rest ih =>
      unfold splitAll at h
      obtain ⟨first, others, hpieces⟩ := List.exists_cons_of_ne_nil (splitAll_ne_nil c rest)
      rw [hpieces] at h ih
      split at h
      · rcases List.mem_cons.mp h with rfl | h
        · exact List.not_mem_nil
        · exact ih h
      · next hx =>
          rcases List.mem_cons.mp h with rfl | h
          · exact List.not_mem_cons_of_ne_of_not_mem (Ne.symm hx) (ih List.mem_cons_self)
          · exact ih (List.mem_cons_of_mem first h)

/-- Pieces with a sign between them that none of them holds can be told apart again. -/
theorem splitAll_join {pieces : List Text} (hne : pieces ≠ []) (h : ∀ piece ∈ pieces, c ∉ piece) :
    splitAll c (join [c] pieces) = pieces := by
  fun_induction join [c] pieces with
  | case1 => exact absurd rfl hne
  | case2 s => exact splitAll_of_notMem (h s List.mem_cons_self)
  | case3 s t rest ih =>
      obtain ⟨hs, hothers⟩ := List.forall_mem_cons.mp h
      rw [List.append_assoc, List.singleton_append, splitAll_append, splitAll_of_notMem hs,
        ih (List.cons_ne_nil t rest) hothers]
      rfl

end Text

namespace Path

/-! ## Spellings -/

/-- The names that lead nowhere: none at all, and a dot. -/
def IsIdle (name : Text) : Prop := name = [] ∨ name = text "."

/-- Whether something stands in a text that is not a slash. -/
def HasName (s : Text) : Prop := ∃ c ∈ s, c ≠ CodePoint.ofChar '/'

/-- The second text spells a path with one more name that leads nowhere. -/
inductive Pads : Text → Text → Prop
  /-- A dot in front of all names, behind the slashes that the text starts with. -/
  | dotFirst (slashes : Nat) {rest : Text} (h : rest.head? ≠ some (CodePoint.ofChar '/')) :
    Pads (List.replicate slashes (CodePoint.ofChar '/') ++ rest)
      (List.replicate slashes (CodePoint.ofChar '/') ++ (text "./" ++ rest))
  /-- Nothing or a dot behind a slash that is not at the start. -/
  | inside {front name : Text} (hfront : HasName front) (hname : IsIdle name) (rest : Text) :
    Pads (front ++ CodePoint.ofChar '/' :: rest)
      (front ++ CodePoint.ofChar '/' :: (name ++ CodePoint.ofChar '/' :: rest))
  /-- A slash at the end, or a slash and a dot. -/
  | last {front name : Text} (hfront : HasName front) (hname : IsIdle name) :
    Pads front (front ++ CodePoint.ofChar '/' :: name)

/-- Two texts become the same when names that lead nowhere are put in and left out. -/
def Respelled : Text → Text → Prop := Relation.EqvGen Pads

/-- The names of two texts with a slash between them are those of both. -/
theorem names_append (s t : Text) :
    (ofText (s ++ CodePoint.ofChar '/' :: t)).names = (ofText s).names ++ (ofText t).names := by
  unfold ofText
  dsimp only
  rw [Text.splitAll_append, List.filter_append]

/-- An idle segment is no name. -/
theorem names_of_isIdle {name : Text} (h : IsIdle name) : (ofText name).names = [] := by
  rcases h with rfl | rfl <;> rfl

/-- Slashes before a text bring no names. -/
theorem names_replicate_append (n : Nat) (s : Text) :
    (ofText (List.replicate n (CodePoint.ofChar '/') ++ s)).names = (ofText s).names := by
  induction n with
  | zero => rfl
  | succ n ih =>
      rw [List.replicate_succ, List.cons_append, ← List.nil_append (_ :: _), names_append, ih]
      rfl

/-- A text that begins with a name has the root of that beginning. -/
theorem rootOf_append {front : Text} (h : HasName front) (t : Text) :
    rootOf (front ++ t) = rootOf front := by
  obtain ⟨c, hc, hslash⟩ := h
  have hstops : ¬ (front.takeWhile (· == CodePoint.ofChar '/')).length = front.length := by
    intro hlength
    have hall := (List.takeWhile_prefix _).eq_of_length hlength
    rw [List.takeWhile_eq_self_iff] at hall
    exact hslash (by simpa using hall c hc)
  unfold rootOf
  rw [List.takeWhile_append, if_neg hstops]

/-- The root of a text is that of the slashes it begins with. -/
theorem rootOf_replicate_append (n : Nat) {s : Text} (h : s.head? ≠ some (CodePoint.ofChar '/')) :
    rootOf (List.replicate n (CodePoint.ofChar '/') ++ s) =
      rootOf (List.replicate n (CodePoint.ofChar '/')) := by
  have hnone : s.takeWhile (· == CodePoint.ofChar '/') = [] := by
    cases s with
    | nil => rfl
    | cons c rest =>
        rw [List.takeWhile_cons_of_neg]
        simpa using h
  unfold rootOf
  rw [List.takeWhile_append_of_pos (by simp), hnone, List.append_nil, List.takeWhile_replicate_eq_filter]
  simp

/-- Padding a text leaves its path as it is. -/
theorem Pads.ofText_eq {s t : Text} (h : Pads s t) : ofText s = ofText t := by
  have hparts : rootOf s = rootOf t ∧ (ofText s).names = (ofText t).names := by
    cases h with
    | dotFirst n hrest =>
        refine ⟨?_, ?_⟩
        · rw [rootOf_replicate_append n hrest, rootOf_replicate_append n (by simp [text])]
        · rw [names_replicate_append, names_replicate_append]
          exact (names_append (text ".") _).symm
    | inside hfront hname rest =>
        refine ⟨?_, ?_⟩
        · rw [rootOf_append hfront, rootOf_append hfront]
        · rw [names_append, names_append, names_append, names_of_isIdle hname]
          rfl
    | last hfront hname =>
        refine ⟨(rootOf_append hfront _).symm, ?_⟩
        rw [names_append, names_of_isIdle hname, List.append_nil]
  exact congrArg₂ Path.mk hparts.1 hparts.2

/-- The spellings of a path are read as the same path. -/
theorem ofText_eq_of_respelled {s t : Text} (h : Respelled s t) : ofText s = ofText t := by
  induction h with
  | rel _ _ hpads => exact hpads.ofText_eq
  | refl _ => rfl
  | symm _ _ _ ih => exact ih.symm
  | trans _ _ _ _ _ ih₁ ih₂ => exact ih₁.trans ih₂

/-! ## Paths that have been read -/

/-- Every name of a path leads somewhere and is one name. -/
def Normal (p : Path) : Prop := ∀ name ∈ p.names, isName name = true ∧ CodePoint.ofChar '/' ∉ name

/-- The path of a text is normal. -/
theorem normal_ofText (s : Text) : (ofText s).Normal := by
  intro name hname
  obtain ⟨hmem, hleads⟩ := List.mem_filter.mp hname
  exact ⟨hleads, Text.notMem_of_mem_splitAll hmem⟩

/-- The path of a normal path in a normal directory is normal. -/
theorem Normal.join {directory p : Path} (hdirectory : directory.Normal) (hp : p.Normal) :
    (directory.join p).Normal := by
  unfold Path.join
  split
  · exact hp
  · intro name hname
    rcases List.mem_append.mp hname with hname | hname
    · exact hdirectory name hname
    · exact hp name hname

/-- The directory of a normal path is normal. -/
theorem Normal.parent {p : Path} (h : p.Normal) : p.parent.Normal := fun name hname =>
  h name (List.mem_of_mem_dropLast hname)

/-- The names of a path, with slashes between them, do not start with a slash. -/
theorem head?_join {name : Text} (names : List Text) (hleads : isName name = true)
    (hslash : CodePoint.ofChar '/' ∉ name) :
    (Text.join (text "/") (name :: names)).head? ≠ some (CodePoint.ofChar '/') := by
  cases name with
  | nil => cases hleads
  | cons c rest =>
      have hc : CodePoint.ofChar '/' ≠ c := (List.ne_and_not_mem_of_not_mem_cons hslash).1
      cases names <;> simpa [Text.join] using hc.symm

/-- A path is what its text spells. -/
theorem ofText_toText {p : Path} (h : p.Normal) : ofText p.toText = p := by
  obtain ⟨root, names⟩ := p
  cases names with
  | nil => cases root <;> rfl
  | cons name names =>
      have hhead := head?_join names (h name List.mem_cons_self).1 (h name List.mem_cons_self).2
      have hnames : (ofText (Text.join (text "/") (name :: names))).names = name :: names := by
        have hsplit := Text.splitAll_join (c := CodePoint.ofChar '/') (List.cons_ne_nil name names)
          fun piece hpiece => (h piece hpiece).2
        unfold ofText
        dsimp only
        rw [show text "/" = [CodePoint.ofChar '/'] from rfl, hsplit]
        exact List.filter_eq_self.mpr fun piece hpiece => (h piece hpiece).1
      have hslashes : ∃ n, root.toText = List.replicate n (CodePoint.ofChar '/') ∧
          rootOf (List.replicate n (CodePoint.ofChar '/')) = root := by
        cases root
        · exact ⟨0, rfl, rfl⟩
        · exact ⟨1, rfl, rfl⟩
        · exact ⟨2, rfl, rfl⟩
      obtain ⟨n, htext, hroot⟩ := hslashes
      have hwhole : toText ⟨root, name :: names⟩ =
          List.replicate n (CodePoint.ofChar '/') ++ Text.join (text "/") (name :: names) := by
        rw [toText, if_neg (by simp), htext]
      rw [hwhole]
      calc ofText (List.replicate n (CodePoint.ofChar '/') ++ Text.join (text "/") (name :: names))
          = ⟨rootOf (List.replicate n (CodePoint.ofChar '/')),
              (ofText (Text.join (text "/") (name :: names))).names⟩ := by
            rw [← names_replicate_append n, ← rootOf_replicate_append n hhead]
            rfl
        _ = ⟨root, name :: names⟩ := by rw [hroot, hnames]

end Path

end PageTree
