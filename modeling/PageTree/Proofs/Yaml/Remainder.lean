import PageTree.Proofs.Basic
import PageTree.Yaml.TokenStream

/-!
# What is left of a document

Whatever is read of a document, what is left to read is an end of it.
-/

set_option autoImplicit false

namespace PageTree.Yaml

namespace Cursor

/-- What is left after skipping code points is an end of what was left. -/
theorem rest_skip (n : Nat) (k : Cursor) : (k.skip n).rest <:+ k.rest := by
  induction n generalizing k with
  | zero => exact List.suffix_rfl
  | succ n ih =>
      obtain ⟨m, rest⟩ := k
      cases rest with
      | nil => exact List.suffix_rfl
      | cons c rest => exact (ih ⟨m.pass c, rest⟩).trans (List.suffix_cons c rest)

/-- What is left at the start is an end of the text. -/
theorem rest_start (s : Text) : (start s).rest <:+ s := by
  unfold start
  split
  · exact rest_skip 1 _
  · exact List.suffix_rfl

/-- What is left after skipping spaces is an end of what was left. -/
theorem rest_skipSpaces (k : Cursor) : k.skipSpaces.rest <:+ k.rest := rest_skip _ k

/-- What is left behind the end of a line is an end of what was left. -/
theorem rest_endLine {k last : Cursor} (h : k.endLine? = some last) : last.rest <:+ k.rest := by
  have hcomment : (if k.skipSpaces.isAt '#' then k.skipSpaces.skipWhile (!isBreak ·)
      else k.skipSpaces).rest <:+ k.rest := by
    split
    · exact (rest_skip _ _).trans k.rest_skipSpaces
    · exact k.rest_skipSpaces
  unfold endLine? at h
  obtain ⟨-, hskip⟩ := Option.ite_none_right_eq_some.mp h
  obtain rfl := Option.some.inj hskip
  exact (rest_skip 1 _).trans hcomment

/-- What is left before the next token is an end of the text. -/
theorem rest_nextToken (comment lineEnded : Bool) (m : Mark) (s : Text) :
    (nextToken comment lineEnded m s).2.rest <:+ s := by
  induction s generalizing comment lineEnded m with
  | nil => exact List.suffix_rfl
  | cons c rest ih =>
      unfold nextToken
      split_ifs
      · exact (ih _ _ _).trans (List.suffix_cons c rest)
      · exact (ih _ _ _).trans (List.suffix_cons c rest)
      · exact (ih _ _ _).trans (List.suffix_cons c rest)
      · exact List.suffix_rfl

end Cursor

/-- What is left behind a plain scalar is an end of the text. -/
theorem Plain.rest_read (flow : Bool) (indent : Nat) (soFar : Text) (place : Plain.Place) (m : Mark)
    (s : Text) : (Plain.read flow indent soFar place m s).cursor.rest <:+ s := by
  fun_induction Plain.read flow indent soFar place m s
  all_goals
    first
    | exact List.suffix_rfl
    | exact List.suffix_cons _ _
    | exact List.IsSuffix.trans ‹_› (List.suffix_cons _ _)

/-- What is left behind a block scalar is an end of the text. -/
theorem Block.rest_read (h : Block.Header) (least : Nat) (soFar : Text) (last : Block.LastLine)
    (breaks : Text) (place : Block.Place) (m : Mark) (s : Text) :
    (Block.read h least soFar last breaks place m s).2.rest <:+ s := by
  induction s generalizing soFar last breaks place m with
  | nil => exact List.suffix_rfl
  | cons c rest ih =>
      have hnext (soFar : Text) (last : Block.LastLine) (breaks : Text) (place : Block.Place)
          (m : Mark) : (Block.read h least soFar last breaks place m rest).2.rest <:+ c :: rest :=
        (ih soFar last breaks place m).trans (List.suffix_cons c rest)
      unfold Block.read
      cases place with
      | search deepest =>
          dsimp only
          split_ifs
          · exact hnext _ _ _ _ _
          · exact hnext _ _ _ _ _
          · exact hnext _ _ _ _ _
          · exact List.suffix_rfl
      | between indent =>
          dsimp only
          split_ifs
          · exact hnext _ _ _ _ _
          · exact hnext _ _ _ _ _
          · exact hnext _ _ _ _ _
          · exact List.suffix_rfl
      | inside indent =>
          dsimp only
          split_ifs
          · exact hnext _ _ _ _ _
          · exact hnext _ _ _ _ _

end PageTree.Yaml
