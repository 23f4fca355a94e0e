import PageTree.Proofs.Json.RoundTrip
import Mathlib.Tactic.SplitIfs

/-!
# Line ends in JSON

A file is read as text, and on the way each carriage return becomes a line feed or goes away. To a reader of
JSON this makes no difference (`read?_unifyLines`): a control code is either a blank between two tokens, and
then one blank is as good as another and two are as good as one, or it is refused, and then its neighbour is
refused as well.

The statement is about all states that the reader can be in. Only one thing has to be known of them: what is
left of a word such as `true` are letters (`Reading.Spelled`).
-/

set_option autoImplicit false

namespace PageTree.Json

/-! ## The words that are read -/

/-- What is left of a word are letters. -/
def Reading.Spelled : Reading → Prop
  | .word rest _ => ∀ c ∈ rest, c.isLetter = true
  | _ => True

/-- If there is a next state, what is left of a word are letters. -/
def StaysSpelled (next : Option State) : Prop := ∀ s, next = some s → s.reading.Spelled

namespace StaysSpelled

/-- Where there is no next state, nothing is left of a word. -/
theorem none : StaysSpelled none := by
  intro s h
  exact absurd h (by simp)

/-- A state with nothing but letters left of its word is one that stays so. -/
theorem some {s : State} (h : s.reading.Spelled) : StaysSpelled (some s) := by
  intro next hnext
  exact Option.some.inj hnext ▸ h

/-- A choice between two next states leaves nothing but letters if both do. -/
theorem ite {p : Prop} [Decidable p] {x y : Option State} (hx : StaysSpelled x)
    (hy : StaysSpelled y) : StaysSpelled (if p then x else y) := by
  by_cases h : p
  · rw [if_pos h]
    exact hx
  · rw [if_neg h]
    exact hy

/-- A word of letters. -/
theorem word (frames : List Frame) {rest : Text} (v : Value)
    (h : rest.all CodePoint.isLetter = true) : StaysSpelled (.some ⟨frames, .word rest v⟩) :=
  some (List.all_eq_true.mp h)

/-- At the beginning of a value, nothing but letters is left of a word. -/
theorem beginValue (d : Dialect) (frames : List Frame) (c : CodePoint) :
    StaysSpelled (beginValue d frames c) := by
  unfold Json.beginValue
  exact ite (some trivial) <| ite (some trivial) <| ite (some trivial) <|
    ite (word frames .null rfl) <| ite (word frames (.bool true) rfl) <|
    ite (word frames (.bool false) rfl) <| ite (some trivial) <| ite (some trivial) <|
    ite (some trivial) <| ite (word frames (.float .nan) rfl) <|
    ite (word frames (.float (.infinite false)) rfl) none

/-- Inside an array or object, nothing is left of a word when a value has ended. -/
theorem afterValue (v : Value) (c : CodePoint) (frames : List Frame) :
    StaysSpelled (afterValue v c frames) := by
  cases frames with
  | nil => exact none
  | cons frame frames =>
      cases frame with
      | array items => exact ite (some trivial) (ite (some trivial) none)
      | object members key => exact ite (some trivial) (ite (some trivial) none)

/-- Behind a value, nothing is left of a word. -/
theorem stepAfter (frames : List Frame) (v : Value) (c : CodePoint) :
    StaysSpelled (stepAfter frames v c) :=
  ite (some trivial) (afterValue v c frames)

end StaysSpelled

/-- Inside a string no word is read, and none right behind it. -/
theorem spelled_of_inString {d : Dialect} {place : Place} {soFar : Text} {c : CodePoint}
    {escape : Escape} {r : Reading} (h : inString d place soFar c escape = some r) : r.Spelled := by
  have reading : ∀ {q : Reading}, some q = some r → q.Spelled → r.Spelled := by
    intro q heq hq
    exact Option.some.inj heq ▸ hq
  cases escape with
  | outside =>
      simp only [inString, endString] at h
      split_ifs at h
      · cases place with
        | value => exact reading h trivial
        | key members => exact reading h trivial
      · exact reading h trivial
      · exact reading h trivial
  | backslash =>
      simp only [inString] at h
      split_ifs at h
      · exact reading h trivial
      · obtain ⟨e, -, rfl⟩ := Option.map_eq_some_iff.mp h
        exact trivial
  | hex missing value =>
      obtain ⟨digit, -, h⟩ := Option.bind_eq_some_iff.mp h
      dsimp only at h
      split_ifs at h
      · obtain ⟨read, -, h⟩ := Option.bind_eq_some_iff.mp h
        exact reading h trivial
      · exact reading h trivial

/-- What is left of a word are letters, at the start and after each step. -/
theorem spelled_start : start.reading.Spelled := trivial

/-- A step leaves nothing but letters of a word if nothing else was left before. -/
theorem step_spelled (d : Dialect) {s : State} (hs : s.reading.Spelled) (c : CodePoint) :
    StaysSpelled (step d s c) := by
  obtain ⟨frames, reading⟩ := s
  cases reading with
  | value => exact .ite (.some hs) (.beginValue d frames c)
  | firstItem => exact .ite (.some hs) (.ite (.some trivial) (.beginValue d frames c))
  | firstKey => exact .ite (.some hs) (.ite (.some trivial) (.ite (.some trivial) .none))
  | nextKey members => exact .ite (.some hs) (.ite (.some trivial) .none)
  | colon members key => exact .ite (.some hs) (.ite (.some trivial) .none)
  | string place soFar escape =>
      intro next hnext
      obtain ⟨r, hr, rfl⟩ := Option.map_eq_some_iff.mp hnext
      exact spelled_of_inString hr
  | word rest v =>
      cases rest with
      | nil => exact .stepAfter frames v c
      | cons x more =>
          cases more with
          | nil => exact .ite (.some trivial) .none
          | cons y more =>
              exact .ite (.some fun c hc => hs c (List.mem_cons_of_mem x hc)) .none
  | number part soFar =>
      simp only [step]
      split
      · exact .some trivial
      · apply StaysSpelled.ite (.word frames (.float (.infinite true)) rfl)
        split
        · exact .stepAfter frames _ c
        · exact .none
  | after v => exact .stepAfter frames v c

/-! ## Line ends -/

variable {d : Dialect} {s next : State}

/-- A letter is no other character. -/
theorem ofChar_ne_of_isLetter {x : CodePoint} {c : Char} (hx : x.isLetter = true)
    (hc : (CodePoint.ofChar c).isLetter = false) : CodePoint.ofChar c ≠ x := by
  rintro rfl
  rw [hx] at hc
  exact absurd hc (by simp)

/-- No reading can tell a carriage return from a line feed. -/
theorem step_return (d : Dialect) (hs : s.reading.Spelled) :
    step d s (CodePoint.ofChar '\r') = step d s (CodePoint.ofChar '\n') := by
  obtain ⟨frames, reading⟩ := s
  cases reading with
  | string place soFar escape => cases escape <;> rfl
  | word rest v =>
      cases rest with
      | nil => rfl
      | cons x more =>
          -- The next code point of a word is a letter, so it is neither of the two.
          have hletter : x.isLetter = true := hs x List.mem_cons_self
          have hreturn : CodePoint.ofChar '\r' ≠ x := ofChar_ne_of_isLetter hletter rfl
          have hfeed : CodePoint.ofChar '\n' ≠ x := ofChar_ne_of_isLetter hletter rfl
          cases more <;> simp only [step, hreturn, hfeed, if_false]
  | number part soFar => cases part <;> rfl
  | _ => rfl

/-- A string holds no line feed but an escaped one. -/
theorem inString_feed (d : Dialect) (place : Place) (soFar : Text) (escape : Escape) :
    inString d place soFar (CodePoint.ofChar '\n') escape = none := by
  cases escape <;> rfl

/-- A line feed that is not refused is a blank, and a second one changes nothing. -/
theorem step_feed_again (hs : s.reading.Spelled)
    (h : step d s (CodePoint.ofChar '\n') = some next) :
    step d next (CodePoint.ofChar '\n') = some next := by
  obtain ⟨frames, reading⟩ := s
  have blank : ∀ {r : Reading}, some (State.mk frames r) = some next →
      step d ⟨frames, r⟩ (CodePoint.ofChar '\n') = some ⟨frames, r⟩ →
      step d next (CodePoint.ofChar '\n') = some next := by
    intro r heq hstep
    obtain rfl := Option.some.inj heq
    exact hstep
  cases reading with
  | string place soFar escape =>
      simp only [step, inString_feed, Option.map_none] at h
      exact absurd h (by simp)
  | word rest v =>
      cases rest with
      | nil => exact blank (r := .after v) h rfl
      | cons x more =>
          have hfeed : CodePoint.ofChar '\n' ≠ x :=
            ofChar_ne_of_isLetter (hs x List.mem_cons_self) rfl
          cases more <;> simp [step, hfeed] at h
  | number part soFar =>
      have hnext : part.next? (CodePoint.ofChar '\n') = none := by cases part <;> rfl
      simp only [step, hnext] at h
      split_ifs at h with hinfinite
      · simp at hinfinite
      · split at h
        · exact blank h rfl
        · exact absurd h (by simp)
  | _ => exact blank h rfl

/-- A run over a text is the same with all line ends written as line feeds. -/
theorem run_unifyLines (d : Dialect) (t : Text) (hs : s.reading.Spelled) :
    run d s (Text.unifyLines t) = run d s t := by
  fun_induction Text.unifyLines t generalizing s with
  | case1 => rfl
  | case2 => simp only [run, step_return d hs]
  | case3 r ih =>
      simp only [run, step_return d hs]
      cases h : step d s (CodePoint.ofChar '\n') with
      | none => rfl
      | some next =>
          simp only [step_feed_again hs h]
          exact ih (step_spelled d hs _ next h)
  | case4 y r hy ih =>
      simp only [run, step_return d hs]
      cases h : step d s (CodePoint.ofChar '\n') with
      | none => rfl
      | some next =>
          have hrest := ih (step_spelled d hs _ next h)
          simp only [run] at hrest
          exact hrest
  | case5 x rest hx ih =>
      simp only [run]
      cases h : step d s x with
      | none => rfl
      | some next => exact ih (step_spelled d hs _ next h)

/-- A JSON text is read as it would be with all of its line ends written as line feeds. -/
theorem read?_unifyLines (d : Dialect) (t : Text) : read? d (Text.unifyLines t) = read? d t := by
  unfold read?
  rw [run_unifyLines d t spelled_start]

end PageTree.Json
