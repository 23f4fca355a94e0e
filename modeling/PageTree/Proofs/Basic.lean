import Mathlib.Data.List.Basic

/-!
# Facts that the proofs share

What it means that a partial function answers on all of a list, how a list falls apart at a place, and what
it means that a computation that may go wrong has gone well.
-/

set_option autoImplicit false

namespace PageTree

/-- If a partial function answers on a whole list, its answers are what it finds there. -/
theorem map_eq_map_some_of_mapM {α β : Type} {f : α → Option β} {l : List α} {r : List β}
    (h : l.mapM f = some r) : l.map f = r.map some := by
  induction l generalizing r with
  | nil =>
      rw [List.mapM_nil] at h
      rw [← Option.some.inj h]
      rfl
  | cons a rest ih =>
      rw [List.mapM_cons] at h
      obtain ⟨b, hb, h⟩ := Option.bind_eq_some_iff.mp h
      obtain ⟨s, hs, h⟩ := Option.bind_eq_some_iff.mp h
      rw [← Option.some.inj h, List.map_cons, hb, ih hs]
      rfl

/-- If a partial function gives something on every element of a list, then leaving out the elements without a
result leaves nothing out. -/
theorem filterMap_eq_of_mapM {α β : Type} {f : α → Option β} {l : List α} {r : List β}
    (h : l.mapM f = some r) : l.filterMap f = r := by
  have hmap := map_eq_map_some_of_mapM h
  calc l.filterMap f = (l.map f).filterMap id := by rw [List.filterMap_map]; rfl
    _ = (r.map some).filterMap id := by rw [hmap]
    _ = r := by simp

/-- A partial function gives something on a list just if it does on every element. -/
theorem isSome_mapM_iff {α β : Type} {f : α → Option β} {l : List α} :
    (l.mapM f).isSome = true ↔ ∀ a ∈ l, (f a).isSome = true := by
  induction l with
  | nil => simp
  | cons a rest ih =>
      rw [List.mapM_cons, List.forall_mem_cons, ← ih]
      cases f a with
      | none => simp
      | some b => cases rest.mapM f <;> simp

/-- A list whose elements are all there is put together to itself. -/
theorem mapM_id_map_some {α : Type} (l : List α) : (l.map some).mapM id = some l := by
  induction l with
  | nil => rfl
  | cons a rest ih =>
      rw [List.map_cons, List.mapM_cons, ih]
      rfl

/-- A list falls into what is before a place, what is at the place, and what is behind it. -/
theorem exists_split_at {α : Type} {l : List α} {k : Nat} (h : k < l.length) :
    ∃ before a after, l = before ++ a :: after ∧ before.length = k := by
  refine ⟨l.take k, l[k], l.drop (k + 1), by simp, ?_⟩
  rw [List.length_take]
  omega

/-- A result that is fine is one with a value. -/
theorem isOk_iff {ε α : Type} {x : Except ε α} : x.isOk = true ↔ ∃ a, x = .ok a := by
  cases x <;> simp [Except.isOk, Except.toBool]

/-- Two steps give a value just if the first gives one from which the second gives it. -/
theorem bind_eq_ok {ε α β : Type} {x : Except ε α} {f : α → Except ε β} {b : β} :
    x.bind f = .ok b ↔ ∃ a, x = .ok a ∧ f a = .ok b := by
  cases x <;> simp [Except.bind]

/-- Two steps end with an error just if the first does, or the second does on the value of the first. -/
theorem bind_eq_error {ε α β : Type} {x : Except ε α} {f : α → Except ε β} {e : ε} :
    x.bind f = .error e ↔ x = .error e ∨ ∃ a, x = .ok a ∧ f a = .error e := by
  cases x <;> simp [Except.bind]

/-- A changed result has a value just if the result has one that is changed into it. -/
theorem map_eq_ok {ε α β : Type} {x : Except ε α} {f : α → β} {b : β} :
    x.map f = .ok b ↔ ∃ a, x = .ok a ∧ f a = b := by
  cases x <;> simp [Except.map]

/-- What a computation ensures that may go wrong: something of its value, and something of its fault. -/
def Ensures {ε α : Type} (good : α → Prop) (bad : ε → Prop) : Except ε α → Prop
  | .ok a => good a
  | .error e => bad e

namespace Ensures

variable {ε α β : Type} {good : α → Prop} {bad : ε → Prop} {x : Except ε α}

/-- What is ensured of the values may be weakened. -/
theorem imp {last : α → Prop} (hx : Ensures good bad x) (h : ∀ a, good a → last a) :
    Ensures last bad x := by
  cases x with
  | error e => exact hx
  | ok a => exact h a hx

/-- Two steps ensure what the second one ensures on every value of the first. -/
theorem bind {f : α → Except ε β} {last : β → Prop} (hx : Ensures good bad x)
    (hf : ∀ a, good a → Ensures last bad (f a)) : Ensures last bad (x >>= f) := by
  cases x with
  | error e => exact hx
  | ok a => exact hf a hx

/-- A changed result ensures what holds of the changed values. -/
theorem map {f : α → β} {last : β → Prop} (hx : Ensures good bad x)
    (hf : ∀ a, good a → last (f a)) : Ensures last bad (x.map f) := by
  cases x with
  | error e => exact hx
  | ok a => exact hf a hx

/-- If a step only ends with errors of some kind, then so does a row of such steps. -/
theorem mapM {f : α → Except ε β} (hf : ∀ a, Ensures (fun _ => True) bad (f a)) (l : List α) :
    Ensures (fun _ => True) bad (l.mapM f) := by
  induction l with
  | nil => exact trivial
  | cons a rest ih =>
      rw [List.mapM_cons]
      exact (hf a).bind fun _ _ => ih.bind fun _ _ => trivial

end Ensures

end PageTree
