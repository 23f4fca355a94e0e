import PageTree.Value
import Mathlib.Data.List.Induction

/-!
# The parts of a value

The items of an array and the values of an object's members are its *parts*. What lies in a value at any
depth is reached by going from part to part, and what holds of a value as soon as it holds of its parts holds
of all values.
-/

set_option autoImplicit false

namespace PageTree

namespace Members

variable {name : Text} {members : Members}

/-- A value that is found stands among the members. -/
theorem mem_of_find? {v : Value} (h : find? name members = some v) : (name, v) ∈ members := by
  induction members with
  | nil => simp [find?] at h
  | cons m rest ih =>
      obtain ⟨key, w⟩ := m
      rw [find?] at h
      split at h
      · next hkey =>
          subst hkey
          obtain rfl := Option.some.inj h
          exact List.mem_cons_self
      · exact List.mem_cons_of_mem _ (ih h)

/-- After a member has been set, its value is found under its key, and under other keys what was found
before. -/
theorem find?_set (key : Text) (v : Value) :
    find? name (set key v members) = if key = name then some v else find? name members := by
  induction members with
  | nil => rfl
  | cons m rest ih =>
      obtain ⟨k, w⟩ := m
      by_cases hkey : k = key
      · subst hkey
        simp only [set, find?, ↓reduceIte]
        split <;> rfl
      · by_cases hname : k = name
        · subst hname
          simp [set, find?, hkey, Ne.symm hkey]
        · simp only [set, find?, hkey, hname, ↓reduceIte, ih]

/-- The last of the members that are given is set last. -/
theorem ofList_append (given : List (Text × Value)) (key : Text) (v : Value) :
    ofList (given ++ [(key, v)]) = set key v (ofList given) := by
  simp [ofList]

/-- A value is the last one that is given to a key. -/
def IsLastOf (name : Text) (v : Value) (given : List (Text × Value)) : Prop :=
  ∃ before behind, given = before ++ (name, v) :: behind ∧ ∀ m ∈ behind, m.1 ≠ name

/-- The last value of a name is that of the last member if the member has the name, and was the last before
otherwise. -/
theorem isLastOf_append {given : List (Text × Value)} {key : Text} {v w : Value} :
    IsLastOf name v (given ++ [(key, w)]) ↔
      key = name ∧ w = v ∨ key ≠ name ∧ IsLastOf name v given := by
  constructor
  · rintro ⟨before, behind, hsplit, hbehind⟩
    rcases List.eq_nil_or_concat behind with rfl | ⟨front, m, rfl⟩
    · obtain ⟨-, hlast⟩ := List.append_inj' hsplit rfl
      simp only [List.cons.injEq, Prod.mk.injEq, and_true] at hlast
      exact .inl hlast
    · rw [List.concat_eq_append] at hsplit hbehind
      rw [← List.cons_append, ← List.append_assoc] at hsplit
      obtain ⟨hfront, hlast⟩ := List.append_inj' hsplit rfl
      obtain rfl := List.singleton_inj.mp hlast
      simp only [List.mem_append, List.mem_singleton] at hbehind
      exact .inr ⟨hbehind _ (.inr rfl), before, front, hfront, fun x hx => hbehind x (.inl hx)⟩
  · rintro (⟨rfl, rfl⟩ | ⟨hkey, before, behind, rfl, hbehind⟩)
    · exact ⟨given, [], rfl, nofun⟩
    · refine ⟨before, behind ++ [(key, w)], by simp, fun m hm => ?_⟩
      rcases List.mem_append.mp hm with hm | hm
      · exact hbehind m hm
      · rw [List.mem_singleton.mp hm]
        exact hkey

/-- Of the values that are given to a key, the last one is found. -/
theorem find?_ofList {given : List (Text × Value)} {v : Value} :
    find? name (ofList given) = some v ↔ IsLastOf name v given := by
  induction given using List.reverseRecOn with
  | nil => simp [ofList, find?, IsLastOf]
  | append_singleton given m ih =>
      obtain ⟨key, w⟩ := m
      rw [ofList_append, find?_set, isLastOf_append]
      by_cases hkey : key = name
      · simp [hkey]
      · simp [hkey, ih]

end Members

namespace Value

/-- The items of an array, and the values of an object's members. -/
def parts : Value → List Value
  | .array items => items
  | .object members => members.map Prod.snd
  | _ => []

/-- What is found under a name in an object is a part of the object. -/
theorem mem_parts_of_find? {name : Text} {members : Members} {v : Value}
    (h : Members.find? name members = some v) : v ∈ parts (.object members) :=
  List.mem_map.mpr ⟨(name, v), Members.mem_of_find? h, rfl⟩

/-- A part of a value is smaller than the value. -/
theorem sizeOf_lt_of_mem_parts {v w : Value} (h : w ∈ v.parts) : sizeOf w < sizeOf v := by
  cases v with
  | array items =>
      have hlt : sizeOf w < sizeOf items := List.sizeOf_lt_of_mem h
      simp only [array.sizeOf_spec]
      omega
  | object members =>
      obtain ⟨m, hm, rfl⟩ := List.mem_map.mp h
      have hlt := List.sizeOf_lt_of_mem hm
      have hsnd : sizeOf m.2 < sizeOf m := by
        cases m
        simp only [Prod.mk.sizeOf_spec]
        omega
      simp only [object.sizeOf_spec]
      omega
  | _ => simp [parts] at h

/-- What holds of a value as soon as it holds of its parts holds of every value. -/
@[elab_as_elim]
theorem partsInduction {motive : Value → Prop}
    (step : ∀ v : Value, (∀ w ∈ v.parts, motive w) → motive v) (v : Value) : motive v :=
  step v fun w _ => partsInduction step w
termination_by sizeOf v
decreasing_by exact sizeOf_lt_of_mem_parts ‹_›

/-- A value lies in another one, at any depth. -/
inductive LiesIn (v : Value) : Value → Prop
  | self : LiesIn v v
  | part {w u : Value} (hpart : w ∈ u.parts) (h : LiesIn v w) : LiesIn v u

end Value

end PageTree
