import PageTree.Proofs.Outline
import PageTree.Proofs.Json.RoundTrip

/-!
# Room for a tree

The writer has room for 255 arrays and objects inside each other. In the value of a tree, the pages of each
level stand in an array in an object, so every level above a page takes two of them, and the page takes one or
two for itself (`Page.ownLevels`). A tree is shallow if this leaves room for each page of its outline
(`Metadata.IsShallow`).

`Metadata.obstacle?_toValue` says that this is all that can stand in the way of a tree without surrogates.
Behind it is an induction over forests that carries the room that is left (`itemObstacle?_toValues`).
-/

set_option autoImplicit false

namespace PageTree

/-! ## Texts and depths -/

mutual

/-- All the texts of a page and of the pages below it. -/
def Page.texts : Page → List Text
  | ⟨title, contentPath, attachments, children⟩ =>
    title :: contentPath :: attachments ++ Page.textsOf children

/-- All the texts of pages. -/
def Page.textsOf : List Page → List Text
  | [] => []
  | page :: pages => page.texts ++ Page.textsOf pages

end

/-- All the texts of a tree. -/
def Metadata.texts (m : Metadata) : List Text :=
  m.spaceKey :: Page.textsOf m.pages ++ m.parentId.toList

/-- How many arrays and objects stand inside each other in what is written of a page, the pages below it left
aside: the object of the page, and the array of its attachments if it has any. -/
def Page.ownLevels (page : Page) : Nat := if page.attachments = [] then 1 else 2

/-- There is room for every page of a tree. The object and the array of the level stand around the pages of
each level, and the first level stands in those of the tree. -/
def Metadata.IsShallow (m : Metadata) : Prop :=
  ∀ e ∈ outline 0 m.pages, 2 + (2 * e.1 + e.2.ownLevels) ≤ Json.maxNesting

instance (m : Metadata) : Decidable m.IsShallow := inferInstanceAs (Decidable (∀ e ∈ _, _))

/-! ## Objects and arrays -/

/-- What stands in the way of fields stands in one that is not left out, or there is no room for any. -/
theorem obstacle?_withoutDefaults {room : Nat} {fields : Members} :
    Json.obstacle? room (withoutDefaults fields) = none ↔ ∃ inner, room = inner + 1 ∧
      ∀ f ∈ fields, isDefault f.2 = false →
        f.1.hasSurrogate = false ∧ Json.obstacle? inner f.2 = none := by
  rw [withoutDefaults, Json.obstacle?_object_eq_none]
  simp only [Json.memberObstacle?_eq_none, List.mem_filter, Bool.not_eq_true', and_imp]

/-- An array of nothing is left out, and any other needs room for itself and for its items. -/
theorem obstacle?_array_unless_default {room : Nat} {items : List Value} :
    (isDefault (.array items) = false → Json.obstacle? room (.array items) = none) ↔
      items = [] ∨ ∃ inner, room = inner + 1 ∧ Json.itemObstacle? inner items = none := by
  rw [Json.obstacle?_array_eq_none]
  cases items <;> simp [isDefault]

/-- Nothing stands in the way of texts without surrogates. -/
theorem itemObstacle?_str {room : Nat} {texts : List Text} (h : ∀ s ∈ texts, s.hasSurrogate = false) :
    Json.itemObstacle? room (texts.map .str) = none := by
  rw [Json.itemObstacle?_eq_none]
  intro v hv
  obtain ⟨s, hs, rfl⟩ := List.mem_map.mp hv
  exact Json.obstacle?_str (h s hs)

/-! ## Pages -/

/-- The texts of a page are its own and those of the pages below it. -/
theorem Page.texts_eq (page : Page) :
    page.texts = page.title :: page.contentPath :: page.attachments ++ Page.textsOf page.children := by
  cases page
  rfl

/-- There are no values just if there are no pages. -/
theorem Page.toValues_eq_nil {pages : List Page} : Page.toValues pages = [] ↔ pages = [] := by
  cases pages <;> simp [Page.toValues]

/-- Every page needs room for its object. -/
theorem Page.ownLevels_pos (page : Page) : 0 < page.ownLevels := by
  unfold Page.ownLevels
  split <;> decide

/-- A page needs room for its object, and then for an array unless it has no attachments. -/
theorem Page.ownLevels_le_iff {page : Page} {room : Nat} :
    page.ownLevels ≤ room ↔
      ∃ inner, room = inner + 1 ∧ (page.attachments = [] ∨ ∃ rest, inner = rest + 1) := by
  unfold Page.ownLevels
  split
  · next hnone =>
      simp only [hnone, true_or, and_true]
      exact ⟨fun h => ⟨room - 1, by omega⟩, fun ⟨_, hroom⟩ => by omega⟩
  · next hsome =>
      simp only [hsome, false_or]
      exact ⟨fun h => ⟨room - 1, by omega, room - 2, by omega⟩, fun ⟨_, hroom, _, hrest⟩ => by omega⟩

/-- A page needs room for its own fields, and two places more than the pages below it. -/
theorem Page.obstacle?_toValue {page : Page} {room : Nat}
    (h : ∀ s ∈ page.title :: page.contentPath :: page.attachments, s.hasSurrogate = false) :
    Json.obstacle? room page.toValue = none ↔ page.ownLevels ≤ room ∧
      (page.children = [] ∨ ∃ inner, room = inner + 2 ∧
        Json.itemObstacle? inner (Page.toValues page.children) = none) := by
  obtain ⟨title, contentPath, attachments, children⟩ := page
  simp only [List.forall_mem_cons] at h
  obtain ⟨htitle, hcontent, hattachments⟩ := h
  rw [Page.toValue, obstacle?_withoutDefaults, Page.ownLevels_le_iff]
  -- Only the two arrays need room: the attachments for themselves, the children for all that is in them.
  simp only [List.forall_mem_cons, Text.hasSurrogate_text, true_and, Json.obstacle?_str htitle,
    Json.obstacle?_str hcontent, implies_true, obstacle?_array_unless_default, List.map_eq_nil_iff,
    itemObstacle?_str hattachments, and_true, Page.toValues_eq_nil, List.not_mem_nil, false_implies]
  constructor
  · rintro ⟨inner, rfl, hown, hbelow⟩
    refine ⟨⟨inner, rfl, hown⟩, hbelow.imp_right ?_⟩
    rintro ⟨rest, rfl, hitems⟩
    exact ⟨rest, rfl, hitems⟩
  · rintro ⟨⟨inner, rfl, hown⟩, hbelow⟩
    refine ⟨inner, rfl, hown, hbelow.imp_right ?_⟩
    rintro ⟨rest, hroom, hitems⟩
    exact ⟨rest, Nat.add_right_cancel hroom, hitems⟩

/-- Two places are taken before the pages below a page. If their room can be told from their outline, so can
that of the page. -/
theorem childrenRoom_iff {children : List Page} {depth : Int} (room : Nat)
    (hrest : ∀ inner : Nat, Json.itemObstacle? inner (Page.toValues children) = none ↔
      ∀ e ∈ outline (depth + 1) children, 2 * (e.1 - (depth + 1)) + e.2.ownLevels ≤ inner) :
    (children = [] ∨ ∃ inner, room = inner + 2 ∧
        Json.itemObstacle? inner (Page.toValues children) = none) ↔
      ∀ e ∈ outline (depth + 1) children, 2 * (e.1 - depth) + e.2.ownLevels ≤ room := by
  simp only [hrest]
  constructor
  · rintro (rfl | ⟨inner, rfl, hroom⟩) e he
    · cases he
    · have hentry := hroom e he
      omega
  · intro hroom
    cases children with
    | nil => exact .inl rfl
    | cons child rest =>
        -- The first child needs the two places and one for itself.
        have hchild := hroom (depth + 1, child) (by rw [outline_cons]; exact List.mem_cons_self)
        have hpos := child.ownLevels_pos
        refine .inr ⟨room - 2, by omega, ?_⟩
        intro e he
        have hentry := hroom e he
        omega

/-- There is room for pages just if there is room for each page of their outline. -/
theorem itemObstacle?_toValues {pages : List Page} (room : Nat) (depth : Int)
    (h : ∀ s ∈ Page.textsOf pages, s.hasSurrogate = false) :
    Json.itemObstacle? room (Page.toValues pages) = none ↔
      ∀ e ∈ outline depth pages, 2 * (e.1 - depth) + e.2.ownLevels ≤ room := by
  induction pages using forestInduction generalizing room depth with
  | nil => simp [Page.toValues, Json.itemObstacle?, outline]
  | cons page pages ihbelow ihbeside =>
      simp only [Page.textsOf, Page.texts_eq, List.forall_mem_append] at h
      obtain ⟨⟨hown, htexts⟩, hbeside⟩ := h
      have hbelow := childrenRoom_iff room fun inner => ihbelow inner (depth + 1) htexts
      have hfirst : 2 * (depth - depth) + (page.ownLevels : Int) ≤ room ↔ page.ownLevels ≤ room := by omega
      rw [Page.toValues, Json.itemObstacle?, Option.or_eq_none_iff, Page.obstacle?_toValue hown, hbelow,
        ihbeside room depth hbeside, outline_cons, List.forall_mem_cons, List.forall_mem_append, hfirst,
        and_assoc]

/-- Nothing stands in the way of a tree without surrogates just if its pages are not too deep. -/
theorem Metadata.obstacle?_toValue {m : Metadata} (h : ∀ s ∈ m.texts, s.hasSurrogate = false) :
    Json.obstacle? Json.maxNesting m.toValue = none ↔ m.IsShallow := by
  simp only [Metadata.texts, List.cons_append, List.forall_mem_cons, List.forall_mem_append] at h
  obtain ⟨hspace, hpages, hparents⟩ := h
  have hparent (room : Nat) : Json.obstacle? room (optionalValue m.parentId) = none := by
    cases hid : m.parentId with
    | none => rfl
    | some id => exact Json.obstacle?_str (hparents id (by simp [hid]))
  rw [Metadata.toValue, obstacle?_withoutDefaults]
  simp only [List.forall_mem_cons, Text.hasSurrogate_text, true_and, Json.obstacle?_str hspace,
    implies_true, obstacle?_array_unless_default, hparent, and_true, List.not_mem_nil, false_implies,
    Page.toValues_eq_nil]
  constructor
  · rintro ⟨_, hroom, hnone | ⟨inner, rfl, hitems⟩⟩ e he
    · rw [hnone] at he
      cases he
    · have hentry := (itemObstacle?_toValues _ 0 hpages).mp hitems e he
      omega
  · intro hshallow
    refine ⟨254, rfl, .inr ⟨253, rfl, (itemObstacle?_toValues _ 0 hpages).mpr ?_⟩⟩
    intro e he
    have hentry := hshallow e he
    unfold Json.maxNesting at hentry
    omega

/-- Pages may be 127 levels deep, and those of the last level may have no attachments. -/
theorem Metadata.isShallow_iff {m : Metadata} :
    m.IsShallow ↔ ∀ e ∈ outline 0 m.pages, e.1 ≤ 126 ∧ (e.1 = 126 → e.2.attachments = []) := by
  unfold Metadata.IsShallow Json.maxNesting Page.ownLevels
  refine forall₂_congr fun e _ => ?_
  split
  · next hnone =>
      simp only [hnone, implies_true, and_true]
      omega
  · next hsome =>
      simp only [hsome, imp_false]
      omega

/-! ## Trees of one branch -/

namespace Metadata

/-- Pages of one letter below each other, as many as are asked for. -/
def nestedPages : Nat → List Page
  | 0 => []
  | n + 1 => [⟨text "A", text "a", [], nestedPages n⟩]

/-- A tree of such pages. -/
def nestedTree (n : Nat) : Metadata := ⟨text "S", nestedPages n, none⟩

/-- The only texts of the nested pages are the two letters. -/
theorem mem_textsOf_nestedPages {n : Nat} {s : Text} (h : s ∈ Page.textsOf (nestedPages n)) :
    s ∈ [text "A", text "a"] := by
  induction n with
  | zero => cases h
  | succ n ih =>
      simp only [nestedPages, Page.textsOf, Page.texts, List.append_nil, List.cons_append, List.nil_append,
        List.mem_cons] at h
      rcases h with rfl | rfl | h
      · exact List.mem_cons_self
      · exact List.mem_cons_of_mem _ List.mem_cons_self
      · exact ih h

/-- What holds of the three texts of such a tree holds of all its texts. -/
theorem forall_mem_texts_nestedTree {P : Text → Prop} (n : Nat)
    (h : ∀ s ∈ [text "S", text "A", text "a"], P s) : ∀ s ∈ (nestedTree n).texts, P s := by
  intro s hs
  simp only [Metadata.texts, nestedTree, Option.toList_none, List.append_nil, List.mem_cons] at hs
  rcases hs with rfl | hs
  · exact h _ List.mem_cons_self
  · exact h s (List.mem_cons_of_mem _ (mem_textsOf_nestedPages hs))

/-- There is room for such pages just if there is room for the deepest one. -/
theorem outline_nestedPages_fits {n : Nat} {depth room : Int} :
    (∀ e ∈ outline depth (nestedPages n), 2 + (2 * e.1 + e.2.ownLevels) ≤ room) ↔
      n = 0 ∨ 2 * (depth + n) + 1 ≤ room := by
  induction n generalizing depth with
  | zero => simp [nestedPages, outline]
  | succ n ih =>
      rw [nestedPages, outline_cons, List.forall_mem_cons, List.forall_mem_append, ih]
      simp only [outline, List.not_mem_nil, false_implies, implies_true, and_true, Page.ownLevels,
        ↓reduceIte]
      omega

/-- At most 127 such pages can be saved. -/
theorem isShallow_nestedTree_iff {n : Nat} : (nestedTree n).IsShallow ↔ n ≤ 127 := by
  rw [IsShallow, nestedTree, outline_nestedPages_fits, Json.maxNesting]
  omega

end Metadata

end PageTree
