import PageTree.Page
import Mathlib.Data.List.Basic
import Mathlib.Data.List.Chain

/-!
# Outlines

An outline lists the pages of a forest with their depths. What the other proofs need is how a page finds
the page above it in the list: it is the last one before it whose depth is less by one
(`outline_above`). The pages in between are not higher than the page itself, because the walk leaves a
page only when all that is below it has been listed.

Directly behind a page comes the outline of the pages below it (`outline_children_isPrefix`), and from one
entry to the next the depth goes up by one at most (`isChain_outline`). Forests side by side are listed one
after the other (`outline_append`), and a depth that is counted from elsewhere is shifted (`outline_add`).
-/

set_option autoImplicit false

namespace PageTree

/-! ## Forests -/

/-- What holds of no pages, and of some pages as soon as it holds of those below the first one and of those
beside it, holds of every forest. -/
@[elab_as_elim]
theorem forestInduction {motive : List Page → Prop} (nil : motive [])
    (cons : ∀ page pages, motive page.children → motive pages → motive (page :: pages)) :
    (pages : List Page) → motive pages
  | [] => nil
  | ⟨title, contentPath, attachments, children⟩ :: pages =>
      cons ⟨title, contentPath, attachments, children⟩ pages (forestInduction nil cons children)
        (forestInduction nil cons pages)

/-- The outline of a forest is its first page, then what is below this page, then what is beside it. -/
theorem outline_cons (depth : Int) (page : Page) (pages : List Page) :
    outline depth (page :: pages) =
      (depth, page) :: (outline (depth + 1) page.children ++ outline depth pages) := by
  cases page
  rw [outline, Page.outline]
  rfl

/-- An outline begins with the first page of the forest. -/
theorem head?_outline (depth : Int) (pages : List Page) :
    (outline depth pages).head? = pages.head?.map fun page => (depth, page) := by
  cases pages with
  | nil => rfl
  | cons page pages =>
      rw [outline_cons]
      rfl

/-- The outline of two forests, one behind the other, is that of the first and then that of the second. -/
theorem outline_append (depth : Int) (pages more : List Page) :
    outline depth (pages ++ more) = outline depth pages ++ outline depth more := by
  induction pages with
  | nil => rfl
  | cons page pages ih => rw [List.cons_append, outline, outline, ih, List.append_assoc]

/-- Directly behind a page comes the outline of the pages below it. -/
theorem outline_children_isPrefix {depth : Int} {pages : List Page} {before after : List (Int × Page)}
    {e : Int × Page} (h : outline depth pages = before ++ e :: after) :
    outline (e.1 + 1) e.2.children <+: after := by
  induction pages using forestInduction generalizing depth before after with
  | nil => exact absurd h.symm (by simp [outline])
  | cons page pages ihbelow ihbeside =>
      rw [outline_cons] at h
      cases before with
      | nil =>
          obtain ⟨rfl, rfl⟩ := List.cons.inj h
          exact List.prefix_append _ _
      | cons first before =>
          obtain ⟨-, h⟩ := List.cons.inj h
          -- The entry is behind those of the pages below the first page, or among them.
          rcases List.append_eq_append_iff.mp h with ⟨more, -, hbeside⟩ | ⟨more, hbelow, hmore⟩
          · exact ihbeside hbeside
          · cases more with
            | nil =>
                have hbeside : outline depth pages = [] ++ e :: after := hmore.symm
                exact ihbeside hbeside
            | cons next more =>
                obtain ⟨rfl, rfl⟩ := List.cons.inj hmore
                exact (ihbelow hbelow).trans (List.prefix_append _ _)

/-! ## Depths -/

/-- What is added to the depth that is counted from is added to the depth of every page. -/
theorem outline_add (depth shift : Int) (pages : List Page) :
    outline (depth + shift) pages = (outline depth pages).map fun e => (e.1 + shift, e.2) := by
  induction pages using forestInduction generalizing depth with
  | nil => rfl
  | cons page pages ihbelow ihbeside =>
      have hbelow : outline (depth + shift + 1) page.children =
          (outline (depth + 1) page.children).map fun e => (e.1 + shift, e.2) := by
        rw [← ihbelow (depth + 1), Int.add_right_comm]
      rw [outline_cons, outline_cons, hbelow, ihbeside depth, List.map_cons, List.map_append]

/-- The first entry of an outline has the depth that is counted from. -/
theorem depth_of_mem_head?_outline {depth : Int} {pages : List Page} {e : Int × Page}
    (h : e ∈ (outline depth pages).head?) : e.1 = depth := by
  rw [head?_outline] at h
  obtain ⟨page, -, rfl⟩ := Option.map_eq_some_iff.mp h
  rfl

mutual

/-- No page below a page is higher than it. -/
theorem Page.le_depth_of_mem_outline (depth : Int) :
    (page : Page) → ∀ e ∈ page.outline depth, depth ≤ e.1
  | ⟨title, contentPath, attachments, children⟩ => by
      intro e he
      rw [Page.outline] at he
      rcases List.mem_cons.mp he with rfl | he
      · exact Int.le_refl depth
      · have hbelow := le_depth_of_mem_outline (depth + 1) children e he
        omega

/-- No page of an outline is higher than the depth that is counted from. -/
theorem le_depth_of_mem_outline (depth : Int) :
    (pages : List Page) → ∀ e ∈ outline depth pages, depth ≤ e.1
  | [] => by simp [outline]
  | page :: pages => by
      intro e he
      rw [outline] at he
      rcases List.mem_append.mp he with he | he
      · exact page.le_depth_of_mem_outline depth e he
      · exact le_depth_of_mem_outline depth pages e he

end

/-- From one entry to the next the depth goes up by one at most. -/
theorem isChain_outline (depth : Int) (pages : List Page) :
    (outline depth pages).IsChain fun e next => next.1 ≤ e.1 + 1 := by
  induction pages using forestInduction generalizing depth with
  | nil => exact List.IsChain.nil
  | cons page pages ihbelow ihbeside =>
      rw [outline_cons, ← List.cons_append]
      refine List.isChain_append.mpr ⟨List.isChain_cons.mpr ⟨?_, ihbelow (depth + 1)⟩, ihbeside depth, ?_⟩
      · intro next hnext
        have hdown := depth_of_mem_head?_outline hnext
        omega
      · -- The pages below the first one go as deep as they like, but none of them is above it.
        intro last hlast next hnext
        have hback := depth_of_mem_head?_outline hnext
        have hlow : depth ≤ last.1 := by
          rcases List.mem_cons.mp (List.mem_of_mem_getLast? hlast) with rfl | hlast
          · exact Int.le_refl depth
          · have hbelow := le_depth_of_mem_outline (depth + 1) page.children last hlast
            omega
        omega

/-! ## The page above -/

/-- Among the entries before a page of depth `d`, the last one of depth `d - 1` is the page above it, and
what comes behind that one is not higher than `d`. -/
def IsBelow (before : List (Int × Page)) (d : Int) (page : Page) : Prop :=
  ∃ above parent between, before = above ++ (d - 1, parent) :: between ∧ page ∈ parent.children ∧
    ∀ e ∈ between, d ≤ e.1

/-- What comes first in an outline does not matter to the pages behind it. -/
theorem IsBelow.append {before : List (Int × Page)} {d : Int} {page : Page}
    (h : IsBelow before d page) (first : List (Int × Page)) : IsBelow (first ++ before) d page := by
  obtain ⟨above, parent, between, rfl, hchild, hdepth⟩ := h
  exact ⟨first ++ above, parent, between, by rw [List.append_assoc], hchild, hdepth⟩

mutual

/-- A page of the outline of a page is that page, or it has the page above it before it. -/
theorem Page.outline_above (depth : Int) {d : Int} {q : Page} {rest : List (Int × Page)} :
    (page : Page) → ∀ {before : List (Int × Page)},
      page.outline depth = before ++ (d, q) :: rest → (d = depth ∧ q = page) ∨ IsBelow before d q
  | ⟨title, contentPath, attachments, children⟩, before, h => by
      rw [Page.outline] at h
      cases before with
      | nil =>
          obtain ⟨hfirst, -⟩ := List.cons.inj h
          exact .inl ⟨(congrArg Prod.fst hfirst).symm, (congrArg Prod.snd hfirst).symm⟩
      | cons first before =>
          obtain ⟨rfl, hbelow⟩ := List.cons.inj h
          right
          rcases outline_above (depth + 1) children hbelow with ⟨rfl, hchild⟩ | hdeeper
          · refine ⟨[], ⟨title, contentPath, attachments, children⟩, before, ?_, hchild, ?_⟩
            · rw [Int.add_sub_cancel]
              rfl
            · intro e he
              refine le_depth_of_mem_outline (depth + 1) children e ?_
              rw [hbelow]
              exact List.mem_append_left _ he
          · exact hdeeper.append [_]

/-- A page of an outline is one of the topmost pages, or it has the page above it before it. -/
theorem outline_above (depth : Int) {d : Int} {q : Page} {rest : List (Int × Page)} :
    (pages : List Page) → ∀ {before : List (Int × Page)},
      outline depth pages = before ++ (d, q) :: rest → (d = depth ∧ q ∈ pages) ∨ IsBelow before d q
  | [], before, h => by
      rw [outline] at h
      exact absurd h.symm (by simp)
  | page :: pages, before, h => by
      rw [outline] at h
      have hlater : ∀ more, before = page.outline depth ++ more →
          outline depth pages = more ++ (d, q) :: rest →
          (d = depth ∧ q ∈ page :: pages) ∨ IsBelow before d q := by
        intro more hbefore hmore
        rcases outline_above depth pages hmore with ⟨hdepth, hmem⟩ | hbelow
        · exact .inl ⟨hdepth, List.mem_cons_of_mem page hmem⟩
        · rw [hbefore]
          exact .inr (hbelow.append _)
      -- The page is behind the entries of the first page, or among them. It is also behind them if what is
      -- left of them is empty.
      rcases List.append_eq_append_iff.mp h with ⟨more, hbefore, hmore⟩ | ⟨more, hpage, hmore⟩
      · exact hlater more hbefore hmore
      · cases more with
        | nil =>
            refine hlater [] ?_ hmore.symm
            rw [hpage, List.append_nil, List.append_nil]
        | cons first more =>
            obtain ⟨rfl, -⟩ := List.cons.inj hmore
            rcases Page.outline_above depth page hpage with ⟨hdepth, hq⟩ | hbelow
            · exact .inl ⟨hdepth, hq ▸ List.mem_cons_self⟩
            · exact .inr hbelow

end

end PageTree
