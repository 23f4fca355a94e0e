import PageTree.Proofs.Rehearsal

/-!
# The page above a page

A request for a page names the page above it by an identifier that the server has given out before, in the
same run. Which one it is, is a matter of the whole run so far: `history` pairs the pages created with
their identifiers, and `parentFor_history` says that the lookup in it finds the identifier of the last page
before that is one level higher, which is the parent in the tree.
-/

set_option autoImplicit false

namespace PageTree

/-! ## Pages among items -/

/-- The page that an item is, with its depth. -/
def Item.entry? : Item → Option (Int × Page)
  | .page depth p => some (depth, p)
  | .attachment _ => none

/-- The pages among items are those of the outline that the items come from. -/
theorem filterMap_entry?_items (entries : List (Int × Page)) :
    (items entries).filterMap Item.entry? = entries := by
  induction entries with
  | nil => rfl
  | cons e rest ih =>
      obtain ⟨depth, page⟩ := e
      have hattachments : (page.attachments.map Item.attachment).filterMap Item.entry? = [] := by
        rw [List.filterMap_map]
        exact List.filterMap_eq_nil_iff.mpr fun path _ => rfl
      have hpage : Item.entry? (.page depth page) = some (depth, page) := rfl
      rw [items_cons, List.filterMap_cons_some hpage, List.filterMap_append, hattachments, ih,
        List.nil_append]

/-! ## The history of a run -/

/-- Pages created one after the other, with their identifiers. -/
def history (entries : List (Int × Page)) (ids : List Text) : Created :=
  ((entries.map Prod.fst).zip ids).reverse

/-- The history of two lists of entries, one behind the other, is the second history before the first one. -/
theorem history_append {a b : List (Int × Page)} {idsA idsB : List Text}
    (h : a.length = idsA.length) :
    history (a ++ b) (idsA ++ idsB) = history b idsB ++ history a idsA := by
  unfold history
  rw [List.map_append, List.zip_append (by rw [List.length_map, h]), List.reverse_append]

/-- The history of an entry and those behind it, before what was there already, is that of those behind it
before the entry. -/
theorem history_cons (e : Int × Page) (rest : List (Int × Page)) (id : Text) (ids : List Text)
    (created : Created) :
    history (e :: rest) (id :: ids) ++ created = history rest ids ++ (e.1, id) :: created := by
  have happend : history ([e] ++ rest) ([id] ++ ids) = history rest ids ++ history [e] [id] :=
    history_append rfl
  rw [List.singleton_append, List.singleton_append] at happend
  rw [happend, List.append_assoc]
  rfl

/-- Every depth in a history is the depth of an entry. -/
theorem depth_of_mem_history {entries : List (Int × Page)} {ids : List Text} {c : Int × Text}
    (h : c ∈ history entries ids) : ∃ e ∈ entries, e.1 = c.1 := by
  obtain ⟨depth, id⟩ := c
  have hdepth := (List.of_mem_zip (List.mem_reverse.mp h)).1
  exact List.mem_map.mp hdepth

namespace Publisher

variable {p : Publisher} {files : FileSystem}

/-- The request at place `j` among those that create pages is prepared for the page at place `j`, with the
identifiers that came back for the pages before. -/
theorem creation_of_rehearse {todo : List Item} {v : Server} {created : Created} {j : Nat}
    {x : Post × Response}
    (h : (v.creations (p.rehearse files v created todo).1)[j]? = some x) :
    ∃ before depth page rest ids,
      todo.filterMap Item.entry? = before ++ (depth, page) :: rest ∧ before.length = j ∧
        ((v.creations (p.rehearse files v created todo).1).take j).map
          (fun x => x.2.identifier?) = ids.map some ∧
        p.prepare files (history before ids ++ created) (.page depth page) = .ok x.1 := by
  induction todo generalizing v created j with
  | nil => simp [rehearse_nil] at h
  | cons item todo ih =>
      rcases p.rehearse_cases_sent files v created item todo with
        hsent | ⟨post, ps, hprepare, hsent, hps⟩
      · simp [hsent] at h
      have hactivity := activity_of_prepare hprepare
      rw [hsent] at h ⊢
      cases item with
      | page depth page =>
          rw [Server.creations_cons_page hactivity] at h ⊢
          cases j with
          | zero =>
              obtain rfl := Option.some.inj h
              exact ⟨[], depth, page, todo.filterMap Item.entry?, [], rfl, rfl, rfl, hprepare⟩
          | succ j =>
              rw [List.getElem?_cons_succ] at h
              rcases hps with rfl | ⟨next, hconclude, rfl⟩
              · simp at h
              -- The page has its identifier, and is the first one in the history of the pages behind it.
              obtain ⟨id, hid, rfl⟩ := map_eq_ok.mp hconclude
              rw [Response.identified_eq_ok] at hid
              obtain ⟨before, d, q, rest, ids, hentries, hj, hids, hprepared⟩ := ih h
              refine ⟨(depth, page) :: before, d, q, rest, id :: ids, ?_, ?_, ?_, ?_⟩
              · exact congrArg ((depth, page) :: ·) hentries
              · rw [List.length_cons, hj]
              · rw [List.take_succ_cons, List.map_cons]
                exact congrArg₂ List.cons hid hids
              · rw [history_cons]
                exact hprepared
      | attachment path =>
          rw [Server.creations_cons_attachment hactivity] at h ⊢
          rcases hps with rfl | ⟨next, hconclude, rfl⟩
          · simp at h
          obtain ⟨-, -, rfl⟩ := map_eq_ok.mp hconclude
          exact ih h

end Publisher

/-! ## The page above in the history -/

/-- The entry at place `i` is the last one before place `j` that is one level higher. -/
def IsLastAbove (entries : List (Int × Page)) (i j : Nat) : Prop :=
  i < j ∧ ∃ d, (entries[j]?).map Prod.fst = some d ∧ (entries[i]?).map Prod.fst = some (d - 1) ∧
    ∀ k, i < k → k < j → (entries[k]?).map Prod.fst ≠ some (d - 1)

/-- An entry is the last one above another if nothing between them lies higher than the other. -/
theorem isLastAbove_of_split {above between rest : List (Int × Page)} {d : Int} {parent page : Page}
    (h : ∀ e ∈ between, d ≤ e.1) :
    IsLastAbove (above ++ (d - 1, parent) :: between ++ (d, page) :: rest) above.length
      (above ++ (d - 1, parent) :: between).length := by
  refine ⟨by simp, d, by simp, by simp, ?_⟩
  intro k hik hkj
  rw [List.getElem?_append_left hkj, List.getElem?_append_right (Nat.le_of_lt hik)]
  obtain ⟨m, hm⟩ : ∃ m, k - above.length = m + 1 := ⟨k - above.length - 1, by omega⟩
  rw [hm, List.getElem?_cons_succ]
  cases hentry : between[m]? with
  | none => simp
  | some e =>
      have hdepth := h e (List.mem_of_getElem? hentry)
      simp only [Option.map_some, ne_eq, Option.some.injEq]
      omega

namespace Publisher

variable {p : Publisher}

/-- For a page of the outline of a tree, the lookup in the history yields what the tree names for the
topmost pages, or the identifier of the parent, which is the last page before that is one level higher. -/
theorem parentFor_history {pages : List Page} {before rest : List (Int × Page)} {d : Int} {page : Page}
    {ids : List Text} (h : outline 0 pages = before ++ (d, page) :: rest)
    (hids : before.length = ids.length) :
    (d = 0 ∧ p.parentFor (history before ids) d = p.metadata.parentId) ∨
      (0 < d ∧ ∃ i parent id, IsLastAbove (outline 0 pages) i before.length ∧
        (outline 0 pages)[i]? = some (d - 1, parent) ∧ page ∈ parent.children ∧
        ids[i]? = some id ∧ p.parentFor (history before ids) d = some id) := by
  rcases outline_above 0 pages h with ⟨rfl, -⟩ | ⟨above, parent, between, rfl, hchild, hbetween⟩
  · left
    have hhigher : ∀ c ∈ history before ids, 0 ≤ c.1 := by
      intro c hc
      obtain ⟨e, he, hec⟩ := depth_of_mem_history hc
      rw [← hec]
      refine le_depth_of_mem_outline 0 pages e ?_
      rw [h]
      exact List.mem_append_left _ he
    have hlookup : p.parentFor (history before ids ++ []) 0 = p.metadata.parentId :=
      parentFor_append hhigher
    rw [List.append_nil] at hlookup
    exact ⟨rfl, hlookup⟩
  · right
    have hparent : (outline 0 pages)[above.length]? = some (d - 1, parent) := by
      rw [h]
      simp
    have hdepth := le_depth_of_mem_outline 0 pages _ (List.mem_of_getElem? hparent)
    have hlt : above.length < ids.length := by
      rw [← hids]
      simp
    obtain ⟨idsA, id, idsB, rfl, hlength⟩ := exists_split_at hlt
    refine ⟨by omega, above.length, parent, id, ?_, hparent, hchild, ?_, ?_⟩
    · rw [h]
      exact isLastAbove_of_split hbetween
    · rw [← hlength]
      simp
    · -- The lookup goes past what lies between the parent and the page, since nothing there is higher than
      -- the page.
      have hhigher : ∀ c ∈ history between idsB, d ≤ c.1 := by
        intro c hc
        obtain ⟨e, he, hec⟩ := depth_of_mem_history hc
        rw [← hec]
        exact hbetween e he
      have hlast := p.parentFor_cons id (history above idsA) (d - 1)
      rw [Int.sub_add_cancel] at hlast
      rw [history_append hlength.symm, history_cons, parentFor_append hhigher]
      exact hlast

/-! ## Ancestors in a run -/

/-- The creations of a run are those of the outline's pages, up to a point, and each was prepared from what
came back before it. -/
theorem creation_of_publish {p : Publisher} {w : World} {j : Nat} {x : Post × Response}
    (h : (p.creations w)[j]? = some x) :
    ∃ d page, (outline 0 p.metadata.pages)[j]? = some (d, page) ∧ p.Creates w.files page x.1 ∧
      ((d = 0 ∧ x.1.ancestors? = ancestorsBelow p.metadata.parentId) ∨
        (0 < d ∧ ∃ i parent id, IsLastAbove (outline 0 p.metadata.pages) i j ∧
          (outline 0 p.metadata.pages)[i]? = some (d - 1, parent) ∧ page ∈ parent.children ∧
          ((p.creations w)[i]?.bind fun y => y.2.identifier?) = some id ∧
          x.1.ancestors? = ancestorsBelow (some id))) := by
  unfold creations at h ⊢
  rw [publish_sent] at h ⊢
  obtain ⟨before, d, page, rest, ids, hentries, rfl, hids, hprepare⟩ := creation_of_rehearse h
  rw [filterMap_entry?_items] at hentries
  rw [List.append_nil] at hprepare
  obtain ⟨hcreates, hancestors⟩ := creates_of_prepare hprepare
  have hlength : before.length = ids.length := by
    have hlengths := congrArg List.length hids
    have hj := (List.getElem?_eq_some_iff.mp h).1
    simp only [List.length_map, List.length_take] at hlengths
    omega
  refine ⟨d, page, by rw [hentries]; simp, hcreates, ?_⟩
  rcases parentFor_history (p := p) hentries hlength with
    ⟨hd, hparent⟩ | ⟨hd, i, parent, id, habove, hi, hchild, hid, hparent⟩
  · exact .inl ⟨hd, hparent ▸ hancestors⟩
  · refine .inr ⟨hd, i, parent, id, habove, hi, hchild, ?_, hparent ▸ hancestors⟩
    have hmap := congrArg (fun l => l[i]?) hids
    simp only [List.getElem?_map, List.getElem?_take_of_lt habove.1, hid, Option.map_some] at hmap
    obtain ⟨y, hy, hyid⟩ := Option.map_eq_some_iff.mp hmap
    rw [hy]
    exact hyid

/-- In every run, whether it comes to an end or not, the request at place `j` among those that create pages
creates the page at place `j` of the outline. If the server has given out no blank identifiers, it names
exactly the last page before that is one level higher, by the identifier that came back for that page. A
topmost page names the page above the whole tree, or none if the tree has none. -/
theorem publish_threads_parents (p : Publisher) (w : World)
    (hids : ∀ x ∈ p.creations w, ∀ id, x.2.identifier? = some id →
      Text.isBlank id = false)
    (j : Nat) (post : Post) (r : Response)
    (hpost : (p.creations w)[j]? = some (post, r)) :
    ∃ d page, (outline 0 p.metadata.pages)[j]? = some (d, page) ∧ 0 ≤ d ∧
      p.Creates w.files page post ∧
      (0 < d → ∃ i id, IsLastAbove (outline 0 p.metadata.pages) i j ∧
        ((p.creations w)[i]?.bind fun x => x.2.identifier?) = some id ∧
        post.ancestors? = some (onlyAncestor id)) ∧
      (d = 0 → post.ancestors? =
        match p.metadata.parentId with
        | some id => if Text.isBlank id then none else some (onlyAncestor id)
        | none => none) := by
  obtain ⟨d, page, hentry, hcreates, htop | ⟨hd, i, parent, id, habove, -, -, hid, hancestors⟩⟩ :=
    creation_of_publish hpost
  · obtain ⟨hd, hancestors⟩ := htop
    refine ⟨d, page, hentry, by omega, hcreates, fun hpos => by omega, fun _ => ?_⟩
    rw [hancestors]
    rfl
  · refine ⟨d, page, hentry, by omega, hcreates, fun _ => ⟨i, id, habove, hid, ?_⟩, fun hzero => by omega⟩
    obtain ⟨y, hy, hyid⟩ := Option.bind_eq_some_iff.mp hid
    have hblank := hids y (List.mem_of_getElem? hy) id hyid
    rw [hancestors, ancestorsBelow, hblank]
    rfl

/-- The page `B` of the small tree names the page `A` above it. -/
theorem small_tree_threads_parents :
    (∀ x ∈ smallTree.creations (smallWorld (text "1")),
      ∀ id, x.2.identifier? = some id → Text.isBlank id = false) ∧
    ∃ post r, (smallTree.creations (smallWorld (text "1")))[1]? = some (post, r) ∧
      post.ancestors? = some (onlyAncestor (text "1")) := by
  have hids : ∀ x ∈ smallTree.creations (smallWorld (text "1")),
      ∀ id, x.2.identifier? = some id → Text.isBlank id = false := by
    have hall : ∀ x ∈ smallTree.creations (smallWorld (text "1")),
        x.2.identifier?.map Text.isBlank = some false := by decide +kernel
    intro x hx id hid
    simpa [hid] using hall x hx
  have hsecond : ∃ x, (smallTree.creations (smallWorld (text "1")))[1]? = some x :=
    ⟨_, List.getElem?_eq_getElem (by decide +kernel)⟩
  obtain ⟨⟨post, r⟩, hpost⟩ := hsecond
  obtain ⟨d, page, hentry, -, -, hbelow, -⟩ :=
    publish_threads_parents smallTree _ hids 1 post r hpost
  have hd : 1 = d := congrArg Prod.fst (Option.some.inj hentry)
  obtain ⟨i, id, habove, hid, hancestors⟩ := hbelow (by omega)
  obtain rfl : i = 0 := Nat.lt_one_iff.mp habove.1
  have hfirst : ((smallTree.creations (smallWorld (text "1")))[0]?.bind fun x => x.2.identifier?) =
        some (text "1") := by decide +kernel
  rw [hfirst] at hid
  obtain rfl := Option.some.inj hid
  exact ⟨hids, post, r, hpost, hancestors⟩

/-- In every run, a request for a page below the top names its parent in the tree, by the identifier that
came back for the parent, just if that identifier is not blank. If it is blank, the request names no page
above at all, and the page is created at the top. -/
theorem child_names_parent_iff (p : Publisher) (w : World) (j : Nat) (post : Post) (r : Response)
    (hpost : (p.creations w)[j]? = some (post, r)) :
    ∃ d page, (outline 0 p.metadata.pages)[j]? = some (d, page) ∧ p.Creates w.files page post ∧
      (0 < d → ∃ i parent id, IsLastAbove (outline 0 p.metadata.pages) i j ∧
        (outline 0 p.metadata.pages)[i]? = some (d - 1, parent) ∧ page ∈ parent.children ∧
        ((p.creations w)[i]?.bind fun x => x.2.identifier?) = some id ∧
        (post.ancestors? = some (onlyAncestor id) ↔ Text.isBlank id = false) ∧
        (post.ancestors? = none ↔ Text.isBlank id = true)) := by
  obtain ⟨d, page, hentry, hcreates, ⟨hd, -⟩ | ⟨hd, i, parent, id, habove, hi, hchild, hid, hancestors⟩⟩ :=
    creation_of_publish hpost
  · exact ⟨d, page, hentry, hcreates, fun hpos => by omega⟩
  · refine ⟨d, page, hentry, hcreates, fun _ => ⟨i, parent, id, habove, hi, hchild, hid, ?_⟩⟩
    rw [hancestors, ancestorsBelow]
    cases Text.isBlank id <;> simp

/-- If the page `A` of the small tree gets a blank identifier, the request for the page `B` below it names
no page above. -/
theorem small_tree_drops_blank_parent :
    ∃ post r, (smallTree.creations (smallWorld (text " ")))[1]? = some (post, r) ∧
      ∃ d page, (outline 0 smallTree.metadata.pages)[1]? = some (d, page) ∧ 0 < d ∧
        post.ancestors? = none := by
  have hsecond : ∃ x, (smallTree.creations (smallWorld (text " ")))[1]? = some x :=
    ⟨_, List.getElem?_eq_getElem (by decide +kernel)⟩
  obtain ⟨⟨post, r⟩, hpost⟩ := hsecond
  obtain ⟨d, page, hentry, -, hbelow⟩ := child_names_parent_iff smallTree _ 1 post r hpost
  have hd : 1 = d := congrArg Prod.fst (Option.some.inj hentry)
  obtain ⟨i, parent, id, habove, -, -, hid, -, hnone⟩ := hbelow (by omega)
  obtain rfl : i = 0 := Nat.lt_one_iff.mp habove.1
  have hfirst : ((smallTree.creations (smallWorld (text " ")))[0]?.bind fun x => x.2.identifier?) =
        some (text " ") := by decide +kernel
  rw [hfirst] at hid
  obtain rfl := Option.some.inj hid
  exact ⟨post, r, hpost, d, page, hentry, by omega, hnone.mpr (by decide)⟩

/-- So it is not true of every server that a request for a page below the top names its parent. -/
theorem child_may_name_no_parent :
    ¬ ∀ (j : Nat) (post : Post) (r : Response) (d : Int) (page : Page),
      (smallTree.creations (smallWorld (text " ")))[j]? = some (post, r) →
      (outline 0 smallTree.metadata.pages)[j]? = some (d, page) → 0 < d →
      ∃ i id, IsLastAbove (outline 0 smallTree.metadata.pages) i j ∧
        ((smallTree.creations (smallWorld (text " ")))[i]?.bind fun x => x.2.identifier?) =
            some id ∧
        post.ancestors? = some (onlyAncestor id) := by
  intro hall
  have hnone : ((smallTree.creations (smallWorld (text " ")))[1]?.map fun x => x.1.ancestors?.isSome) =
        some false := by decide +kernel
  obtain ⟨⟨post, r⟩, hpost, hx⟩ := Option.map_eq_some_iff.mp hnone
  obtain ⟨i, id, -, -, hancestors⟩ := hall 1 post r 1 _ hpost rfl (by omega)
  rw [hancestors] at hx
  exact absurd hx (by simp)

end Publisher

end PageTree
