import PageTree.Proofs.Outline

/-!
# Positions in a forest

Two pages of a forest may be equal, so what an outline lists once is not a page but a position: the number
of a page among those at the top, then the number of a page among those below that one, and so on down to
the page that is meant. A page is below another one if its position goes on where the other one ends.

An outline goes through all positions in the order of a dictionary (`exists_isWalk`). In this order a
position comes before those below it, and they come directly after it, with nothing in between
(`IsWalk.split`).
-/

set_option autoImplicit false

namespace PageTree

/-- Where a page stands in a forest. At the empty position there is none. -/
abbrev Position := List Nat

/-- The page at a position. -/
def pageAt? (pages : List Page) : Position → Option Page
  | [] => none
  | [i] => pages[i]?
  | i :: j :: below => pages[i]?.bind fun page => pageAt? page.children (j :: below)

/-- The page at a position, and its depth if the pages at the top have the given one. -/
def entryAt? (depth : Int) (pages : List Page) (p : Position) : Option (Int × Page) :=
  (pageAt? pages p).map fun page => (depth + p.length - 1, page)

/-- Where a page stands when one more page stands before those at the top. -/
def Position.beside : Position → Position
  | [] => []
  | i :: below => (i + 1) :: below

/-- The positions of all pages of a forest, in the order of a dictionary. -/
structure IsWalk (pages : List Page) (positions : List Position) : Prop where
  mem_iff : ∀ p, p ∈ positions ↔ (pageAt? pages p).isSome = true
  ascending : positions.Pairwise (· < ·)

/-! ## Positions -/

/-- The first page of a forest stands at its top position. -/
theorem pageAt?_top (page : Page) (pages : List Page) : pageAt? (page :: pages) [0] = some page := rfl

/-- A position below the first page of a forest is one among the pages below it. -/
theorem pageAt?_below (page : Page) (pages : List Page) {p : Position} (hp : p ≠ []) :
    pageAt? (page :: pages) (0 :: p) = pageAt? page.children p := by
  cases p with
  | nil => exact absurd rfl hp
  | cons j below => rfl

/-- A position beside the first page of a forest is one among the other pages. -/
theorem pageAt?_beside (page : Page) (pages : List Page) (p : Position) :
    pageAt? (page :: pages) p.beside = pageAt? pages p := by
  rcases p with _ | ⟨i, _ | ⟨j, below⟩⟩ <;> rfl

/-- There is no page at the empty position. -/
theorem ne_nil_of_isSome_pageAt? {pages : List Page} {p : Position}
    (h : (pageAt? pages p).isSome = true) : p ≠ [] := by
  rintro rfl
  exact absurd h (by simp [pageAt?])

/-- A page of a forest is the first one at the top, or it is below that one, or it is among the pages beside
it. -/
theorem isSome_pageAt?_cons_iff (page : Page) (pages : List Page) (p : Position) :
    (pageAt? (page :: pages) p).isSome = true ↔
      p = [0] ∨ (∃ q, (pageAt? page.children q).isSome = true ∧ 0 :: q = p) ∨
        ∃ q, (pageAt? pages q).isSome = true ∧ q.beside = p := by
  constructor
  · intro h
    rcases p with _ | ⟨_ | i, q⟩
    · exact absurd rfl (ne_nil_of_isSome_pageAt? h)
    · by_cases hq : q = []
      · exact .inl (by rw [hq])
      · rw [pageAt?_below page pages hq] at h
        exact .inr (.inl ⟨q, h, rfl⟩)
    · rw [← Position.beside, pageAt?_beside] at h
      exact .inr (.inr ⟨i :: q, h, rfl⟩)
  · rintro (rfl | ⟨q, hq, rfl⟩ | ⟨q, hq, rfl⟩)
    · rfl
    · rwa [pageAt?_below page pages (ne_nil_of_isSome_pageAt? hq)]
    · rwa [pageAt?_beside]

namespace Position

/-- A position beside another one is as deep. -/
theorem length_beside (p : Position) : p.beside.length = p.length := by
  cases p <;> rfl

/-- Positions beside a page are in the order that they have among themselves. -/
theorem beside_lt_beside {p q : Position} : p.beside < q.beside ↔ p < q := by
  cases p with
  | nil => cases q <;> simp [beside]
  | cons i p => cases q <;> simp [beside, List.cons_lt_cons_iff]

/-- A position at or below the first page comes before every one beside it. -/
theorem lt_beside (p : Position) {q : Position} (hq : q ≠ []) : 0 :: p < q.beside := by
  cases q with
  | nil => exact absurd rfl hq
  | cons i q => exact List.cons_lt_cons_iff.mpr (.inl (Nat.succ_pos i))

/-- The position of the first page comes before every one below it. -/
theorem top_lt_below {p : Position} (hp : p ≠ []) : [0] < 0 :: p := by
  cases p with
  | nil => exact absurd rfl hp
  | cons j p => exact List.cons_lt_cons_iff.mpr (.inr ⟨rfl, List.nil_lt_cons j p⟩)

end Position

/-! ## Walks -/

/-- What is between a position and one below it is below it. -/
theorem prefix_of_between {p q r : Position} (hpq : p < q) (hqr : q < r) (h : p <+: r) : p <+: q := by
  induction p generalizing q r with
  | nil => exact List.nil_prefix
  | cons i p ih =>
      obtain ⟨more, rfl⟩ := h
      cases q with
      | nil => exact absurd hpq (List.not_lt_nil _)
      | cons j q =>
          rw [List.cons_append] at hqr
          rcases List.cons_lt_cons_iff.mp hpq with hij | ⟨rfl, htail⟩ <;>
            rcases List.cons_lt_cons_iff.mp hqr with hji | ⟨hji, hrest⟩
          · omega
          · omega
          · exact absurd hji (Nat.lt_irrefl i)
          · exact List.cons_prefix_cons.mpr ⟨rfl, ih htail hrest (List.prefix_append p more)⟩

/-- In an ascending list, what is below the first position comes directly after it. -/
theorem exists_below {p : Position} {positions : List Position}
    (h : (p :: positions).Pairwise (· < ·)) :
    ∃ below beyond, positions = below ++ beyond ∧ (∀ q ∈ below, p <+: q) ∧ ∀ q ∈ beyond, ¬ p <+: q := by
  induction positions with
  | nil => exact ⟨[], [], rfl, nofun, nofun⟩
  | cons q rest ih =>
      obtain ⟨hp, hrest⟩ := List.pairwise_cons.mp h
      have hq := (List.pairwise_cons.mp hrest).1
      by_cases hpq : p <+: q
      · have hshort : (p :: rest).Pairwise (· < ·) :=
          h.sublist (List.Sublist.cons_cons p (List.sublist_cons_self q rest))
        obtain ⟨below, beyond, rfl, hbelow, hbeyond⟩ := ih hshort
        refine ⟨q :: below, beyond, rfl, ?_, hbeyond⟩
        exact List.forall_mem_cons.mpr ⟨hpq, hbelow⟩
      · -- If one further on were below the first position, this one would be, as it is in between.
        refine ⟨[], q :: rest, rfl, nofun, ?_⟩
        refine List.forall_mem_cons.mpr ⟨hpq, fun r hr hpr => hpq ?_⟩
        exact prefix_of_between (hp q List.mem_cons_self) (hq r hr) hpr

namespace IsWalk

variable {pages : List Page} {positions : List Position}

/-- No position of a walk is empty. -/
theorem ne_nil (h : IsWalk pages positions) {p : Position} (hp : p ∈ positions) : p ≠ [] :=
  ne_nil_of_isSome_pageAt? ((h.mem_iff p).mp hp)

/-- No position occurs twice in a walk. -/
theorem nodup (h : IsWalk pages positions) : positions.Nodup := by
  refine h.ascending.imp ?_
  rintro p _ hlt rfl
  exact List.lt_irrefl p hlt

/-- A position comes before those below it, and these come directly after it. -/
theorem split (h : IsWalk pages positions) {before after : List Position} {p : Position}
    (hsplit : positions = before ++ p :: after) :
    (∀ q ∈ before, ¬ p <+: q) ∧
    ∃ below beyond, after = below ++ beyond ∧ (∀ q ∈ below, p <+: q) ∧ ∀ q ∈ beyond, ¬ p <+: q := by
  have hascending := h.ascending
  rw [hsplit] at hascending
  obtain ⟨-, hafter, hbefore⟩ := List.pairwise_append.mp hascending
  refine ⟨fun q hq hpq => ?_, exists_below hafter⟩
  exact List.IsPrefix.le hpq (hbefore q hq p List.mem_cons_self)

/-! ## The walk of an outline -/

/-- The walk through no pages has no positions. -/
theorem nil : IsWalk [] [] where
  mem_iff p := by rcases p with _ | ⟨i, _ | ⟨j, below⟩⟩ <;> simp [pageAt?]
  ascending := List.Pairwise.nil

/-- A walk of some pages goes to the first one, then below it, and then to the pages beside it. -/
theorem cons {page : Page} {below beside : List Position} (hbelow : IsWalk page.children below)
    (hbeside : IsWalk pages beside) :
    IsWalk (page :: pages) ([0] :: (below.map (0 :: ·) ++ beside.map Position.beside)) where
  mem_iff p := by
    simp only [List.mem_cons, List.mem_append, List.mem_map, hbelow.mem_iff, hbeside.mem_iff,
      isSome_pageAt?_cons_iff]
  ascending := by
    refine List.pairwise_cons.mpr ⟨?_, List.pairwise_append.mpr ⟨?_, ?_, ?_⟩⟩
    · simp only [List.mem_append, List.mem_map]
      rintro _ (⟨q, hq, rfl⟩ | ⟨q, hq, rfl⟩)
      · exact Position.top_lt_below (hbelow.ne_nil hq)
      · exact Position.lt_beside [] (hbeside.ne_nil hq)
    · refine List.pairwise_map.mpr (hbelow.ascending.imp fun hlt => ?_)
      exact List.cons_lt_cons_iff.mpr (.inr ⟨rfl, hlt⟩)
    · exact List.pairwise_map.mpr (hbeside.ascending.imp Position.beside_lt_beside.mpr)
    · simp only [List.mem_map]
      rintro _ ⟨p, -, rfl⟩ _ ⟨q, hq, rfl⟩
      exact Position.lt_beside p (hbeside.ne_nil hq)

end IsWalk

/-- The entry at a position below the first page is one of the pages below it, counted from one deeper. -/
theorem entryAt?_below (depth : Int) (page : Page) (pages : List Page) {p : Position} (hp : p ≠ []) :
    entryAt? depth (page :: pages) (0 :: p) = entryAt? (depth + 1) page.children p := by
  have hdepth : depth + (0 :: p).length - 1 = depth + 1 + p.length - 1 := by
    rw [List.length_cons]
    omega
  rw [entryAt?, entryAt?, pageAt?_below page pages hp, hdepth]

/-- The entry at a position beside the first page is one of the other pages. -/
theorem entryAt?_beside (depth : Int) (page : Page) (pages : List Page) (p : Position) :
    entryAt? depth (page :: pages) p.beside = entryAt? depth pages p := by
  rw [entryAt?, entryAt?, pageAt?_beside, Position.length_beside]

/-- An outline lists the entries at the positions of a forest, in the order of a dictionary. -/
theorem exists_isWalk (pages : List Page) :
    ∃ positions, IsWalk pages positions ∧
      ∀ depth, (outline depth pages).map some = positions.map (entryAt? depth pages) := by
  induction pages using forestInduction with
  | nil => exact ⟨[], .nil, fun _ => rfl⟩
  | cons page pages ihbelow ihbeside =>
      obtain ⟨below, hbelow, hbelowEntries⟩ := ihbelow
      obtain ⟨beside, hbeside, hbesideEntries⟩ := ihbeside
      refine ⟨_, hbelow.cons hbeside, fun depth => ?_⟩
      have htop : entryAt? depth (page :: pages) [0] = some (depth, page) := by
        simp [entryAt?, pageAt?_top]
      have hdown : (below.map (0 :: ·)).map (entryAt? depth (page :: pages)) =
          below.map (entryAt? (depth + 1) page.children) := by
        rw [List.map_map]
        refine List.map_congr_left fun p hp => ?_
        exact entryAt?_below depth page pages (hbelow.ne_nil hp)
      have hacross : (beside.map Position.beside).map (entryAt? depth (page :: pages)) =
          beside.map (entryAt? depth pages) := by
        rw [List.map_map]
        exact List.map_congr_left fun p _ => entryAt?_beside depth page pages p
      rw [outline_cons, List.map_cons, List.map_append, hbelowEntries, hbesideEntries, List.map_cons,
        List.map_append, htop, hdown, hacross]

end PageTree
