import PageTree.Proofs.Outline.Positions

/-!
# From an outline back to the forest

An outline of which only the rows are kept, that is the depth, the title and the paths of each page but not
the pages below it, still tells the whole forest. Read from the last row to the first, each row takes those
pages behind it for its own that are deeper and have not found a page above them yet (`rebuild`).

So an outline is the forest in another form (`outline_is_faithful`): it has each page once, it is taken apart
and shifted along with the forest, and no two forests have the same rows.
-/

set_option autoImplicit false

namespace PageTree

/-- What an outline tells of a page if the pages below it are left out. -/
structure Row where
  depth : Int
  title : Text
  contentPath : Text
  attachments : List Text
deriving DecidableEq

/-- The row of an entry. -/
def Row.ofEntry (e : Int × Page) : Row := ⟨e.1, e.2.title, e.2.contentPath, e.2.attachments⟩

/-- The rows of an outline. -/
def rows (depth : Int) (pages : List Page) : List Row := (outline depth pages).map Row.ofEntry

/-- The page of a row, put in front of pages that have found no page above them yet. It takes the first ones
of them, as far as they are deeper than the row. -/
def Row.gather (row : Row) (pending : List (Int × Page)) : List (Int × Page) :=
  let below := pending.takeWhile fun e => row.depth < e.1
  let beside := pending.dropWhile fun e => row.depth < e.1
  (row.depth, ⟨row.title, row.contentPath, row.attachments, below.map Prod.snd⟩) :: beside

/-- The forest that rows come from. -/
def rebuild (rs : List Row) : List Page := (rs.foldr Row.gather []).map Prod.snd

/-- Pages with a depth, without it, are the pages. -/
theorem map_snd_mk (depth : Int) (pages : List Page) :
    (pages.map fun page => (depth, page)).map Prod.snd = pages := by
  rw [List.map_map]
  exact List.map_id pages

/-- The rows of a forest are that of the first page, then those of what is below it, then those of what is
beside it. -/
theorem rows_cons (depth : Int) (page : Page) (pages : List Page) :
    rows depth (page :: pages) =
      Row.ofEntry (depth, page) :: (rows (depth + 1) page.children ++ rows depth pages) := by
  rw [rows, outline_cons, List.map_cons, List.map_append]
  rfl

/-- A row takes the pages that are deeper and leaves the others, if the first of these is not deeper. -/
theorem gather_append {row : Row} {below beside : List (Int × Page)}
    (hbelow : ∀ e ∈ below, row.depth < e.1) (hbeside : ∀ e ∈ beside.head?, e.1 ≤ row.depth) :
    row.gather (below ++ beside) =
      (row.depth, ⟨row.title, row.contentPath, row.attachments, below.map Prod.snd⟩) :: beside := by
  have hdeeper : ∀ e ∈ below, decide (row.depth < e.1) = true := fun e he => decide_eq_true (hbelow e he)
  rw [Row.gather, List.takeWhile_append_of_pos hdeeper, List.dropWhile_append_of_pos hdeeper]
  cases beside with
  | nil => rw [List.takeWhile_nil, List.dropWhile_nil, List.append_nil]
  | cons e rest =>
      have hstop : ¬ row.depth < e.1 := Int.not_lt.mpr (hbeside e rfl)
      simp [hstop]

/-- Read from the back, the rows of a forest yield its pages, and what is behind them is left alone if it
starts no deeper than they do. -/
theorem foldr_gather_rows {depth : Int} {pages : List Page} {pending : List (Int × Page)}
    (hpending : ∀ e ∈ pending.head?, e.1 ≤ depth) :
    (rows depth pages).foldr Row.gather pending = pages.map (fun page => (depth, page)) ++ pending := by
  induction pages using forestInduction generalizing depth pending with
  | nil => rfl
  | cons page pages ihbelow ihbeside =>
      have hbeside : ∀ e ∈ (pages.map (fun page => (depth, page)) ++ pending).head?, e.1 ≤ depth := by
        cases pages with
        | nil => exact hpending
        | cons next rest =>
            rintro _ ⟨⟩
            exact Int.le_refl depth
      have hbelow : ∀ e ∈ page.children.map (fun page => (depth + 1, page)), depth < e.1 := by
        intro e he
        obtain ⟨child, -, rfl⟩ := List.mem_map.mp he
        exact Int.lt_succ depth
      -- The pages beside the first one are read before those below it, and wait behind them.
      rw [rows_cons, List.foldr_cons, List.foldr_append, ihbeside hpending,
        ihbelow fun e he => Int.le_add_one (hbeside e he), gather_append hbelow hbeside, map_snd_mk]
      cases page
      rfl

/-- A forest is rebuilt from its rows. -/
theorem rebuild_rows (depth : Int) (pages : List Page) : rebuild (rows depth pages) = pages := by
  rw [rebuild, foldr_gather_rows (by simp), List.append_nil, map_snd_mk]

/-- An outline is the forest in another form. It lists each position once, a page before those below it and
these directly behind it. Its depths start with the given one, never go below it, and go up by one at most.
Forests side by side are listed one after the other, and all depths are shifted along with the first one.
The forest can be rebuilt from the rows, so no other one has the same. -/
theorem outline_is_faithful (depth : Int) (pages : List Page) :
    (∃ positions, IsWalk pages positions ∧ positions.Nodup ∧
      (outline depth pages).map some = positions.map (entryAt? depth pages) ∧
      ∀ before p after, positions = before ++ p :: after →
        (∀ q ∈ before, ¬ p <+: q) ∧
        ∃ below beyond, after = below ++ beyond ∧ (∀ q ∈ below, p <+: q) ∧
          ∀ q ∈ beyond, ¬ p <+: q) ∧
    (∀ before e after, outline depth pages = before ++ e :: after →
      outline (e.1 + 1) e.2.children <+: after) ∧
    (outline depth pages).head? = pages.head?.map (fun page => (depth, page)) ∧
    (∀ e ∈ outline depth pages, depth ≤ e.1) ∧
    ((outline depth pages).IsChain fun e next => next.1 ≤ e.1 + 1) ∧
    (∀ more, outline depth (pages ++ more) = outline depth pages ++ outline depth more) ∧
    (∀ depth', outline depth' pages =
      (outline depth pages).map fun e => (e.1 + (depth' - depth), e.2)) ∧
    rebuild (rows depth pages) = pages ∧
    ∀ depth' pages', rows depth pages = rows depth' pages' → pages = pages' := by
  obtain ⟨positions, hwalk, hentries⟩ := exists_isWalk pages
  refine ⟨⟨positions, hwalk, hwalk.nodup, hentries depth, fun before p after hsplit => hwalk.split hsplit⟩,
    fun before e after hsplit => outline_children_isPrefix hsplit, head?_outline depth pages,
    le_depth_of_mem_outline depth pages, isChain_outline depth pages, outline_append depth pages,
    fun depth' => ?_, rebuild_rows depth pages, fun depth' pages' hrows => ?_⟩
  · rw [← outline_add, Int.add_comm depth, Int.sub_add_cancel]
  · calc pages = rebuild (rows depth pages) := (rebuild_rows depth pages).symm
      _ = rebuild (rows depth' pages') := by rw [hrows]
      _ = pages' := rebuild_rows depth' pages'

/-- Pages at three depths, some of them with the same text in their fields. -/
def bookForest : List Page :=
  [⟨text "A", text "a", [], [⟨text "B", text "b", [text "f"], [⟨text "B", text "b", [], []⟩]⟩,
      ⟨text "B", text "b", [text "f"], []⟩]⟩,
    ⟨text "A", text "a", [], []⟩]

/-- The rows of that forest, at other depths. -/
def bookRows : List Row :=
  [⟨3, text "A", text "a", []⟩, ⟨4, text "B", text "b", [text "f"]⟩, ⟨5, text "B", text "b", []⟩,
    ⟨4, text "B", text "b", [text "f"]⟩, ⟨3, text "A", text "a", []⟩]

/-- The forest comes back from the rows, and it is the only one with these rows. -/
theorem book_forest_is_rebuilt :
    rows 3 bookForest = bookRows ∧ rows 3 bookForest = rows 3 (rebuild bookRows) ∧
      bookForest = rebuild bookRows ∧
      ∀ depth pages, bookRows = rows depth pages → bookForest = pages := by
  have hrows : rows 3 bookForest = bookRows := by decide
  have hsame : rows 3 bookForest = rows 3 (rebuild bookRows) := by decide
  obtain ⟨-, -, -, -, -, -, -, -, honly⟩ := outline_is_faithful 3 bookForest
  exact ⟨hrows, hsame, honly 3 _ hsame, fun depth pages h => honly depth pages (hrows.trans h)⟩

end PageTree
