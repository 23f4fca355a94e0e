import PageTree.Proofs.FileSystem

/-!
# Writing a file

A file is written by the names that lead down to it from the top, and read by following its path name by
name. `read_write` says that what has been written is read again, wherever there can be a file at all
(`CanHold`). Writing changes no directory into anything else, so the walk to the file still goes through.
-/

set_option autoImplicit false

namespace PageTree.FileSystem

/-- There can be a file at a path: its names lead to a directory and from there to a name that is not too
long and that no directory has. -/
structure CanHold (fs : FileSystem) (p : Path) : Prop where
  reachable : ∃ names before name top here, pathBytes p = .ok names ∧
    fs.route p names = before ++ [name] ∧ name ≠ above ∧ name.length ≤ longestName ∧
    fs.top = .directory top ∧ walk [] top before = .ok (.directory here)
  free : ∀ entries, lookup? (fs.namesFromTop p) fs.top ≠ some (.directory entries)

/-! ## Looking down after a file has been written -/

/-- A file that has been written stands where it was written. -/
theorem lookup?_place (content : Bytes) (path : List Bytes) (e : Entry) :
    lookup? path (place (.file content) path e) = some (.file content) := by
  induction path generalizing e with
  | nil => cases e <;> rfl
  | cons name rest ih =>
      cases e with
      | file old =>
          simp only [place, lookup?, child?, if_pos, Option.bind_some]
          exact ih _
      | directory entries =>
          simp only [place, lookup?, child?_put, if_pos, Option.bind_some]
          exact ih _

/-- A directory is still a directory once a file has been written where there was none. -/
theorem directory_place {content : Bytes} {path q : List Bytes} {e : Entry}
    {inside : List (Bytes × Entry)}
    (h : ∀ entries, lookup? path e ≠ some (.directory entries))
    (hq : lookup? q e = some (.directory inside)) :
    ∃ others, lookup? q (place (.file content) path e) = some (.directory others) := by
  induction path generalizing q e with
  | nil =>
      cases e with
      | directory entries => exact absurd rfl (h entries)
      | file old => cases q <;> simp [lookup?] at hq
  | cons name rest ih =>
      cases e with
      | file old => cases q <;> simp [lookup?] at hq
      | directory entries =>
          cases q with
          | nil => exact ⟨_, rfl⟩
          | cons n more =>
              simp only [place, lookup?, child?_put] at h hq ⊢
              by_cases hn : n = name
              · subst hn
                obtain ⟨below, hchild, hbelow⟩ := Option.bind_eq_some_iff.mp hq
                rw [hchild] at h ⊢
                rw [if_pos rfl]
                exact ih h hbelow
              · rw [if_neg hn]
                exact ⟨inside, hq⟩

/-! ## Walks -/

/-- A walk to a directory passes the same names in a tree in which every directory is still there, and ends
at what the tree has under the name behind it. -/
theorem walk_of_directories {top others : List (Bytes × Entry)} {content : Bytes} {name : Bytes}
    (h : ∀ q entries, lookup? q (.directory top) = some (.directory entries) →
      ∃ inner, lookup? q (.directory others) = some (.directory inner))
    (hname : name ≠ above) (hlength : name.length ≤ longestName) (names : List Bytes)
    {trail : List Bytes} {passed passed' : List (List (Bytes × Entry))}
    {here here' final : List (Bytes × Entry)}
    (hbefore : Along top trail passed here) (hafter : Along others trail passed' here')
    (hwalk : walk passed here names = .ok (.directory final))
    (hfile : lookup? (follow trail (names ++ [name])).reverse (.directory others) =
      some (.file content)) :
    walk passed' here' (names ++ [name]) = .ok (.file content) := by
  induction names generalizing trail passed passed' here here' with
  | nil =>
      rw [List.nil_append, follow_of_ne hname] at hfile
      have hchild := (hafter.child? name).symm.trans hfile
      rw [List.nil_append, walk_of_ne hname, if_neg (by omega), hchild]
      rfl
  | cons step rest ih =>
      rw [List.cons_append] at hfile ⊢
      by_cases habove : step = above
      · subst habove
        rw [follow_above] at hfile
        cases hbefore with
        | top =>
            cases hafter with
            | top => exact ih .top .top hwalk hfile
        | down hbefore _ =>
            cases hafter with
            | down hafter _ => exact ih hbefore hafter hwalk hfile
      · rw [follow_of_ne habove] at hfile
        have hlookup := hbefore.child? step
        have hlookup' := hafter.child? step
        rw [walk_of_ne habove] at hwalk ⊢
        split at hwalk
        · exact absurd hwalk (by simp)
        next hshort =>
        rw [if_neg hshort]
        split at hwalk
        · exact absurd hwalk (by simp)
        · next entries hchild =>
            rw [hchild] at hlookup
            obtain ⟨inner, hinner⟩ := h _ _ hlookup
            have hchild' := hlookup'.symm.trans hinner
            rw [hchild']
            exact ih (hbefore.down hchild) (hafter.down hchild') hwalk hfile
        · split at hwalk <;> exact absurd hwalk (by simp)

/-! ## Reading -/

/-- What has been written to a file is read from it. -/
theorem read_write {fs : FileSystem} {p : Path} (h : fs.CanHold p) (content : Bytes) :
    (fs.write p (.file content)).read p = .ok content := by
  obtain ⟨names, before, name, top, here, hnames, hroute, hname, hlength, htop, hwalk⟩ := h.reachable
  have hfree := h.free
  rw [htop] at hfree
  obtain ⟨others, hothers⟩ : ∃ others,
      lookup? [] (place (.file content) (fs.namesFromTop p) (.directory top)) =
        some (.directory others) := directory_place hfree rfl
  have hplace : place (.file content) (fs.namesFromTop p) (.directory top) = .directory others :=
    Option.some.inj hothers
  have hfile := lookup?_place content (fs.namesFromTop p) (.directory top)
  rw [hplace, namesFromTop_eq hnames, hroute] at hfile
  have hafter : walk [] others (before ++ [name]) = .ok (.file content) := by
    apply walk_of_directories _ hname hlength before .top .top hwalk hfile
    intro q entries hq
    exact hplace ▸ directory_place hfree hq
  have hwritten : (fs.write p (.file content)).top = .directory others := by
    show place (.file content) (fs.namesFromTop p) fs.top = _
    rw [htop, hplace]
  -- Writing a file does not change the working directory, so the path is followed by the same names.
  have hsame : (fs.write p (.file content)).route p names = before ++ [name] := hroute
  unfold route at hsame
  unfold read
  simp only [hnames, hwritten, hsame, hafter]

end PageTree.FileSystem
