import PageTree.FileSystem
import PageTree.Proofs.Basic
import Mathlib.Tactic.SplitIfs

/-!
# Removing a file

A path is followed name by name, with `..` leading back; a file is removed by the names that lead down to
it from the top. `read_remove` says that the two agree: once a file has been removed, a path that led to it
leads to nothing, however it is spelled, and any other path to a file leads to what it led to before.

The proof compares the walks in the two trees. Both pass the same names (`Along`), because only a file is
gone and a walk passes directories.
-/

set_option autoImplicit false

namespace PageTree.FileSystem

/-- Two paths that, name by name from the top directory, are the same. -/
def SameFile (fs : FileSystem) (p q : Path) : Prop := fs.namesFromTop p = fs.namesFromTop q

instance (fs : FileSystem) (p q : Path) : Decidable (SameFile fs p q) :=
  inferInstanceAs (Decidable (fs.namesFromTop p = fs.namesFromTop q))

/-! ## Looking down -/

/-- What stands at the end of names that lead down from an entry. -/
def lookup? : List Bytes → Entry → Option Entry
  | [], e => some e
  | _ :: _, .file _ => none
  | name :: rest, .directory entries => (child? name entries).bind (lookup? rest)

/-- A file is looked up along two lists of names by following the first and then the second. -/
theorem lookup?_append (a b : List Bytes) (e : Entry) :
    lookup? (a ++ b) e = (lookup? a e).bind (lookup? b) := by
  induction a generalizing e with
  | nil => rfl
  | cons name rest ih =>
      cases e with
      | file content => rfl
      | directory entries =>
          simp only [List.cons_append, lookup?]
          cases child? name entries with
          | none => rfl
          | some below => exact ih below

/-- When a name is taken out of a directory, nothing is found under it and everything else as before. -/
theorem child?_filter (n name : Bytes) (entries : List (Bytes × Entry)) :
    child? n (entries.filter fun e => e.1 != name) = if n = name then none else child? n entries := by
  induction entries with
  | nil => simp [child?]
  | cons entry rest ih =>
      obtain ⟨k, e⟩ := entry
      by_cases hname : k = name
      · rw [List.filter_cons_of_neg (by simpa using hname), ih]
        by_cases hn : n = name
        · simp [hn]
        · simp [child?, hn, hname, Ne.symm hn]
      · rw [List.filter_cons_of_pos (by simpa using hname), child?, child?, ih]
        by_cases hk : k = n
        · simp [hk, show n ≠ name from hk ▸ hname]
        · simp [hk]

/-- When something is put into a directory, it is found under its name and everything else as before. -/
theorem child?_put (n name : Bytes) (new : Entry) (entries : List (Bytes × Entry)) :
    child? n (put name new entries) = if n = name then some new else child? n entries := by
  induction entries with
  | nil =>
      by_cases hn : n = name
      · simp [put, child?, hn]
      · simp [put, child?, hn, Ne.symm hn]
  | cons entry rest ih =>
      obtain ⟨k, old⟩ := entry
      by_cases hname : k = name
      · by_cases hn : n = name
        · simp [put, child?, hname, hn]
        · simp [put, child?, hname, hn, Ne.symm hn]
      · rw [put, if_neg hname, child?, child?, ih]
        by_cases hk : k = n
        · simp [hk, show n ≠ name from hk ▸ hname]
        · simp [hk]

/-! ## Looking down after a file has been removed -/

/-- What other names lead to once a file is gone: nothing at its own names, a file elsewhere as it was, and
a directory still a directory. -/
structure Without (path : List Bytes) (before after : Entry) : Prop where
  self : lookup? path after = none
  file : ∀ q content, q ≠ path → lookup? q before = some (.file content) →
    lookup? q after = some (.file content)
  directory : ∀ q entries, lookup? q before = some (.directory entries) →
    ∃ others, lookup? q after = some (.directory others)

/-- A file in a directory is gone from it once it is erased there. -/
theorem without_filter {name : Bytes} {entries : List (Bytes × Entry)} {content : Bytes}
    (h : child? name entries = some (.file content)) :
    Without [name] (.directory entries) (.directory (entries.filter fun e => e.1 != name)) where
  self := by simp [lookup?, child?_filter]
  file q found hne hq := by
    cases q with
    | nil => simp [lookup?] at hq
    | cons n rest =>
        simp only [lookup?, child?_filter] at hq ⊢
        by_cases hn : n = name
        · subst hn
          rw [h] at hq
          cases rest with
          | nil => exact absurd rfl hne
          | cons next more => simp [lookup?] at hq
        · rw [if_neg hn]
          exact hq
  directory q found hq := by
    cases q with
    | nil => exact ⟨_, rfl⟩
    | cons n rest =>
        simp only [lookup?, child?_filter] at hq ⊢
        by_cases hn : n = name
        · subst hn
          rw [h] at hq
          cases rest with
          | nil => simp [lookup?] at hq
          | cons next more => simp [lookup?] at hq
        · rw [if_neg hn]
          exact ⟨found, hq⟩

/-- What holds of an entry holds of the directory that it is put in. -/
theorem without_put {name : Bytes} {path : List Bytes} {entries : List (Bytes × Entry)}
    {before after : Entry} (hchild : child? name entries = some before)
    (h : Without path before after) :
    Without (name :: path) (.directory entries) (.directory (put name after entries)) where
  self := by simp [lookup?, child?_put, h.self]
  file q found hne hq := by
    cases q with
    | nil => simp [lookup?] at hq
    | cons n rest =>
        simp only [lookup?, child?_put] at hq ⊢
        by_cases hn : n = name
        · subst hn
          rw [hchild] at hq
          rw [if_pos rfl]
          exact h.file rest found (fun heq => hne (by rw [heq])) hq
        · rw [if_neg hn]
          exact hq
  directory q found hq := by
    cases q with
    | nil => exact ⟨_, rfl⟩
    | cons n rest =>
        simp only [lookup?, child?_put] at hq ⊢
        by_cases hn : n = name
        · subst hn
          rw [hchild] at hq
          rw [if_pos rfl]
          exact h.directory rest found hq
        · rw [if_neg hn]
          exact ⟨found, hq⟩

/-- Erasing a file takes it away and leaves everything else. -/
theorem without_erase {path : List Bytes} {e : Entry} {content : Bytes} (hpath : path ≠ [])
    (h : lookup? path e = some (.file content)) : Without path e (erase path e) := by
  induction path generalizing e with
  | nil => exact absurd rfl hpath
  | cons name rest ih =>
      cases e with
      | file _ => simp [lookup?] at h
      | directory entries =>
          simp only [lookup?] at h
          obtain ⟨below, hchild, hbelow⟩ := Option.bind_eq_some_iff.mp h
          cases rest with
          | nil =>
              rw [erase]
              exact without_filter (hchild.trans hbelow)
          | cons next more =>
              rw [erase, hchild]
              exact without_put hchild (ih (by simp) hbelow)

/-! ## Walks -/

/-- The names that lead down to where names lead from a place, the last one first. -/
def follow (trail names : List Bytes) : List Bytes :=
  names.foldl (fun passed name => if name = above then passed.tail else name :: passed) trail

/-- The directories on the way down from the top, the innermost first: `trail` are the names passed. -/
inductive Along (top : List (Bytes × Entry)) :
    List Bytes → List (List (Bytes × Entry)) → List (Bytes × Entry) → Prop
  | top : Along top [] [] top
  | down {trail : List Bytes} {passed : List (List (Bytes × Entry))} {name : Bytes}
      {outer inner : List (Bytes × Entry)} :
      Along top trail passed outer → child? name outer = some (.directory inner) →
      Along top (name :: trail) (outer :: passed) inner

/-- What a name leads to in a directory on the way is what the names to it lead to from the top. -/
theorem Along.child? {top here : List (Bytes × Entry)} {trail : List Bytes}
    {passed : List (List (Bytes × Entry))} (h : Along top trail passed here) (name : Bytes) :
    lookup? (name :: trail).reverse (.directory top) = child? name here := by
  induction h generalizing name with
  | top =>
      show (FileSystem.child? name top).bind (lookup? []) = _
      cases FileSystem.child? name top <;> rfl
  | @down trail passed step outer inner _ hchild ih =>
      rw [List.reverse_cons, lookup?_append, ih step, hchild]
      show (FileSystem.child? name inner).bind (lookup? []) = _
      cases FileSystem.child? name inner <;> rfl

/-- The walk goes down by a name that is not the one for the directory above, unless it is too long or there
is nothing. -/
theorem walk_of_ne {passed : List (List (Bytes × Entry))} {here : List (Bytes × Entry)}
    {name : Bytes} {rest : List Bytes} (h : name ≠ above) :
    walk passed here (name :: rest) =
      if name.length > longestName then .error .nameTooLong
      else
        match FileSystem.child? name here with
        | none => .error .missing
        | some (.directory entries) => walk (here :: passed) entries rest
        | some (.file content) => if rest = [] then .ok (.file content) else .error .notDirectory := by
  rw [walk.eq_def]
  exact if_neg h

/-- A walk that leads down to a file passes a directory, or ends at the file. -/
theorem cases_of_walk {passed : List (List (Bytes × Entry))} {here : List (Bytes × Entry)}
    {name : Bytes} {rest : List Bytes} {content : Bytes} (h : name ≠ above)
    (hwalk : walk passed here (name :: rest) = .ok (.file content)) :
    ¬ name.length > longestName ∧
      ((∃ entries, FileSystem.child? name here = some (.directory entries) ∧
          walk (here :: passed) entries rest = .ok (.file content)) ∨
        (rest = [] ∧ FileSystem.child? name here = some (.file content))) := by
  rw [walk_of_ne h] at hwalk
  split at hwalk
  · exact absurd hwalk (by simp)
  · next hlength =>
      refine ⟨hlength, ?_⟩
      split at hwalk
      · exact absurd hwalk (by simp)
      · next entries hchild => exact .inl ⟨entries, hchild, hwalk⟩
      · next found hchild =>
          split at hwalk
          · next hrest =>
              injection hwalk with hwalk
              exact .inr ⟨hrest, by rw [hchild, hwalk]⟩
          · exact absurd hwalk (by simp)

/-- The name for the directory above takes the last name off a trail. -/
theorem follow_above (trail rest : List Bytes) :
    follow trail (above :: rest) = follow trail.tail rest := by
  simp [follow]

/-- Any other name is put on a trail. -/
theorem follow_of_ne {name : Bytes} (h : name ≠ above) (trail rest : List Bytes) :
    follow trail (name :: rest) = follow (name :: trail) rest := by
  simp [follow, h]

/-- A walk to a file ends where the names lead down to it. -/
theorem lookup?_of_walk {top : List (Bytes × Entry)} (names : List Bytes) {trail : List Bytes}
    {passed : List (List (Bytes × Entry))} {here : List (Bytes × Entry)} {content : Bytes}
    (halong : Along top trail passed here)
    (hwalk : walk passed here names = .ok (.file content)) :
    lookup? (follow trail names).reverse (.directory top) = some (.file content) := by
  induction names generalizing trail passed here with
  | nil => simp [walk] at hwalk
  | cons name rest ih =>
      by_cases habove : name = above
      · subst habove
        rw [follow_above]
        -- There is nothing above the top, where both the walk and the names stay.
        cases halong with
        | top => exact ih .top hwalk
        | down halong _ => exact ih halong hwalk
      · rw [follow_of_ne habove]
        obtain ⟨-, ⟨entries, hchild, hrest⟩ | ⟨rfl, hchild⟩⟩ := cases_of_walk habove hwalk
        · exact ih (halong.down hchild) hrest
        · exact (halong.child? name).trans hchild

/-- A walk to a file leads to the same file in a tree from which another one has been removed, and to
nothing in a tree from which this one has been. -/
theorem walk_without {top others : List (Bytes × Entry)} {path : List Bytes}
    (h : Without path (.directory top) (.directory others)) (names : List Bytes)
    {trail : List Bytes} {passed passed' : List (List (Bytes × Entry))}
    {here here' : List (Bytes × Entry)} {content : Bytes}
    (hbefore : Along top trail passed here) (hafter : Along others trail passed' here')
    (hwalk : walk passed here names = .ok (.file content)) :
    walk passed' here' names =
      if (follow trail names).reverse = path then .error .missing else .ok (.file content) := by
  induction names generalizing trail passed passed' here here' with
  | nil => simp [walk] at hwalk
  | cons name rest ih =>
      by_cases habove : name = above
      · subst habove
        rw [follow_above]
        cases hbefore with
        | top =>
            cases hafter with
            | top => exact ih .top .top hwalk
        | down hbefore _ =>
            cases hafter with
            | down hafter _ => exact ih hbefore hafter hwalk
      · have hlookup := hbefore.child? name
        have hlookup' := hafter.child? name
        obtain ⟨hlength, hcases⟩ := cases_of_walk habove hwalk
        rw [walk_of_ne habove, if_neg hlength, follow_of_ne habove]
        obtain ⟨entries, hchild, hrest⟩ | ⟨rfl, hchild⟩ := hcases
        · -- a directory is still there, whatever is missing in it
          rw [hchild] at hlookup
          obtain ⟨inner, hinner⟩ := h.directory _ _ hlookup
          have hchild' := hlookup'.symm.trans hinner
          rw [hchild']
          exact ih (hbefore.down hchild) (hafter.down hchild') hrest
        · rw [hchild] at hlookup
          by_cases hpath : (name :: trail).reverse = path
          · have hgone := hlookup'.symm.trans (hpath ▸ h.self)
            rw [hgone]
            exact (if_pos hpath).symm
          · have hkept := hlookup'.symm.trans (h.file _ _ hpath hlookup)
            rw [hkept]
            exact (if_neg hpath).symm

/-! ## Reading -/

/-- The names that a path is followed by, from the top. -/
def route (fs : FileSystem) (p : Path) (names : List Bytes) : List Bytes :=
  if p.isAbsolute then names else fs.workingNames ++ names

/-- A file that can be read is at the end of a walk. -/
theorem walk_of_read {fs : FileSystem} {p : Path} {content : Bytes} (h : fs.read p = .ok content) :
    ∃ names top, pathBytes p = .ok names ∧ fs.top = .directory top ∧
      walk [] top (fs.route p names) = .ok (.file content) := by
  unfold read at h
  split at h
  · exact absurd h (by simp)
  · next names hnames =>
      split at h
      · exact absurd h (by simp)
      · next top htop =>
          refine ⟨names, top, hnames, htop, ?_⟩
          split at h
          · exact absurd h (by simp)
          · exact absurd h (by simp)
          · next found hwalk =>
              injection h with h
              exact h ▸ hwalk

/-- The names of a path that can be used are those of its bytes, one by one. -/
theorem namesFromTop_eq {fs : FileSystem} {p : Path} {names : List Bytes}
    (h : pathBytes p = .ok names) : fs.namesFromTop p = (follow [] (fs.route p names)).reverse := by
  have hnames : p.names.filterMap nameBytes? = names := by
    unfold pathBytes at h
    split at h
    · next whole found _ hfound =>
        split_ifs at h
        injection h with h
        exact filterMap_eq_of_mapM (h ▸ hfound)
    · exact absurd h (by simp)
  have habsolute : (p.absolute fs.workingDirectory).names.filterMap nameBytes? =
      fs.route p names := by
    unfold Path.absolute Path.join route
    split
    · exact hnames
    · rw [List.filterMap_append, hnames]
      rfl
  show direct _ = _
  rw [habsolute]
  rfl

/-- Once a file has been removed, every path that led to it leads to nothing, and every other path to a
file leads to what it led to before. -/
theorem read_remove {fs : FileSystem} {p q : Path} {content found : Bytes}
    (hp : fs.read p = .ok content) (hq : fs.read q = .ok found) :
    (fs.remove p).read q = if fs.SameFile q p then .error (.file .missing) else .ok found := by
  obtain ⟨names, top, hnames, htop, hwalk⟩ := walk_of_read hp
  obtain ⟨others, top', hothers, htop', hother⟩ := walk_of_read hq
  obtain rfl : top = top' := by simpa using htop.symm.trans htop'
  have hfile := lookup?_of_walk _ .top hwalk
  rw [← namesFromTop_eq hnames] at hfile
  have hpath : fs.namesFromTop p ≠ [] := by
    intro hnil
    rw [hnil] at hfile
    exact absurd hfile (by simp [lookup?])
  have hwithout := without_erase hpath hfile
  obtain ⟨entries, hentries⟩ := hwithout.directory [] top rfl
  have herase : erase (fs.namesFromTop p) (.directory top) = .directory entries :=
    Option.some.inj hentries
  rw [herase] at hwithout
  have hafter := walk_without hwithout _ .top .top hother
  rw [← namesFromTop_eq hothers] at hafter
  have hafter' : walk [] entries ((fs.remove p).route q others) = _ := hafter
  have hremoved : (fs.remove p).top = .directory entries := by
    show erase (fs.namesFromTop p) fs.top = _
    rw [htop, herase]
  -- Removing a file does not change the working directory, so both reads follow the same names.
  unfold route at hafter'
  unfold read
  by_cases hsame : fs.SameFile q p
  · rw [if_pos (show fs.namesFromTop q = fs.namesFromTop p from hsame)] at hafter'
    rw [if_pos hsame]
    simp only [hothers, hremoved, hafter']
  · rw [if_neg (show ¬ fs.namesFromTop q = fs.namesFromTop p from hsame)] at hafter'
    rw [if_neg hsame]
    simp only [hothers, hremoved, hafter']

end PageTree.FileSystem
