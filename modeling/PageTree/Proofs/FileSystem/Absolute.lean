import PageTree.Proofs.FileSystem.Nameable
import PageTree.Proofs.Path.Spelling

/-!
# Absolute paths

A path without a root starts from the working directory. Spelled with that directory in front it leads to the
same file (`read_absolute`). Only its length can make a difference: no path is opened that is longer than
`longestPath`, and the absolute path is the longer one.
-/

set_option autoImplicit false

namespace PageTree

/-- Whether a path is too long to be opened. -/
def Path.IsOverlong (p : Path) : Prop :=
  ∃ whole ∈ FileSystem.nameBytes? p.toText, FileSystem.longestPath < whole.length

instance (p : Path) : Decidable p.IsOverlong :=
  inferInstanceAs (Decidable (∃ whole ∈ FileSystem.nameBytes? p.toText, FileSystem.longestPath < whole.length))

namespace FileSystem

/-- The working directory is one that a program can be in: an absolute path, and no file. -/
structure IsInDirectory (fs : FileSystem) : Prop where
  normal : fs.workingDirectory.Normal
  isAbsolute : fs.workingDirectory.isAbsolute = true
  nameable : fs.workingDirectory.isNameable = true
  noFile : ∀ content, fs.read fs.workingDirectory ≠ .ok content

/-! ## Bytes of a path -/

/-- If a partial function gives something on all of a list, then on a longer list it depends on the rest. -/
theorem mapM_append_of_some {α β : Type} {f : α → Option β} {l : List α} {bs : List β}
    (h : l.mapM f = some bs) (r : List α) : (l ++ r).mapM f = (r.mapM f).map (bs ++ ·) := by
  rw [List.mapM_append, h]
  cases r.mapM f <;> rfl

/-- The bytes of two texts, one behind the other, are those of the first and then those of the second. -/
theorem nameBytes?_append {s : Text} {front : Bytes} (h : nameBytes? s = some front) (t : Text) :
    nameBytes? (s ++ t) = (nameBytes? t).map (front ++ ·) := by
  obtain ⟨units, hunits, rfl⟩ := Option.map_eq_some_iff.mp h
  unfold nameBytes?
  rw [mapM_append_of_some hunits, Option.map_map, Option.map_map]
  congr 1
  funext bs
  exact List.flatten_append

/-- A nameable text has bytes, and none of them is zero. -/
theorem exists_nameBytes? {s : Text} (h : s.all CodePoint.isNameable = true) :
    ∃ b, nameBytes? s = some b ∧ (0 : UInt8) ∉ b := by
  simp only [List.all_eq_true, CodePoint.isNameable, Bool.and_eq_true, decide_eq_true_eq] at h
  obtain ⟨b, hb⟩ := Option.isSome_iff_exists.mp (isSome_nameBytes?_iff.mpr fun c hc => (h c hc).2)
  refine ⟨b, hb, fun hzero => ?_⟩
  obtain ⟨c, hc, hval⟩ := (zero_mem_nameBytes? hb).mp hzero
  exact (h c hc).1 hval

/-- The names of a nameable working directory have their bytes. -/
theorem mapM_nameBytes?_workingDirectory {fs : FileSystem} (h : fs.workingDirectory.isNameable = true) :
    fs.workingDirectory.names.mapM nameBytes? = some fs.workingNames := by
  have hsome : (fs.workingDirectory.names.mapM nameBytes?).isSome = true := by
    rw [isSome_mapM_iff]
    intro name hname
    rw [isSome_nameBytes?_iff]
    intro c hc
    have hc := List.all_eq_true.mp h c (mem_toText hname hc)
    exact (Bool.and_eq_true _ _ ▸ hc : _ ∧ _).2
  obtain ⟨names, hnames⟩ := Option.isSome_iff_exists.mp hsome
  rw [hnames, workingNames, filterMap_eq_of_mapM hnames]

/-- A path with more in front is as good as without, as long as neither or both are too long. -/
theorem pathBytes_of_front {p q : Path} {front : Bytes} {names : List Bytes}
    (hwhole : nameBytes? q.toText = (nameBytes? p.toText).map (front ++ ·))
    (hnames : q.names.mapM nameBytes? = (p.names.mapM nameBytes?).map (names ++ ·))
    (hzero : (0 : UInt8) ∉ front) (hlong : q.IsOverlong ↔ p.IsOverlong) :
    pathBytes q = (pathBytes p).map (names ++ ·) := by
  unfold Path.IsOverlong at hlong
  unfold pathBytes
  rw [hwhole] at hlong ⊢
  rw [hnames]
  cases hp : nameBytes? p.toText with
  | none => rfl
  | some whole =>
      simp only [hp, Option.map_some, Option.mem_some_iff, exists_eq_left'] at hlong
      cases p.names.mapM nameBytes? with
      | none => rfl
      | some rest =>
          have hcontains : (front ++ whole).contains 0 = whole.contains 0 := by simp [hzero]
          have hlonger : (front ++ whole).length > longestPath ↔ whole.length > longestPath := hlong
          simp only [Option.map_some, hcontains, hlonger]
          split
          · rfl
          · split <;> rfl

/-! ## Relative and absolute -/

/-- Two lists of pieces, neither of them empty, are joined with one separator between them. -/
theorem join_append {separator : Text} {a b : List Text} (ha : a ≠ []) (hb : b ≠ []) :
    Text.join separator (a ++ b) = Text.join separator a ++ (separator ++ Text.join separator b) := by
  fun_induction Text.join separator a with
  | case1 => exact absurd rfl ha
  | case2 s =>
      obtain ⟨t, rest, rfl⟩ := List.exists_cons_of_ne_nil hb
      simp [Text.join]
  | case3 s t rest ih =>
      have hjoin := ih (List.cons_ne_nil t rest)
      simp only [List.cons_append, Text.join] at hjoin ⊢
      rw [hjoin]
      simp

/-- The text of a path with names, behind a directory. -/
theorem toText_join {d p : Path} (hp : p.isAbsolute = false)
    (hnames : p.names ≠ []) (hnameable : d.isNameable = true) :
    ∃ front : Text, (d.join p).toText = front ++ p.toText ∧ front.all CodePoint.isNameable = true := by
  have hroot : p.root = .none := by simpa [Path.isAbsolute] using hp
  have htext : p.toText = Text.join (text "/") p.names := by
    rw [Path.toText, if_neg (by simp [hnames]), hroot]
    rfl
  have hjoin : (d.join p).toText = d.root.toText ++ Text.join (text "/") (d.names ++ p.names) := by
    rw [Path.join, if_neg (by simp [hp]), Path.toText, if_neg (by simp [hnames])]
  rw [hjoin, htext]
  by_cases hd' : d.names = []
  · refine ⟨d.root.toText, by rw [hd']; rfl, ?_⟩
    cases d.root <;> decide
  · refine ⟨d.toText ++ text "/", ?_, ?_⟩
    · rw [join_append hd' hnames, Path.toText, if_neg (by simp [hd'])]
      simp
    · rw [List.all_append, Bool.and_eq_true]
      exact ⟨hnameable, by decide⟩

/-- The path that leads nowhere is short. -/
theorem not_isOverlong_nowhere : ¬ (⟨.none, []⟩ : Path).IsOverlong := by decide

/-- The bytes of a working directory that is there and not too long are those of its names. -/
theorem pathBytes_workingDirectory {fs : FileSystem} (hfs : fs.IsInDirectory)
    (hlong : ¬ fs.workingDirectory.IsOverlong) : pathBytes fs.workingDirectory = .ok fs.workingNames := by
  obtain ⟨whole, hwhole, hzero⟩ := exists_nameBytes? hfs.nameable
  have hshort : ¬ whole.length > longestPath := fun h => hlong ⟨whole, hwhole, h⟩
  rw [pathBytes, hwhole, mapM_nameBytes?_workingDirectory hfs.nameable]
  simp [hzero, hshort]

/-- The bytes of a path that the working directory is put in front of. -/
theorem pathBytes_absolute {fs : FileSystem} (hfs : fs.IsInDirectory) {p : Path}
    (hp : p.isAbsolute = false)
    (hlong : (p.absolute fs.workingDirectory).IsOverlong ↔ p.IsOverlong) :
    pathBytes (p.absolute fs.workingDirectory) = (pathBytes p).map (fs.workingNames ++ ·) := by
  have hjoin : p.absolute fs.workingDirectory =
      { fs.workingDirectory with names := fs.workingDirectory.names ++ p.names } := by
    rw [Path.absolute, Path.join, if_neg (by simp [hp])]
  by_cases hnames : p.names = []
  · -- The path that leads nowhere is written as a dot, which the absolute path does not hold.
    have hroot : p.root = .none := by simpa [Path.isAbsolute] using hp
    have hnowhere : p = ⟨.none, []⟩ := congrArg₂ Path.mk hroot hnames
    have habsolute : p.absolute fs.workingDirectory = fs.workingDirectory := by
      rw [hjoin, hnames, List.append_nil]
    rw [habsolute, hnowhere] at hlong
    rw [habsolute, pathBytes_workingDirectory hfs fun h => not_isOverlong_nowhere (hlong.mp h), hnowhere]
    have hempty : pathBytes ⟨.none, []⟩ = .ok [] := rfl
    rw [hempty, Except.map, List.append_nil]
  · obtain ⟨front, htext, hfront⟩ := toText_join hp hnames hfs.nameable
    obtain ⟨b, hb, hzero⟩ := exists_nameBytes? hfront
    have hbytes : (p.absolute fs.workingDirectory).names.mapM nameBytes? =
        (p.names.mapM nameBytes?).map (fs.workingNames ++ ·) := by
      rw [hjoin]
      exact mapM_append_of_some (mapM_nameBytes?_workingDirectory hfs.nameable) _
    exact pathBytes_of_front (htext ▸ nameBytes?_append hb p.toText) hbytes hzero hlong

/-- A path leads to the same file as the absolute path, unless it can be opened and that one is too long. -/
theorem read_absolute {fs : FileSystem} (hfs : fs.IsInDirectory) {p : Path}
    (hlong : (p.absolute fs.workingDirectory).IsOverlong ↔ p.IsOverlong) :
    fs.read (p.absolute fs.workingDirectory) = fs.read p := by
  cases hp : p.isAbsolute with
  | true => rw [Path.absolute, Path.join, if_pos hp]
  | false =>
      have habsolute : (p.absolute fs.workingDirectory).isAbsolute = true := by
        rw [Path.absolute, Path.join, if_neg (by simp [hp])]
        exact hfs.isAbsolute
      unfold read
      rw [pathBytes_absolute hfs hp hlong, habsolute, hp]
      cases pathBytes p <;> rfl

end FileSystem

end PageTree
