import PageTree.FileSystem
import PageTree.Proofs.Basic
import PageTree.Proofs.Utf8.RoundTrip

/-!
# Which texts are paths

Not every text that spells a path can be one: names are bytes, and there is no byte for a surrogate outside
a small range, and no name with the byte zero. `pathBytes_eq_path_iff` says that these two are all that can
be wrong with a path before the files are looked at.
-/

set_option autoImplicit false

namespace PageTree

/-- Whether a code point can stand in a path: it is not U+0000, and if it is a surrogate, it stands for a
byte. -/
def CodePoint.isNameable (c : CodePoint) : Bool := c.val ≠ 0 && (FileSystem.nameUnit? c).isSome

/-- Whether a path can lead to a file. -/
def Path.isNameable (p : Path) : Bool := p.toText.all CodePoint.isNameable

namespace FileSystem

/-- A text has bytes just if every code point of it does. -/
theorem isSome_nameBytes?_iff {s : Text} :
    (nameBytes? s).isSome = true ↔ ∀ c ∈ s, (nameUnit? c).isSome = true := by
  rw [nameBytes?, Option.isSome_map, isSome_mapM_iff]

/-- A code point of a name stands in the joined text. -/
theorem mem_join {separator : Text} {names : List Text} {name : Text} {c : CodePoint}
    (hname : name ∈ names) (hc : c ∈ name) : c ∈ Text.join separator names := by
  fun_induction Text.join separator names with
  | case1 => cases hname
  | case2 s =>
      obtain rfl := List.mem_singleton.mp hname
      exact hc
  | case3 s t rest ih =>
      rcases List.mem_cons.mp hname with rfl | hrest
      · simp [hc]
      · simp [ih hrest]

/-- The names of a path are part of its text. -/
theorem mem_toText {p : Path} {name : Text} {c : CodePoint} (hname : name ∈ p.names) (hc : c ∈ name) :
    c ∈ p.toText := by
  unfold Path.toText
  split
  · next hnone =>
      rw [hnone.2] at hname
      cases hname
  · exact List.mem_append_right _ (mem_join hname hc)

/-- The byte zero stands for the code zero and for nothing else. -/
theorem zero_mem_nameUnit? {c : CodePoint} {b : Bytes} (h : nameUnit? c = some b) :
    0 ∈ b ↔ c.val = 0 := by
  have hzero : ∀ n : Nat, n < 0x100 → ((0 : UInt8) = n.toUInt8 ↔ n = 0) := by
    intro n hn
    constructor
    · intro heq
      have hnat := congrArg UInt8.toNat heq
      rw [Utf8.toNat_toUInt8 hn] at hnat
      exact hnat.symm
    · rintro rfl
      rfl
  have hlt := c.isLt
  unfold nameUnit? at h
  split at h
  · next hsurrogate =>
      obtain ⟨stray, hstray, rfl⟩ := Option.map_eq_some_iff.mp h
      unfold strayByte? at hstray
      split at hstray
      · next hrange =>
          obtain rfl := Option.some.inj hstray
          rw [List.mem_singleton, hzero _ (by omega)]
          omega
      · cases hstray
  · obtain rfl := Option.some.inj h
    unfold Utf8.unit
    dsimp only
    split
    · rw [List.mem_singleton, hzero _ (by omega)]
    · split
      · simp only [List.mem_cons, List.not_mem_nil, or_false]
        rw [hzero _ (by omega), hzero _ (by omega)]
        omega
      · split
        · simp only [List.mem_cons, List.not_mem_nil, or_false]
          rw [hzero _ (by omega), hzero _ (by omega), hzero _ (by omega)]
          omega
        · simp only [List.mem_cons, List.not_mem_nil, or_false]
          rw [hzero _ (by omega), hzero _ (by omega), hzero _ (by omega), hzero _ (by omega)]
          omega

/-- A zero is among the bytes of a text just if the code point zero is in the text. -/
theorem zero_mem_nameBytes? {s : Text} {b : Bytes} (h : nameBytes? s = some b) :
    0 ∈ b ↔ ∃ c ∈ s, c.val = 0 := by
  obtain ⟨units, hunits, rfl⟩ := Option.map_eq_some_iff.mp h
  induction s generalizing units with
  | nil =>
      rw [List.mapM_nil] at hunits
      obtain rfl := Option.some.inj hunits
      simp
  | cons c rest ih =>
      rw [List.mapM_cons] at hunits
      obtain ⟨first, hfirst, hunits⟩ := Option.bind_eq_some_iff.mp hunits
      obtain ⟨others, hothers, hunits⟩ := Option.bind_eq_some_iff.mp hunits
      obtain rfl := Option.some.inj hunits
      have hrest : nameBytes? rest = some others.flatten := by rw [nameBytes?, hothers]; rfl
      rw [List.flatten_cons, List.mem_append, zero_mem_nameUnit? hfirst, ih others hothers hrest]
      simp

/-- A path that cannot lead to a file is one that holds a code point that no path can hold. -/
theorem pathBytes_eq_path_iff {p : Path} :
    (∃ fault, pathBytes p = .error (.path fault)) ↔ p.isNameable = false := by
  have hall : p.isNameable = true ↔
      (nameBytes? p.toText).isSome = true ∧ ¬ ∃ c ∈ p.toText, c.val = 0 := by
    rw [Path.isNameable, List.all_eq_true, isSome_nameBytes?_iff]
    simp only [CodePoint.isNameable, Bool.and_eq_true, decide_eq_true_eq, not_exists, not_and]
    exact ⟨fun h => ⟨fun c hc => (h c hc).2, fun c hc => (h c hc).1⟩,
      fun h c hc => ⟨h.2 c hc, h.1 c hc⟩⟩
  -- The whole text is tried first, and whatever it allows its names allow.
  have hnames : (nameBytes? p.toText).isSome = true → (p.names.mapM nameBytes?).isSome = true := by
    intro hwhole
    rw [isSome_mapM_iff]
    intro name hname
    rw [isSome_nameBytes?_iff] at hwhole ⊢
    intro c hc
    exact hwhole c (mem_toText hname hc)
  rw [← Bool.not_eq_true, hall]
  unfold pathBytes
  cases hwhole : nameBytes? p.toText with
  | none => simp
  | some whole =>
      obtain ⟨names, hpath⟩ := Option.isSome_iff_exists.mp (hnames (by rw [hwhole]; rfl))
      have hzero := zero_mem_nameBytes? hwhole
      rw [hpath, ← hzero]
      dsimp only
      by_cases hmem : (0 : UInt8) ∈ whole
      · simp [hmem]
      · simp only [List.contains_eq_mem, hmem, decide_false, Bool.false_eq_true, if_false,
          Option.isSome_some, not_false_eq_true, and_self, not_true_eq_false, iff_false, not_exists]
        intro fault
        split <;> simp

end FileSystem

end PageTree
