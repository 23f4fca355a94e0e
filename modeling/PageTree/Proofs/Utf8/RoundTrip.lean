import PageTree.Proofs.Utf8

/-!
# What is written in UTF-8 can be read again

`decode?_encode?` says that reading the UTF-8 form of a text yields the text. The reader takes a byte at a
time, so the proof follows one code point through its bytes: the first byte begins it, the bytes behind the
first add six bits each, and the last one completes it.
-/

set_option autoImplicit false

namespace PageTree.Utf8

/-! ## Bytes -/

/-- A number below 256 is that of its byte. -/
theorem toNat_toUInt8 {n : Nat} (h : n < 0x100) : n.toUInt8.toNat = n := by
  show n % 0x100 = n
  exact Nat.mod_eq_of_lt h

/-- A byte below U+0080 is a code point of its own. -/
theorem begin_one {n : Nat} (h : n < 0x80) : begin n.toUInt8 = ([CodePoint.ofNat? n], none) := by
  unfold begin
  rw [toNat_toUInt8 (by omega)]
  exact if_pos h

/-- The first of two bytes. -/
theorem begin_two {k : Nat} (hleast : 2 ≤ k) (hmost : k < 0x20) :
    begin (0xC0 + k).toUInt8 = ([], some ⟨k, 1, 0x80, 0xBF⟩) := by
  unfold begin
  rw [toNat_toUInt8 (by omega)]
  dsimp only
  rw [if_neg (by omega), if_neg (by omega), if_pos (by omega), Nat.add_sub_cancel_left]

/-- The first of three bytes admits each second byte that makes neither an overlong form nor a surrogate. -/
theorem begin_three (k second : Nat) (hmost : k < 0x10) (hbyte : 0x80 ≤ second ∧ second ≤ 0xBF)
    (hoverlong : k = 0 → 0xA0 ≤ second) (hsurrogate : k = 0xD → second ≤ 0x9F) :
    ∃ least greatest, begin (0xE0 + k).toUInt8 = ([], some ⟨k, 2, least, greatest⟩) ∧
      least ≤ second ∧ second ≤ greatest := by
  unfold begin
  rw [toNat_toUInt8 (by omega)]
  dsimp only
  rw [if_neg (by omega), if_neg (by omega), if_neg (by omega)]
  by_cases hfirst : k = 0
  · subst hfirst
    exact ⟨0xA0, 0xBF, rfl, hoverlong rfl, hbyte.2⟩
  by_cases hbelow : k = 0xD
  · subst hbelow
    exact ⟨0x80, 0x9F, rfl, hbyte.1, hsurrogate rfl⟩
  · rw [if_neg (by omega), if_neg (by omega), if_pos (by omega), Nat.add_sub_cancel_left]
    exact ⟨0x80, 0xBF, rfl, hbyte.1, hbyte.2⟩

/-- The first of four bytes admits each second byte that makes neither an overlong form nor a number above
U+10FFFF. -/
theorem begin_four (k second : Nat) (hmost : k ≤ 4) (hbyte : 0x80 ≤ second ∧ second ≤ 0xBF)
    (hoverlong : k = 0 → 0x90 ≤ second) (hlast : k = 4 → second ≤ 0x8F) :
    ∃ least greatest, begin (0xF0 + k).toUInt8 = ([], some ⟨k, 3, least, greatest⟩) ∧
      least ≤ second ∧ second ≤ greatest := by
  unfold begin
  rw [toNat_toUInt8 (by omega)]
  dsimp only
  rw [if_neg (by omega), if_neg (by omega), if_neg (by omega), if_neg (by omega), if_neg (by omega),
    if_neg (by omega)]
  by_cases hfirst : k = 0
  · subst hfirst
    exact ⟨0x90, 0xBF, rfl, hoverlong rfl, hbyte.2⟩
  by_cases hfour : k = 4
  · subst hfour
    exact ⟨0x80, 0x8F, rfl, hbyte.1, hlast rfl⟩
  · rw [if_neg (by omega), if_pos (by omega), Nat.add_sub_cancel_left]
    exact ⟨0x80, 0xBF, rfl, hbyte.1, hbyte.2⟩

/-- A byte behind the first adds its six bits. -/
theorem step_next {bits missing least greatest k : Nat} (hk : k < 0x40) (hleast : least ≤ 0x80 + k)
    (hgreatest : 0x80 + k ≤ greatest) :
    step (some ⟨bits, missing + 2, least, greatest⟩) (0x80 + k).toUInt8 =
      ([], some ⟨bits * 0x40 + k, missing + 1, 0x80, 0xBF⟩) := by
  simp only [step]
  rw [toNat_toUInt8 (by omega), if_pos ⟨hleast, hgreatest⟩, if_neg (by omega),
    Nat.add_sub_cancel_left]
  rfl

/-- The last byte of a code point completes it. -/
theorem step_last {bits least greatest k : Nat} (hk : k < 0x40) (hleast : least ≤ 0x80 + k)
    (hgreatest : 0x80 + k ≤ greatest) :
    step (some ⟨bits, 1, least, greatest⟩) (0x80 + k).toUInt8 =
      ([CodePoint.ofNat? (bits * 0x40 + k)], none) := by
  simp only [step]
  rw [toNat_toUInt8 (by omega), if_pos ⟨hleast, hgreatest⟩, if_pos (by omega),
    Nat.add_sub_cancel_left]

/-! ## Code points -/

/-- The pieces of bytes are those of the first byte and then those of the others. -/
theorem piecesFrom_cons (state : Option Pending) (b : UInt8) (rest : Bytes) :
    piecesFrom state (b :: rest) = (step state b).1 ++ piecesFrom (step state b).2 rest := by
  cases state <;> rfl

/-- The bytes of a code point are read as the code point, whatever follows. -/
theorem piecesFrom_unit {c : CodePoint} (h : c.isSurrogate = false) (rest : Bytes) :
    piecesFrom none (unit c ++ rest) = some c :: piecesFrom none rest := by
  have hlt : c.val < 0x110000 := c.isLt
  have hplain : c.val < 0xD800 ∨ 0xDFFF < c.val := by
    simp only [CodePoint.isSurrogate, Bool.and_eq_false_iff, decide_eq_false_iff_not] at h
    omega
  have hpoint : CodePoint.ofNat? c.val = some c := CodePoint.ofNat?_val c
  unfold unit
  generalize c.val = n at hlt hplain hpoint
  dsimp only
  split
  · next hone =>
      rw [List.cons_append, piecesFrom_cons, step, begin_one hone, hpoint]
      rfl
  split
  · next hone htwo =>
      have hbits : n / 0x40 * 0x40 + n % 0x40 = n := Nat.div_add_mod' n 0x40
      rw [List.cons_append, piecesFrom_cons, step, begin_two (by omega) (by omega)]
      rw [List.cons_append, piecesFrom_cons, step_last (by omega) (by omega) (by omega), hbits, hpoint]
      rfl
  split
  · next htwo hthree =>
      have hbits : (n / 0x1000 * 0x40 + n / 0x40 % 0x40) * 0x40 + n % 0x40 = n := by omega
      obtain ⟨least, greatest, hbegin, hleast, hgreatest⟩ :=
        begin_three (n / 0x1000) (0x80 + n / 0x40 % 0x40) (by omega) (by omega) (by omega) (by omega)
      rw [List.cons_append, piecesFrom_cons, step, hbegin]
      rw [List.cons_append, piecesFrom_cons, step_next (by omega) hleast hgreatest]
      rw [List.cons_append, piecesFrom_cons, step_last (by omega) (by omega) (by omega), hbits, hpoint]
      rfl
  · next hthree =>
      have hbits : ((n / 0x40000 * 0x40 + n / 0x1000 % 0x40) * 0x40 + n / 0x40 % 0x40) * 0x40 +
          n % 0x40 = n := by omega
      obtain ⟨least, greatest, hbegin, hleast, hgreatest⟩ :=
        begin_four (n / 0x40000) (0x80 + n / 0x1000 % 0x40) (by omega) (by omega) (by omega) (by omega)
      rw [List.cons_append, piecesFrom_cons, step, hbegin]
      rw [List.cons_append, piecesFrom_cons, step_next (by omega) hleast hgreatest]
      rw [List.cons_append, piecesFrom_cons, step_next (by omega) (by omega) (by omega)]
      rw [List.cons_append, piecesFrom_cons, step_last (by omega) (by omega) (by omega), hbits, hpoint]
      rfl

/-! ## Texts -/

/-- The pieces of a text's UTF-8 form are its code points. -/
theorem pieces_flatMap_unit {s : Text} (h : s.hasSurrogate = false) :
    pieces (s.flatMap unit) = s.map some := by
  unfold pieces
  induction s with
  | nil => rfl
  | cons c rest ih =>
      simp only [Text.hasSurrogate, List.any_cons, Bool.or_eq_false_iff] at h ih
      rw [List.flatMap_cons, piecesFrom_unit h.1, ih h.2]
      rfl

/-- The UTF-8 form of a text is read as the text. -/
theorem decode?_encode? {s : Text} {b : Bytes} (h : encode? s = some b) : decode? b = some s := by
  unfold encode? at h
  split at h
  · exact absurd h (by simp)
  · next hplain =>
      obtain rfl := Option.some.inj h
      rw [Bool.not_eq_true] at hplain
      rw [decode?, pieces_flatMap_unit hplain, mapM_id_map_some]

end PageTree.Utf8
