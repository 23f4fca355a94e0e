import PageTree.Utf8
import PageTree.Proofs.Basic
import PageTree.Proofs.Text
import Mathlib.Tactic.Ring

/-!
# What can come out of UTF-8

The bounds that the reader sets for a second byte keep the surrogates out: whatever bytes are read, no
surrogate stands in the text (`decode?_hasSurrogate`). The invariant is about a code point that has begun:
the numbers that it can still become lie all below the surrogates or all above them.
-/

set_option autoImplicit false

namespace PageTree.Utf8

/-- How many numbers share what is known of a code point once its next byte has been read. -/
def Pending.span (p : Pending) : Nat := 0x40 ^ (p.missing - 1)

/-- Whatever bytes follow, the code point that has begun becomes no surrogate. -/
structure Pending.Clean (p : Pending) : Prop where
  missing : 0 < p.missing
  least : 0x80 ≤ p.least
  apart : (p.bits * 0x40 + (p.greatest - 0x80) + 1) * p.span ≤ 0xD800 ∨
    0xDFFF < (p.bits * 0x40 + (p.least - 0x80)) * p.span

/-- A piece that is no surrogate. -/
def CleanPiece (p : Piece) : Prop := ∀ c, p = some c → c.isSurrogate = false

/-- A number that is no surrogate makes a clean piece. -/
theorem cleanPiece_ofNat? {n : Nat} (h : n < 0xD800 ∨ 0xDFFF < n) :
    CleanPiece (CodePoint.ofNat? n) := by
  intro c hc
  have hval : c.val = n := by
    unfold CodePoint.ofNat? at hc
    split at hc
    · rw [← Option.some.inj hc]
    · exact absurd hc (by simp)
  simp only [CodePoint.isSurrogate, hval, Bool.and_eq_false_iff, decide_eq_false_iff_not]
  omega

/-- A code point that has begun, its bounds far enough from the surrogates. -/
theorem clean_of_bounds {bits missing least greatest : Nat} (span : Nat)
    (hspan : 0x40 ^ (missing - 1) = span) (hmissing : 0 < missing) (hleast : 0x80 ≤ least)
    (h : (bits * 0x40 + (greatest - 0x80) + 1) * span ≤ 0xD800 ∨
      0xDFFF < (bits * 0x40 + (least - 0x80)) * span) :
    Pending.Clean ⟨bits, missing, least, greatest⟩ :=
  ⟨hmissing, hleast, by rwa [Pending.span, hspan]⟩

/-- Everything that a first byte can do: it is a code point, it is none, or it begins one that can be told
from a surrogate. -/
theorem begin_cases (b : UInt8) :
    (∃ n < 0x80, begin b = ([CodePoint.ofNat? n], none)) ∨ begin b = ([none], none) ∨
      ∃ p, begin b = ([], some p) ∧ p.Clean := by
  have hlt : b.toNat < 256 := b.toNat_lt
  cases hbegin : begin b with
  | mk pieces next =>
      unfold begin at hbegin
      generalize b.toNat = n at hlt hbegin
      dsimp only at hbegin
      -- One case for each range of first bytes. A lead byte bounds the byte behind it, and the bounds are
      -- what keeps the code point on one side of the surrogates.
      split at hbegin
      · exact .inl ⟨n, ‹_›, hbegin.symm⟩
      split at hbegin
      · exact .inr (.inl hbegin.symm)
      split at hbegin
      · exact .inr (.inr ⟨_, hbegin.symm,
          clean_of_bounds 1 rfl (by decide) (by decide) (by omega)⟩)
      split at hbegin
      · exact .inr (.inr ⟨_, hbegin.symm,
          clean_of_bounds 0x40 rfl (by decide) (by decide) (by omega)⟩)
      split at hbegin
      · exact .inr (.inr ⟨_, hbegin.symm,
          clean_of_bounds 0x40 rfl (by decide) (by decide) (by omega)⟩)
      split at hbegin
      · exact .inr (.inr ⟨_, hbegin.symm,
          clean_of_bounds 0x40 rfl (by decide) (by decide) (by omega)⟩)
      split at hbegin
      · exact .inr (.inr ⟨_, hbegin.symm,
          clean_of_bounds 0x1000 rfl (by decide) (by decide) (by omega)⟩)
      split at hbegin
      · exact .inr (.inr ⟨_, hbegin.symm,
          clean_of_bounds 0x1000 rfl (by decide) (by decide) (by omega)⟩)
      split at hbegin
      · exact .inr (.inr ⟨_, hbegin.symm,
          clean_of_bounds 0x1000 rfl (by decide) (by decide) (by omega)⟩)
      exact .inr (.inl hbegin.symm)

/-- The first byte of a code point says enough to tell it from a surrogate. -/
theorem begin_clean (b : UInt8) :
    (∀ p ∈ (begin b).1, CleanPiece p) ∧ ∀ p, (begin b).2 = some p → p.Clean := by
  rcases begin_cases b with ⟨n, hn, hbegin⟩ | hbegin | ⟨p, hbegin, hclean⟩ <;> rw [hbegin]
  · refine ⟨?_, by simp⟩
    intro p hp
    rw [List.mem_singleton.mp hp]
    exact cleanPiece_ofNat? (by omega)
  · exact ⟨by simp [CleanPiece], by simp⟩
  · refine ⟨by simp, ?_⟩
    intro q hq
    rw [← Option.some.inj hq]
    exact hclean

/-- A byte that continues a code point keeps it apart from the surrogates. -/
theorem Pending.Clean.next {p : Pending} (h : p.Clean) (hmore : 1 < p.missing) {n : Nat}
    (hleast : p.least ≤ n) (hgreatest : n ≤ p.greatest) :
    Pending.Clean ⟨p.bits * 0x40 + (n - 0x80), p.missing - 1, 0x80, 0xBF⟩ := by
  have hspan : p.span = 0x40 * 0x40 ^ (p.missing - 1 - 1) := by
    unfold Pending.span
    rw [← Nat.pow_succ', show (p.missing - 1 - 1).succ = p.missing - 1 by omega]
  have hapart := h.apart
  have hlow := h.least
  rw [hspan] at hapart
  apply clean_of_bounds _ rfl (by omega) (by decide)
  generalize 0x40 ^ (p.missing - 1 - 1) = u at hapart
  rcases hapart with hbelow | habove
  · left
    calc ((p.bits * 0x40 + (n - 0x80)) * 0x40 + (0xBF - 0x80) + 1) * u
        = (p.bits * 0x40 + (n - 0x80) + 1) * (0x40 * u) := by ring
      _ ≤ (p.bits * 0x40 + (p.greatest - 0x80) + 1) * (0x40 * u) :=
        Nat.mul_le_mul_right _ (by omega)
      _ ≤ 0xD800 := hbelow
  · right
    calc 0xDFFF < (p.bits * 0x40 + (p.least - 0x80)) * (0x40 * u) := habove
      _ ≤ (p.bits * 0x40 + (n - 0x80)) * (0x40 * u) := Nat.mul_le_mul_right _ (by omega)
      _ = ((p.bits * 0x40 + (n - 0x80)) * 0x40 + (0x80 - 0x80)) * u := by ring

/-- A byte yields no surrogate, and what it leaves begun becomes none. -/
theorem step_clean (state : Option Pending) (h : ∀ p, state = some p → p.Clean) (b : UInt8) :
    (∀ p ∈ (step state b).1, CleanPiece p) ∧ ∀ p, (step state b).2 = some p → p.Clean := by
  cases state with
  | none => exact begin_clean b
  | some p =>
      have hp := h p rfl
      have hmissing := hp.missing
      have hleast := hp.least
      unfold step
      dsimp only
      split
      · next hbounds =>
          split
          · next hlast =>
              have hspan : p.span = 1 := by
                unfold Pending.span
                rw [show p.missing - 1 = 0 by omega, Nat.pow_zero]
              have hapart := hp.apart
              rw [hspan] at hapart
              refine ⟨?_, by simp⟩
              intro q hq
              rw [List.mem_singleton.mp hq]
              exact cleanPiece_ofNat? (by omega)
          · next hmore =>
              refine ⟨by simp, ?_⟩
              intro q hq
              rw [← Option.some.inj hq]
              exact hp.next (by omega) hbounds.1 hbounds.2
      · -- The byte does not continue the code point: that one is broken off, and the byte is a first one.
        obtain ⟨hpieces, hbegun⟩ := begin_clean b
        refine ⟨?_, hbegun⟩
        intro q hq
        rcases List.mem_cons.mp hq with rfl | hq
        · intro c hc
          exact absurd hc (by simp)
        · exact hpieces q hq

/-- Decoding from a clean state yields only clean pieces. -/
theorem piecesFrom_clean (state : Option Pending) (h : ∀ p, state = some p → p.Clean) (b : Bytes) :
    ∀ p ∈ piecesFrom state b, CleanPiece p := by
  induction b generalizing state with
  | nil =>
      cases state with
      | none => simp [piecesFrom]
      | some p => simp [piecesFrom, CleanPiece]
  | cons byte rest ih =>
      obtain ⟨hpieces, hnext⟩ := step_clean state h byte
      intro p hp
      rw [piecesFrom, List.mem_append] at hp
      rcases hp with hp | hp
      · exact hpieces p hp
      · exact ih _ hnext p hp

/-- No surrogate stands in a text that was read from UTF-8. -/
theorem decode?_hasSurrogate {b : Bytes} {s : Text} (h : decode? b = some s) :
    s.hasSurrogate = false := by
  have hmap : pieces b = s.map some := by
    simpa using map_eq_map_some_of_mapM h
  have hclean := piecesFrom_clean none (by simp) b
  change ∀ p ∈ pieces b, CleanPiece p at hclean
  rw [hmap] at hclean
  rw [Text.hasSurrogate, List.any_eq_false]
  intro c hc
  rw [hclean (some c) (List.mem_map_of_mem hc) c rfl]
  decide

end PageTree.Utf8
