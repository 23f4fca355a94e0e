import PageTree.Base64
import PageTree.Proofs.Text
import Mathlib.Algebra.Group.Nat.Defs
import Mathlib.Data.List.Range

/-!
# What base 64 says

A text in base 64 says the same as its bytes, bit by bit: six bits a digit in the place of eight bits a byte
(`Spells`). That is so for what `encode` writes (`spells_encode`), because a number of 24 bits is cut into
four digits and into three bytes at different places (`bits_append`), and a group that is not full is such a
number with zeros at its end. `decode?` reads the bytes back (`decode?_encode`).
-/

set_option autoImplicit false

namespace PageTree.Base64

/-! ## Bits -/

/-- The last `width` bits of a number, the highest first. -/
def bits (width n : Nat) : List Bool := (List.range width).reverse.map n.testBit

/-- The bits of a number that is put together are those of its parts. -/
theorem bits_append (v : Nat) {w x y : Nat} (hy : y < 2 ^ w) :
    bits (w + v) (2 ^ w * x + y) = bits v x ++ bits w y := by
  unfold bits
  rw [List.range_add, List.reverse_append, List.map_append, ← List.map_reverse, List.map_map]
  congr 1
  · apply List.map_congr_left
    intro i _
    rw [Function.comp_apply, Nat.testBit_two_pow_mul_add x hy, if_neg (by omega), Nat.add_sub_cancel_left]
  · apply List.map_congr_left
    intro i hi
    have hlt : i < w := List.mem_range.mp (List.mem_reverse.mp hi)
    rw [Nat.testBit_two_pow_mul_add x hy, if_pos hlt]

/-- Four digits say what three bytes say, as parts of one number of 24 bits. -/
theorem bits_group {a b c : Nat} (hb : b < 256) (hc : c < 256) :
    bits 6 (a / 4) ++ bits 6 (a % 4 * 16 + b / 16) ++ bits 6 (b % 16 * 4 + c / 64) ++ bits 6 (c % 64) =
      bits 8 a ++ bits 8 b ++ bits 8 c := by
  have hdigits : bits 24 (2 ^ 18 * (a / 4) +
      (2 ^ 12 * (a % 4 * 16 + b / 16) + (2 ^ 6 * (b % 16 * 4 + c / 64) + c % 64))) =
        bits 6 (a / 4) ++ bits 6 (a % 4 * 16 + b / 16) ++ bits 6 (b % 16 * 4 + c / 64) ++
          bits 6 (c % 64) := by
    rw [bits_append (w := 18) 6 (by omega), bits_append (w := 12) 6 (by omega),
      bits_append (w := 6) 6 (by omega)]
    simp only [List.append_assoc]
  have hbytes : bits 24 (2 ^ 16 * a + (2 ^ 8 * b + c)) = bits 8 a ++ bits 8 b ++ bits 8 c := by
    rw [bits_append (w := 16) 8 (by omega), bits_append (w := 8) 8 hc]
    simp only [List.append_assoc]
  rw [← hdigits, ← hbytes]
  congr 1
  omega

/-- A byte alone is filled up with four zeros. -/
theorem bits_one (a : Nat) :
    bits 6 (a / 4) ++ bits 6 (a % 4 * 16) = bits 8 a ++ List.replicate 4 false := by
  -- The group with two bytes of zeros behind it ends with the same twelve zeros on both sides.
  have hgroup := bits_group (a := a) (b := 0) (c := 0) (by decide) (by decide)
  have hzeros : bits 6 (a / 4) ++ bits 6 (a % 4 * 16) ++ (bits 6 0 ++ bits 6 0) =
      bits 8 a ++ List.replicate 4 false ++ (bits 6 0 ++ bits 6 0) := by
    calc bits 6 (a / 4) ++ bits 6 (a % 4 * 16) ++ (bits 6 0 ++ bits 6 0)
        = bits 8 a ++ bits 8 0 ++ bits 8 0 := by
          rw [← List.append_assoc]
          exact hgroup
      _ = bits 8 a ++ List.replicate 4 false ++ (bits 6 0 ++ bits 6 0) := by
          rw [List.append_assoc, List.append_assoc]
          rfl
  exact List.append_cancel_right hzeros

/-- Two bytes are filled up with two zeros. -/
theorem bits_two (a : Nat) {b : Nat} (hb : b < 256) :
    bits 6 (a / 4) ++ bits 6 (a % 4 * 16 + b / 16) ++ bits 6 (b % 16 * 4) =
      bits 8 a ++ bits 8 b ++ List.replicate 2 false := by
  have hgroup := bits_group (a := a) (c := 0) hb (by decide)
  have hzeros : bits 6 (a / 4) ++ bits 6 (a % 4 * 16 + b / 16) ++ bits 6 (b % 16 * 4) ++ bits 6 0 =
      bits 8 a ++ bits 8 b ++ List.replicate 2 false ++ bits 6 0 := by
    calc bits 6 (a / 4) ++ bits 6 (a % 4 * 16 + b / 16) ++ bits 6 (b % 16 * 4) ++ bits 6 0
        = bits 8 a ++ bits 8 b ++ bits 8 0 := hgroup
      _ = bits 8 a ++ bits 8 b ++ List.replicate 2 false ++ bits 6 0 := by
          rw [List.append_assoc (bits 8 a ++ bits 8 b)]
          rfl
  exact List.append_cancel_right hzeros

/-! ## Digits -/

/-- The digits in the order of their numbers. -/
def alphabet : Text := text "ABCDEFGHIJKLMNOPQRSTUVWXYZabcdefghijklmnopqrstuvwxyz0123456789+/"

/-- The digit at a place of the alphabet. -/
def symbol (n : Fin 64) : CodePoint := alphabet.get n

/-- A digit is the symbol of its number. -/
theorem digit_eq_symbol {n : Nat} (h : n < 64) : digit n = symbol ⟨n, h⟩ := by
  have hall : ∀ n : Fin 64, digit n = symbol n := by decide +kernel
  exact hall ⟨n, h⟩

/-- The value of a digit is the number it was made from. -/
theorem digitValue?_digit {n : Nat} (h : n < 64) : digitValue? (digit n) = some n := by
  have hall : ∀ n : Fin 64, digitValue? (digit n) = some n.val := by decide
  exact hall ⟨n, h⟩

/-- No digit is the padding sign. -/
theorem digit_ne_sign {n : Nat} (h : n < 64) : digit n ≠ CodePoint.ofChar '=' := by
  intro hsign
  have hvalue := digitValue?_digit h
  have hnone : digitValue? (CodePoint.ofChar '=') = none := by decide
  rw [hsign, hnone] at hvalue
  cases hvalue

/-! ## Texts -/

/-- A text in base 64 spells bytes. It consists of whole groups of four: digits, and a sign in the place of
each digit that is missing at the end. The bits of the digits are those of the bytes, with two zeros for
each sign behind them. -/
structure Spells (t : Text) (b : Bytes) : Prop where
  wholeGroups : 4 ∣ t.length
  filledUp : ∃ (digits : List (Fin 64)) (signs : Nat), signs ≤ 2 ∧
    t = digits.map symbol ++ List.replicate signs (CodePoint.ofChar '=') ∧
    digits.flatMap (fun n : Fin 64 => bits 6 n.val) =
      b.flatMap (fun x => bits 8 x.toNat) ++ List.replicate (2 * signs) false

/-- What is written spells the bytes that it is written for. -/
theorem spells_encode (b : Bytes) : Spells (encode b) b := by
  fun_induction encode b with
  | case1 => exact ⟨by decide, [], 0, by decide, rfl, rfl⟩
  | case2 a =>
      have ha := a.toNat_lt
      have hp : a.toNat / 4 < 64 := by omega
      have hq : a.toNat % 4 * 16 < 64 := by omega
      refine ⟨⟨1, rfl⟩, [⟨_, hp⟩, ⟨_, hq⟩], 2, by decide, ?_, ?_⟩
      · rw [digit_eq_symbol hp, digit_eq_symbol hq]
        rfl
      · simpa using bits_one a.toNat
  | case3 a b =>
      have ha := a.toNat_lt
      have hb := b.toNat_lt
      have hp : a.toNat / 4 < 64 := by omega
      have hq : a.toNat % 4 * 16 + b.toNat / 16 < 64 := by omega
      have hr : b.toNat % 16 * 4 < 64 := by omega
      refine ⟨⟨1, rfl⟩, [⟨_, hp⟩, ⟨_, hq⟩, ⟨_, hr⟩], 1, by decide, ?_, ?_⟩
      · rw [digit_eq_symbol hp, digit_eq_symbol hq, digit_eq_symbol hr]
        rfl
      · simpa using bits_two a.toNat hb
  | case4 a b c rest ih =>
      have ha := a.toNat_lt
      have hb := b.toNat_lt
      have hc := c.toNat_lt
      have hp : a.toNat / 4 < 64 := by omega
      have hq : a.toNat % 4 * 16 + b.toNat / 16 < 64 := by omega
      have hr : b.toNat % 16 * 4 + c.toNat / 64 < 64 := by omega
      have hs : c.toNat % 64 < 64 := by omega
      obtain ⟨hlength, digits, signs, hsigns, htext, hbits⟩ := ih
      refine ⟨by simpa using hlength, ⟨_, hp⟩ :: ⟨_, hq⟩ :: ⟨_, hr⟩ :: ⟨_, hs⟩ :: digits, signs, hsigns,
        ?_, ?_⟩
      · rw [digit_eq_symbol hp, digit_eq_symbol hq, digit_eq_symbol hr, digit_eq_symbol hs, htext]
        rfl
      · have hgroup := bits_group (a := a.toNat) hb hc
        simp only [List.flatMap_cons, hbits]
        simp only [← List.append_assoc, hgroup]

/-- Two digits and two signs are read as a byte. -/
theorem decode?_one {p q : Nat} (hp : p < 64) (hq : q < 64) :
    decode? [digit p, digit q, CodePoint.ofChar '=', CodePoint.ofChar '='] =
      some [(p * 4 + q / 16).toUInt8] := by
  rw [decode?, digitValue?_digit hp, digitValue?_digit hq]
  rfl

/-- Three digits and a sign are read as two bytes. -/
theorem decode?_two {p q r : Nat} (hp : p < 64) (hq : q < 64) (hr : r < 64) :
    decode? [digit p, digit q, digit r, CodePoint.ofChar '='] =
      some [(p * 4 + q / 16).toUInt8, (q % 16 * 16 + r / 4).toUInt8] := by
  rw [decode?, digitValue?_digit hp, digitValue?_digit hq, digitValue?_digit hr]
  simp [digit_ne_sign hr]

/-- Four digits are read as three bytes. -/
theorem decode?_three {p q r s : Nat} (hp : p < 64) (hq : q < 64) (hr : r < 64) (hs : s < 64)
    (rest : Text) :
    decode? (digit p :: digit q :: digit r :: digit s :: rest) =
      (decode? rest).map fun others =>
        (p * 4 + q / 16).toUInt8 :: (q % 16 * 16 + r / 4).toUInt8 :: (r % 4 * 64 + s).toUInt8 ::
          others := by
  rw [decode?, digitValue?_digit hp, digitValue?_digit hq, digitValue?_digit hr, digitValue?_digit hs]
  cases decode? rest <;> simp [digit_ne_sign hr, digit_ne_sign hs]

/-- The number of a byte is turned back into the byte. -/
theorem toUInt8_eq {n : Nat} {a : UInt8} (h : n = a.toNat) : n.toUInt8 = a := by
  rw [h]
  exact UInt8.ofNat_toNat

/-- What is written is read as the bytes that it is written for. -/
theorem decode?_encode (b : Bytes) : decode? (encode b) = some b := by
  fun_induction encode b with
  | case1 => rfl
  | case2 a =>
      have ha := a.toNat_lt
      rw [decode?_one (by omega) (by omega), toUInt8_eq (a := a) (by omega)]
  | case3 a b =>
      have ha := a.toNat_lt
      have hb := b.toNat_lt
      rw [decode?_two (by omega) (by omega) (by omega), toUInt8_eq (a := a) (by omega),
        toUInt8_eq (a := b) (by omega)]
  | case4 a b c rest ih =>
      have ha := a.toNat_lt
      have hb := b.toNat_lt
      have hc := c.toNat_lt
      rw [decode?_three (by omega) (by omega) (by omega) (by omega), ih, Option.map_some,
        toUInt8_eq (a := a) (by omega), toUInt8_eq (a := b) (by omega), toUInt8_eq (a := c) (by omega)]

end PageTree.Base64
