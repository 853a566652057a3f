/-
  Rotations of bit vectors undo each other. A 32-bit word as a pair of 16-bit halves, and what
  sign extension puts into the upper one.

  The rotations are those of `BitVec`, for any width and any number of places; the pairs are
  numbers below 2^32 whose halves are read by division and remainder.

  Proved:
  * `rotateRight_rotateLeft`, `rotateLeft_rotateRight`: each rotation takes the other one back.
  * `toNat_pair`, `pair_inj`: two halves are read off a word again, so a word is its two halves.
  * `signExtend_pair`: a half that is sign-extended to a word is the lower half of it; the upper
    half is sixteen copies of its top bit (`signFill`).
-/
import Mathlib.Data.Nat.Notation

namespace Bits

variable {w : Nat}

theorem rotateRight_rotateLeft (x : BitVec w) (r : Nat) : (x.rotateLeft r).rotateRight r = x := by
  apply BitVec.eq_of_getElem_eq
  intro i hi
  have hr : r % w < w := Nat.mod_lt r (by omega)
  rw [BitVec.getElem_rotateRight hi]
  split
  · rw [BitVec.getElem_rotateLeft, dif_neg (by omega)]
    congr 1
    omega
  · rw [BitVec.getElem_rotateLeft, dif_pos (by omega)]
    congr 1
    omega

theorem rotateLeft_rotateRight (x : BitVec w) (r : Nat) : (x.rotateRight r).rotateLeft r = x := by
  apply BitVec.eq_of_getElem_eq
  intro i hi
  have hr : r % w < w := Nat.mod_lt r (by omega)
  rw [BitVec.getElem_rotateLeft hi]
  split
  · rw [BitVec.getElem_rotateRight, dif_neg (by omega)]
    congr 1
    omega
  · rw [BitVec.getElem_rotateRight, dif_pos (by omega)]
    congr 1
    omega

/-! ## Pairs -/

/-- Two halves of a word. -/
theorem toNat_pair (hi lo : UInt16) :
    (hi.toUInt32 <<< 16 ||| lo.toUInt32).toNat = hi.toNat * 65536 + lo.toNat := by
  have hhi := hi.toNat_lt
  have hlo := lo.toNat_lt
  have hshift : hi.toNat <<< 16 ||| lo.toNat = hi.toNat <<< 16 + lo.toNat :=
    (Nat.shiftLeft_add_eq_or_of_lt hlo hi.toNat).symm
  have hlow : hi.toNat <<< 16 % 2 ^ 32 = hi.toNat <<< 16 := by
    rw [Nat.shiftLeft_eq]
    omega
  simp only [UInt32.toNat_or, UInt32.toNat_shiftLeft, UInt16.toNat_toUInt32]
  simp only [UInt32.toNat_ofNat, Nat.reducePow, Nat.reduceMod] at *
  rw [hlow, hshift, Nat.shiftLeft_eq]

theorem pair_inj {hi lo hi' lo' : UInt16} :
    hi.toUInt32 <<< 16 ||| lo.toUInt32 = hi'.toUInt32 <<< 16 ||| lo'.toUInt32 ↔
      hi = hi' ∧ lo = lo' := by
  constructor
  · intro h
    have hnat := congrArg UInt32.toNat h
    rw [toNat_pair, toNat_pair] at hnat
    have hlo := lo.toNat_lt
    have hlo' := lo'.toNat_lt
    exact ⟨UInt16.toNat_inj.mp (by omega), UInt16.toNat_inj.mp (by omega)⟩
  · intro h
    rw [h.1, h.2]

/-- The sixteen copies of the top bit. -/
def signFill (x : UInt16) : UInt16 := if x.toNat < 32768 then 0 else 0xffff

@[simp] theorem signFill_signFill (x : UInt16) : signFill (signFill x) = signFill x := by
  unfold signFill
  split <;> rfl

/-- Sign extension writes the top bit's copies in front. -/
theorem signExtend_pair (x : UInt16) :
    x.toInt16.toInt32.toUInt32 = (signFill x).toUInt32 <<< 16 ||| x.toUInt32 := by
  apply UInt32.toNat_inj.mp
  rw [toNat_pair]
  have hext : (x.toInt16.toInt32.toUInt32).toNat = (x.toBitVec.signExtend 32).toNat := rfl
  have hx := x.toNat_lt
  have hmsb : x.toBitVec.msb = decide (32768 ≤ x.toNat) := by
    rw [BitVec.msb_eq_decide]
    rfl
  rw [hext, BitVec.toNat_signExtend, hmsb, BitVec.toNat_setWidth, UInt16.toNat_toBitVec]
  unfold signFill
  by_cases h : x.toNat < 32768
  · rw [if_pos h, if_neg (by simpa using h)]
    show x.toNat % 2 ^ 32 + 0 = 0 * 65536 + x.toNat
    omega
  · rw [if_neg h, if_pos (by simpa using h)]
    show x.toNat % 2 ^ 32 + (2 ^ 32 - 2 ^ 16) = 0xffff * 65536 + x.toNat
    omega

end Bits
