/-
  Packed structs: `n` bytes with fields at fixed offsets, little-endian.

  `fill` is a struct cleared and then copied from a payload if the payload is long enough. A payload
  that is too short leaves it clear (`fill_short`), and every field of a clear struct is zero.

  The offsets are the caller's; a field that reaches over the end of the struct reads zeros.

  Proved:
  * `fill_short`: a payload shorter than the struct leaves all of it clear, and the length that is
    returned says so.
  * `u8_clear`, `u16_clear`, `u32_clear`, `text_clear`: the fields of a clear struct.
-/
import Mathlib.Data.List.Basic
import ShoweqDaemon.Lib.ByteReader

/-- A struct of `n` bytes without padding. -/
abbrev PackedStruct (n : ℕ) := Fin n → UInt8

namespace PackedStruct

variable {n : ℕ}

/-- `memset` with 0. -/
def clear (n : ℕ) : PackedStruct n := fun _ => 0

/-- The byte at an offset; a read behind the end gives 0. -/
def u8 (s : PackedStruct n) (off : ℕ) : UInt8 := if h : off < n then s ⟨off, h⟩ else 0

/-- Two bytes, the low one first. -/
def u16 (s : PackedStruct n) (off : ℕ) : UInt16 := ByteReader.be16 (s.u8 (off + 1)) (s.u8 off)

/-- Four bytes, the low one first. -/
def u32 (s : PackedStruct n) (off : ℕ) : UInt32 :=
  (s.u16 (off + 2)).toUInt32 <<< 16 ||| (s.u16 off).toUInt32

/-- A text: it ends in front of its first NUL, at the latest with the struct. -/
def text (s : PackedStruct n) (off : ℕ) : List UInt8 :=
  ((List.range (n - off)).map fun i => s.u8 (off + i)).takeWhile (· ≠ 0)

/-- The struct, and how many bytes were copied. -/
def fill (n : ℕ) (data : List UInt8) : PackedStruct n × ℕ :=
  if h : data.length < n then (clear n, 0)
  else (fun i => data.get ⟨i, Nat.lt_of_lt_of_le i.isLt (Nat.le_of_not_lt h)⟩, n)

theorem fill_short {data : List UInt8} (h : data.length < n) : fill n data = (clear n, 0) :=
  dif_pos h

@[simp] theorem u8_clear (off : ℕ) : (clear n).u8 off = 0 := by
  unfold u8 clear
  split <;> rfl

@[simp] theorem u16_clear (off : ℕ) : (clear n).u16 off = 0 := by
  unfold u16
  rw [u8_clear, u8_clear]
  rfl

@[simp] theorem u32_clear (off : ℕ) : (clear n).u32 off = 0 := by
  unfold u32
  rw [u16_clear, u16_clear]
  rfl

@[simp] theorem text_clear (off : ℕ) : (clear n).text off = [] := by
  unfold text
  cases h : n - off with
  | zero => rfl
  | succ m => rw [List.range_succ_eq_map, List.map_cons, u8_clear]; rfl

end PackedStruct
