/-
  Checked reads from a byte buffer. A read past the end returns the caller's error `oob`
  instead of a byte, so that a decoder built on these reads shows every out-of-bounds
  access as a result. `be16` is the big-endian value of two bytes, `toBE16` its bytes;
  `readBE16_append` reads back what was written at an offset. `skip` steps over an optional
  field of a known length.

  `Meets x E P` is a postcondition for a decoder that may fail: what its errors and what its
  values satisfy. The rules `meets_bind`, `meets_ite`, `meets_skip` and `meets_readBE16`
  carry it through a do block.
-/
import Mathlib.Data.List.Basic
import Mathlib.Data.Nat.Bits

namespace ByteReader

universe u

variable {ε : Type u}

/-- Byte `i` of the buffer. -/
def readU8 (oob : ε) (buf : List UInt8) (i : Nat) : Except ε UInt8 :=
  match buf[i]? with
  | some b => .ok b
  | none => .error oob

/-- `(hi << 8) | lo`. -/
def be16 (hi lo : UInt8) : UInt16 := hi.toUInt16 <<< 8 ||| lo.toUInt16

/-- The two bytes of `v`, high byte first. -/
def toBE16 (v : UInt16) : List UInt8 := [(v >>> 8).toUInt8, v.toUInt8]

/-- The big-endian value of bytes `i` and `i + 1`. -/
def readBE16 (oob : ε) (buf : List UInt8) (i : Nat) : Except ε UInt16 := do
  let hi ← readU8 oob buf i
  let lo ← readU8 oob buf (i + 1)
  pure (be16 hi lo)

/-- Step over a field of `n` bytes, if `present`; `short` when the buffer ends inside it. -/
def skip (short : ε) (present : Bool) (n len off : Nat) : Except ε Nat :=
  if present then
    if off + n > len then .error short else .ok (off + n)
  else .ok off

@[simp] theorem ok_bind {α β : Type} (a : α) (f : α → Except ε β) :
    (Except.ok a >>= f) = f a := rfl

@[simp] theorem error_bind {α β : Type} (e : ε) (f : α → Except ε β) :
    (Except.error e >>= f) = .error e := rfl

@[simp] theorem toBE16_length (v : UInt16) : (toBE16 v).length = 2 := rfl

theorem be16_toNat (hi lo : UInt8) : (be16 hi lo).toNat = hi.toNat * 256 + lo.toNat := by
  have hhi := hi.toNat_lt
  have hlo := lo.toNat_lt
  have hshift : hi.toNat <<< 8 % 65536 = hi.toNat <<< 8 := by
    rw [Nat.shiftLeft_eq]
    omega
  have hor := Nat.shiftLeft_add_eq_or_of_lt hlo hi.toNat
  simp only [be16, UInt16.toNat_or, UInt16.toNat_shiftLeft, UInt8.toNat_toUInt16]
  simp only [UInt16.toNat_ofNat, Nat.reducePow, Nat.reduceMod]
  rw [hshift, ← hor, Nat.shiftLeft_eq]

theorem be16_toBE16 (v : UInt16) : be16 (v >>> 8).toUInt8 v.toUInt8 = v := by
  apply UInt16.toNat_inj.mp
  have hv := v.toNat_lt
  rw [be16_toNat]
  simp only [UInt16.toNat_toUInt8, UInt16.toNat_shiftRight, UInt16.toNat_ofNat, Nat.reducePow,
    Nat.reduceMod, Nat.shiftRight_eq_div_pow]
  omega

theorem readU8_of_lt (oob : ε) {buf : List UInt8} {i : Nat} (h : i < buf.length) :
    readU8 oob buf i = .ok buf[i] := by
  simp [readU8, List.getElem?_eq_getElem h]

theorem readU8_append (oob : ε) (pre : List UInt8) (b : UInt8) (post : List UInt8) :
    readU8 oob (pre ++ b :: post) pre.length = .ok b := by
  rw [readU8_of_lt oob (by simp)]
  simp

theorem readBE16_of_le (oob : ε) {buf : List UInt8} {i : Nat} (h : i + 2 ≤ buf.length) :
    ∃ v, readBE16 oob buf i = .ok v := by
  refine ⟨be16 buf[i] buf[i + 1], ?_⟩
  rw [readBE16, readU8_of_lt oob (by omega), readU8_of_lt oob (by omega)]
  rfl

theorem readBE16_append (oob : ε) (pre post : List UInt8) (v : UInt16) :
    readBE16 oob (pre ++ (toBE16 v ++ post)) pre.length = .ok v := by
  have hhi : readU8 oob (pre ++ (toBE16 v ++ post)) pre.length = .ok (v >>> 8).toUInt8 :=
    readU8_append oob pre _ _
  have hlo : readU8 oob (pre ++ (toBE16 v ++ post)) (pre.length + 1) = .ok v.toUInt8 := by
    have h := readU8_append oob (pre ++ [(v >>> 8).toUInt8]) v.toUInt8 post
    simpa [toBE16] using h
  rw [readBE16, hhi, hlo]
  exact congrArg Except.ok (be16_toBE16 v)

/-- A field of exactly the length that its flag announces is stepped over. -/
theorem skip_of_length (short : ε) (len off : Nat) {present : Bool} {n fieldLen : Nat}
    (hf : fieldLen = if present then n else 0) (hfit : off + fieldLen ≤ len) :
    skip short present n len off = .ok (off + fieldLen) := by
  cases present with
  | false => simp_all [skip]
  | true =>
      have hn : fieldLen = n := by simpa using hf
      subst hn
      simp [skip, Nat.not_lt.mpr hfit]

/-! ## Outcomes of a read -/

/-- A failure of `x` satisfies `E`, its value `P`. -/
def Meets {α : Type} (x : Except ε α) (E : ε → Prop) (P : α → Prop) : Prop :=
  match x with
  | .ok a => P a
  | .error e => E e

section Rules

variable {α β : Type} {E : ε → Prop} {P : α → Prop} {Q : β → Prop}

theorem meets_pure {a : α} (h : P a) : Meets (pure a) E P := h

theorem meets_throw_bind {e : ε} {f : α → Except ε β} (h : E e) :
    Meets (throw e >>= f) E Q := h

theorem meets_bind {x : Except ε α} {f : α → Except ε β} (hx : Meets x E P)
    (hf : ∀ a, P a → Meets (f a) E Q) : Meets (x >>= f) E Q := by
  cases x with
  | ok a => exact hf a hx
  | error e => exact hx

/-- An early return in front of the rest. -/
theorem meets_ite {c : Prop} [Decidable c] {x y : Except ε α} (hx : c → Meets x E P)
    (hy : ¬ c → Meets y E P) : Meets (if c then x else y) E P := by
  by_cases h : c
  · simpa [h] using hx h
  · simpa [h] using hy h

theorem Meets.of_ok {x : Except ε α} {a : α} (h : Meets x E P) (hx : x = .ok a) : P a := by
  subst hx
  exact h

theorem Meets.of_error {x : Except ε α} {e : ε} (h : Meets x E P) (hx : x = .error e) : E e := by
  subst hx
  exact h

end Rules

theorem meets_readU8 {oob : ε} {E : ε → Prop} {buf : List UInt8} {i : Nat} (h : i < buf.length) :
    Meets (readU8 oob buf i) E (fun b => b = buf.getD i 0) := by
  rw [readU8_of_lt oob h]
  simp [Meets, h]

theorem meets_readBE16 {oob : ε} {E : ε → Prop} {buf : List UInt8} {i : Nat}
    (h : i + 2 ≤ buf.length) : Meets (readBE16 oob buf i) E (fun _ => True) := by
  obtain ⟨v, hv⟩ := readBE16_of_le oob h
  rw [hv]
  trivial

theorem meets_skip {short : ε} {E : ε → Prop} {present : Bool} {n len off : Nat}
    (hshort : present = true → len < off + n → E short) :
    Meets (skip short present n len off) E
      (fun off' => off' = off + (if present then n else 0) ∧ (off ≤ len → off' ≤ len)) := by
  cases present with
  | false => simp [skip, Meets]
  | true =>
      by_cases h : off + n > len
      · simpa [skip, Meets, h] using hshort rfl h
      · simp only [skip, Meets, h, if_true, if_false]
        exact ⟨trivial, fun _ => Nat.not_lt.mp h⟩

end ByteReader
