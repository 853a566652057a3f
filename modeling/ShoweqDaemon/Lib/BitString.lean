/-
  Bytes as a string of bits, the highest bit of each byte first.

  `bits` is the string, `value` the number that some bits stand for, `field p n` the `n` bits behind
  the first `p`. `field_add` cuts a field in two and `value_append` says what that does to its
  number. `value_field_byte` reads a field off the byte it lies in.

  Proved:
  * `value_append`, `value_front`, `value_back`: the number of two strings in a row, and back.
  * `value_ofNat`: the low bits of a number stand for its remainder.
  * `bits_drop`, `field_byte`: what is behind whole bytes, and a field inside one byte.
  * `value_field_byte`: a field inside a byte is a quotient of a remainder of it.
-/
import Mathlib.Data.List.GetD
import Mathlib.Data.List.TakeDrop
import Mathlib.Data.Nat.ModEq
import Mathlib.Tactic.Ring

namespace BitString

/-- The number with these bits, the highest one first. -/
def value : List Bool → ℕ
  | [] => 0
  | b :: bs => b.toNat * 2 ^ bs.length + value bs

/-- The low `n` bits of a number. -/
def ofNat : ℕ → ℕ → List Bool
  | 0, _ => []
  | n + 1, v => v.testBit n :: ofNat n v

/-- The bits of some bytes, the highest of the first byte first. -/
def bits (bytes : List UInt8) : List Bool := bytes.flatMap fun b => ofNat 8 b.toNat

/-- The `n` bits behind the first `p`. -/
def field (bytes : List UInt8) (p n : ℕ) : List Bool := ((bits bytes).drop p).take n

/-! ## Numbers -/

@[simp] theorem value_nil : value [] = 0 := rfl

theorem value_append (xs ys : List Bool) :
    value (xs ++ ys) = value xs * 2 ^ ys.length + value ys := by
  induction xs with
  | nil => simp
  | cons b xs ih =>
      rw [List.cons_append, value, value, ih, List.length_append, pow_add]
      ring

theorem value_lt (xs : List Bool) : value xs < 2 ^ xs.length := by
  induction xs with
  | nil => exact Nat.one_pos
  | cons b xs ih =>
      have hbit : b.toNat * 2 ^ xs.length ≤ 2 ^ xs.length :=
        Nat.mul_le_of_le_div _ _ _ (by rw [Nat.div_self (Nat.two_pow_pos _)]; exact b.toNat_le)
      rw [value, List.length_cons, pow_succ]
      omega

/-- The front of a string is its number without the low bits. -/
theorem value_front (xs ys : List Bool) : value xs = value (xs ++ ys) / 2 ^ ys.length := by
  rw [value_append, Nat.mul_comm, Nat.mul_add_div (Nat.two_pow_pos _),
    Nat.div_eq_of_lt (value_lt ys), Nat.add_zero]

theorem value_back (xs ys : List Bool) : value ys = value (xs ++ ys) % 2 ^ ys.length := by
  rw [value_append, Nat.mul_comm, Nat.mul_add_mod, Nat.mod_eq_of_lt (value_lt ys)]

@[simp] theorem ofNat_length (n v : ℕ) : (ofNat n v).length = n := by
  induction n with
  | zero => rfl
  | succ n ih => rw [ofNat, List.length_cons, ih]

theorem value_ofNat (n v : ℕ) : value (ofNat n v) = v % 2 ^ n := by
  induction n with
  | zero => rw [pow_zero, Nat.mod_one]; rfl
  | succ n ih =>
      rw [ofNat, value, ih, ofNat_length, Nat.toNat_testBit, Nat.mod_pow_succ]
      ring

/-! ## Fields -/

@[simp] theorem bits_length (bytes : List UInt8) : (bits bytes).length = 8 * bytes.length := by
  induction bytes with
  | nil => rfl
  | cons b bytes ih =>
      rw [bits, List.flatMap_cons, List.length_append, ofNat_length, List.length_cons]
      rw [bits] at ih
      omega

variable (bytes : List UInt8)

theorem field_length {p n : ℕ} (h : p + n ≤ 8 * bytes.length) : (field bytes p n).length = n := by
  rw [field, List.length_take, List.length_drop, bits_length]
  omega

@[simp] theorem field_zero (p : ℕ) : field bytes p 0 = [] := List.take_zero

theorem field_add (p n k : ℕ) :
    field bytes p (n + k) = field bytes p n ++ field bytes (p + n) k := by
  rw [field, List.take_add, List.drop_drop]
  rfl

/-- The bits behind whole bytes. -/
theorem bits_drop (q : ℕ) : (bits bytes).drop (8 * q) = bits (bytes.drop q) := by
  induction q generalizing bytes with
  | zero => rfl
  | succ q ih =>
      cases bytes with
      | nil => simp [bits]
      | cons b bytes =>
          rw [List.drop_succ_cons, ← ih]
          have hlen : 8 * (q + 1) = (ofNat 8 b.toNat).length + 8 * q := by
            rw [ofNat_length]
            omega
          rw [bits, List.flatMap_cons, hlen, ← List.drop_drop, List.drop_left]
          rfl

/-- A field inside one byte. -/
theorem field_byte {q r n : ℕ} (hq : q < bytes.length) (hn : r + n ≤ 8) :
    field bytes (8 * q + r) n = ((ofNat 8 (bytes.getD q 0).toNat).drop r).take n := by
  have hbyte : (bits bytes).drop (8 * q) =
      ofNat 8 (bytes.getD q 0).toNat ++ bits (bytes.drop (q + 1)) := by
    rw [bits_drop, List.drop_eq_getElem_cons hq, List.getD_eq_getElem _ _ hq]
    rfl
  rw [field, ← List.drop_drop, hbyte, List.drop_append_of_le_length (by rw [ofNat_length]; omega),
    List.take_append_of_le_length (by rw [List.length_drop, ofNat_length]; omega)]

/-- What is in front of the field goes by the remainder, what is behind it by the quotient. -/
theorem value_field_byte {q r n : ℕ} (hq : q < bytes.length) (hn : r + n ≤ 8) :
    value (field bytes (8 * q + r) n) = (bytes.getD q 0).toNat % 2 ^ (8 - r) / 2 ^ (8 - r - n) := by
  have hbyte := (bytes.getD q 0).toNat_lt
  rw [field_byte bytes hq hn]
  generalize (bytes.getD q 0).toNat = v at hbyte ⊢
  have hback := value_back ((ofNat 8 v).take r) ((ofNat 8 v).drop r)
  have hfront := value_front (((ofNat 8 v).drop r).take n) (((ofNat 8 v).drop r).drop n)
  rw [List.take_append_drop, value_ofNat, Nat.mod_eq_of_lt hbyte, List.length_drop,
    ofNat_length] at hback
  rw [List.take_append_drop, hback, List.length_drop, List.length_drop, ofNat_length] at hfront
  exact hfront

end BitString
