/-
  A byte memory, and numbers in little-endian order.

  `load` reads a range, `store` writes one, `move` copies one that may overlap its target.
  `load_store_self` and `load_store_disjoint` say what a read finds after a write, `load_add` cuts a
  range in two. `leValue_leBytes` reads a number back.

  Addresses are natural numbers and the memory has no end, so that a bound is a statement about
  the addresses used and not about the memory.

  Proved:
  * `load_store_self`, `load_store_disjoint`: what is written is read, what lies beside it stays.
  * `load_add`: a range is its front and its back.
  * `load_move`: a copy finds what was there before it, also where the two ranges overlap.
  * `leValue_leBytes`, `leValue_leBytes_of_lt`: a number written with enough bytes comes back.
-/
import Mathlib.Data.List.Basic
import Mathlib.Data.Nat.ModEq

/-- The byte at each address. -/
abbrev ByteMemory := ℕ → UInt8

namespace ByteMemory

/-- The `n` bytes from address `i` on. -/
def load (m : ByteMemory) (i n : ℕ) : List UInt8 := (List.range n).map fun j => m (i + j)

/-- The bytes written from address `i` on. -/
def store (m : ByteMemory) (i : ℕ) (bs : List UInt8) : ByteMemory :=
  fun a => if i ≤ a ∧ a - i < bs.length then bs.getD (a - i) 0 else m a

/-- The `n` bytes from `src` on copied to `dst`, as `memmove` does. -/
def move (m : ByteMemory) (dst src n : ℕ) : ByteMemory := m.store dst (m.load src n)

@[simp] theorem load_length (m : ByteMemory) (i n : ℕ) : (m.load i n).length = n := by
  simp [load]

theorem getElem_load (m : ByteMemory) (i n j : ℕ) (h : j < (m.load i n).length) :
    (m.load i n)[j] = m (i + j) := by
  simp [load]

theorem load_congr {m m' : ByteMemory} {i i' n : ℕ} (h : ∀ j, j < n → m (i + j) = m' (i' + j)) :
    m.load i n = m'.load i' n := by
  unfold load
  exact List.map_congr_left fun j hj => h j (List.mem_range.mp hj)

theorem load_add (m : ByteMemory) (i n k : ℕ) :
    m.load i (n + k) = m.load i n ++ m.load (i + n) k := by
  unfold load
  rw [List.range_add, List.map_append, List.map_map]
  congr 1
  refine List.map_congr_left fun j _ => ?_
  show m (i + (n + j)) = m (i + n + j)
  rw [Nat.add_assoc]

theorem load_store_self (m : ByteMemory) (i : ℕ) {bs : List UInt8} {n : ℕ} (hn : bs.length = n) :
    (m.store i bs).load i n = bs := by
  subst hn
  refine List.ext_getElem (load_length _ _ _) fun j hj hj' => ?_
  have hin : i ≤ i + j ∧ i + j - i < bs.length := by omega
  rw [getElem_load, store, if_pos hin, Nat.add_sub_cancel_left]
  simp [List.getD, hj']

theorem load_store_disjoint {m : ByteMemory} {i j n : ℕ} {bs : List UInt8}
    (h : j + n ≤ i ∨ i + bs.length ≤ j) : (m.store i bs).load j n = m.load j n := by
  refine load_congr fun k hk => ?_
  have hout : ¬ (i ≤ j + k ∧ j + k - i < bs.length) := by omega
  rw [store, if_neg hout]

theorem load_move (m : ByteMemory) (dst src n : ℕ) :
    (m.move dst src n).load dst n = m.load src n :=
  load_store_self m dst (load_length m src n)

end ByteMemory

/-! ## Little-endian numbers -/

/-- The low `n` bytes of a number, the lowest first. -/
def leBytes : ℕ → ℕ → List UInt8
  | 0, _ => []
  | n + 1, v => UInt8.ofNat v :: leBytes n (v / 256)

/-- The number that the bytes stand for. -/
def leValue : List UInt8 → ℕ
  | [] => 0
  | b :: bs => b.toNat + 256 * leValue bs

@[simp] theorem leBytes_length (n v : ℕ) : (leBytes n v).length = n := by
  induction n generalizing v with
  | zero => rfl
  | succ n ih => rw [leBytes, List.length_cons, ih]

theorem leValue_leBytes (n v : ℕ) : leValue (leBytes n v) = v % 256 ^ n := by
  induction n generalizing v with
  | zero => rw [Nat.pow_zero, Nat.mod_one]; rfl
  | succ n ih =>
      have hlow : (UInt8.ofNat v).toNat = v % 256 := UInt8.toNat_ofNat'
      rw [leBytes, leValue, ih, hlow, Nat.pow_succ, Nat.mul_comm (256 ^ n), Nat.mod_mul]

theorem leValue_leBytes_of_lt {n v : ℕ} (h : v < 256 ^ n) : leValue (leBytes n v) = v := by
  rw [leValue_leBytes, Nat.mod_eq_of_lt h]
