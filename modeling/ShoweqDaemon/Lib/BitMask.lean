/-
  A word whose bits say which slots of a table meet a test.

  `maskWhere` sets the bits in a loop over the slots. Bit `i` of what it returns is the test of slot
  `i`; to clear a bit or to set it is to change the test at one slot.

  Proved:
  * `getLsbD_maskWhere`: bit `i` is the test of slot `i`, and `eq_maskWhere` the other way round:
    a word with these bits is the mask.
  * `maskWhere_clear`: `mask & ~(1 << i)` is the mask of the test that slot `i` fails.
  * `maskWhere_set`: `mask | 1 << i` is the mask of the test that slot `i` passes.
-/
import Mathlib.Data.BitVec

namespace BitMask

variable {w : ℕ}

/-- `1 << i` -/
def bit (i : ℕ) : BitVec w := 1#w <<< i

/-- `if (p(i)) mask |= 1 << i`, for `i` from 0 on. -/
def maskWhere (w : ℕ) (p : Fin w → Bool) : BitVec w :=
  (List.finRange w).foldl (fun mask i => if p i then mask ||| bit i else mask) 0

theorem getLsbD_bit (i : Fin w) (j : ℕ) :
    (bit i.val : BitVec w).getLsbD j = decide (j = i.val) := by
  have hpos : 0 < w := Nat.lt_of_le_of_lt (Nat.zero_le _) i.isLt
  unfold bit
  rw [BitVec.getLsbD_shiftLeft, BitVec.getLsbD_one]
  by_cases hj : j = i.val
  · subst hj
    simp [hpos]
  · by_cases hle : i.val ≤ j
    · have hsub : j - i.val ≠ 0 := by omega
      simp [hj, hsub]
    · simp [hj, Nat.lt_of_not_le hle]

theorem getLsbD_foldl (p : Fin w → Bool) (slots : List (Fin w)) (mask : BitVec w) (j : Fin w) :
    (slots.foldl (fun mask i => if p i then mask ||| bit i else mask) mask).getLsbD j =
      (mask.getLsbD j || (decide (j ∈ slots) && p j)) := by
  induction slots generalizing mask with
  | nil => simp
  | cons i slots ih =>
      have hstep : (if p i then mask ||| bit i else mask).getLsbD j =
          (mask.getLsbD j || (decide (j = i) && p j)) := by
        by_cases hj : j = i
        · subst hj
          cases hp : p j with
          | false => simp
          | true =>
              rw [if_pos rfl, BitVec.getLsbD_or, getLsbD_bit]
              simp
        · have hval : j.val ≠ i.val := fun h => hj (Fin.ext h)
          cases hp : p i with
          | false => simp [hj]
          | true =>
              rw [if_pos rfl, BitVec.getLsbD_or, getLsbD_bit]
              simp [hj, hval]
      rw [List.foldl_cons, ih, hstep, Bool.or_assoc, ← Bool.and_or_distrib_right]
      congr 2
      rw [← Bool.decide_or]
      exact decide_eq_decide.mpr List.mem_cons.symm

/-- A bit of the mask is the test of its slot. -/
theorem getLsbD_maskWhere (p : Fin w → Bool) (i : Fin w) : (maskWhere w p).getLsbD i = p i := by
  unfold maskWhere
  rw [getLsbD_foldl]
  simp

theorem eq_maskWhere {mask : BitVec w} {p : Fin w → Bool}
    (h : ∀ i : Fin w, mask.getLsbD i = p i) : mask = maskWhere w p := by
  refine BitVec.eq_of_getLsbD_eq fun i hi => ?_
  rw [getLsbD_maskWhere p ⟨i, hi⟩]
  exact h ⟨i, hi⟩

/-- `mask & ~(1 << i)` takes slot `i` out. -/
theorem maskWhere_clear (p : Fin w → Bool) (i : Fin w) :
    maskWhere w p &&& ~~~ bit i.val = maskWhere w (Function.update p i false) := by
  refine eq_maskWhere fun j => ?_
  rw [BitVec.getLsbD_and, BitVec.getLsbD_not, getLsbD_maskWhere, getLsbD_bit]
  by_cases hj : j = i
  · subst hj
    simp
  · have hval : j.val ≠ i.val := fun h => hj (Fin.ext h)
    simp [hj, hval]

/-- `mask | 1 << i` puts slot `i` in. -/
theorem maskWhere_set (p : Fin w → Bool) (i : Fin w) :
    maskWhere w p ||| bit i.val = maskWhere w (Function.update p i true) := by
  refine eq_maskWhere fun j => ?_
  rw [BitVec.getLsbD_or, getLsbD_maskWhere, getLsbD_bit]
  by_cases hj : j = i
  · subst hj
    simp
  · have hval : j.val ≠ i.val := fun h => hj (Fin.ext h)
    simp [hj, hval]

end BitMask
