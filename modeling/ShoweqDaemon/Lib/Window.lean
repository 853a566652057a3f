/-
  A window over a growing list: `push` adds an entry at the back, then drops entries from the
  front, first those that have expired next to the new one, then what exceeds the capacity.

  The window is a suffix of the list (`push_suffix`) within its capacity
  (`length_push_le`), and a suffix that fits the capacity and starts with an entry that has not
  expired is kept whole (`suffix_push`).

  Proved for any length of the list and any order of the entries; whether an entry has expired is
  a test of the caller's on the old entry and the new one.
-/
import Mathlib.Data.List.Infix

namespace Window

universe u

variable {α : Type u} (expired : α → α → Bool) (cap : Nat)

/-- The window with `x` at the back. -/
def push (w : List α) (x : α) : List α :=
  let live := (w ++ [x]).dropWhile (fun y => expired y x)
  live.drop (live.length - cap)

theorem push_suffix (w : List α) (x : α) : push expired cap w x <:+ w ++ [x] :=
  (List.drop_suffix _ _).trans (List.dropWhile_suffix _)

theorem length_push_le (w : List α) (x : α) : (push expired cap w x).length ≤ cap := by
  unfold push
  rw [List.length_drop]
  omega

/-- Dropping from the front stops at the first entry that has not expired. -/
theorem suffix_dropWhile {p : α → Bool} {l w : List α} {y : α} (h : y :: l <:+ w)
    (hy : p y = false) : y :: l <:+ w.dropWhile p := by
  induction w with
  | nil => exact absurd (List.suffix_nil.mp h) (by simp)
  | cons z w ih =>
      by_cases hz : p z = true
      · rw [List.dropWhile_cons_of_pos hz]
        rcases List.suffix_cons_iff.mp h with heq | hw
        · obtain ⟨rfl, -⟩ := List.cons.inj heq
          rw [hz] at hy
          cases hy
        · exact ih hw
      · rwa [List.dropWhile_cons_of_neg hz]

theorem suffix_drop {l w : List α} (h : l <:+ w) (hlen : l.length ≤ cap) :
    l <:+ w.drop (w.length - cap) := by
  obtain ⟨pre, rfl⟩ := h
  rw [List.length_append, List.drop_append_of_le_length (by omega)]
  exact List.suffix_append _ _

theorem suffix_push {l w : List α} {x y : α} (h : y :: l <:+ w ++ [x])
    (hy : expired y x = false) (hlen : (y :: l).length ≤ cap) :
    y :: l <:+ push expired cap w x :=
  suffix_drop cap (suffix_dropWhile h hy) hlen

end Window
