/-
  References into a set of owned objects.

  `refs i` is what the slot `i` refers to, `owned a` says that `a` still exists. `Safe` is that no
  slot refers to anything else. `Fewer` compares two states of the slots; `Safe.retain_iff` says
  which slots must be empty when only a part of the objects stays.

  Nothing is said of why an object goes away: a deletion, a table that is cleared, an arena.

  Proved:
  * `Safe.fewer`, `Safe.mono`: slots may be emptied and objects may be added.
  * `Safe.update`: a slot may be given an object that is owned.
  * `Safe.retain_iff`: where a safe family of slots stays as it is and only some of the objects
    stay, it is safe after that just when no slot refers to one of the others.
-/
import Mathlib.Logic.Function.Basic

namespace Refs

universe u v

variable {ι : Type u} {α : Type v}

/-- No slot refers to what is gone. -/
def Safe (refs : ι → Option α) (owned : α → Prop) : Prop := ∀ i a, refs i = some a → owned a

/-- Some slots may have been emptied. -/
def Fewer (refs' refs : ι → Option α) : Prop := ∀ i a, refs' i = some a → refs i = some a

variable {refs refs' refs'' : ι → Option α} {owned owned' : α → Prop}

theorem Fewer.refl (refs : ι → Option α) : Fewer refs refs := fun _ _ h => h

theorem Fewer.trans (h : Fewer refs'' refs') (h' : Fewer refs' refs) : Fewer refs'' refs :=
  fun i a ha => h' i a (h i a ha)

theorem Safe.fewer (h : Safe refs owned) (hle : Fewer refs' refs) : Safe refs' owned :=
  fun i a ha => h i a (hle i a ha)

theorem Safe.mono (h : Safe refs owned) (hsub : ∀ a, owned a → owned' a) : Safe refs owned' :=
  fun i a ha => hsub a (h i a ha)

theorem Safe.congr (heq : ∀ a, owned a ↔ owned' a) : Safe refs owned ↔ Safe refs owned' :=
  ⟨fun h => h.mono fun a => (heq a).mp, fun h => h.mono fun a => (heq a).mpr⟩

theorem Safe.update [DecidableEq ι] (h : Safe refs owned) {i : ι} {r : Option α}
    (hr : ∀ a, r = some a → owned a) : Safe (Function.update refs i r) owned := by
  intro j a ha
  by_cases hj : j = i
  · subst hj
    rw [Function.update_self] at ha
    exact hr a ha
  · rw [Function.update_of_ne hj] at ha
    exact h j a ha

/-- Only the objects with `keep` stay: the slots that refer to the others must have been emptied. -/
theorem Safe.retain_iff (h : Safe refs owned) {keep : α → Prop}
    (hkeep : ∀ a, owned' a ↔ owned a ∧ keep a) :
    Safe refs owned' ↔ ∀ i a, refs i = some a → keep a := by
  constructor
  · intro h' i a ha
    exact ((hkeep a).mp (h' i a ha)).2
  · intro h' i a ha
    exact (hkeep a).mpr ⟨h i a ha, h' i a ha⟩

end Refs
