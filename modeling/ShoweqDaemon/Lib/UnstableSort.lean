/-
  Sorting by a comparison that leaves ties.

  `Sorts lt l l'` is what `std::sort` promises: a permutation without a pair the wrong way round.
  The order of elements that compare equal is open. What can be read off the result does not depend
  on the choice just when elements that compare equal read the same (`reading_unique` and
  `ties_agree`).

  `ByKey` is the case where the comparison is that of a key in a linear order.

  Proved:
  * `sorts_mergeSort`: a stable sort is one of the results.
  * `reading_unique`: read together with the key, all results are the same if ties read the same.
  * `ties_agree`: if all results read the same, elements that compare equal do, since each of the
    two can come out in front (`filter_mergeSort`).
-/
import Mathlib.Data.List.Sort

namespace UnstableSort

universe u v w

variable {α : Type u} {β : Type v} {κ : Type w}

/-- The second list is the first one, sorted; the order of what does not compare is open. -/
structure Sorts (lt : α → α → Bool) (l l' : List α) : Prop where
  perm : l'.Perm l
  sorted : l'.Pairwise fun a b => lt b a = false

variable [LinearOrder κ] {lt : α → α → Bool} {key : α → κ} {l l₁ l₂ : List α}

/-- `lt` compares keys. -/
def ByKey (lt : α → α → Bool) (key : α → κ) : Prop := ∀ a b, lt a b = decide (key a < key b)

theorem ByKey.le (h : ByKey lt key) (a b : α) : lt b a = false ↔ key a ≤ key b := by
  rw [h b a, decide_eq_false_iff_not, not_lt]

theorem ByKey.not_lt (h : ByKey lt key) (a b : α) : (!lt b a) = true ↔ key a ≤ key b := by
  rw [Bool.not_eq_true', h.le]

theorem ByKey.trans (h : ByKey lt key) (a b c : α) (hab : (!lt b a) = true)
    (hbc : (!lt c b) = true) : (!lt c a) = true := by
  rw [h.not_lt] at *
  exact hab.trans hbc

theorem ByKey.total (h : ByKey lt key) (a b : α) : (!lt b a || !lt a b) = true := by
  rw [Bool.or_eq_true, h.not_lt, h.not_lt]
  exact le_total _ _

/-- A stable sort is one of them. -/
theorem sorts_mergeSort (h : ByKey lt key) (l : List α) :
    Sorts lt l (l.mergeSort fun a b => !lt b a) where
  perm := List.mergeSort_perm l _
  sorted := (List.pairwise_mergeSort h.trans h.total l).imp fun hab => (Bool.not_eq_true' _).mp hab

theorem Sorts.congr (h : Sorts lt l₁ l) (hperm : l₁.Perm l₂) : Sorts lt l₂ l :=
  ⟨h.perm.trans hperm, h.sorted⟩

/-- Read together with the key, all results are the same list if ties read the same. -/
theorem reading_unique (h : ByKey lt key) (f : α → β) (h₁ : Sorts lt l l₁)
    (h₂ : Sorts lt l l₂) (hf : ∀ a ∈ l, ∀ b ∈ l, key a = key b → f a = f b) :
    l₁.map f = l₂.map f := by
  have hsorted : ∀ {l'}, Sorts lt l l' →
      (l'.map fun a => (key a, f a)).Pairwise fun p q => p.1 ≤ q.1 := fun hl' =>
    List.pairwise_map.mpr (hl'.sorted.imp fun hab => (h.le _ _).mp hab)
  have hperm : (l₁.map fun a => (key a, f a)).Perm (l₂.map fun a => (key a, f a)) :=
    (h₁.perm.trans h₂.perm.symm).map _
  have heq := hperm.eq_of_pairwise (fun p q hp hq hpq hqp => ?_) (hsorted h₁) (hsorted h₂)
  · have hsnd := congrArg (List.map Prod.snd) heq
    rwa [List.map_map, List.map_map] at hsnd
  · obtain ⟨a, ha, rfl⟩ := List.mem_map.mp hp
    obtain ⟨b, hb, rfl⟩ := List.mem_map.mp hq
    have hkey : key a = key b := le_antisymm hpq hqp
    exact Prod.ext hkey (hf a (h₁.perm.mem_iff.mp ha) b (h₂.perm.mem_iff.mp hb) hkey)

/-- A stable sort keeps the elements of one key in their order. -/
theorem filter_mergeSort (h : ByKey lt key) (l : List α) (k : κ) :
    (l.mergeSort fun a b => !lt b a).filter (key · = k) = l.filter (key · = k) := by
  have hkeys : (l.filter (key · = k)).Pairwise fun a b => (!lt b a) = true := by
    refine List.pairwise_of_forall_mem_list fun a ha b hb => ?_
    have hka := of_decide_eq_true (List.mem_filter.mp ha).2
    have hkb := of_decide_eq_true (List.mem_filter.mp hb).2
    exact (h.not_lt a b).mpr (hka.trans hkb.symm).le
  have hsub := (List.sublist_mergeSort h.trans h.total hkeys List.filter_sublist).filter (key · = k)
  rw [List.filter_filter] at hsub
  simp only [Bool.and_self] at hsub
  have hlength := ((List.mergeSort_perm l fun a b => !lt b a).filter (key · = k)).length_eq
  exact (hsub.eq_of_length hlength.symm).symm

/-- Two elements that compare equal can come out either way. -/
theorem ties_agree (h : ByKey lt key) (f : α → β)
    (hall : ∀ l₁ l₂, Sorts lt l l₁ → Sorts lt l l₂ → l₁.map f = l₂.map f) {a b : α} (ha : a ∈ l)
    (hb : b ∈ l) (hkey : key a = key b) : f a = f b := by
  by_cases hab : a = b
  · rw [hab]
  obtain ⟨front, back, rfl⟩ := List.append_of_mem ha
  have hmem : b ∈ front ++ back := by
    rcases List.mem_append.mp hb with hb | hb
    · exact List.mem_append_left _ hb
    · exact List.mem_append_right _ ((List.mem_cons.mp hb).resolve_left fun h => hab h.symm)
  obtain ⟨front', back', hrest⟩ := List.append_of_mem hmem
  let rest := front' ++ back'
  have hperm : (a :: b :: rest).Perm (front ++ a :: back) := by
    have hb : (front ++ back).Perm (b :: rest) := hrest ▸ List.perm_middle
    exact (hb.symm.cons a).trans List.perm_middle.symm
  -- the stable sort, once with `a` in front of `b` and once behind
  have hs₁ := (sorts_mergeSort h (a :: b :: rest)).congr hperm
  have hs₂ := (sorts_mergeSort h (b :: a :: rest)).congr ((List.Perm.swap a b rest).trans hperm)
  have hf := hall _ _ hs₁ hs₂
  have hk := reading_unique h key hs₁ hs₂ fun _ _ _ _ h => h
  have hpairs := congrArg₂ List.zip hk hf
  rw [List.zip_map', List.zip_map'] at hpairs
  have hties := congrArg (List.filter fun p => decide (p.1 = key a)) hpairs
  have hread : ∀ l : List α, (l.map fun x => (key x, f x)).filter (fun p => decide (p.1 = key a)) =
      (l.filter (key · = key a)).map fun x => (key x, f x) := fun l => List.filter_map ..
  rw [hread, hread, filter_mergeSort h, filter_mergeSort h, List.filter_cons_of_pos (by simp),
    List.filter_cons_of_pos (by simp [hkey]), List.map_cons,
    List.filter_cons_of_pos (by simp [hkey]), List.map_cons] at hties
  exact (Prod.mk.inj (List.cons.inj hties).1).2

end UnstableSort
