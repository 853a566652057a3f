/-
  Serial numbers modulo `M`, and the high-water mark of a stream of keys.

  `ahead M a b` is how far `b` lies ahead of `a` going upwards modulo `M`, `climb M a l` the
  sum of these distances along `a :: l`. The last number of a climb below `M` lies exactly that
  far ahead of its start (`ahead_eq_climb`).

  `records key h l` are the entries of `l` whose key is above every record before them and
  above `h`. They have strictly increasing keys (`records_pairwise`), and they hold every
  key of the stream exactly when the first arrivals come in increasing order
  (`keys_subset_records_iff`).
-/
import Mathlib.Data.Nat.ModEq
import Mathlib.Data.List.Basic
import Mathlib.Order.WithBot

namespace Serial

universe u v

/-! ## Distances modulo `M` -/

/-- How far `b` lies ahead of `a` modulo `M`. -/
def ahead (M a b : Nat) : Nat := (b + (M - a % M)) % M

/-- The sum of the distances along `a :: l`. -/
def climb (M : Nat) : Nat → List Nat → Nat
  | _, [] => 0
  | a, b :: l => ahead M a b + climb M b l

variable {M : Nat}

theorem ahead_lt (hM : 0 < M) (a b : Nat) : ahead M a b < M := Nat.mod_lt _ hM

theorem add_ahead (hM : 0 < M) (a b : Nat) : (a + ahead M a b) % M = b % M := by
  have ha : a % M ≤ M := (Nat.mod_lt a hM).le
  have hsum : a % M + (b + (M - a % M)) = b + M := by omega
  calc (a + ahead M a b) % M = (a % M + (b + (M - a % M))) % M := by
        rw [ahead, Nat.add_mod, Nat.mod_mod, ← Nat.add_mod, ← Nat.mod_add_mod]
    _ = b % M := by rw [hsum, Nat.add_mod_right]

theorem add_climb (hM : 0 < M) (a : Nat) (l : List Nat) :
    (a + climb M a l) % M = l.getLastD a % M := by
  induction l generalizing a with
  | nil => rfl
  | cons b l ih =>
      rw [List.getLastD_cons, ← ih b]
      calc (a + (ahead M a b + climb M b l)) % M
          = ((a + ahead M a b) % M + climb M b l) % M := by rw [Nat.mod_add_mod, Nat.add_assoc]
        _ = (b + climb M b l) % M := by rw [add_ahead hM, Nat.mod_add_mod]

/-- A climb below `M` is the distance between its ends. -/
theorem ahead_eq_climb (hM : 0 < M) (a : Nat) (l : List Nat) (h : climb M a l < M) :
    ahead M a (l.getLastD a) = climb M a l := by
  have hends : a + ahead M a (l.getLastD a) ≡ a + climb M a l [MOD M] := by
    rw [Nat.ModEq, add_ahead hM, add_climb hM]
  have hmod : ahead M a (l.getLastD a) ≡ climb M a l [MOD M] := Nat.ModEq.add_left_cancel' a hends
  rwa [Nat.ModEq, Nat.mod_eq_of_lt (ahead_lt hM _ _), Nat.mod_eq_of_lt h] at hmod

/-! ## The high-water mark -/

variable {α : Type u} {κ : Type v} [LinearOrder κ] (key : α → κ)

/-- The entries whose key is above every record before them and above `h`. -/
def records : WithBot κ → List α → List α
  | _, [] => []
  | h, x :: l => if h < key x then x :: records (key x) l else records h l

theorem records_sublist (h : WithBot κ) (l : List α) : (records key h l).Sublist l := by
  induction l generalizing h with
  | nil => exact List.Sublist.slnil
  | cons x l ih =>
      by_cases hx : h < key x
      · simpa [records, hx] using ih (key x)
      · simpa [records, hx] using (ih h).cons x

theorem lt_of_mem_records {h : WithBot κ} {l : List α} {r : α} (hr : r ∈ records key h l) :
    h < key r := by
  induction l generalizing h with
  | nil => simp [records] at hr
  | cons x l ih =>
      by_cases hx : h < key x
      · rw [records, if_pos hx] at hr
        rcases List.mem_cons.mp hr with rfl | hr
        · exact hx
        · exact hx.trans (ih hr)
      · rw [records, if_neg hx] at hr
        exact ih hr

/-- Each record is strictly above the one before it. -/
theorem records_pairwise (h : WithBot κ) (l : List α) :
    (records key h l).Pairwise (fun x y => key x < key y) := by
  induction l generalizing h with
  | nil => exact List.Pairwise.nil
  | cons x l ih =>
      by_cases hx : h < key x
      · rw [records, if_pos hx]
        refine List.Pairwise.cons (fun y hy => ?_) (ih (key x))
        exact WithBot.coe_lt_coe.mp (lt_of_mem_records key hy)
      · rw [records, if_neg hx]
        exact ih h

/-- The mark after `l`, from `h`. -/
def mark (h : WithBot κ) (l : List α) : WithBot κ := l.foldl (fun m x => max m (key x)) h

theorem mark_lt_iff (h : WithBot κ) (l : List α) (k : WithBot κ) :
    mark key h l < k ↔ h < k ∧ ∀ x ∈ l, (key x : WithBot κ) < k := by
  induction l generalizing h with
  | nil => simp [mark]
  | cons x l ih =>
      have hcons : mark key h (x :: l) = mark key (max h (key x)) l := rfl
      rw [hcons, ih, max_lt_iff, List.forall_mem_cons, and_assoc]

theorem records_append (h : WithBot κ) (l r : List α) :
    records key h (l ++ r) = records key h l ++ records key (mark key h l) r := by
  induction l generalizing h with
  | nil => rfl
  | cons x l ih =>
      have hcons : mark key h (x :: l) = mark key (max h (key x)) l := rfl
      by_cases hx : h < key x
      · simp [records, hx, hcons, ih, max_eq_right hx.le]
      · simp [records, hx, hcons, ih, max_eq_left (not_lt.mp hx)]

/-- Every first arrival of a key is above everything that came before it. -/
def ArrivesAscending (l : List α) : Prop :=
  ∀ pre x post, l = pre ++ x :: post → (∀ y ∈ pre, key y ≠ key x) → ∀ y ∈ pre, key y < key x

theorem keys_subset_records_iff (l : List α) :
    (∀ x ∈ l, ∃ r ∈ records key ⊥ l, key r = key x) ↔ ArrivesAscending key l := by
  constructor
  · intro hall pre x post hl hfirst
    obtain ⟨r, hr, hkey⟩ := hall x (by simp [hl])
    rw [hl, records_append] at hr
    rcases List.mem_append.mp hr with hr | hr
    · exact absurd hkey (hfirst r ((records_sublist key ⊥ pre).subset hr))
    · have hmark := ((mark_lt_iff key ⊥ pre (key r)).mp (lt_of_mem_records key hr)).2
      rw [hkey] at hmark
      exact fun y hy => WithBot.coe_lt_coe.mp (hmark y hy)
  · intro hasc x hx
    -- the first arrival of the key of `x`
    obtain ⟨ks, ks', hks, hnot⟩ := List.eq_append_cons_of_mem (List.mem_map_of_mem (f := key) hx)
    obtain ⟨pre, rest, rfl, rfl, hrest⟩ := List.map_eq_append_iff.mp hks
    obtain ⟨x', post, rfl, hkey, -⟩ := List.map_eq_cons_iff.mp hrest
    have hfirst : ∀ y ∈ pre, key y ≠ key x' := by
      intro y hy heq
      exact hnot (List.mem_map.mpr ⟨y, hy, heq.trans hkey⟩)
    have hbelow := hasc pre x' post rfl hfirst
    have hmark : mark key ⊥ pre < key x' :=
      (mark_lt_iff key ⊥ pre (key x')).mpr
        ⟨WithBot.bot_lt_coe _, fun y hy => WithBot.coe_lt_coe.mpr (hbelow y hy)⟩
    refine ⟨x', ?_, hkey⟩
    rw [records_append, records, if_pos hmark]
    simp

end Serial
