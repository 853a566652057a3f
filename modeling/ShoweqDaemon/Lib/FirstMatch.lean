/-
  Named items in a list, the first of a name being the one that is written.

  `put` changes the first item of a name, or makes one at the end. `named_put` and `named_putAll`
  say what the items of a name are after one writing and after many with different names.

  `upsert` is the general form: the first item that passes a test is changed, and without one a
  new item is changed and appended.

  Proved:
  * `filter_upsert`, `filter_upsert_other`: the items of the test after it, and those of another
    one.
  * `named_put`: of the name that is put the first item is changed, all other names keep theirs.
  * `named_putAll`: the same after writing many items with different names.
-/
import Mathlib.Data.List.Sigma

namespace FirstMatch

universe u v w

variable {α : Type u} {κ : Type v} {ν : Type w}

/-- Changes the first item with `p`; without one, `f new` comes to the end. -/
def upsert (p : α → Bool) (new : α) (f : α → α) : List α → List α
  | [] => [f new]
  | x :: xs => if p x = true then f x :: xs else x :: upsert p new f xs

/-- The first of the items, `new` if there is none. -/
def first (new : α) (xs : List α) : α := xs.head?.getD new

section
variable {p : α → Bool} {new : α} {f : α → α}

/-- The items with `p`: the first is changed, the others stay. -/
theorem filter_upsert (hf : ∀ x, p x = true → p (f x) = true) (hnew : p new = true) (l : List α) :
    (upsert p new f l).filter p = f (first new (l.filter p)) :: (l.filter p).tail := by
  induction l with
  | nil => exact List.filter_cons_of_pos (hf new hnew)
  | cons x xs ih =>
      by_cases hx : p x = true
      · rw [upsert, if_pos hx, List.filter_cons_of_pos (hf x hx), List.filter_cons_of_pos hx]
        rfl
      · rw [upsert, if_neg hx, List.filter_cons_of_neg hx, List.filter_cons_of_neg hx, ih]

/-- Items of another kind stay. -/
theorem filter_upsert_other {q : α → Bool} (hq : ∀ x, p x = true → q x = false)
    (hf : ∀ x, p x = true → p (f x) = true) (hnew : p new = true) (l : List α) :
    (upsert p new f l).filter q = l.filter q := by
  have hnone : ∀ x, p x = true → ¬ q x = true := fun x hx => by simp [hq x hx]
  induction l with
  | nil => exact List.filter_cons_of_neg (hnone _ (hf new hnew))
  | cons x xs ih =>
      by_cases hx : p x = true
      · rw [upsert, if_pos hx, List.filter_cons_of_neg (hnone _ (hf x hx)),
          List.filter_cons_of_neg (hnone x hx)]
      · rw [upsert, if_neg hx, List.filter_cons, List.filter_cons, ih]

end

/-! ## Names -/

variable [DecidableEq κ] (name : α → Option κ) (new : κ → α) (f : ν → α → α)

/-- The items of a name. -/
def named (k : κ) (l : List α) : List α := l.filter fun x => name x = some k

/-- The value goes to the first element with the name, or to a new one at the end. -/
def put (k : κ) (v : ν) (l : List α) : List α :=
  upsert (fun x => name x = some k) (new k) (f v) l

/-- All entries one after the other. -/
def putAll (entries : List (Sigma fun _ : κ => ν)) (l : List α) : List α :=
  entries.foldl (fun l e => put name new f e.1 e.2 l) l

section
variable {name new f} (hnew : ∀ k, name (new k) = some k) (hf : ∀ v x, name (f v x) = name x)
include hnew hf

theorem named_put (k k' : κ) (v : ν) (l : List α) :
    named name k' (put name new f k v l) =
      if k' = k then f v (first (new k) (named name k l)) :: (named name k l).tail
      else named name k' l := by
  have hkeep : ∀ x, decide (name x = some k) = true → decide (name (f v x) = some k) = true := by
    intro x hx
    rw [hf]
    exact hx
  have hnew' : decide (name (new k) = some k) = true := decide_eq_true (hnew k)
  by_cases h : k' = k
  · rw [if_pos h, h]
    exact filter_upsert hkeep hnew' l
  · rw [if_neg h]
    refine filter_upsert_other (fun x hx => ?_) hkeep hnew' l
    rw [of_decide_eq_true hx]
    exact decide_eq_false fun heq => h (Option.some.inj heq).symm

theorem named_putAll {entries : List (Sigma fun _ : κ => ν)} (hnodup : entries.NodupKeys)
    (k : κ) (l : List α) :
    named name k (putAll name new f entries l) =
      match entries.dlookup k with
      | some v => f v (first (new k) (named name k l)) :: (named name k l).tail
      | none => named name k l := by
  induction entries generalizing l with
  | nil => rfl
  | cons e es ih =>
      obtain ⟨k₀, v⟩ := e
      obtain ⟨hnotMem, hnodup'⟩ := List.nodupKeys_cons.mp hnodup
      rw [putAll, List.foldl_cons]
      refine (ih hnodup' _).trans ?_
      rw [named_put hnew hf]
      by_cases h : k = k₀
      · have hnone : es.dlookup k = none := by
          rw [h]
          exact List.dlookup_eq_none.mpr hnotMem
        rw [if_pos h, hnone, h, List.dlookup_cons_eq]
      · rw [if_neg h, List.dlookup_cons_ne _ _ h]

end

end FirstMatch
