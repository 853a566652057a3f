/-
  Hash tables with a value per key, as `AList`s.

  `insert` and `erase` in one equation each, the list of values, a map over the values, and the
  orders in which a hash table may be iterated: any permutation, another one each time. `insertNew`
  puts what is iterated in the order of its keys, so that a search from the back finds the greatest.

  Proved:
  * `lookup_insert`, `lookup_erase`, `lookup_mapValues`, `lookup_modify`: what is found
    afterwards.
  * `map_lookup_modify`, `map_values_modify`: a reading of the values that a change leaves alone.
  * `all_insert`, `all_erase`, `all_mapValues`: a condition on all values, kept by each operation;
    `AllBut` leaves out some keys for as long as their values are being repaired.
  * `foldl_insertNew_perm`: elements with different keys are all put in.
-/
import Mathlib.Data.List.AList

universe u v w

/-- A hash table. -/
abbrev Table (κ : Type u) (α : Type v) := AList fun _ : κ => α

namespace Table

variable {κ : Type u} {α : Type v} {β : Type w}

theorem lookup_insert [DecidableEq κ] (t : Table κ α) (k k' : κ) (x : α) :
    (t.insert k x).lookup k' = if k' = k then some x else t.lookup k' := by
  by_cases h : k' = k
  · subst h
    rw [if_pos rfl, AList.lookup_insert]
  · rw [if_neg h, AList.lookup_insert_ne h]

theorem lookup_erase [DecidableEq κ] (t : Table κ α) (k k' : κ) :
    (t.erase k).lookup k' = if k' = k then none else t.lookup k' := by
  by_cases h : k' = k
  · subst h
    rw [if_pos rfl, AList.lookup_erase]
  · rw [if_neg h, AList.lookup_erase_ne h]

/-- The values, in the order of the entries. -/
def values (t : Table κ α) : List α := t.entries.map fun e => e.2

theorem mem_values [DecidableEq κ] {t : Table κ α} {x : α} :
    x ∈ t.values ↔ ∃ k, t.lookup k = some x := by
  unfold values
  rw [List.mem_map]
  constructor
  · rintro ⟨⟨k, y⟩, hmem, rfl⟩
    exact ⟨k, AList.mem_lookup_iff.mpr hmem⟩
  · rintro ⟨k, hk⟩
    exact ⟨⟨k, x⟩, AList.mem_lookup_iff.mp hk, rfl⟩

/-- Every value replaced by what `f` makes of it, under the same keys and in the same order. -/
def mapValues (f : α → β) (t : Table κ α) : Table κ β where
  entries := t.entries.map fun e => ⟨e.1, f e.2⟩
  nodupKeys := by
    have h := t.nodupKeys
    unfold List.NodupKeys List.keys at h ⊢
    rw [List.map_map]
    exact h

theorem lookup_mapValues [DecidableEq κ] (f : α → β) (t : Table κ α) (k : κ) :
    (t.mapValues f).lookup k = (t.lookup k).map f :=
  List.dlookup_map₂ (f := fun _ => f) k

theorem mapValues_erase [DecidableEq κ] (f : α → β) (k : κ) (t : Table κ α) :
    mapValues f (t.erase k) = (t.mapValues f).erase k := by
  have herase : ∀ l : List (Sigma fun _ : κ => α),
      (l.kerase k).map (fun e => (⟨e.1, f e.2⟩ : Sigma fun _ : κ => β)) =
        (l.map fun e => ⟨e.1, f e.2⟩).kerase k := by
    intro l
    induction l with
    | nil => rfl
    | cons e l ih =>
        by_cases hk : k = e.1
        · rw [List.kerase_cons_eq hk, List.map_cons]
          exact (List.kerase_cons_eq (s := (⟨e.1, f e.2⟩ : Sigma fun _ : κ => β)) hk).symm
        · rw [List.kerase_cons_ne hk, List.map_cons, List.map_cons, ih]
          exact (List.kerase_cons_ne (s := (⟨e.1, f e.2⟩ : Sigma fun _ : κ => β)) hk).symm
  exact AList.ext (herase t.entries)

theorem mapValues_insert [DecidableEq κ] (f : α → β) (k : κ) (x : α) (t : Table κ α) :
    mapValues f (t.insert k x) = (t.mapValues f).insert k (f x) := by
  have h := congrArg AList.entries (mapValues_erase f k t)
  refine AList.ext ?_
  exact congrArg (⟨k, f x⟩ :: ·) h

theorem mapValues_congr [DecidableEq κ] {f g : α → β} {t : Table κ α}
    (h : ∀ k x, t.lookup k = some x → f x = g x) : t.mapValues f = t.mapValues g := by
  refine AList.ext (List.map_congr_left fun e he => ?_)
  have hlookup : t.lookup e.1 = some e.2 := AList.mem_lookup_iff.mpr he
  exact congrArg (Sigma.mk e.1) (h e.1 e.2 hlookup)

/-- The value of one key replaced, through a pointer to it: the table itself stays. -/
def modify [DecidableEq κ] (k : κ) (f : α → α) (t : Table κ α) : Table κ α where
  entries := t.entries.map fun e => ⟨e.1, if e.1 = k then f e.2 else e.2⟩
  nodupKeys := by
    have h := t.nodupKeys
    unfold List.NodupKeys List.keys at h ⊢
    rw [List.map_map]
    exact h

theorem lookup_modify [DecidableEq κ] (k : κ) (f : α → α) (t : Table κ α) (k' : κ) :
    (t.modify k f).lookup k' = if k' = k then (t.lookup k').map f else t.lookup k' := by
  have h : (t.modify k f).lookup k' = (t.lookup k').map fun x => if k' = k then f x else x :=
    List.dlookup_map₂ (f := fun a x => if a = k then f x else x) k'
  rw [h]
  split
  · rfl
  · cases t.lookup k' <;> rfl

/-- To change the value of one key is to read that key otherwise. -/
theorem mapValues_modify [DecidableEq κ] {f g : α → β} {k : κ} {h : β → β} {t : Table κ α}
    (hg : ∀ k' x, t.lookup k' = some x → g x = if k' = k then h (f x) else f x) :
    t.mapValues g = (t.mapValues f).modify k h := by
  refine AList.ext ?_
  show t.entries.map _ = (t.entries.map _).map _
  rw [List.map_map]
  refine List.map_congr_left fun e he => ?_
  have hlookup : t.lookup e.1 = some e.2 := AList.mem_lookup_iff.mpr he
  exact congrArg (Sigma.mk e.1) (hg e.1 e.2 hlookup)

/-- A reading that the change leaves alone is left alone under every key. -/
theorem map_lookup_modify [DecidableEq κ] (g : α → β) (k : κ) (f : α → α) (t : Table κ α)
    (h : ∀ x, g (f x) = g x) (k' : κ) :
    ((t.modify k f).lookup k').map g = (t.lookup k').map g := by
  rw [lookup_modify]
  split
  · cases t.lookup k' with
    | none => rfl
    | some x => exact congrArg some (h x)
  · rfl

/-- A reading that the change leaves alone is left alone in every value. -/
theorem map_values_modify [DecidableEq κ] (g : α → β) (k : κ) (f : α → α) (t : Table κ α)
    (h : ∀ x, g (f x) = g x) : (t.modify k f).values.map g = t.values.map g := by
  unfold values modify
  rw [List.map_map, List.map_map, List.map_map]
  refine List.map_congr_left fun e _ => ?_
  show g (if e.1 = k then f e.2 else e.2) = g e.2
  split
  · exact h e.2
  · rfl

/-- `P` holds of the values whose key is not among `keys`. -/
def AllBut [DecidableEq κ] (keys : κ → Prop) (P : α → Prop) (t : Table κ α) : Prop :=
  ∀ k x, t.lookup k = some x → ¬ keys k → P x

/-- The condition holds of every value. -/
abbrev All [DecidableEq κ] (P : α → Prop) (t : Table κ α) : Prop := t.AllBut (fun _ => False) P

section
variable [DecidableEq κ] {keys : κ → Prop} {P : α → Prop} {t : Table κ α} {k : κ}

theorem AllBut.mono {keys' : κ → Prop} (h : t.AllBut keys P) (hkeys : ∀ k, keys k → keys' k) :
    t.AllBut keys' P :=
  fun k x hx hk => h k x hx fun hk' => hk (hkeys k hk')

theorem AllBut.weaken (h : t.All P) : t.AllBut keys P := h.mono fun _ => False.elim

theorem All.of_lookup (h : t.All P) {x : α} (hx : t.lookup k = some x) : P x := h k x hx not_false

theorem all_empty : (∅ : Table κ α).All P := by
  intro k x hx
  rw [AList.lookup_empty] at hx
  cases hx

/-- Where the excepted key has no value nothing is excepted. -/
theorem allBut_absent (h : t.lookup k = none) : t.AllBut (· = k) P ↔ t.All P := by
  refine ⟨fun hall k' x hx _ => hall k' x hx fun hk => ?_, AllBut.weaken⟩
  rw [hk, h] at hx
  cases hx

theorem all_insert {x : α} : All P (t.insert k x) ↔ P x ∧ t.AllBut (· = k) P := by
  constructor
  · intro h
    refine ⟨h.of_lookup (by rw [lookup_insert, if_pos rfl]), fun k' y hy hk => ?_⟩
    exact h.of_lookup (k := k') (by rw [lookup_insert, if_neg hk, hy])
  · rintro ⟨hx, h⟩ k' y hy -
    rw [lookup_insert] at hy
    split at hy
    · rw [← Option.some.inj hy]
      exact hx
    · rename_i hk
      exact h k' y hy hk

theorem all_erase : All P (t.erase k) ↔ t.AllBut (· = k) P := by
  constructor
  · intro h k' y hy hk
    exact h.of_lookup (k := k') (by rw [lookup_erase, if_neg hk, hy])
  · intro h k' y hy _
    rw [lookup_erase] at hy
    split at hy
    · cases hy
    · rename_i hk
      exact h k' y hy hk

theorem all_mapValues {Q : β → Prop} {f : α → β} :
    (t.mapValues f).All Q ↔ t.All fun x => Q (f x) := by
  constructor
  · intro h k x hx _
    exact h.of_lookup (k := k) (by rw [lookup_mapValues, hx]; rfl)
  · intro h k y hy _
    rw [lookup_mapValues] at hy
    obtain ⟨x, hx, rfl⟩ := Option.map_eq_some_iff.mp hy
    exact h.of_lookup hx

end

/-- A way to iterate a hash table. -/
structure Order where
  visit : {α : Type} → List α → List α
  perm : ∀ {α : Type} (l : List α), (visit l).Perm l

theorem Order.mem_visit (o : Order) {α : Type} {l : List α} {x : α} : x ∈ o.visit l ↔ x ∈ l :=
  (o.perm l).mem_iff

/-- The order of the entries. -/
def Order.entries : Order where
  visit := fun l => l
  perm := fun _ => .rfl

/-- The order that begins with the entry at `i`. -/
def Order.beginAt (i : ℕ) : Order where
  visit := fun l => l.drop i ++ l.take i
  perm := fun l => List.perm_append_comm.trans (.of_eq (List.take_append_drop i l))

/-- What is at `i` is found first. -/
theorem Order.find_beginAt {α : Type} {l : List α} {i : ℕ} {x : α} (hx : l[i]? = some x)
    {p : α → Bool} (hp : p x = true) : ((Order.beginAt i).visit l).find? p = some x := by
  obtain ⟨hi, hget⟩ := List.getElem?_eq_some_iff.mp hx
  show (l.drop i ++ l.take i).find? p = some x
  rw [List.drop_eq_getElem_cons hi, hget, List.cons_append, List.find?_cons_of_pos hp]

/-! ### Ordered maps -/

/-- An element put in its place by its key, unless the key is taken. -/
def insertNew {α : Type} (key : α → ℕ) (a : α) : List α → List α
  | [] => [a]
  | b :: rest =>
      if key a < key b then a :: b :: rest
      else if key a = key b then b :: rest
      else b :: insertNew key a rest

theorem insertNew_perm {α : Type} {key : α → ℕ} {a : α} {l : List α}
    (h : ∀ b ∈ l, key a ≠ key b) : (insertNew key a l).Perm (a :: l) := by
  induction l with
  | nil => rfl
  | cons b rest ih =>
      have hrest := ih fun x hx => h x (List.mem_cons_of_mem b hx)
      rw [insertNew, if_neg (h b List.mem_cons_self)]
      split_ifs
      · rfl
      · exact (hrest.cons b).trans (.swap a b rest)

theorem mem_insertNew {α : Type} {key : α → ℕ} {a x : α} {l : List α}
    (hx : x ∈ insertNew key a l) : x = a ∨ x ∈ l := by
  induction l with
  | nil => exact .inl (List.mem_singleton.mp hx)
  | cons b rest ih =>
      rw [insertNew] at hx
      split_ifs at hx
      · exact List.mem_cons.mp hx
      · exact .inr hx
      · rcases List.mem_cons.mp hx with rfl | hx
        · exact .inr List.mem_cons_self
        · exact (ih hx).imp_right (List.mem_cons_of_mem b)

theorem insertNew_pairwise {α : Type} {key : α → ℕ} (a : α) {l : List α}
    (h : l.Pairwise fun x y => key x < key y) :
    (insertNew key a l).Pairwise fun x y => key x < key y := by
  induction l with
  | nil => exact List.pairwise_singleton _ a
  | cons b rest ih =>
      obtain ⟨hb, hrest⟩ := List.pairwise_cons.mp h
      rw [insertNew]
      split_ifs with hlt heq
      · refine List.pairwise_cons.mpr ⟨fun x hx => ?_, h⟩
        rcases List.mem_cons.mp hx with rfl | hx
        · exact hlt
        · exact Nat.lt_trans hlt (hb x hx)
      · exact h
      · refine List.pairwise_cons.mpr ⟨fun x hx => ?_, ih hrest⟩
        rcases mem_insertNew hx with rfl | hx
        · omega
        · exact hb x hx

/-- The list is in the order of the keys, however the elements came. -/
theorem foldl_insertNew_pairwise {α β : Type} {key : α → ℕ} (f : β → α) (l : List β) {m : List α}
    (h : m.Pairwise fun x y => key x < key y) :
    (l.foldl (fun m b => insertNew key (f b) m) m).Pairwise fun x y => key x < key y := by
  induction l generalizing m with
  | nil => exact h
  | cons b l ih => exact ih (insertNew_pairwise (f b) h)

/-- From the back the greatest is found. -/
theorem find?_reverse_eq_some_iff {α : Type} {key : α → ℕ} {l : List α}
    (h : l.Pairwise fun x y => key x < key y) (p : α → Bool) (x : α) :
    l.reverse.find? p = some x ↔ x ∈ l ∧ p x = true ∧ ∀ y ∈ l, p y = true → key y ≤ key x := by
  have hback := List.pairwise_reverse.mpr h
  rw [List.find?_eq_some_iff_append]
  constructor
  · rintro ⟨hp, front, behind, hl, hnot⟩
    have hmem : ∀ y, y ∈ l ↔ y ∈ front ++ x :: behind := fun y => by rw [← hl, List.mem_reverse]
    rw [hl] at hback
    refine ⟨(hmem x).mpr (List.mem_append_right _ List.mem_cons_self), hp, fun y hy hpy => ?_⟩
    rcases List.mem_append.mp ((hmem y).mp hy) with hy | hy
    · have hfalse := hnot y hy
      rw [hpy] at hfalse
      exact absurd hfalse (by decide)
    · rcases List.mem_cons.mp hy with rfl | hy
      · exact le_rfl
      · have hbehind := (List.pairwise_append.mp hback).2.1
        exact Nat.le_of_lt ((List.pairwise_cons.mp hbehind).1 y hy)
  · rintro ⟨hx, hp, hmax⟩
    obtain ⟨front, behind, hl⟩ := List.append_of_mem (List.mem_reverse.mpr hx)
    rw [hl] at hback
    refine ⟨hp, front, behind, hl, fun y hy => ?_⟩
    have hlt : key x < key y := (List.pairwise_append.mp hback).2.2 y hy x List.mem_cons_self
    have hmem : y ∈ l := by
      rw [← List.mem_reverse, hl]
      exact List.mem_append_left _ hy
    cases hpy : p y with
    | false => rfl
    | true => exact absurd (hmax y hmem hpy) (Nat.not_le.mpr hlt)

/-- Elements with different keys are all put in. -/
theorem foldl_insertNew_perm {α β : Type} {key : α → ℕ} {f : β → α} {l : List β} {m : List α}
    (hnodup : (l.map fun b => key (f b)).Nodup) (hnew : ∀ b ∈ l, ∀ x ∈ m, key (f b) ≠ key x) :
    (l.foldl (fun m b => insertNew key (f b) m) m).Perm (m ++ l.map f) := by
  induction l generalizing m with
  | nil =>
      rw [List.map_nil, List.append_nil]
      rfl
  | cons b l ih =>
      have hb := insertNew_perm (hnew b List.mem_cons_self)
      obtain ⟨hother, htail⟩ := List.nodup_cons.mp hnodup
      have hnew' : ∀ b' ∈ l, ∀ x ∈ insertNew key (f b) m, key (f b') ≠ key x := by
        intro b' hb' x hx
        rcases List.mem_cons.mp (hb.mem_iff.mp hx) with rfl | hx
        · exact fun heq => hother (List.mem_map.mpr ⟨b', hb', heq⟩)
        · exact hnew b' (List.mem_cons_of_mem b hb') x hx
      rw [List.foldl_cons, List.map_cons]
      exact (ih htail hnew').trans ((hb.append_right _).trans List.perm_middle.symm)

end Table
