/-
  The two counters of the roster.

  `m_memberCount` should be the number of slots with a name, `m_membersInZoneCount` the number of
  slots with a spawn. `addItem`, `delItem` and `killSpawn` count without a look at the slot's old
  pointer, and `removeGroupMember` looks the spawn up anew. `counted_iff_balanced` is the exact
  condition on one operation, `counters_iff` carries it through a run.

  A slot is `Named` when it has a name and `InZone` when it has a pointer, alive or not. `Vacant`
  says that no slot is in the zone without a name; every run keeps it, whatever the counters do.

  Proved:
  * `count_same_iff`, `count_add_iff`, `count_sub_iff`: what a change of one slot does to a count.
  * `addItem_counted_iff`, `dropItem_counted_iff`, `removeGroupMember_counted_iff`: the condition
    on each operation, with the shell as it is at that moment.
  * `counters_iff`: over every run from the empty roster, with any shell at each operation.
  * `reentry_counts_twice`: a member announced in two zones in a row is one slot, counted twice.
-/
import Mathlib.Algebra.BigOperators.Fin
import ShoweqDaemon.Group.Updates
import ShoweqDaemon.Lib.Run

namespace ShoweqDaemon.Spawns

namespace GroupMgr

/-! ## Counting slots -/

/-- The number of slots whose member has the property. -/
def count (p : GroupMember → Prop) [DecidablePred p] (members : Slot → GroupMember) : ℕ :=
  (Finset.univ.filter fun i => p (members i)).card

/-- The slot is taken. -/
def Named (m : GroupMember) : Prop := m.m_name ≠ []

/-- The member has a pointer. -/
def InZone (m : GroupMember) : Prop := m.m_spawn ≠ none

instance : DecidablePred Named := fun m => inferInstanceAs (Decidable (m.m_name ≠ []))

instance : DecidablePred InZone := fun m => inferInstanceAs (Decidable (m.m_spawn ≠ none))

/-- Both counters say what they are for. -/
def Counted (g : GroupMgr) : Prop :=
  g.m_memberCount.toNat = count Named g.m_members ∧
    g.m_membersInZoneCount.toNat = count InZone g.m_members

instance (g : GroupMgr) : Decidable g.Counted := inferInstanceAs (Decidable (_ ∧ _))

section

variable (p : GroupMember → Prop) [DecidablePred p] (members : Slot → GroupMember)

theorem count_le : count p members ≤ 6 := by
  have hle := Finset.card_filter_le (Finset.univ : Finset Slot) fun i => p (members i)
  simpa [count, MAX_GROUP_MEMBERS] using hle

/-- A slot replaced: what it counted for goes, what it counts for comes. -/
theorem count_update (i : Slot) (m : GroupMember) :
    count p (Function.update members i m) + (if p (members i) then 1 else 0) =
      count p members + if p m then 1 else 0 := by
  have hothers : ∑ j ∈ Finset.univ.erase i, (if p (Function.update members i m j) then 1 else 0) =
      ∑ j ∈ Finset.univ.erase i, if p (members j) then 1 else 0 := by
    refine Finset.sum_congr rfl fun j hj => ?_
    rw [Function.update_of_ne (Finset.ne_of_mem_erase hj)]
  have hnew := Finset.add_sum_erase Finset.univ
    (fun j => if p (Function.update members i m j) then 1 else 0) (Finset.mem_univ i)
  have hold := Finset.add_sum_erase Finset.univ
    (fun j => if p (members j) then 1 else 0) (Finset.mem_univ i)
  rw [Function.update_self, hothers] at hnew
  unfold count
  rw [Finset.card_filter, Finset.card_filter, ← hnew, ← hold]
  omega

variable {p members} {c : UInt64} (hc : c.toNat = count p members) (i : Slot) (m : GroupMember)
include hc

theorem count_same_iff :
    c.toNat = count p (Function.update members i m) ↔ (p (members i) ↔ p m) := by
  have hupdate := count_update p members i m
  rw [hc]
  by_cases hold : p (members i) <;> by_cases hnew : p m <;> simp [hold, hnew] at hupdate ⊢ <;>
    omega

theorem count_add_iff :
    (c + 1).toNat = count p (Function.update members i m) ↔ ¬ p (members i) ∧ p m := by
  have hupdate := count_update p members i m
  have hadd : (c + 1).toNat = count p members + 1 := by
    have hle := count_le p members
    rw [UInt64.toNat_add, UInt64.toNat_one, hc]
    omega
  rw [hadd]
  by_cases hold : p (members i) <;> by_cases hnew : p m <;> simp [hold, hnew] at hupdate ⊢ <;>
    omega

theorem count_sub_iff :
    (c - 1).toNat = count p (Function.update members i m) ↔ p (members i) ∧ ¬ p m := by
  have hupdate := count_update p members i m
  have hle := count_le p members
  have hle' := count_le p (Function.update members i m)
  have hsub : (c - 1).toNat = (2 ^ 64 - 1 + count p members) % 2 ^ 64 := by
    rw [UInt64.toNat_sub, UInt64.toNat_one, hc]
  rw [hsub]
  by_cases hold : p (members i) <;> by_cases hnew : p m <;> simp [hold, hnew] at hupdate ⊢ <;>
    omega

end

/-! ## Slots without a name -/

/-- A slot without a name has no spawn. -/
def Vacant (g : GroupMgr) : Prop := ∀ i, ¬ Named (g.m_members i) → ¬ InZone (g.m_members i)

theorem Vacant.update {g g' : GroupMgr} (h : g.Vacant) {i : Slot} {m : GroupMember}
    (hset : g'.m_members = Function.update g.m_members i m) (hm : Named m ∨ ¬ InZone m) :
    g'.Vacant := by
  intro j
  rw [hset]
  by_cases hj : j = i
  · subst hj
    rw [Function.update_self]
    exact fun hname => hm.resolve_left hname
  · rw [Function.update_of_ne hj]
    exact h j

theorem slotOf_named {g : GroupMgr} {item : Item} {i : Slot} (h : g.slotOf item = some i) :
    Named (g.m_members i) := by
  unfold slotOf at h
  split at h
  · cases h
  · split at h
    · have hfound := List.find?_some h
      exact (of_decide_eq_true hfound).1
    · cases h

theorem dropItem_vacant {g : GroupMgr} (h : g.Vacant) (item : Item) : (g.dropItem item).Vacant := by
  unfold dropItem
  cases hslot : g.slotOf item with
  | none => exact h
  | some i => exact h.update (i := i) rfl (Or.inr fun hspawn => hspawn rfl)

theorem after_vacant (env : Env) {g : GroupMgr} (h : g.Vacant) (sh : SpawnShell) (e : GroupEvent) :
    (g.after env sh e).Vacant := by
  cases e with
  | addGroupMember order data =>
      show (g.addGroupMember sh order data).Vacant
      unfold addGroupMember
      dsimp only
      split
      · exact h
      · rename_i hname
        split
        · exact h.update rfl (Or.inl hname)
        · exact h
  | removeGroupMember order name =>
      show (g.removeGroupMember env sh order name).Vacant
      unfold removeGroupMember
      split
      · exact fun i _ hspawn => hspawn rfl
      · split
        · exact h.update rfl (Or.inr fun hspawn => hspawn rfl)
        · exact h
  | addItem item =>
      show (g.addItem item).Vacant
      unfold addItem
      cases hslot : g.slotOf item with
      | none => exact h
      | some i => exact h.update (i := i) rfl (Or.inl (slotOf_named hslot))
  | delItem item => exact dropItem_vacant h item
  | killSpawn deceased => exact dropItem_vacant h deceased

/-! ## One operation -/

/-- The operation finds the slot as it counts it: `addItem` a slot without a spawn, `delItem` and
    `killSpawn` one with a spawn, `removeGroupMember` one with a name, and with a spawn exactly when
    the shell finds the member now. -/
def Balanced (env : Env) (g : GroupMgr) : SpawnShell × GroupEvent → Prop
  | (_, .addGroupMember _ _) => True
  | (sh, .removeGroupMember order membername) =>
      ownName env sh membername ∨
        match namedSlot env g membername with
        | some i =>
            Named (g.m_members i) ∧
              ((sh.findPlayerByDisplayName order (g.m_members i).m_name).isSome ↔
                InZone (g.m_members i))
        | none => True
  | (_, .addItem item) =>
      match g.slotOf item with
      | some i => ¬ InZone (g.m_members i)
      | none => True
  | (_, .delItem item) | (_, .killSpawn item) =>
      match g.slotOf item with
      | some i => InZone (g.m_members i)
      | none => True

section

variable (env : Env) {g : GroupMgr} (hg : g.Counted) (sh : SpawnShell)
include hg

theorem addGroupMember_counted (hvacant : g.Vacant) (order : Table.Order) (data : List UInt8) :
    (g.addGroupMember sh order data).Counted := by
  unfold addGroupMember
  dsimp only
  split
  · exact hg
  · rename_i hname
    split
    · rename_i i hfree
      have hempty : ¬ Named (g.m_members i) := by
        have hfound := List.find?_some hfree
        exact fun hnamed => hnamed (of_decide_eq_true hfound)
      refine ⟨(count_add_iff hg.1 i _).mpr ⟨hempty, hname⟩, ?_⟩
      cases hfound : sh.findPlayerByDisplayName order _ with
      | none =>
          refine (count_same_iff hg.2 i _).mpr ?_
          exact iff_of_false (hvacant i hempty) fun hspawn => hspawn rfl
      | some a =>
          exact (count_add_iff hg.2 i _).mpr ⟨hvacant i hempty, Option.some_ne_none a⟩
    · exact hg

theorem addItem_counted_iff (item : Item) :
    (g.addItem item).Counted ↔ Balanced env g (sh, .addItem item) := by
  cases hslot : g.slotOf item with
  | none =>
      simp only [addItem, Balanced, hslot]
      exact iff_true_intro hg
  | some i =>
      simp only [addItem, Balanced, hslot]
      have hnamed : Named (g.m_members i) := slotOf_named hslot
      constructor
      · intro h
        exact ((count_add_iff hg.2 i _).mp h.2).1
      · intro hspawn
        exact ⟨(count_same_iff hg.1 i _).mpr (iff_of_true hnamed hnamed),
          (count_add_iff hg.2 i _).mpr ⟨hspawn, Option.some_ne_none item.addr⟩⟩

theorem dropItem_counted_iff (item : Item) :
    (g.dropItem item).Counted ↔ Balanced env g (sh, .delItem item) := by
  cases hslot : g.slotOf item with
  | none =>
      simp only [dropItem, Balanced, hslot]
      exact iff_true_intro hg
  | some i =>
      simp only [dropItem, Balanced, hslot]
      have hnamed : Named (g.m_members i) := slotOf_named hslot
      constructor
      · intro h
        exact ((count_sub_iff hg.2 i _).mp h.2).1
      · intro hspawn
        exact ⟨(count_same_iff hg.1 i _).mpr (iff_of_true hnamed hnamed),
          (count_sub_iff hg.2 i _).mpr ⟨hspawn, fun hnone => hnone rfl⟩⟩

/-- The slot that a member leaves. -/
theorem leave_counted_iff (found : Bool) (i : Slot) :
    Counted
        { g.set i { m_name := [], m_spawn := none } with
          m_memberCount := g.m_memberCount - 1
          m_membersInZoneCount :=
            if found then g.m_membersInZoneCount - 1 else g.m_membersInZoneCount } ↔
      Named (g.m_members i) ∧ (found ↔ InZone (g.m_members i)) := by
  have hempty : ¬ Named { m_name := [], m_spawn := none } := fun hnamed => hnamed rfl
  have hgone : ¬ InZone { m_name := [], m_spawn := none } := fun hspawn => hspawn rfl
  refine and_congr ((count_sub_iff hg.1 i _).trans (and_iff_left hempty)) ?_
  cases found with
  | true =>
      refine ((count_sub_iff hg.2 i _).trans (and_iff_left hgone)).trans ?_
      exact ⟨fun hspawn => iff_of_true rfl hspawn, fun h => h.mp rfl⟩
  | false =>
      refine (count_same_iff hg.2 i _).trans ?_
      exact ⟨fun h => iff_of_false Bool.false_ne_true fun hspawn => hgone (h.mp hspawn),
        fun h => iff_of_false (fun hspawn => Bool.false_ne_true (h.mpr hspawn)) hgone⟩

theorem removeGroupMember_counted_iff (order : Table.Order) (membername : List UInt8) :
    (g.removeGroupMember env sh order membername).Counted ↔
      Balanced env g (sh, .removeGroupMember order membername) := by
  by_cases hown : ownName env sh membername
  · have hafter : g.removeGroupMember env sh order membername = init := if_pos hown
    rw [hafter]
    exact iff_of_true (by decide) (Or.inl hown)
  · have hother : g.removeGroupMember env sh order membername = _ := if_neg hown
    rw [Balanced, or_iff_right hown, hother]
    cases hslot : namedSlot env g membername with
    | none =>
        rw [show (slots.find? fun i => (g.m_members i).m_name = env.fromUtf8 membername) = none
          from hslot]
        exact iff_of_true hg trivial
    | some i =>
        rw [show (slots.find? fun i => (g.m_members i).m_name = env.fromUtf8 membername) = some i
          from hslot]
        exact leave_counted_iff hg _ i

end

/-- From a roster that counts right an operation leaves one that does exactly when it is
    balanced. -/
theorem counted_iff_balanced (env : Env) {g : GroupMgr} (hvacant : g.Vacant) (hg : g.Counted)
    (e : SpawnShell × GroupEvent) :
    (g.after env e.1 e.2).Counted ↔ Balanced env g e := by
  obtain ⟨sh, e⟩ := e
  cases e with
  | addGroupMember order data =>
      exact iff_of_true (addGroupMember_counted hg sh hvacant order data) trivial
  | removeGroupMember order name => exact removeGroupMember_counted_iff env hg sh order name
  | addItem item => exact addItem_counted_iff env hg sh item
  | delItem item => exact dropItem_counted_iff env hg sh item
  | killSpawn deceased => exact dropItem_counted_iff env hg sh deceased

/-! ## Runs -/

/-- In a run from the empty roster both counters are right in every state exactly when every
    operation is balanced. -/
theorem counters_iff (env : Env) (es : List (SpawnShell × GroupEvent)) :
    (∀ g ∈ Machine.trace (fun g e => after env g e.1 e.2) init es, g.Counted) ↔
      Machine.StepsMeet (fun g e => after env g e.1 e.2) (Balanced env) init es :=
  Machine.trace_forall_iff_stepsMeet _ (fun _ e h => after_vacant env h e.1 e.2)
    (fun _ e hvacant hg => counted_iff_balanced env hvacant hg e)
    (fun _ _ hspawn => hspawn rfl) (by decide) es

/-- Bob follows, and is announced in two zones without a deletion between: one slot with a spawn,
    counted twice. -/
theorem reentry_counts_twice :
    ¬ ∀ (env : Env) (es : List (SpawnShell × GroupEvent)),
      ∀ g ∈ Machine.trace (fun g e => after env g e.1 e.2) init es, g.Counted := by
  intro h
  let sh := SpawnShell.init { addr := 0, m_ID := 9 } .none (fun _ _ => []) true
  let bob (addr : Addr) : Item :=
    .spawn { addr, m_ID := 7, m_name := [Char.ofNat 66], m_NPC := SPAWN_PLAYER }
  let es : List (SpawnShell × GroupEvent) :=
    [(sh, .addGroupMember .entries [66]), (sh, .addItem (bob 1)), (sh, .addItem (bob 2))]
  have hend := h .ascii es _
    ((Machine.mem_trace_iff _ _ _ _).mpr ⟨es, [], (List.append_nil es).symm, rfl⟩)
  exact absurd hend (by decide)

end GroupMgr

end ShoweqDaemon.Spawns
