/-
  The memory of deleted spawns.

  After `k` deletions since the last `clear` the ring writes at position `k mod 50` and searches
  `min k 50` slots from 0 on (`RingAt`). The `j`-th id therefore stays where it is for the next
  49 deletions (`remembers_push`); slot `k` itself, where the youngest id lies, is searched as
  soon as one more id came or the ring is full. `dead_id_ignored` is the law for whole runs.

  Proved:
  * `ringAt_afterOps`: the ring counts the deletions since the last `clear`, in every run.
  * `Remembers.found`: the search comes by the id's slot.
  * `dead_id_ignored`: a deleted id does not come back through a position update.
  * `cleared_id_comes_back`: a zone change in between wipes the memory.
-/
import Mathlib.Data.List.Induction
import ShoweqDaemon.Spawn.SpawnShell

namespace ShoweqDaemon.Spawns

/-! ## The ring -/

namespace DeadSpawns

/-- The ring after `k` deletions. -/
def RingAt (r : DeadSpawns) (k : Nat) : Prop :=
  r.pos.val = k % MAX_DEAD_SPAWNIDS ∧ r.cnt.val = min k MAX_DEAD_SPAWNIDS

/-- The ring after `k` deletions, with `id` where the `j`-th of them put it. -/
def Remembers (r : DeadSpawns) (id : UInt16) (j k : Nat) : Prop :=
  RingAt r k ∧ j ≤ k ∧ k < j + MAX_DEAD_SPAWNIDS ∧
    ∀ i : Fin MAX_DEAD_SPAWNIDS, i.val = j % MAX_DEAD_SPAWNIDS → r.ids i = id

theorem ringAt_empty : RingAt empty 0 := ⟨rfl, rfl⟩

theorem push_pos (r : DeadSpawns) (id : UInt16) :
    (r.push id).pos.val = (r.pos.val + 1) % MAX_DEAD_SPAWNIDS := by
  have hpos := r.pos.isLt
  unfold push
  dsimp only
  split
  · rename_i h
    exact (Nat.mod_eq_of_lt h).symm
  · rename_i h
    have hfull : r.pos.val + 1 = MAX_DEAD_SPAWNIDS := by omega
    rw [hfull, Nat.mod_self]

theorem push_cnt (r : DeadSpawns) (id : UInt16) :
    (r.push id).cnt.val = min (r.cnt.val + 1) MAX_DEAD_SPAWNIDS := by
  have hcnt := r.cnt.isLt
  unfold push
  dsimp only
  split
  · rename_i h
    exact (Nat.min_eq_left h).symm
  · omega

theorem push_ids_self (r : DeadSpawns) (id : UInt16) : (r.push id).ids (r.push id).pos = id :=
  if_pos rfl

theorem push_ids_of_ne (r : DeadSpawns) (id : UInt16) {i : Fin MAX_DEAD_SPAWNIDS}
    (hi : i ≠ (r.push id).pos) : (r.push id).ids i = r.ids i :=
  if_neg hi

theorem ringAt_push {r : DeadSpawns} {k : Nat} (h : RingAt r k) (id : UInt16) :
    RingAt (r.push id) (k + 1) := by
  obtain ⟨hpos, hcnt⟩ := h
  refine ⟨?_, ?_⟩
  · rw [push_pos, hpos, Nat.mod_add_mod]
  · rw [push_cnt, hcnt]
    omega

/-- The ring right after the deletion of `id`. -/
theorem remembers_push {r : DeadSpawns} {k : Nat} (h : RingAt r k) (id : UInt16) :
    Remembers (r.push id) id (k + 1) (k + 1) := by
  have hring := ringAt_push h id
  refine ⟨hring, Nat.le_refl _, by unfold MAX_DEAD_SPAWNIDS; omega, fun i hi => ?_⟩
  have hpos : i = (r.push id).pos := Fin.ext (hi.trans hring.1.symm)
  rw [hpos, push_ids_self]

/-- Fewer than 50 positions on, the ring writes elsewhere. -/
theorem Remembers.push {r : DeadSpawns} {id : UInt16} {j k : Nat} (h : Remembers r id j k)
    (other : UInt16) (hk : k + 1 < j + MAX_DEAD_SPAWNIDS) :
    Remembers (r.push other) id j (k + 1) := by
  obtain ⟨hring, hjk, -, hids⟩ := h
  have hring' := ringAt_push hring other
  refine ⟨hring', by omega, hk, fun i hi => ?_⟩
  have hne : i ≠ (r.push other).pos := by
    intro heq
    have hmod : j % MAX_DEAD_SPAWNIDS = (k + 1) % MAX_DEAD_SPAWNIDS := by
      rw [← hi, heq, hring'.1]
    unfold MAX_DEAD_SPAWNIDS at hmod hk
    omega
  rw [push_ids_of_ne r other hne]
  exact hids i hi

theorem Remembers.forget {r : DeadSpawns} {id : UInt16} {j k : Nat} (h : Remembers r id j k)
    {other : UInt16} (hne : other ≠ id) : Remembers (r.forget other) id j k := by
  obtain ⟨hring, hjk, hk, hids⟩ := h
  refine ⟨hring, hjk, hk, fun i hi => ?_⟩
  have hid := hids i hi
  have hmiss : r.hit other i = false := by
    simp [hit, hid, hne.symm]
  show (if r.hit other i then 0 else r.ids i) = id
  rw [hmiss]
  exact hid

theorem hit_of_find {r : DeadSpawns} {id : UInt16} {i : Fin MAX_DEAD_SPAWNIDS}
    (h : r.find id = some i) : i.val < r.cnt.val ∧ r.ids i ≠ 0 ∧ r.ids i = id := by
  have hhit := List.find?_some h
  simpa [hit] using hhit

theorem Remembers.zero {r : DeadSpawns} {id : UInt16} {j k : Nat} (h : Remembers r id j k)
    {other : UInt16} (hne : other ≠ id) {i : Fin MAX_DEAD_SPAWNIDS} (hi : r.find other = some i) :
    Remembers (r.zero i) id j k := by
  obtain ⟨hring, hjk, hk, hids⟩ := h
  refine ⟨hring, hjk, hk, fun i' hi' => ?_⟩
  have hid := hids i' hi'
  have hne' : i' ≠ i := by
    rintro rfl
    exact hne ((hit_of_find hi).2.2.symm.trans hid)
  show (if i' = i then 0 else r.ids i') = id
  rw [if_neg hne']
  exact hid

/-- The search reaches the slot of the `j`-th id after one more deletion, or in a full ring. -/
theorem Remembers.found {r : DeadSpawns} {id : UInt16} {j k : Nat} (h : Remembers r id j k)
    (hid : id ≠ 0) (hseen : j < k ∨ MAX_DEAD_SPAWNIDS ≤ k) : ∃ i, r.find id = some i := by
  obtain ⟨hring, hjk, hk, hids⟩ := h
  have hlt : j % MAX_DEAD_SPAWNIDS < MAX_DEAD_SPAWNIDS := Nat.mod_lt _ (by decide)
  have hsearched : j % MAX_DEAD_SPAWNIDS < r.cnt.val := by
    rw [hring.2]
    unfold MAX_DEAD_SPAWNIDS at hseen ⊢
    omega
  have hslot := hids ⟨_, hlt⟩ rfl
  have hhit : r.hit id ⟨_, hlt⟩ = true := by
    simp [hit, hsearched, hslot, hid]
  have hsome : (r.find id).isSome := List.find?_isSome.mpr ⟨_, List.mem_finRange _, hhit⟩
  exact Option.isSome_iff_exists.mp hsome

end DeadSpawns

/-! ## Runs -/

/-- The operations that concern the memory: those that add, look up, note or clear ids. -/
inductive SpawnOp where
  | newSpawn (s : SpawnStruct)
  | updateSpawn (u : SpawnPositionUpdate)
  | deleteSpawn (id : UInt16)
  | clear
  deriving DecidableEq, Repr

namespace SpawnOp

/-- What the shell does on an operation. -/
def run (env : Env) (sh : SpawnShell) : SpawnOp → Out
  | newSpawn s => sh.newSpawn env s
  | updateSpawn u => sh.updateSpawn env u
  | deleteSpawn id => sh.deleteSpawn id
  | clear => sh.clear

/-- `newSpawn` announces the id or a position update shows it. -/
def Mentions (id : UInt16) : SpawnOp → Prop
  | newSpawn s => s.spawnId = id
  | updateSpawn u => u.spawnId = id
  | deleteSpawn _ => False
  | clear => False

/-- The operation puts an id into the ring. -/
def isDelete : SpawnOp → Bool
  | deleteSpawn _ => true
  | _ => false

end SpawnOp

/-- The number of `deleteSpawn` packets. -/
def deletes (ops : List SpawnOp) : Nat := ops.countP SpawnOp.isDelete

/-- The number of `deleteSpawn` packets behind the last `clear`. -/
def deletesSinceClear (ops : List SpawnOp) : Nat :=
  ops.foldl (fun n op => if op = .clear then 0 else if op.isDelete then n + 1 else n) 0

section
variable (env : Env)

/-- The shell after some operations. -/
def SpawnShell.afterOps (sh : SpawnShell) (ops : List SpawnOp) : SpawnShell :=
  ops.foldl (fun sh op => (op.run env sh).1) sh

theorem afterOps_append (sh : SpawnShell) (ops ops' : List SpawnOp) :
    sh.afterOps env (ops ++ ops') = (sh.afterOps env ops).afterOps env ops' := by
  simp [SpawnShell.afterOps]

theorem deletesSinceClear_append_singleton (ops : List SpawnOp) (op : SpawnOp) :
    deletesSinceClear (ops ++ [op]) =
      if op = .clear then 0 else if op.isDelete then deletesSinceClear ops + 1
        else deletesSinceClear ops := by
  simp [deletesSinceClear]

theorem deletesSinceClear_append {ops since : List SpawnOp} (h : .clear ∉ since) :
    deletesSinceClear (ops ++ since) = deletesSinceClear ops + deletes since := by
  induction since using List.reverseRecOn with
  | nil => simp [deletes]
  | append_singleton since op ih =>
      have hop : op ≠ .clear := by
        rintro rfl
        exact h (by simp)
      have hrest : .clear ∉ since := fun hmem => h (by simp [hmem])
      rw [← List.append_assoc, deletesSinceClear_append_singleton, ih hrest, if_neg hop]
      unfold deletes
      rw [List.countP_append]
      cases hdel : op.isDelete <;> simp [hdel, Nat.add_assoc]

/-! ### What an operation does to the memory -/

theorem newSpawn_dead (sh : SpawnShell) (s : SpawnStruct) :
    (sh.newSpawn env s).1.m_dead = sh.m_dead ∨
      (sh.newSpawn env s).1.m_dead = sh.m_dead.forget s.spawnId := by
  unfold SpawnShell.newSpawn
  by_cases hself : s.npc = SPAWN_SELF
  · exact Or.inl (by rw [if_pos hself])
  · rw [if_neg hself]
    dsimp only
    cases sh.m_spawns.lookup (idKey s.spawnId) <;> exact Or.inr rfl

theorem updateSpawn_dead (sh : SpawnShell) (u : SpawnPositionUpdate) :
    (sh.updateSpawn env u).1.m_dead = sh.m_dead ∨
      ∃ i, sh.m_dead.find u.spawnId = some i ∧
        (sh.updateSpawn env u).1.m_dead = sh.m_dead.zero i := by
  unfold SpawnShell.updateSpawn
  split
  · exact Or.inl rfl
  · split
    · exact Or.inl rfl
    · split
      · split
        · rename_i i hi
          exact Or.inr ⟨i, hi, rfl⟩
        · exact Or.inl rfl
      · exact Or.inl rfl

theorem run_frame (sh : SpawnShell) (op : SpawnOp) :
    (op.run env sh).1.createUnknownSpawns = sh.createUnknownSpawns ∧
      (op.run env sh).1.m_player.m_ID = sh.m_player.m_ID := by
  cases op with
  | newSpawn s =>
      unfold SpawnOp.run SpawnShell.newSpawn
      dsimp only
      split
      · exact ⟨rfl, rfl⟩
      · split <;> exact ⟨rfl, rfl⟩
  | updateSpawn u =>
      unfold SpawnOp.run SpawnShell.updateSpawn
      dsimp only
      split
      · exact ⟨rfl, rfl⟩
      · split
        · exact ⟨rfl, rfl⟩
        · split
          · split <;> exact ⟨rfl, rfl⟩
          · exact ⟨rfl, rfl⟩
  | deleteSpawn id => simp [SpawnOp.run, SpawnShell.deleteSpawn]
  | clear => exact ⟨rfl, rfl⟩

/-- The ring counts the deletions since the last `clear`. -/
theorem ringAt_step {sh : SpawnShell} {k : Nat} (h : sh.m_dead.RingAt k) (op : SpawnOp) :
    (op.run env sh).1.m_dead.RingAt
      (if op = .clear then 0 else if op.isDelete then k + 1 else k) := by
  cases op with
  | newSpawn s =>
      rcases newSpawn_dead env sh s with heq | heq <;>
        · show (sh.newSpawn env s).1.m_dead.RingAt k
          rw [heq]
          exact h
  | updateSpawn u =>
      rcases updateSpawn_dead env sh u with heq | ⟨i, -, heq⟩ <;>
        · show (sh.updateSpawn env u).1.m_dead.RingAt k
          rw [heq]
          exact h
  | deleteSpawn id =>
      show (sh.deleteSpawn id).1.m_dead.RingAt (k + 1)
      rw [SpawnShell.deleteSpawn, deleteItem_dead]
      exact DeadSpawns.ringAt_push h id
  | clear => exact DeadSpawns.ringAt_empty

theorem ringAt_afterOps {sh : SpawnShell} (h : sh.m_dead.RingAt 0) (ops : List SpawnOp) :
    (sh.afterOps env ops).m_dead.RingAt (deletesSinceClear ops) := by
  induction ops using List.reverseRecOn with
  | nil => exact h
  | append_singleton ops op ih =>
      rw [afterOps_append, deletesSinceClear_append_singleton]
      exact ringAt_step env ih op

/-- The deleted id is in its slot and in no map. -/
def Forgotten (sh : SpawnShell) (id : UInt16) (j k : Nat) : Prop :=
  sh.m_dead.Remembers id j k ∧ sh.m_spawns.lookup (idKey id) = none

theorem newSpawn_lookup (sh : SpawnShell) (s : SpawnStruct) {k : Int} (hk : k ≠ idKey s.spawnId) :
    (sh.newSpawn env s).1.m_spawns.lookup k = sh.m_spawns.lookup k := by
  unfold SpawnShell.newSpawn
  split
  · rfl
  · dsimp only
    split <;> exact AList.lookup_insert_ne hk

theorem updateSpawn_lookup (sh : SpawnShell) (u : SpawnPositionUpdate) {k : Int}
    (hk : k ≠ idKey u.spawnId) :
    (sh.updateSpawn env u).1.m_spawns.lookup k = sh.m_spawns.lookup k := by
  unfold SpawnShell.updateSpawn
  split
  · rfl
  · split
    · exact AList.lookup_insert_ne hk
    · split
      · split
        · rfl
        · exact AList.lookup_insert_ne hk
      · rfl

theorem forgotten_step {sh : SpawnShell} {id : UInt16} {j k : Nat} (h : Forgotten sh id j k)
    {op : SpawnOp} (hclear : op ≠ .clear) (hquiet : ¬ op.Mentions id)
    (hk : op.isDelete = true → k + 1 < j + MAX_DEAD_SPAWNIDS) :
    Forgotten (op.run env sh).1 id j (if op.isDelete then k + 1 else k) := by
  obtain ⟨hring, hnone⟩ := h
  cases op with
  | newSpawn s =>
      have hne : s.spawnId ≠ id := hquiet
      have hkey : idKey id ≠ idKey s.spawnId := fun heq => hne (idKey_inj heq).symm
      refine ⟨?_, (newSpawn_lookup env sh s hkey).trans hnone⟩
      show (sh.newSpawn env s).1.m_dead.Remembers id j k
      rcases newSpawn_dead env sh s with heq | heq
      · rw [heq]
        exact hring
      · rw [heq]
        exact hring.forget hne
  | updateSpawn u =>
      have hne : u.spawnId ≠ id := hquiet
      have hkey : idKey id ≠ idKey u.spawnId := fun heq => hne (idKey_inj heq).symm
      refine ⟨?_, (updateSpawn_lookup env sh u hkey).trans hnone⟩
      show (sh.updateSpawn env u).1.m_dead.Remembers id j k
      rcases updateSpawn_dead env sh u with heq | ⟨i, hi, heq⟩
      · rw [heq]
        exact hring
      · rw [heq]
        exact hring.zero hne hi
  | deleteSpawn other =>
      refine ⟨?_, ?_⟩
      · show (sh.deleteSpawn other).1.m_dead.Remembers id j (k + 1)
        rw [SpawnShell.deleteSpawn, deleteItem_dead]
        exact hring.push other (hk rfl)
      · show (sh.deleteSpawn other).1.m_spawns.lookup (idKey id) = none
        rw [SpawnShell.deleteSpawn, deleteItem_spawns]
        split
        · rfl
        · exact hnone
  | clear => exact absurd rfl hclear

theorem forgotten_afterOps {sh : SpawnShell} {id : UInt16} {j : Nat} (h : Forgotten sh id j j)
    {since : List SpawnOp} (hclear : .clear ∉ since) (hquiet : ∀ op ∈ since, ¬ op.Mentions id)
    (hcount : deletes since < MAX_DEAD_SPAWNIDS) :
    Forgotten (sh.afterOps env since) id j (j + deletes since) := by
  induction since using List.reverseRecOn with
  | nil => simpa [deletes, SpawnShell.afterOps] using h
  | append_singleton since op ih =>
      have hsplit : deletes (since ++ [op]) = deletes since + if op.isDelete then 1 else 0 := by
        unfold deletes
        rw [List.countP_append]
        cases hdel : op.isDelete <;> simp [hdel]
      rw [hsplit] at hcount ⊢
      have hprev := ih (fun hmem => hclear (by simp [hmem]))
        (fun op' hmem => hquiet op' (by simp [hmem])) (by omega)
      have hop : op ≠ .clear := by
        rintro rfl
        exact hclear (by simp)
      have hlast := forgotten_step env hprev hop (hquiet op (by simp)) fun hdel => by
        rw [hdel, if_pos rfl] at hcount
        omega
      rw [afterOps_append]
      cases hdel : op.isDelete <;> simpa [hdel, SpawnShell.afterOps, Nat.add_assoc] using hlast

theorem afterOps_frame (sh : SpawnShell) (ops : List SpawnOp) :
    (sh.afterOps env ops).createUnknownSpawns = sh.createUnknownSpawns ∧
      (sh.afterOps env ops).m_player.m_ID = sh.m_player.m_ID := by
  induction ops using List.reverseRecOn with
  | nil => exact ⟨rfl, rfl⟩
  | append_singleton ops op ih =>
      rw [afterOps_append]
      have hstep := run_frame env (sh.afterOps env ops) op
      exact ⟨hstep.1.trans ih.1, hstep.2.trans ih.2⟩

/-- A position update for an id in a searched slot empties the slot and does nothing else. -/
theorem updateSpawn_of_found {sh : SpawnShell} {u : SpawnPositionUpdate}
    (hplayer : u.spawnId ≠ sh.m_player.m_ID) (hnone : sh.m_spawns.lookup (idKey u.spawnId) = none)
    {i : Fin MAX_DEAD_SPAWNIDS} (hi : sh.m_dead.find u.spawnId = some i)
    (hcreate : sh.createUnknownSpawns = true) :
    sh.updateSpawn env u = ({ sh with m_dead := sh.m_dead.zero i }, []) := by
  unfold SpawnShell.updateSpawn
  rw [if_neg hplayer, hnone]
  dsimp only
  rw [if_pos hcreate, hi]

/-- A deleted id that was not mentioned since does not come back through a position update, as
    long as the memory was not cleared, fewer than 50 ids followed, and one did or the ring is full. -/
theorem dead_id_ignored (player : Player) (filterMgr : FilterMgr) (guildMgr : GuildMgr)
    (pre since : List SpawnOp) (u : SpawnPositionUpdate) (hzero : u.spawnId ≠ 0)
    (hplayer : u.spawnId ≠ player.m_ID) (hcount : deletes since < MAX_DEAD_SPAWNIDS)
    (hquiet : ∀ op ∈ since, ¬ op.Mentions u.spawnId) (hclear : .clear ∉ since)
    (hslot : 0 < deletes since ∨
      MAX_DEAD_SPAWNIDS ≤ deletesSinceClear (pre ++ .deleteSpawn u.spawnId :: since)) :
    let sh := (SpawnShell.init player filterMgr guildMgr true).afterOps env
      (pre ++ .deleteSpawn u.spawnId :: since)
    (sh.updateSpawn env u).2 = [] ∧
      ∀ type id, (sh.updateSpawn env u).1.find type id = sh.find type id := by
  intro sh
  let start := SpawnShell.init player filterMgr guildMgr true
  let before := start.afterOps env pre
  let j := deletesSinceClear pre + 1
  have hring : before.m_dead.RingAt (deletesSinceClear pre) :=
    ringAt_afterOps env DeadSpawns.ringAt_empty pre
  have hdeleted : Forgotten (before.deleteSpawn u.spawnId).1 u.spawnId j j := by
    refine ⟨?_, ?_⟩
    · rw [SpawnShell.deleteSpawn, deleteItem_dead]
      exact DeadSpawns.remembers_push hring u.spawnId
    · rw [SpawnShell.deleteSpawn, deleteItem_spawns, if_pos rfl]
  have hsh : sh = (before.deleteSpawn u.spawnId).1.afterOps env since := by
    show start.afterOps env (pre ++ .deleteSpawn u.spawnId :: since) = _
    rw [afterOps_append]
    rfl
  obtain ⟨hremembers, hnone⟩ := forgotten_afterOps env hdeleted hclear hquiet hcount
  rw [← hsh] at hremembers hnone
  have hseen : j < j + deletes since ∨ MAX_DEAD_SPAWNIDS ≤ j + deletes since := by
    have hsplit : pre ++ .deleteSpawn u.spawnId :: since =
        (pre ++ [.deleteSpawn u.spawnId]) ++ since := by simp
    have htotal : deletesSinceClear (pre ++ .deleteSpawn u.spawnId :: since) =
        j + deletes since := by
      rw [hsplit, deletesSinceClear_append hclear, deletesSinceClear_append_singleton]
      rfl
    rw [htotal] at hslot
    omega
  obtain ⟨i, hi⟩ := hremembers.found hzero hseen
  obtain ⟨hcreate, hid⟩ := afterOps_frame env start (pre ++ .deleteSpawn u.spawnId :: since)
  have hplayer' : u.spawnId ≠ sh.m_player.m_ID := by
    rw [show sh.m_player.m_ID = player.m_ID from hid]
    exact hplayer
  rw [updateSpawn_of_found env hplayer' hnone hi hcreate]
  exact ⟨rfl, fun type id => by cases type <;> rfl⟩

end

/-- 7 and then 8 are deleted; 7 is still remembered. -/
theorem dead_id_ignored_after_one :
    let sh := (SpawnShell.init { addr := 0, m_ID := 0 } .none (fun _ _ => []) true).afterOps .ascii
      [.deleteSpawn 7, .deleteSpawn 8]
    (sh.updateSpawn .ascii { spawnId := 7 }).2 = [] ∧
      ∀ type id, (sh.updateSpawn .ascii { spawnId := 7 }).1.find type id = sh.find type id :=
  dead_id_ignored .ascii { addr := 0, m_ID := 0 } .none (fun _ _ => []) [] [.deleteSpawn 8]
    { spawnId := 7 } (by decide) (by decide) (by decide) (by simp [SpawnOp.Mentions]) (by decide)
    (by decide)

/-- A zone change in between wipes the memory: the deleted id comes back as an unknown spawn. -/
theorem cleared_id_comes_back :
    ¬ ∀ (env : Env) (player : Player) (filterMgr : FilterMgr) (guildMgr : GuildMgr)
      (pre since : List SpawnOp) (u : SpawnPositionUpdate),
      u.spawnId ≠ 0 → u.spawnId ≠ player.m_ID → deletes since < MAX_DEAD_SPAWNIDS →
      (∀ op ∈ since, ¬ op.Mentions u.spawnId) →
      (((SpawnShell.init player filterMgr guildMgr true).afterOps env
        (pre ++ .deleteSpawn u.spawnId :: since)).updateSpawn env u).2 = [] := by
  intro h
  have hnone := h .ascii { addr := 0, m_ID := 0 } .none (fun _ _ => []) []
    [.deleteSpawn 8, .clear] { spawnId := 7 } (by decide) (by decide) (by decide)
    (by simp [SpawnOp.Mentions])
  have hadded := congrArg List.length hnone
  revert hadded
  decide

end ShoweqDaemon.Spawns
