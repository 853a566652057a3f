/-
  Two daemons that hold the same, their hash tables iterated in different orders.

  `sendSnapshot` collects the items of four tables and sorts them by id and type, and the spawn
  points by their keys. Points never have one key together. Items may tie: the player is a `tSpawn`
  like a spawn under its id, and two drops may agree in the sixteen bits of an id. `std::sort` is
  not stable, and what it makes of a tie is left open here. The snapshots are the same just when
  items that tie have the same message (`snapshot_deterministic_iff`).
-/
import Mathlib.Data.Char
import Mathlib.Data.List.Lex
import Mathlib.Data.Prod.Lex
import ShoweqDaemon.Lib.UnstableSort
import ShoweqDaemon.Daemon.Wiring
import ShoweqDaemon.Session.Replication
import ShoweqDaemon.Spawn.PointReplica

namespace ShoweqDaemon.Spawns

open UnstableSort
open SpawnPoints (SpawnPoint SpawnPointMsg fillSpawnPoint)

/-! ## The snapshot -/

/-- The message of a spawn. Which object it was made from is not on the wire. -/
def wire (env : Env) (item : Item) : SpawnMsg := { fillSpawn env item with origin := 0 }

/-- The comparison of items. -/
def itemLess (a b : Item) : Bool :=
  if a.id ≠ b.id then a.id < b.id else a.typeRank < b.typeRank

/-- The comparison of spawn points. -/
def pointLess (a b : SpawnPoint) : Bool := a.key < b.key

/-- `all`, before it is sorted: the four maps in the order in which they are iterated, and the
    player behind them if no item has his id. -/
def collected (order : Table.Order) (sh : SpawnShell) : List Item :=
  let all := (order.visit sh.m_spawns.values).map .spawn ++
    (order.visit sh.m_drops.values).map .drop ++ (order.visit sh.m_doors.values).map .door ++
    (order.visit sh.m_players.values).map fun _ => .player sh.m_player
  if sh.m_player.m_ID ≠ 0 ∧ sh.m_player.m_ID ∉ all.map Item.id then all ++ [.player sh.m_player]
  else all

/-- `Snapshot`, with the lists that it has been filled with. -/
structure Snapshot where
  zone_short : QString
  zone_long : QString
  player_id : UInt16
  spawns : List SpawnMsg
  spawn_points : List SpawnPointMsg

section
variable (env : Env) (deterministic : Bool)

/-- `sendSnapshot` may send `snap`: `std::sort` leaves the order of ties open. -/
def SendsSnapshot (order : Table.Order) (zone : ZoneMgr) (sh : SpawnShell)
    (monitor : SpawnPoints.Owned.SpawnMonitor) (snap : Snapshot) : Prop :=
  ∃ items points,
    Sorts itemLess (collected order sh) items ∧
    Sorts pointLess ((order.visit monitor.m_points.values).map monitor.object) points ∧
    snap =
      { zone_short := zone.m_shortZoneName
        zone_long := zone.m_longZoneName
        player_id := sh.m_player.m_ID
        spawns := items.map (wire env)
        spawn_points := points.map (fillSpawnPoint · deterministic) }

/-- Whatever the orders of iteration, and whatever is done about ties, one snapshot. -/
def SnapshotDetermined (zone : ZoneMgr) (sh : SpawnShell)
    (monitor : SpawnPoints.Owned.SpawnMonitor) : Prop :=
  ∀ order order' snap snap', SendsSnapshot env deterministic order zone sh monitor snap →
    SendsSnapshot env deterministic order' zone sh monitor snap' → snap = snap'

/-- Items of the four tables that tie have the same message. -/
def SpawnShell.TiesAlike (sh : SpawnShell) : Prop :=
  ∀ t k x t' k' y, sh.find t k = some x → sh.find t' k' = some y → x.id = y.id →
    x.typeRank = y.typeRank → wire env x = wire env y

end

/-! ## The comparisons -/

/-- What `std::sort` compares of two items: the id, then the type. -/
def itemKey (x : Item) : ℕ ×ₗ ℕ := toLex (x.id.toNat, x.typeRank)

theorem itemLess_byKey : ByKey itemLess itemKey := by
  intro a b
  rw [Bool.eq_iff_iff, decide_eq_true_iff]
  unfold itemLess itemKey
  rw [Prod.Lex.toLex_lt_toLex]
  by_cases hid : a.id = b.id
  · rw [if_neg (not_not_intro hid), decide_eq_true_iff, hid]
    simp
  · have hne : a.id.toNat ≠ b.id.toNat := fun h => hid (UInt16.toNat_inj.mp h)
    rw [if_pos hid, decide_eq_true_iff, UInt16.lt_iff_toNat_lt]
    simp [hne]

theorem pointLess_byKey : ByKey pointLess SpawnPoint.key := fun _ _ => decide_eq_decide.mpr Iff.rfl

theorem itemKey_eq_iff (x y : Item) :
    itemKey x = itemKey y ↔ x.id = y.id ∧ x.typeRank = y.typeRank := by
  unfold itemKey
  rw [toLex_inj, Prod.mk.injEq, UInt16.toNat_inj]

/-- The stable sort is one way to sort the items. -/
theorem sorts_snapshotItems (order : Table.Order) (sh : SpawnShell) :
    Sorts itemLess (collected order sh) (snapshotItems order sh) := by
  have hle : (fun a b : Item => a.id < b.id || (a.id = b.id && a.typeRank ≤ b.typeRank)) =
      fun a b => !itemLess b a := by
    funext a b
    rw [Bool.eq_iff_iff, itemLess_byKey.not_lt]
    unfold itemKey
    rw [Prod.Lex.toLex_le_toLex]
    simp [UInt16.lt_iff_toNat_lt, UInt16.toNat_inj]
  have h := sorts_mergeSort itemLess_byKey (collected order sh)
  rw [← hle] at h
  exact h

/-! ## What is collected -/

/-- Beside what the tables hold the player is there only when nothing has its id. -/
theorem mem_collected {order : Table.Order} {sh : SpawnShell} {x : Item}
    (h : x ∈ collected order sh) : (∃ type k, sh.find type k = some x) ∨
      (x = .player sh.m_player ∧ ∀ type k y, sh.find type k = some y → y.id ≠ x.id) := by
  unfold collected at h
  dsimp only at h
  split at h
  · rename_i hid
    rcases List.mem_append.mp h with h | h
    · exact Or.inl ((mem_maps order).mp h)
    · have hx : x = .player sh.m_player := List.mem_singleton.mp h
      refine Or.inr ⟨hx, fun type k y hy heq => hid.2 ?_⟩
      exact List.mem_map.mpr ⟨y, (mem_maps order).mpr ⟨type, k, hy⟩, heq.trans (by rw [hx]; rfl)⟩
  · exact Or.inl ((mem_maps order).mp h)

theorem collected_of_find {order : Table.Order} {sh : SpawnShell} {x : Item}
    {type : SpawnItemType} {k : Int} (h : sh.find type k = some x) : x ∈ collected order sh := by
  have hx := (mem_maps order).mpr ⟨type, k, h⟩
  unfold collected
  dsimp only
  split
  · exact List.mem_append_left _ hx
  · exact hx

theorem collected_perm (order order' : Table.Order) (sh : SpawnShell) :
    (collected order sh).Perm (collected order' sh) := by
  have hmap {α : Type} (l : List α) (mk : α → Item) :
      ((order.visit l).map mk).Perm ((order'.visit l).map mk) :=
    ((order.perm l).trans (order'.perm l).symm).map mk
  have hall := (((hmap sh.m_spawns.values .spawn).append (hmap sh.m_drops.values .drop)).append
    (hmap sh.m_doors.values .door)).append (hmap sh.m_players.values fun _ => .player sh.m_player)
  have hids := (hall.map Item.id).mem_iff (a := sh.m_player.m_ID)
  unfold collected
  dsimp only
  by_cases hid : sh.m_player.m_ID ≠ 0 ∧ sh.m_player.m_ID ∉ List.map Item.id
      ((order.visit sh.m_spawns.values).map .spawn ++ (order.visit sh.m_drops.values).map .drop ++
        (order.visit sh.m_doors.values).map .door ++
        (order.visit sh.m_players.values).map fun _ => .player sh.m_player)
  · rw [if_pos hid, if_pos ⟨hid.1, fun h => hid.2 (hids.mpr h)⟩]
    exact hall.append_right _
  · rw [if_neg hid, if_neg fun h => hid ⟨h.1, fun h' => h.2 (hids.mp h')⟩]
    exact hall

/-! ## When snapshots are determined -/

section
variable (env : Env) (deterministic : Bool) {monitor : SpawnPoints.Owned.SpawnMonitor}

/-- Points lie under their keys, so no two of them tie. -/
theorem points_apart (h : monitor.Sound) {order : Table.Order} {a b : SpawnPoint}
    (ha : a ∈ (order.visit monitor.m_points.values).map monitor.object)
    (hb : b ∈ (order.visit monitor.m_points.values).map monitor.object) (hkey : a.key = b.key) :
    a = b := by
  have haddr : ∀ {p}, p ∈ (order.visit monitor.m_points.values).map monitor.object →
      ∃ addr, monitor.m_points.lookup p.key = some addr ∧ monitor.object addr = p := by
    intro p hp
    obtain ⟨addr, hmem, rfl⟩ := List.mem_map.mp hp
    obtain ⟨k, hk⟩ := Table.mem_values.mp (order.mem_visit.mp hmem)
    have hkeyed := h.keyed k addr (.inr hk)
    exact ⟨addr, hkeyed ▸ hk, rfl⟩
  obtain ⟨addr, hlookup, rfl⟩ := haddr ha
  obtain ⟨addr', hlookup', rfl⟩ := haddr hb
  rw [hkey, hlookup'] at hlookup
  rw [Option.some.inj hlookup]

theorem sends_exists (monitor : SpawnPoints.Owned.SpawnMonitor) (order : Table.Order)
    (zone : ZoneMgr) (sh : SpawnShell) {items : List Item}
    (h : Sorts itemLess (collected order sh) items) :
    ∃ snap, SendsSnapshot env deterministic order zone sh monitor snap ∧
      snap.spawns = items.map (wire env) :=
  ⟨_, ⟨items, _, h, sorts_mergeSort pointLess_byKey _, rfl⟩, rfl⟩

/-- For whatever the tables of the shell hold, and a monitor that is sound. -/
theorem determined_iff (h : monitor.Sound) (zone : ZoneMgr) (sh : SpawnShell) :
    SnapshotDetermined env deterministic zone sh monitor ↔ sh.TiesAlike env := by
  constructor
  · intro hdet t k x t' k' y hx hy hid hrank
    refine ties_agree (l := collected .entries sh) itemLess_byKey (wire env) (fun l₁ l₂ h₁ h₂ => ?_)
      (collected_of_find hx) (collected_of_find hy) ((itemKey_eq_iff x y).mpr ⟨hid, hrank⟩)
    obtain ⟨snap, hsnap, hspawns⟩ := sends_exists env deterministic monitor .entries zone sh h₁
    obtain ⟨snap', hsnap', hspawns'⟩ := sends_exists env deterministic monitor .entries zone sh h₂
    rw [← hspawns, ← hspawns', hdet _ _ _ _ hsnap hsnap']
  · rintro hties order order' snap snap' ⟨items, points, hitems, hpoints, rfl⟩
      ⟨items', points', hitems', hpoints', rfl⟩
    have hspawns : items.map (wire env) = items'.map (wire env) := by
      refine reading_unique itemLess_byKey (wire env) hitems
        (hitems'.congr (collected_perm order' order sh)) fun x hx y hy hkey => ?_
      obtain ⟨hid, hrank⟩ := (itemKey_eq_iff x y).mp hkey
      rcases mem_collected hx with ⟨t, k, hx⟩ | ⟨hx, hnone⟩
      · rcases mem_collected hy with ⟨t', k', hy⟩ | ⟨hy, hnone⟩
        · exact hties t k x t' k' y hx hy hid hrank
        · exact absurd hid (hnone t k x hx)
      · rcases mem_collected hy with ⟨t', k', hy⟩ | ⟨hy, -⟩
        · exact absurd hid.symm (hnone t' k' y hy)
        · rw [hx, hy]
    have hvisit := ((order'.perm monitor.m_points.values).trans
      (order.perm monitor.m_points.values).symm).map monitor.object
    have hspots := reading_unique pointLess_byKey (fillSpawnPoint · deterministic) hpoints
      (hpoints'.congr hvisit) fun a ha b hb hkey => by rw [points_apart h ha hb hkey]
    rw [hspawns, hspots]

theorem monitor_sound (toLower : QString → QString) (ps : List SpawnPoints.Owned.Event) :
    (ps.foldl (SpawnPoints.Owned.step toLower) .init).Sound := by
  have hstep : ∀ (s : SpawnPoints.Owned.SpawnMonitor) (e : SpawnPoints.Owned.Event), s.Sound →
      (SpawnPoints.Owned.step toLower s e).Sound :=
    fun _ e h => SpawnPoints.Owned.SpawnMonitor.sound_perform toLower h e
  exact Machine.foldl_invariant _ hstep SpawnPoints.Owned.SpawnMonitor.init_sound ps

/-- After every run of the daemon, and every run of the monitor: all orders of iteration give the
    same snapshot just when held items with one id and one type have the same message. -/
theorem snapshot_deterministic_iff (player : Player) (filterMgr : FilterMgr) (guildMgr : GuildMgr)
    (createUnknownSpawns : Bool) (es : List Event) (toLower : QString → QString)
    (ps : List SpawnPoints.Owned.Event) :
    SnapshotDetermined env deterministic
        (es.foldl (Daemon.step env)
          (Daemon.init player filterMgr guildMgr createUnknownSpawns)).zone
        (es.foldl (Daemon.step env)
          (Daemon.init player filterMgr guildMgr createUnknownSpawns)).shell
        (ps.foldl (SpawnPoints.Owned.step toLower) .init) ↔
      (es.foldl (Daemon.step env)
        (Daemon.init player filterMgr guildMgr createUnknownSpawns)).shell.TiesAlike env :=
  determined_iff env deterministic (monitor_sound toLower ps) _ _

/-- A spawn under the player's id among seventeen items, one more than `std::sort` leaves to an
    insertion sort: which of the two comes first is open. -/
theorem playerId_open :
    let others : List Event := (List.range 15).map fun n =>
      ⟨.entries, .newSpawn { spawnId := UInt16.ofNat (20 + n), npc := SPAWN_NPC }⟩
    let es : List Event := [⟨.entries, .clientUpdate .client { spawnId := 9 }⟩,
      ⟨.entries, .newSpawn { spawnId := 9, npc := SPAWN_NPC, level := 10 }⟩] ++ others
    let d := es.foldl (Daemon.step .ascii)
      (Daemon.init { addr := 0, m_ID := 0 } .none (fun _ _ => []) false)
    (collected .entries d.shell).length = 17 ∧
      ¬ SnapshotDetermined .ascii false d.zone d.shell .init := by
  intro others es d
  refine ⟨by decide +kernel, fun hdet => ?_⟩
  have hties := (determined_iff .ascii false
    SpawnPoints.Owned.SpawnMonitor.init_sound d.zone d.shell).mp hdet
  have hspawn : (d.shell.find .tSpawn 9).map (fun x => (x.id, x.typeRank, (wire .ascii x).level)) =
      some (9, 3, 10) := by decide +kernel
  have hplayer : (d.shell.find .tPlayer 9).map
      (fun x => (x.id, x.typeRank, (wire .ascii x).level)) = some (9, 3, 1) := by decide +kernel
  obtain ⟨x, hx, hxs⟩ := Option.map_eq_some_iff.mp hspawn
  obtain ⟨y, hy, hys⟩ := Option.map_eq_some_iff.mp hplayer
  obtain ⟨hxid, hxs⟩ := Prod.mk.inj hxs
  obtain ⟨hxrank, hxlevel⟩ := Prod.mk.inj hxs
  obtain ⟨hyid, hys⟩ := Prod.mk.inj hys
  obtain ⟨hyrank, hylevel⟩ := Prod.mk.inj hys
  have hsame := hties .tSpawn 9 x .tPlayer 9 y hx hy (hxid.trans hyid.symm)
    (hxrank.trans hyrank.symm)
  rw [hsame, hylevel] at hxlevel
  exact absurd hxlevel (by decide)

end

end ShoweqDaemon.Spawns
