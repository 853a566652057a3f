/-
  The spawn points of a client.

  `SessionAdapter` turns the signals of the monitor into messages, and the client folds them into a
  map from keys to points. Each signal goes out when the tables are what the message says, or
  will be at the end of the operation, so the client has the promoted points after each
  (`points_replicated_iff`). The one way out is `setName` of a candidate, which is announced like
  that of a promoted point; `rename_spawn_point` looks its points up among the promoted ones.
-/
import ShoweqDaemon.Lib.Replica
import ShoweqDaemon.Spawn.PointRuns

namespace ShoweqDaemon.SpawnPoints

open Spawns Machine

/-! ## Messages -/

/-- `seq::v1::SpawnPoint`: a promoted point as the clients know it, its times in whole seconds. -/
structure SpawnPointMsg where
  key : QString
  x : Int16
  y : Int16
  z : Int16
  name : QString
  last : QString
  last_id : UInt16
  count : UInt32
  spawn_time_s : UInt64
  death_time_s : UInt64
  diff_time_s : UInt64
  deriving DecidableEq, Repr

/-- Only the adapter that records goldens is `deterministic`; those of clients are not. -/
def fillSpawnPoint (sp : SpawnPoint) (deterministic : Bool) : SpawnPointMsg where
  key := sp.key
  x := sp.x
  y := sp.y
  z := sp.z
  name := sp.m_name
  last := sp.m_last
  last_id := sp.m_lastID
  count := sp.m_count.toInt32.toUInt32
  spawn_time_s := if deterministic then 0 else UInt64.ofInt sp.m_spawnTime
  death_time_s := if deterministic then 0 else UInt64.ofInt sp.m_deathTime
  diff_time_s := if deterministic then 0 else UInt64.ofInt sp.m_diffTime

/-- The payloads of an envelope that are about spawn points. -/
inductive PointPayload where
  | snapshot (spawn_points : List SpawnPointMsg)
  | spawnPointAdded (point : SpawnPointMsg)
  | spawnPointUpdated (point : SpawnPointMsg)
  | spawnPointRemoved (key : QString)
  | spawnPointsCleared

/-- What the client does with a message, as an update of a copy of the promoted points. -/
def PointPayload.update : PointPayload → Replica.Update QString SpawnPointMsg
  | .snapshot spawn_points => .reset (spawn_points.map fun point => (point.key, point))
  | .spawnPointAdded point => .put point.key point
  | .spawnPointUpdated point => .put point.key point
  | .spawnPointRemoved key => .remove key
  | .spawnPointsCleared => .reset []

/-- The points that a client shows, by key. -/
abbrev PointClient := QString → Option SpawnPointMsg

/-- What the client makes of a payload. -/
def PointClient.receive (client : PointClient) (p : PointPayload) : PointClient :=
  Replica.apply client p.update

namespace Owned

open Owned.SpawnMonitor (mem_view_points mem_view_of_lookup not_mem_view_of_lookup
  view_setObject_points)

/-- The slots of the adapter. The selection is not connected. -/
def payload : Signal → Option PointPayload
  | .newSpawnPoint sp => some (.spawnPointAdded (fillSpawnPoint sp false))
  | .spawnPointUpdated sp => some (.spawnPointUpdated (fillSpawnPoint sp false))
  | .spawnPointDeleted sp => some (.spawnPointRemoved sp.key)
  | .clearSpawnPoints => some .spawnPointsCleared
  | .selectionChanged _ => none

/-- The spawn points of a snapshot, sorted by their keys. -/
def snapshot (o : Table.Order) (s : SpawnMonitor) : PointPayload :=
  let points := (o.visit s.m_points.values).map s.object
  .snapshot ((points.mergeSort fun a b => !decide (b.key < a.key)).map (fillSpawnPoint · false))

/-- What the payloads of the signals make of the client's map. -/
def follow (client : PointClient) (signals : List Signal) : PointClient :=
  (signals.filterMap payload).foldl PointClient.receive client

theorem follow_append (client : PointClient) (signals signals' : List Signal) :
    follow client (signals ++ signals') = follow (follow client signals) signals' := by
  unfold follow
  rw [List.filterMap_append, List.foldl_append]

/-! ## What the client is to have -/

/-- The promoted points, as messages. -/
def shown (points : Table QString SpawnPoint) : PointClient :=
  fun k => (points.lookup k).map (fillSpawnPoint · false)

theorem shown_insert (points : Table QString SpawnPoint) (k : QString) (sp : SpawnPoint) :
    shown (points.insert k sp) =
      Function.update (shown points) k (some (fillSpawnPoint sp false)) := by
  funext k'
  unfold shown
  rw [Table.lookup_insert, Function.update_apply]
  split <;> rfl

theorem shown_erase (points : Table QString SpawnPoint) (k : QString) :
    shown (points.erase k) = Function.update (shown points) k none := by
  funext k'
  unfold shown
  rw [Table.lookup_erase, Function.update_apply]
  split <;> rfl

theorem shown_modify {points : Table QString SpawnPoint} {k : QString} {sp : SpawnPoint}
    (hsp : points.lookup k = some sp) (f : SpawnPoint → SpawnPoint) :
    shown (points.modify k f) =
      Function.update (shown points) k (some (fillSpawnPoint (f sp) false)) := by
  funext k'
  unfold shown
  rw [Table.lookup_modify, Function.update_apply]
  split
  · rename_i hk
    rw [hk, hsp]
    rfl
  · rfl

/-- The client's map under a key that is not there may be cleared. -/
theorem shown_absent {points : Table QString SpawnPoint} {k : QString} (hk : k ∉ points) :
    Function.update (shown points) k none = shown points := by
  have hnone : shown points k = none := by
    unfold shown
    rw [AList.lookup_eq_none.mpr hk, Option.map_none]
  rw [← hnone, Function.update_eq_self]

theorem lookup_view (s : SpawnMonitor) (k : QString) :
    s.view.m_points.lookup k = (s.m_points.lookup k).map s.object := Table.lookup_mapValues ..

/-- A snapshot is all that the client is to have. -/
theorem receive_snapshot {s : SpawnMonitor} (h : s.Sound) (o : Table.Order) (client : PointClient) :
    client.receive (snapshot o s) = shown s.view.m_points := by
  have hentries : ∀ k m, (k, m) ∈ ((((o.visit s.m_points.values).map s.object).mergeSort
      fun a b => !decide (b.key < a.key)).map (fillSpawnPoint · false)).map
        (fun point => (point.key, point)) ↔ shown s.view.m_points k = some m := by
    intro k m
    unfold shown
    rw [lookup_view]
    simp only [List.mem_map, List.mem_mergeSort, o.mem_visit, Table.mem_values,
      Option.map_eq_some_iff]
    constructor
    · rintro ⟨-, ⟨sp, ⟨a, ⟨k', ha⟩, rfl⟩, rfl⟩, hpair⟩
      obtain ⟨hk, hm⟩ := Prod.mk.inj hpair
      have hkey : k' = k := (h.keyed k' a (.inr ha)).trans hk
      exact ⟨s.object a, ⟨a, hkey ▸ ha, rfl⟩, hm⟩
    · rintro ⟨sp, ⟨a, ha, rfl⟩, rfl⟩
      refine ⟨_, ⟨s.object a, ⟨a, ⟨k, ha⟩, rfl⟩, rfl⟩, ?_⟩
      exact Prod.ext (h.keyed k a (.inr ha)).symm rfl
  have hun : Replica.Unambiguous fun k m => shown s.view.m_points k = some m :=
    fun k a b ha hb => Option.some.inj (ha.symm.trans hb)
  have hmirrors := (Replica.mirrors_reset hentries client).mpr hun
  funext k
  exact Option.ext fun m => hmirrors k m

/-! ## One operation -/

theorem follow_updated (client : PointClient) (sp : SpawnPoint) :
    follow client [.spawnPointUpdated sp] =
      Function.update client sp.key (some (fillSpawnPoint sp false)) := rfl

theorem follow_new (client : PointClient) (sp : SpawnPoint) :
    follow client [.newSpawnPoint sp] =
      Function.update client sp.key (some (fillSpawnPoint sp false)) := rfl

section
variable {s : SpawnMonitor}

/-- A change of a promoted point that is announced. -/
theorem follow_setObject (h : s.Sound) {k : QString} {sp : Addr}
    (hp : s.m_points.lookup k = some sp) {f : SpawnPoint → SpawnPoint}
    (hf : ∀ sp, (f sp).key = sp.key) :
    follow (shown s.view.m_points) [.spawnPointUpdated (f (s.object sp))] =
      shown (s.setObject sp f).view.m_points := by
  have hlookup : s.view.m_points.lookup k = some (s.object sp) := by
    rw [lookup_view, hp, Option.map_some]
  rw [follow_updated, view_setObject_points h hp, shown_modify hlookup, hf,
    ← h.keyed k sp (.inr hp)]

theorem follow_killSpawn (h : s.Sound) (o : Table.Order) (now : Int) (id : UInt16) :
    follow (shown s.view.m_points) (s.killSpawn o now id).2 =
      shown (s.killSpawn o now id).1.view.m_points := by
  unfold SpawnMonitor.killSpawn
  cases hfind : (o.visit s.m_points.entries).find? (fun e => (s.object e.2).m_lastID = id) with
  | none => rfl
  | some e =>
      have hmem : e ∈ s.m_points.entries := o.mem_visit.mp (List.mem_of_find?_eq_some hfind)
      have hlookup : s.m_points.lookup e.1 = some e.2 := AList.mem_lookup_iff.mpr hmem
      have hself : (s.setObject e.2 (SpawnPoint.restart now)).object e.2 =
          (s.object e.2).restart now := if_pos rfl
      dsimp only [SpawnMonitor.restartSpawnPoint]
      rw [hself]
      exact follow_setObject h hlookup fun _ => rfl

theorem follow_checkSpawnPoint (h : s.Sound) (now : Int) (spawn : SpawnInfo) :
    follow (shown s.view.m_points) (s.checkSpawnPoint now spawn).2 =
      shown (s.checkSpawnPoint now spawn).1.view.m_points := by
  rw [SpawnMonitor.view_checkSpawnPoint h]
  unfold SpawnMonitor.checkSpawnPoint SpawnPoints.SpawnMonitor.checkSpawnPoint
  split
  · rfl
  · dsimp only
    generalize hkey : SpawnPoint.keyOf spawn.x spawn.y spawn.z = key
    cases hp : s.m_points.lookup key with
    | some sp =>
        have hmem : key ∈ s.view.m_points := mem_view_of_lookup hp
        have hself : (s.setObject sp (SpawnPoint.update now spawn)).object sp =
            (s.object sp).update now spawn := if_pos rfl
        have hfollow := follow_setObject h hp (f := SpawnPoint.update now spawn) fun _ => rfl
        rw [view_setObject_points h hp] at hfollow
        rw [if_pos hmem]
        dsimp only
        show follow _ [.spawnPointUpdated
          ((s.setObject sp (SpawnPoint.update now spawn)).object sp)] = _
        rw [hself]
        exact hfollow
    | none =>
        have hmem : key ∉ s.view.m_points := not_mem_view_of_lookup hp
        have hlookup : s.view.m_spawns.lookup key = (s.m_spawns.lookup key).map s.object :=
          Table.lookup_mapValues ..
        rw [if_neg hmem, hlookup]
        cases hc : s.m_spawns.lookup key with
        | some sp =>
            have hself : (s.setObject sp (SpawnPoint.update now spawn)).object sp =
                (s.object sp).update now spawn := if_pos rfl
            have hplace : ((s.object sp).update now spawn).key = key :=
              (h.keyed key sp (.inl hc)).symm
            show follow _ [.newSpawnPoint
              ((s.setObject sp (SpawnPoint.update now spawn)).object sp)] =
                shown (s.view.m_points.insert key ((s.object sp).update now spawn))
            rw [hself, follow_new, shown_insert, hplace]
        | none => rfl

/-- The tables as an operation leaves them that only changes the point of a key. -/
theorem follow_setName (h : s.Sound) {k : QString} {sp : Addr} (hp : s.m_points.lookup k = some sp)
    (name : QString) : follow (shown s.view.m_points) (s.setName (some sp) name).2 =
      shown (s.setName (some sp) name).1.view.m_points := by
  have hself : (s.setObject sp ({ · with m_name := name })).object sp =
      { s.object sp with m_name := name } := if_pos rfl
  have hfollow := follow_setObject h hp (f := ({ · with m_name := name })) fun _ => rfl
  show follow _ [.spawnPointUpdated ((s.setObject sp ({ · with m_name := name })).object sp)] =
    shown (s.setObject sp ({ · with m_name := name })).view.m_points
  rw [hself]
  exact hfollow

/-- A candidate that is renamed gets to the client. -/
theorem follow_setName_candidate (h : s.Sound) {k : QString} {sp : Addr}
    (hs : s.m_spawns.lookup k = some sp) (name : QString) :
    follow (shown s.view.m_points) (s.setName (some sp) name).2 ≠
      shown (s.setName (some sp) name).1.view.m_points := by
  have hview := SpawnMonitor.view_setName h (.inl hs) name
  have hmem : k ∈ s.m_spawns := by
    rw [← AList.lookup_isSome, hs]
    rfl
  have hnot : k ∉ s.view.m_points := by
    rw [mem_view_points]
    exact h.disjoint k hmem
  have hpoints : (s.setName (some sp) name).1.view.m_points = s.view.m_points := by
    rw [hview]
    unfold SpawnPoints.SpawnMonitor.setName
    dsimp only
    rw [if_neg hnot]
    split <;> rfl
  have hkey : ((s.setName (some sp) name).1.object sp).key = k := by
    show (if sp = sp then ({ s.object sp with m_name := name } : SpawnPoint)
      else s.object sp).key = k
    rw [if_pos rfl]
    exact (h.keyed k sp (.inl hs)).symm
  intro heq
  rw [hpoints] at heq
  have hnone : shown s.view.m_points k = none := by
    unfold shown
    rw [AList.lookup_eq_none.mpr hnot, Option.map_none]
  have hsome := congrFun heq k
  rw [hnone] at hsome
  have hput : follow (shown s.view.m_points) (s.setName (some sp) name).2 k =
      some (fillSpawnPoint ((s.setName (some sp) name).1.object sp) false) := by
    show Function.update (shown s.view.m_points)
      ((s.setName (some sp) name).1.object sp).key _ k = _
    rw [hkey, Function.update_self]
    rfl
  rw [hput] at hsome
  cases hsome

theorem follow_deleteSpawnPoint (h : s.Sound) {k : QString} {sp : Addr} (hheld : s.Held k sp) :
    follow (shown s.view.m_points) (s.deleteSpawnPoint sp).2 =
      shown (s.deleteSpawnPoint sp).1.view.m_points := by
  have hkey := h.keyed k sp hheld
  have hfollow : follow (shown s.view.m_points) (s.deleteSpawnPoint sp).2 =
      Function.update (shown s.view.m_points) k none := by
    unfold SpawnMonitor.deleteSpawnPoint
    rw [hkey]
    split <;> rfl
  rw [hfollow, SpawnMonitor.view_deleteSpawnPoint h hheld]
  unfold SpawnPoints.SpawnMonitor.deleteSpawnPoint
  split
  · rw [shown_erase]
  · rename_i hmem
    exact shown_absent hmem

theorem follow_loadPoint (h : s.Sound) (now : Int) (p : SavedPoint) :
    follow (shown s.view.m_points) (s.loadPoint now p).2 =
      shown (s.loadPoint now p).1.view.m_points := by
  rw [SpawnMonitor.view_loadPoint h]
  unfold SpawnMonitor.loadPoint loadPoint
  dsimp only
  cases hp : s.m_points.lookup p.key with
  | none =>
      have hmem : p.key ∉ s.view.m_points := not_mem_view_of_lookup hp
      have hself : (s.setObject s.next fun _ => p.point now).object s.next = p.point now :=
        if_pos rfl
      rw [if_neg hmem, shown_insert, hself]
      rfl
  | some sp =>
      have hmem : p.key ∈ s.view.m_points := mem_view_of_lookup hp
      rw [if_pos hmem]
      rfl

theorem follow_loadPoints (ps : List SavedPoint) :
    ∀ {s : SpawnMonitor} (_ : s.Sound) (_ : s.m_spawns = ∅) (clock : ℕ → Int),
      follow (shown s.view.m_points) (s.loadPoints clock ps).2 =
        shown (s.loadPoints clock ps).1.view.m_points := by
  induction ps with
  | nil => exact fun _ _ _ => rfl
  | cons p ps ih =>
      intro s h hnone clock
      obtain ⟨hsound, hnone'⟩ := SpawnMonitor.sound_loadPoint h hnone (clock 0) p
      have hrest := ih hsound hnone' fun n => clock (n + 1)
      rw [← follow_loadPoint h] at hrest
      rw [SpawnMonitor.loadPoints]
      dsimp only
      rw [follow_append, hrest]

/-- Whatever the client had, it starts anew with the zone. -/
theorem follow_zoneChanged (h : s.Sound) (a : Arrival) (newZoneName : QString) :
    follow (shown s.view.m_points) (s.zoneChanged a newZoneName).2 =
      shown (s.zoneChanged a newZoneName).1.view.m_points := by
  unfold SpawnMonitor.zoneChanged
  by_cases hname : s.m_zoneName ≠ newZoneName
  · rw [if_pos hname]
    have hs := SpawnMonitor.sound_clear (SpawnMonitor.sound_saveSpawnPoints h a.disk)
    have hnone : (s.saveSpawnPoints a.disk).clear.1.m_spawns = ∅ := by
      rw [SpawnMonitor.clear_eq]
    generalize hzone : { (s.saveSpawnPoints a.disk).clear.1 with m_zoneName := newZoneName } = z
    have hz : z.Sound := by
      rw [← hzone]
      exact ⟨hs.disjoint, hs.keyed, hs.alive, hs.deleted_lt, hs.deleted_nodup, hs.selected⟩
    have hempty : follow (shown s.view.m_points) (s.saveSpawnPoints a.disk).clear.2 =
        shown z.view.m_points := by
      rw [← hzone]
      show (fun _ => none) = shown ((s.saveSpawnPoints a.disk).clear.1.view).m_points
      rw [SpawnMonitor.view_clear]
      rfl
    have hnone' : z.m_spawns = ∅ := by rw [← hzone]; exact hnone
    dsimp only
    rw [hzone, follow_append, hempty]
    cases a.file with
    | none => rfl
    | some input => exact follow_loadPoints (readPoints input) hz hnone' a.clock
  · rw [if_neg hname]
    rfl

/-- A point that is renamed is not a candidate. -/
def NamesPromoted (s : SpawnMonitor) : Event → Prop
  | .setName (some sp) _ => sp ∉ s.m_spawns.values
  | _ => True

theorem follow_perform_iff (toLower : QString → QString) (h : s.Sound) (e : Event) :
    follow (shown s.view.m_points) (s.perform toLower e).2 =
      shown (s.perform toLower e).1.view.m_points ↔ NamesPromoted s e := by
  cases e with
  | newSpawn now item =>
      refine iff_of_true ?_ trivial
      cases item with
      | none => rfl
      | some spawn => exact follow_checkSpawnPoint h now spawn
  | killSpawn o now id => exact iff_of_true (follow_killSpawn h o now id) trivial
  | setName csp name =>
      rw [SpawnMonitor.perform]
      cases csp with
      | none =>
          refine iff_of_true ?_ trivial
          split <;> rfl
      | some sp =>
          by_cases hlive : ∀ a ∈ some sp, a ∈ s.live
          · rw [if_pos hlive]
            obtain ⟨k, hs | hp⟩ := SpawnMonitor.mem_live.mp (hlive sp rfl)
            · refine iff_of_false (follow_setName_candidate h hs name) fun hnot => ?_
              exact hnot (Table.mem_values.mpr ⟨k, hs⟩)
            · refine iff_of_true (follow_setName h hp name) fun hmem => ?_
              obtain ⟨k', hs⟩ := Table.mem_values.mp hmem
              exact h.not_both hs hp
          · rw [if_neg hlive]
            refine iff_of_true rfl fun hmem => hlive fun a ha => ?_
            rw [← Option.some.inj ha]
            exact List.mem_append_left _ hmem
  | setSelected selected =>
      refine iff_of_true ?_ trivial
      rw [SpawnMonitor.perform]
      split
      · unfold SpawnMonitor.setSelected
        split <;> rfl
      · rfl
  | deleteSpawnPoint sp =>
      refine iff_of_true ?_ trivial
      rw [SpawnMonitor.perform]
      split
      · rename_i hlive
        obtain ⟨k, hheld⟩ := SpawnMonitor.mem_live.mp hlive
        exact follow_deleteSpawnPoint h hheld
      · rfl
  | zoneChanged a newZoneName => exact iff_of_true (follow_zoneChanged h a newZoneName) trivial
  | zoneEnd a newZoneName =>
      refine iff_of_true ?_ trivial
      rw [SpawnMonitor.perform, SpawnMonitor.zoneEnd_eq]
      exact follow_zoneChanged h a (toLower newZoneName)

end

/-! ## Runs -/

/-- The monitor and a client that has subscribed. -/
structure Served where
  monitor : SpawnMonitor
  client : PointClient

/-- A client subscribes: it gets the snapshot. -/
def subscribe (o : Table.Order) (s : SpawnMonitor) : Served where
  monitor := s
  client := PointClient.receive (fun _ => none) (snapshot o s)

section
variable (toLower : QString → QString)

/-- The monitor and the client's copy after an event. -/
def serve (t : Served) (e : Event) : Served where
  monitor := step toLower t.monitor e
  client := follow t.client (t.monitor.perform toLower e).2

/-- The client has exactly the promoted points, each as the daemon has it. -/
def Served.Mirrored (t : Served) : Prop :=
  ∀ k, t.client k =
    (t.monitor.m_points.lookup k).map fun a => fillSpawnPoint (t.monitor.object a) false

theorem mirrored_iff (t : Served) : t.Mirrored ↔ t.client = shown t.monitor.view.m_points := by
  have hshown : ∀ k, shown t.monitor.view.m_points k =
      (t.monitor.m_points.lookup k).map fun a => fillSpawnPoint (t.monitor.object a) false := by
    intro k
    unfold shown
    rw [lookup_view, Option.map_map]
    rfl
  constructor
  · intro h
    funext k
    rw [h k, hshown]
  · intro h k
    rw [h, hshown]

/-- For every run before a client subscribes and every run behind it: the client has the promoted
    points all along exactly when no candidate is renamed. -/
theorem points_replicated_iff (o : Table.Order) (before es : List Event) :
    (∀ t ∈ trace (serve toLower) (subscribe o (before.foldl (step toLower) .init)) es,
      t.Mirrored) ↔
      StepsMeet (serve toLower) (fun t e => NamesPromoted t.monitor e)
        (subscribe o (before.foldl (step toLower) .init)) es := by
  have hstep : ∀ (s : SpawnMonitor) (e : Event), s.Sound → (step toLower s e).Sound :=
    fun s e h => SpawnMonitor.sound_perform toLower h e
  have hsound : (before.foldl (step toLower) SpawnMonitor.init).Sound :=
    foldl_invariant (step toLower) hstep SpawnMonitor.init_sound before
  have hInv : ∀ (t : Served) (e : Event), t.monitor.Sound → (serve toLower t e).monitor.Sound :=
    fun t e h => hstep t.monitor e h
  have hexact : ∀ (t : Served) (e : Event), t.monitor.Sound → t.Mirrored →
      ((serve toLower t e).Mirrored ↔ NamesPromoted t.monitor e) := by
    intro t e h hm
    rw [mirrored_iff] at hm ⊢
    rw [← follow_perform_iff toLower h e, ← hm]
    rfl
  have hstart : (subscribe o (before.foldl (step toLower) SpawnMonitor.init)).Mirrored :=
    (mirrored_iff _).mpr (receive_snapshot hsound o fun _ => none)
  exact trace_forall_iff_stepsMeet (serve toLower) hInv hexact hsound hstart es

/-- A mob pops once and the candidate is renamed: the client has a point that is not promoted. -/
theorem candidate_announced : ¬ ∀ (es : List Event),
    ∀ t ∈ trace (serve id) (subscribe Table.Order.entries .init) es, t.Mirrored := by
  intro h
  let es : List Event := [.newSpawn 0 (some rat), .setName (some 0) ['x']]
  let t := es.foldl (serve id) (subscribe Table.Order.entries .init)
  have hmem : t ∈ trace (serve id) (subscribe Table.Order.entries .init) es :=
    (mem_trace_iff _ _ _ _).mpr ⟨es, [], (List.append_nil _).symm, rfl⟩
  have hmirrored := h es t hmem (SpawnPoint.keyOf 1 2 3)
  have hclient : (t.client (SpawnPoint.keyOf 1 2 3)).isSome = true := by decide
  have hpoints : t.monitor.m_points.lookup (SpawnPoint.keyOf 1 2 3) = none := by decide
  rw [hmirrored, hpoints] at hclient
  cases hclient

/-- `rename_spawn_point` looks the point up among the promoted ones. -/
def renameSpawnPoint (s : SpawnMonitor) (key newName : QString) : Event :=
  .setName (s.m_points.lookup key) newName

theorem renameSpawnPoint_promoted {s : SpawnMonitor} (h : s.Sound) (key newName : QString) :
    NamesPromoted s (renameSpawnPoint s key newName) := by
  unfold renameSpawnPoint
  cases hp : s.m_points.lookup key with
  | none => trivial
  | some sp =>
      intro hmem
      obtain ⟨k, hs⟩ := Table.mem_values.mp hmem
      exact h.not_both hs hp

end

end Owned

end ShoweqDaemon.SpawnPoints
