/-
  Which map a client gets with the name of a zone.

  `DaemonApp::loadZoneMap` hears `zoneBegin` alone. A message that names the zone is sent for
  `zoneBegin`, but also when the server changes the zone, for a new player id, and to a client that
  subscribes. `mapData_begun` says which map is loaded: that of the zone announced last, whatever
  was loaded before. `sent_maps_iff` says when every message has the map of the zone it names.

  Proved:
  * `named_zone`: the messages of an event that name a zone name the one that `ZoneMgr` is in
    then.
  * `stay_messages`: as long as the player stays in a zone of the table all messages have its map.
  * `sent_maps_iff`: over every run of the daemon, with any files behind the maps.
-/
import ShoweqDaemon.Daemon.Effect
import ShoweqDaemon.Daemon.Stay
import ShoweqDaemon.Map.ZoneFiles

namespace ShoweqDaemon.Spawns

open Machine
open Maps (Disk MapData MapGeometry MapQt)
open Preferences (XMLPreferences)

/-! ## Messages that name a zone -/

/-- The short zone name that a payload gives the client. -/
def Payload.zone? : Payload → Option QString
  | .snapshot zone_short _ _ _ => some zone_short
  | .zoneChanged zone_short _ => some zone_short
  | _ => none

/-- The zone that the client is told of, and the map it gets with it. -/
structure ZoneMessage where
  zone_short : QString
  geometry : Option MapGeometry
  deriving DecidableEq, Repr

section
variable (env : Env)

namespace Daemon

/-- The payloads of a step: a snapshot for a client that subscribes, and for one that is there what
    the signals of the step are turned into, in order. -/
def sentBy (d : Daemon) (e : Event) : List Payload :=
  (match e.packet with
    | .subscribe =>
        if d.session.m_subscribed then [] else [snapshot env e.order d.zone d.shell, .playerStats]
    | _ => []) ++
  if (d.sessionHandle env e).m_subscribed then
    (d.handle env e).2.flatMap (payloads env e.order (d.zoneAfter env e.packet))
  else []

theorem step_sent (d : Daemon) (e : Event) :
    (d.step env e).session.sent = d.session.sent ++ d.sentBy env e := by
  have hsignals : (d.step env e).session.sent = (d.sessionHandle env e).sent ++
      if (d.sessionHandle env e).m_subscribed then
        (d.handle env e).2.flatMap (payloads env e.order (d.zoneAfter env e.packet))
      else [] := by
    show ((d.sessionHandle env e).onSignals env e.order _ _).sent = _
    unfold Session.onSignals
    split
    · rfl
    · exact (List.append_nil _).symm
  have hhandle : (d.sessionHandle env e).sent = d.session.sent ++
      match e.packet with
      | .subscribe =>
          if d.session.m_subscribed then []
          else [snapshot env e.order d.zone d.shell, .playerStats]
      | _ => [] := by
    unfold sessionHandle
    cases e.packet with
    | subscribe =>
        dsimp only [Session.subscribe]
        split
        · exact (List.append_nil _).symm
        · rfl
    | _ => exact (List.append_nil _).symm
  rw [hsignals, hhandle, List.append_assoc]
  rfl

/-- The zones that a step names to the client. -/
def named (d : Daemon) (e : Event) : List QString := (d.sentBy env e).filterMap Payload.zone?

end Daemon

/-! ### The name is the one of `ZoneMgr` -/

/-- The signals that make the adapter name a zone. -/
def Signal.Naming (zone : ZoneMgr) : Signal → Prop
  | .zoneBegin shortName _ => shortName = zone.m_shortZoneName
  | _ => True

theorem payloads_zone {zone : ZoneMgr} {sg : Signal} (h : sg.Naming zone) (order : Table.Order) :
    ∀ z ∈ (payloads env order zone sg).filterMap Payload.zone?, z = zone.m_shortZoneName := by
  intro z hz
  obtain ⟨payload, hpayload, hzone⟩ := List.mem_filterMap.mp hz
  have honChange (item : Item) (changeType : UInt32) :
      (onChangeItem env item changeType).zone? = none := by
    unfold onChangeItem
    split
    · rfl
    · split <;> rfl
  cases sg with
  | changedID sh =>
      rcases List.mem_cons.mp hpayload with rfl | hpayload
      · exact (Option.some.inj hzone).symm
      · rw [List.mem_singleton.mp hpayload] at hzone
        cases hzone
  | zoneBegin shortName longName =>
      rw [List.mem_singleton.mp hpayload] at hzone
      exact (Option.some.inj hzone).symm.trans h
  | changeItem item changeType =>
      rw [List.mem_singleton.mp hpayload, honChange] at hzone
      cases hzone
  | playerChangeItem item changeType =>
      have hpayload' : payload = onChangeItem env item changeType := by
        rcases List.mem_cons.mp hpayload with h | h
        · exact h
        · exact List.mem_singleton.mp h
      rw [hpayload', honChange] at hzone
      cases hzone
  | clearItems => cases hpayload
  | addItem item =>
      rw [List.mem_singleton.mp hpayload] at hzone
      cases hzone
  | delItem item =>
      rw [List.mem_singleton.mp hpayload] at hzone
      cases hzone
  | killSpawn deceased killer killerId =>
      rw [List.mem_singleton.mp hpayload] at hzone
      cases hzone

/-- Only what clears the shell emits `zoneBegin`. -/
theorem naming_of_effect {sh : SpawnShell} {o : Out} {eff : Effect} (h : eff.Of sh o)
    (hclears : ∀ id announced, eff ≠ .clears id announced) (zone : ZoneMgr) :
    ∀ sg ∈ o.2, sg.Naming zone := by
  have hquiet {holdings : Holdings} {sg : Signal} (hsg : sg.Quiet holdings) : sg.Naming zone := by
    cases sg with
    | zoneBegin shortName longName => exact hsg.elim
    | _ => trivial
  cases eff with
  | quiet => exact fun sg hsg => hquiet (Quiet.signals h sg hsg)
  | adds type k id =>
      obtain ⟨x, hsignals, -⟩ := Adds.signals h
      intro sg hsg
      rw [hsignals] at hsg
      rw [List.mem_singleton.mp hsg]
      trivial
  | removes type k x =>
      intro sg hsg
      rw [Removes.signals h] at hsg
      rw [List.mem_singleton.mp hsg]
      trivial
  | renames p =>
      obtain ⟨sh', rest, hsignals, -, hrest, -⟩ := Renames.signals h
      have hevicted : ∀ sg ∈ sh.evicted p.m_ID, sg.Naming zone := by
        intro sg hsg
        unfold SpawnShell.evicted at hsg
        split at hsg
        · rw [List.mem_singleton.mp hsg]
          trivial
        · cases hsg
      intro sg hsg
      rw [hsignals] at hsg
      simp only [List.mem_append, List.mem_cons, List.not_mem_nil, or_false] at hsg
      rcases hsg with ((rfl | hsg) | rfl | rfl | rfl) | hsg
      · trivial
      · exact hevicted sg hsg
      · trivial
      · trivial
      · trivial
      · exact hquiet (hrest sg hsg)
  | clears id announced => exact absurd rfl (hclears id announced)

/-- The packets that clear the shell. -/
def Packet.Clears : Packet → Prop
  | .zonePlayer _ _ | .zoneChange _ _ | .zoneCheckpoint _ _ => True
  | _ => False

theorem effect_ne_clears (d : Daemon) {packet : Packet} (h : ¬ packet.Clears) (id : UInt16)
    (announced : Bool) : d.effect env packet ≠ .clears id announced := by
  intro heff
  cases packet with
  | zonePlayer profile loaded => exact h trivial
  | zoneChange zoneId dir => exact h trivial
  | zoneCheckpoint cp loaded => exact h trivial
  | _ =>
      -- an item more or less, or the player under another id
      simp only [Daemon.effect, SpawnShell.newSpawnEffect, SpawnShell.updateSpawnEffect,
        SpawnShell.newGroundItemEffect, SpawnShell.newDoorSpawnEffect,
        SpawnShell.deleteItemEffect, Player.setPlayerIDEffect] at heff
      repeat' split at heff
      all_goals cases heff

theorem zoneBegin_naming (sh : SpawnShell) (order : Table.Order) (zone : ZoneMgr)
    (loaded : FilterMgr) : ∀ sg ∈ (sh.zoneBegin env order zone loaded).2, sg.Naming zone := by
  intro sg hsg
  rw [(zoneBegin_eq env sh order zone loaded).2.2] at hsg
  simp only [List.mem_cons, List.not_mem_nil, or_false] at hsg
  rcases hsg with rfl | rfl | rfl
  · trivial
  · trivial
  · rfl

theorem handle_naming {d : Daemon} (hok : d.shell.holdings.Ok) (e : Event) :
    ∀ sg ∈ (d.handle env e).2, sg.Naming (d.zoneAfter env e.packet) := by
  by_cases hclears : e.packet.Clears
  · obtain ⟨order, packet⟩ := e
    cases packet with
    | zonePlayer profile loaded =>
        intro sg hsg
        unfold Daemon.handle at hsg
        rcases List.mem_append.mp hsg with hsg | hsg
        · split at hsg
          · exact zoneBegin_naming env d.shell order _ loaded sg hsg
          · cases hsg
        · rw [List.mem_singleton.mp hsg]
          trivial
    | zoneChange zoneId dir =>
        intro sg hsg
        unfold Daemon.handle at hsg
        dsimp only at hsg
        split at hsg
        · simp only [SpawnShell.zoneChanged, SpawnShell.clear, Out.andThen, List.mem_append,
            List.mem_cons, List.not_mem_nil, or_false] at hsg
          rcases hsg with (rfl | rfl) | rfl
          · trivial
          · trivial
          · rfl
        · cases hsg
    | zoneCheckpoint cp loaded =>
        intro sg hsg
        unfold Daemon.handle at hsg
        dsimp only at hsg
        split at hsg
        · cases hsg
        · exact zoneBegin_naming env d.shell order _ loaded sg hsg
    | _ => exact hclears.elim
  · exact naming_of_effect (handle_effect env hok e) (effect_ne_clears env d hclears) _

/-- A step that names a zone names the one of `ZoneMgr`, and no other. -/
theorem named_zone {d : Daemon} (hok : d.shell.holdings.Ok) (e : Event) :
    ∀ z ∈ d.named env e, z = (d.zoneAfter env e.packet).m_shortZoneName := by
  intro z hz
  unfold Daemon.named Daemon.sentBy at hz
  rw [List.filterMap_append] at hz
  rcases List.mem_append.mp hz with hz | hz
  · cases hpacket : e.packet with
    | subscribe =>
        rw [hpacket] at hz
        dsimp only at hz
        split at hz
        · cases hz
        · exact List.mem_singleton.mp hz
    | _ =>
        rw [hpacket] at hz
        cases hz
  · split at hz
    · rw [List.filterMap_flatMap] at hz
      obtain ⟨sg, hsg, hz⟩ := List.mem_flatMap.mp hz
      exact payloads_zone env (handle_naming env hok e sg hsg) e.order z hz
    · cases hz

end

/-! ## The map -/

/-- Where maps come from: the disk, the search path, and the preferences for colours. -/
structure MapSource (δ : Type) where
  qt : MapQt δ
  pSEQPrefs : XMLPreferences δ
  disk : Disk
  dirs : List QString

/-- The map that the files have for a zone. -/
def MapSource.zoneMap {δ : Type} (src : MapSource δ) (zone : QString) : MapData :=
  Maps.zoneMap src.disk src.qt src.pSEQPrefs src.dirs zone

/-- `loadZoneMap` with the files and preferences of the daemon. -/
def MapSource.loadZoneMap {δ : Type} (src : MapSource δ) (zone : QString) (data : MapData) :
    MapData :=
  (Maps.loadZoneMap src.disk src.qt src.pSEQPrefs src.dirs zone data).val

/-- The daemon with its map, and the messages that named a zone. -/
structure MapDaemon where
  daemon : Daemon
  m_mapData : MapData
  sent : List ZoneMessage

section
variable {δ : Type} (src : MapSource δ) (env : Env)

namespace MapDaemon

/-- `zoneBegin` reaches `loadZoneMap` before the adapter, which was connected later. -/
def step (d : MapDaemon) (e : Event) : MapDaemon :=
  let data :=
    if d.daemon.zone.emitsZoneBegin env e.packet then
      src.loadZoneMap (d.daemon.zoneAfter env e.packet).m_shortZoneName d.m_mapData
    else d.m_mapData
  { daemon := d.daemon.step env e
    m_mapData := data
    sent := d.sent ++ (d.daemon.named env e).map (ZoneMessage.mk · data.geometry) }

/-- The daemon at its start, with the map for the name that the zone has then. -/
def start (d : Daemon) : MapDaemon where
  daemon := d
  m_mapData := src.loadZoneMap d.zone.m_shortZoneName .construct
  sent := []

end MapDaemon

/-- The zone announced last, `zone` if none was. -/
def lastBegun (zone : QString) (d : Daemon) : List Event → QString
  | [] => zone
  | e :: es =>
      lastBegun
        (if d.zone.emitsZoneBegin env e.packet then (d.zoneAfter env e.packet).m_shortZoneName
          else zone)
        (d.step env e) es

/-- Whatever was loaded before, the map is that of the zone announced last. -/
theorem mapData_begun (es : List Event) (zone : QString) (d : Daemon) (sent : List ZoneMessage) :
    (es.foldl (MapDaemon.step src env) ⟨d, src.zoneMap zone, sent⟩).m_mapData =
      src.zoneMap (lastBegun env zone d es) := by
  induction es generalizing zone d sent with
  | nil => rfl
  | cons e es ih =>
      by_cases hbegins : d.zone.emitsZoneBegin env e.packet = true
      · have hstep : MapDaemon.step src env ⟨d, src.zoneMap zone, sent⟩ e =
            ⟨d.step env e, src.zoneMap (d.zoneAfter env e.packet).m_shortZoneName,
              (MapDaemon.step src env ⟨d, src.zoneMap zone, sent⟩ e).sent⟩ := by
          unfold MapDaemon.step
          rw [if_pos hbegins]
          rfl
        rw [List.foldl_cons, hstep, ih, lastBegun, if_pos hbegins]
      · have hstep : MapDaemon.step src env ⟨d, src.zoneMap zone, sent⟩ e =
            ⟨d.step env e, src.zoneMap zone,
              (MapDaemon.step src env ⟨d, src.zoneMap zone, sent⟩ e).sent⟩ := by
          unfold MapDaemon.step
          rw [if_neg hbegins]
        rw [List.foldl_cons, hstep, ih, lastBegun, if_neg hbegins]

/-! ## Every message -/

namespace MapDaemon

/-- The messages of a step. -/
def messages (d : MapDaemon) (e : Event) : List ZoneMessage :=
  (d.daemon.named env e).map (ZoneMessage.mk · (d.step src env e).m_mapData.geometry)

theorem run_daemon (d : MapDaemon) (es : List Event) :
    (es.foldl (step src env) d).daemon = es.foldl (Daemon.step env) d.daemon := by
  induction es generalizing d with
  | nil => rfl
  | cons e es ih => exact ih (d.step src env e)

theorem run_sent (d : MapDaemon) (es : List Event) :
    (es.foldl (step src env) d).sent =
      d.sent ++ (outputs (step src env) (messages src env) d es).flatten := by
  induction es generalizing d with
  | nil => exact (List.append_nil _).symm
  | cons e es ih =>
      rw [List.foldl_cons, ih, outputs, List.flatten_cons, ← List.append_assoc]
      rfl

end MapDaemon

/-! ### A stay -/

/-- In the zone `name`, with its map. -/
structure MapDaemon.In (name : QString) (d : MapDaemon) : Prop where
  zone : d.daemon.zone.At name
  map : d.m_mapData = src.zoneMap name
  ok : d.daemon.shell.holdings.Ok

variable {src env}

theorem MapDaemon.In.messages {name : QString} {d : MapDaemon} {e : Event}
    (h : (d.step src env e).In src name) (hok : d.daemon.shell.holdings.Ok) :
    ∀ m ∈ d.messages src env e, m = ⟨name, (src.zoneMap name).geometry⟩ := by
  intro m hm
  obtain ⟨z, hz, rfl⟩ := List.mem_map.mp hm
  have hname : z = name := (named_zone env hok e z hz).trans h.zone.1
  rw [hname, h.map]

theorem MapDaemon.In.step {zoneId : UInt32} {d : MapDaemon} {e : Event}
    (hnamed : ¬ Unnamed (env.zoneNameFromID zoneId.toUInt16))
    (h : d.In src (env.zoneNameFromID zoneId.toUInt16)) (hstays : Stays zoneId e.packet) :
    (d.step src env e).In src (env.zoneNameFromID zoneId.toUInt16) := by
  have hzone : (d.daemon.zoneAfter env e.packet).At (env.zoneNameFromID zoneId.toUInt16) := by
    obtain ⟨-, hat⟩ | ⟨shortName, longName, hnew⟩ | ⟨-, -, hsame⟩ :=
      zoneAfter_cases env d.daemon hstays
    · exact hat
    · have hat : (d.daemon.zone.zoneNew env shortName longName).At (settle _ _) :=
        zoneNew_at h.zone shortName longName
      rw [settle_named hnamed] at hat
      rw [hnew]
      exact hat
    · rw [hsame]
      exact h.zone
  refine ⟨hzone, ?_, step_ok env d.daemon e h.ok⟩
  unfold MapDaemon.step
  split
  · exact congrArg src.zoneMap hzone.1
  · exact h.map

/-- From the announced profile until the player leaves, every message has the zone's name and its
    map, whatever map there was before. -/
theorem stay_messages (player : Player) (filterMgr : FilterMgr) (guildMgr : GuildMgr)
    (createUnknownSpawns : Bool) (before : List Event) (stay : Stay env)
    (hstart : stay.start = before.foldl (Daemon.step env)
      (Daemon.init player filterMgr guildMgr createUnknownSpawns))
    (hnamed : ¬ Unnamed stay.tableName) (data : MapData) :
    let d : MapDaemon := ⟨stay.start, data, []⟩
    ∀ m ∈ ((stay.announcement :: stay.events).foldl (MapDaemon.step src env) d).sent,
      m = ⟨stay.tableName, (src.zoneMap stay.tableName).geometry⟩ := by
  intro d
  have hok : stay.start.shell.holdings.Ok := by
    rw [hstart]
    exact foldl_invariant (Daemon.step env) (step_ok env)
      (init_ok player filterMgr guildMgr createUnknownSpawns) before
  have hbegun : (d.step src env stay.announcement).In src stay.tableName := by
    refine ⟨stay.begun_at, ?_, step_ok env _ _ hok⟩
    have hbegins : stay.start.zone.emitsZoneBegin env stay.announcement.packet = true :=
      stay.announced
    unfold MapDaemon.step
    rw [if_pos hbegins]
    rfl
  -- what is sent so far, and what is sent from a state of the stay on
  have hrun (events : List Event) (hstays : ∀ e ∈ events, Stays stay.profile.zoneId e.packet)
      (d' : MapDaemon) (hin : d'.In src stay.tableName)
      (hsent : ∀ m ∈ d'.sent, m = ⟨stay.tableName, (src.zoneMap stay.tableName).geometry⟩) :
      ∀ m ∈ (events.foldl (MapDaemon.step src env) d').sent,
        m = ⟨stay.tableName, (src.zoneMap stay.tableName).geometry⟩ := by
    induction events generalizing d' with
    | nil => exact hsent
    | cons e events ih =>
        have hnext : (d'.step src env e).In src stay.tableName :=
          hin.step hnamed (hstays e List.mem_cons_self)
        refine ih (fun e' he' => hstays e' (List.mem_cons_of_mem e he')) _ hnext fun m hm => ?_
        rcases List.mem_append.mp hm with hold | hnew
        · exact hsent m hold
        · exact hnext.messages hin.ok m hnew
  exact hrun stay.events stay.stays _ hbegun (hbegun.messages hok)

/-- A stay in Qeynos, by a player whose client is there already. -/
def qeynosEnv : Env := { Env.ascii with zoneNameFromID := fun _ => "qeynos".toList }

/-- Files with a map of one zone. -/
def qeynosSource : MapSource Empty := ⟨.latin, {}, Maps.qeynosDisk, ["maps".toList]⟩

/-- A stay in that zone: the profile is announced, and the zone's own packet comes in behind it. -/
def qeynosStay : Stay qeynosEnv where
  start := [⟨.entries, .subscribe⟩].foldl (Daemon.step qeynosEnv)
    (Daemon.init { addr := 0, m_ID := 0 } .none (fun _ _ => []) false)
  order := .entries
  profile := { zoneId := 1 }
  loaded := .none
  announced := by decide +kernel
  events := [⟨.entries, .zoneNew [113] [81]⟩]
  stays e he := by
    rw [List.mem_singleton.mp he]
    trivial

theorem stay_messages_qeynos :
    let sent := ((qeynosStay.announcement :: qeynosStay.events).foldl
      (MapDaemon.step qeynosSource qeynosEnv) ⟨qeynosStay.start, .construct, []⟩).sent
    sent = List.replicate sent.length
      ⟨"qeynos".toList, (qeynosSource.zoneMap "qeynos".toList).geometry⟩ :=
  List.eq_replicate_of_mem (stay_messages _ _ _ _ _ qeynosStay rfl (by decide) .construct)

variable (src env) (player : Player) (filterMgr : FilterMgr) (guildMgr : GuildMgr)
  (createUnknownSpawns : Bool)

/-! ### A run -/

/-- Every message has the map of the zone it names, exactly when at every step that names one, the
    zone announced last has the same map. -/
theorem sent_maps_iff (es : List Event) :
    let d := Daemon.init player filterMgr guildMgr createUnknownSpawns
    (∀ m ∈ (es.foldl (MapDaemon.step src env) (.start src d)).sent,
        m.geometry = (src.zoneMap m.zone_short).geometry) ↔
      ∀ pre e post, es = pre ++ e :: post →
        (pre.foldl (Daemon.step env) d).named env e ≠ [] →
          (src.zoneMap (lastBegun env d.zone.m_shortZoneName d (pre ++ [e]))).geometry =
            (src.zoneMap ((pre ++ [e]).foldl (Daemon.step env) d).zone.m_shortZoneName).geometry := by
  intro d
  have hbegun (pre : List Event) (e : Event) : ((pre.foldl (MapDaemon.step src env)
      (.start src d)).step src env e).m_mapData =
        src.zoneMap (lastBegun env d.zone.m_shortZoneName d (pre ++ [e])) := by
    have h := mapData_begun src env (pre ++ [e]) d.zone.m_shortZoneName d []
    rw [List.foldl_append] at h
    exact h
  have hnamed (pre : List Event) (e : Event) :
      ∀ z ∈ (pre.foldl (Daemon.step env) d).named env e,
        z = ((pre ++ [e]).foldl (Daemon.step env) d).zone.m_shortZoneName := by
    have hok := foldl_invariant (Daemon.step env) (step_ok env)
      (init_ok player filterMgr guildMgr createUnknownSpawns) pre
    rw [List.foldl_append]
    exact named_zone env hok e
  rw [MapDaemon.run_sent]
  constructor
  · intro h pre e post hes hne
    obtain ⟨z, hz⟩ := List.exists_mem_of_ne_nil _ hne
    have hmem : ZoneMessage.mk z ((pre.foldl (MapDaemon.step src env)
        (.start src d)).step src env e).m_mapData.geometry ∈
          MapDaemon.messages src env (pre.foldl (MapDaemon.step src env) (.start src d)) e := by
      unfold MapDaemon.messages
      rw [MapDaemon.run_daemon]
      exact List.mem_map_of_mem hz
    have hgeometry := h _ (List.mem_append_right _ (List.mem_flatten.mpr
      ⟨_, (mem_outputs_iff _ _ _ _ _).mpr ⟨pre, e, post, hes, rfl⟩, hmem⟩))
    rw [← hbegun, ← hnamed pre e z hz]
    exact hgeometry
  · intro h m hm
    obtain ⟨ms, hms, hm⟩ := List.mem_flatten.mp ((List.mem_append.mp hm).resolve_left
      List.not_mem_nil)
    obtain ⟨pre, e, post, hes, rfl⟩ := (mem_outputs_iff _ _ _ _ _).mp hms
    unfold MapDaemon.messages at hm
    rw [MapDaemon.run_daemon] at hm
    obtain ⟨z, hz, rfl⟩ := List.mem_map.mp hm
    have hne : (pre.foldl (Daemon.step env) d).named env e ≠ [] := List.ne_nil_of_mem hz
    have hgeometry := h pre e post hes hne
    rw [← hbegun, ← hnamed pre e z hz] at hgeometry
    exact hgeometry

end

end ShoweqDaemon.Spawns
