/-
  When the client has the current fields of the spawns, in every run of the daemon.

  `Carries` collects the conditions of the handlers: a repeated entry of a spawn must say what is
  known, a level must be the one it has, a maximum of hit points must stay, a spawn that dies must
  be unknown, and no drop may go that has the id of a spawn. They are asked for spawns that are
  alone only. `fresh_runs` proves that they are exact: one step keeps the spawns shown exactly if it
  meets its condition (`call_fresh_iff`), so a run does. It also says that after every handler but
  those of drops and doors even a spawn that has just come under the id of something else is shown.
-/
import ShoweqDaemon.Session.Handlers

namespace ShoweqDaemon.Spawns

open Replica (Unambiguous)
open SpawnShell (refilterMap)

section
variable (env : Env) {sh : SpawnShell}

/-! ## Filters and guild tags -/

/-- Either a flag changes, and all is sent, or nothing changes. -/
theorem spawnWearingUpdate_exact (hok : sh.holdings.Ok) (spawnId : UInt16) :
    Exact env sh (sh.spawnWearingUpdate env spawnId) True := by
  unfold SpawnShell.spawnWearingUpdate
  cases hitem : sh.m_spawns.lookup (idKey spawnId) with
  | none => exact Exact.refl sh
  | some item =>
      dsimp only
      let s := (item.updateFilterFlags env sh.m_filterMgr).updateRuntimeFilterFlags env
        sh.m_filterMgr
      have hkey : (Item.spawn s).key = (Item.spawn item).key := rfl
      refine (Exact.announced hok hitem hkey _).of_iff (iff_of_true (fun _ => ?_) trivial)
      by_cases hflags : (item.updateFilterFlags env sh.m_filterMgr).m_filterFlags =
          item.m_filterFlags
      · have hfields : (Item.spawn item).fields = (Item.spawn s).fields := by
          show (Item.spawn item).fields = { (Item.spawn item).fields with
            filter_flags := (item.updateFilterFlags env sh.m_filterMgr).m_filterFlags }
          rw [hflags]
          rfl
        rw [if_neg (not_not.mpr hflags)]
        split
        · exact touch_full _ (by decide) _
        · rw [touch_nothing _ (by decide) (by decide) (by decide)]
          exact hfields
      · rw [if_pos hflags]
        split
        · exact touch_full _ (by decide) _
        · exact touch_full _ (by decide) _

theorem mem_refilterMap {α : Type} {order : Table.Order} {refilter : α → α} {flags : α → UInt32}
    {mk : α → Item} {c : UInt32} {m : Table Int α} {sg : Signal} :
    sg ∈ (refilterMap order refilter flags mk c m).2 ↔ ∃ k x, m.lookup k = some x ∧
      flags (refilter x) ≠ flags x ∧ sg = .changeItem (mk (refilter x)) c := by
  constructor
  · intro hsg
    obtain ⟨x, hx, hsome⟩ := List.mem_filterMap.mp hsg
    obtain ⟨k, hk⟩ := Table.mem_values.mp (order.mem_visit.mp hx)
    split at hsome
    · rename_i hflags
      exact ⟨k, x, hk, hflags, (Option.some.inj hsome).symm⟩
    · cases hsome
  · rintro ⟨k, x, hk, hflags, rfl⟩
    exact List.mem_filterMap.mpr
      ⟨x, order.mem_visit.mpr (Table.mem_values.mpr ⟨k, hk⟩), if_pos hflags⟩

/-- Both refilterings: a spawn without a signal keeps its fields. -/
theorem refilter_exact (hok : sh.holdings.Ok) (order : Table.Order) {fs : Spawn → Spawn}
    {fd fo : Fixture → Fixture} {gs : Spawn → UInt32} {gd : Fixture → UInt32} {c : UInt32}
    (hc : full c) (hkey : ∀ x, (Item.spawn (fs x)).key = (Item.spawn x).key)
    (hs : ∀ x, gs (fs x) = gs x → (Item.spawn (fs x)).fields = (Item.spawn x).fields) :
    let sh' : SpawnShell := { sh with
        m_spawns := (refilterMap order fs gs .spawn c sh.m_spawns).1
        m_drops := (refilterMap order fd gd .drop c sh.m_drops).1
        m_doors := (refilterMap order fo gd .door c sh.m_doors).1 }
    sh'.holdings = sh.holdings → Exact env sh (sh',
      (refilterMap order fs gs .spawn c sh.m_spawns).2 ++
        (refilterMap order fd gd .drop c sh.m_drops).2 ++
        (refilterMap order fo gd .door c sh.m_doors).2) True := by
  intro sh' hholdings order' zone copy hshown
  refine iff_of_true (announced_shown env order' zone (fun sg hsg => ?_) fun s' hs' halone => ?_)
    trivial
  · rcases List.mem_append.mp hsg with hsg | hsg
    · rcases List.mem_append.mp hsg with hsg | hsg
      · obtain ⟨k, x, hx, -, rfl⟩ := mem_refilterMap.mp hsg
        have hlookup : sh'.m_spawns.lookup k = some (fs x) :=
          (Table.lookup_mapValues fs sh.m_spawns k).trans (congrArg (Option.map fs) hx)
        exact ⟨_, c, ⟨.tSpawn, k, find_spawn hlookup⟩, hc, rfl⟩
      · obtain ⟨k, x, hx, -, rfl⟩ := mem_refilterMap.mp hsg
        have hlookup : sh'.m_drops.lookup k = some (fd x) :=
          (Table.lookup_mapValues fd sh.m_drops k).trans (congrArg (Option.map fd) hx)
        exact ⟨_, c, ⟨.tDrop, k, find_drop hlookup⟩, hc, rfl⟩
    · obtain ⟨k, x, hx, -, rfl⟩ := mem_refilterMap.mp hsg
      have hlookup : sh'.m_doors.lookup k = some (fo x) :=
        (Table.lookup_mapValues fo sh.m_doors k).trans (congrArg (Option.map fo) hx)
      exact ⟨_, c, ⟨.tDoors, k, find_door hlookup⟩, hc, rfl⟩
  · obtain ⟨k, hk⟩ := holds_cases hs'
    obtain ⟨s, hsk, rfl⟩ := Option.map_eq_some_iff.mp
      ((Table.lookup_mapValues fs sh.m_spawns k).symm.trans hk)
    by_cases hflags : gs (fs s) = gs s
    · left
      have hold : sh.Holds (.spawn s) := ⟨.tSpawn, k, find_spawn hsk⟩
      have hid : (fs s).m_ID = s.m_ID := congrArg Prod.fst (hkey s)
      rw [hid, hs s hflags]
      exact hshown s hold (alone_of_held hok hold (hkey s) (fun a ha => hholdings.symm ▸ ha) halone)
    · exact Or.inr ⟨c, List.mem_append_left _ (List.mem_append_left _
        (mem_refilterMap.mpr ⟨k, s, hsk, hflags, rfl⟩))⟩

theorem refilterSpawns_exact (hok : sh.holdings.Ok) (order : Table.Order) :
    Exact env sh (sh.refilterSpawns env order) True := by
  refine refilter_exact env hok order full_filter (fun _ => rfl) (fun x h => ?_)
    (refilterSpawns_quiet env sh order).holdings
  show { (Item.spawn x).fields with
    filter_flags := (x.updateFilterFlags env sh.m_filterMgr).m_filterFlags } = _
  rw [h]
  rfl

theorem refilterSpawnsRuntime_exact (hok : sh.holdings.Ok) (order : Table.Order) :
    Exact env sh (sh.refilterSpawnsRuntime env order) True :=
  refilter_exact env hok order full_runtimeFilter (fun _ => rfl) (fun _ _ => rfl)
    (refilterSpawnsRuntime_quiet env sh order).holdings

/-- The values of a map change as the items do. -/
theorem map_lookup_mapValues {α : Type} (m : Table Int α) (f : α → α) (mk : α → Item)
    (φ : Item → Item) (hφ : ∀ x, φ (mk x) = mk (f x)) (k : Int) :
    ((m.mapValues f).lookup k).map mk = ((m.lookup k).map mk).map φ := by
  rw [Table.lookup_mapValues]
  cases m.lookup k with
  | none => rfl
  | some x => exact congrArg some (hφ x).symm

theorem map_lookup_same {α : Type} (m : Table Int α) (mk : α → Item) (φ : Item → Item)
    (hφ : ∀ x, φ (mk x) = mk x) (k : Int) :
    (m.lookup k).map mk = ((m.lookup k).map mk).map φ := by
  cases m.lookup k with
  | none => rfl
  | some x => exact congrArg some (hφ x).symm

/-- The spawn belongs to the guild. -/
def Spawn.isMember (s : Spawn) (guildId : UInt32) : Bool := guildId = s.m_guildID.toUInt32

/-- The spawn with the tag that its guild has now. -/
def SpawnShell.tagged (sh : SpawnShell) (s : Spawn) : Spawn :=
  { s with m_guildTag := sh.m_guildMgr s.m_guildID s.m_guildServerID }

/-- What `updateGuildTag` makes of an item: a member of the guild is tagged anew, all others stay.
    -/
def SpawnShell.retag (sh : SpawnShell) (guildId : UInt32) : Item → Item
  | .spawn s => .spawn (if s.isMember guildId then sh.tagged s else s)
  | .drop d => .drop d
  | .door d => .door d
  | .player p =>
      .player (if p.toSpawn.isMember guildId then { p with toSpawn := sh.tagged p.toSpawn } else p)

/-- No field of a message is a guild tag. -/
theorem retag_same (sh : SpawnShell) (guildId : UInt32) (x : Item) :
    (sh.retag guildId x).key = x.key ∧ (sh.retag guildId x).fields = x.fields := by
  cases x with
  | spawn s =>
      simp only [SpawnShell.retag]
      split <;> exact ⟨rfl, rfl⟩
  | drop d => exact ⟨rfl, rfl⟩
  | door d => exact ⟨rfl, rfl⟩
  | player p =>
      simp only [SpawnShell.retag]
      split <;> exact ⟨rfl, rfl⟩

theorem find_updateGuildTag (sh : SpawnShell) (order : Table.Order) (guildId : UInt32)
    (t : SpawnItemType) (k : Int) :
    (sh.updateGuildTag order guildId).1.find t k = (sh.find t k).map (sh.retag guildId) := by
  cases t with
  | tSpawn => exact map_lookup_mapValues sh.m_spawns _ .spawn _ (fun _ => rfl) k
  | tDrop => exact map_lookup_same sh.m_drops .drop _ (fun _ => rfl) k
  | tDoors => exact map_lookup_same sh.m_doors .door _ (fun _ => rfl) k
  | tPlayer =>
      show (sh.m_players.lookup k).map _ = ((sh.m_players.lookup k).map _).map _
      cases sh.m_players.lookup k <;> rfl

theorem updateGuildTag_signals (hok : sh.holdings.Ok) {order : Table.Order} {guildId : UInt32}
    {sg : Signal} (hsg : sg ∈ (sh.updateGuildTag order guildId).2) :
    ∃ x, sh.Holds x ∧ sg = .changeItem (sh.retag guildId x) tSpawnChangedALL := by
  rcases List.mem_append.mp hsg with hsg | hsg
  · obtain ⟨s, hs, hsome⟩ := List.mem_filterMap.mp hsg
    obtain ⟨k, hk⟩ := Table.mem_values.mp (order.mem_visit.mp hs)
    split at hsome
    · rename_i hmember
      refine ⟨.spawn s, ⟨.tSpawn, k, find_spawn hk⟩, ?_⟩
      have hretag : sh.retag guildId (.spawn s) = .spawn (sh.tagged s) :=
        congrArg Item.spawn (if_pos hmember)
      rw [hretag]
      exact (Option.some.inj hsome).symm
    · cases hsome
  · obtain ⟨u, -, hsome⟩ := List.mem_filterMap.mp hsg
    split at hsome
    · rename_i hmember
      refine ⟨.player sh.m_player, holds_player hok, ?_⟩
      have hretag : sh.retag guildId (.player sh.m_player) =
          .player { sh.m_player with toSpawn := sh.tagged sh.m_player.toSpawn } :=
        congrArg Item.player (if_pos hmember)
      rw [hretag]
      exact (Option.some.inj hsome).symm
    · cases hsome

theorem updateGuildTag_exact (hok : sh.holdings.Ok) (order : Table.Order) (guildId : UInt32) :
    Exact env sh (sh.updateGuildTag order guildId) True := by
  intro order' zone copy hshown
  have hfind := find_updateGuildTag sh order guildId
  have hholdings := (updateGuildTag_quiet hok order guildId).holdings
  refine iff_of_true (announced_shown env order' zone (fun sg hsg => ?_) fun s' hs' halone => ?_)
    trivial
  · obtain ⟨x, ⟨t, k, hx⟩, rfl⟩ := updateGuildTag_signals hok hsg
    exact ⟨_, tSpawnChangedALL, ⟨t, k, by rw [hfind, hx]; rfl⟩, full_ALL, rfl⟩
  · obtain ⟨k, hk⟩ := holds_cases hs'
    obtain ⟨x, hx, hretag⟩ := Option.map_eq_some_iff.mp
      ((hfind .tSpawn k).symm.trans (find_spawn hk))
    obtain ⟨s, -, rfl⟩ := Option.map_eq_some_iff.mp hx
    obtain ⟨hkey, hfields⟩ := retag_same sh guildId (.spawn s)
    rw [hretag] at hkey hfields
    have hold : sh.Holds (.spawn s) := ⟨.tSpawn, k, hx⟩
    have hid : s'.m_ID = s.m_ID := congrArg Prod.fst hkey
    left
    rw [hid, hfields]
    exact hshown s hold (alone_of_held hok hold hkey (fun a ha => hholdings.symm ▸ ha) halone)

/-! ## Every event -/

namespace Daemon

/-- The packets whose handlers change fields that no message carries, or take away an entry. -/
def Carries (d : Daemon) : Packet → Prop
  | .zoneEntry s => d.shell.isSelf env s = false →
      ∀ item ∈ d.shell.m_spawns.lookup (idKey s.spawnId), d.shell.Alone item → s.Repeats env item
  | .updateSpawnAppearance spawnId type parameter => type = 1 →
      ∀ item ∈ d.shell.m_spawns.lookup (idKey spawnId), d.shell.Alone item →
        item.m_level = parameter.toInt32
  | .updateNpcHP spawnId _ maxHP =>
      ∀ item ∈ d.shell.m_spawns.lookup (intKey spawnId), d.shell.Alone item →
        item.m_maxHP = maxHP
  | .killSpawn spawnId _ =>
      ∀ item ∈ d.shell.m_spawns.lookup (idKey spawnId), ¬ d.shell.Alone item
  | .removeGroundItem dropId => d.zone.m_zoning = false →
      ∀ drop ∈ d.shell.m_drops.lookup (intKey dropId), ¬ d.shell.Covers drop
  | _ => True

end Daemon

theorem unlessZoning_exact {d : Daemon} {o : Out} {C : Prop} (h : Exact env d.shell o C) :
    Exact env d.shell (d.unlessZoning o) (d.zone.m_zoning = false → C) := by
  unfold Daemon.unlessZoning
  by_cases hz : d.zone.m_zoning = true
  · rw [if_pos hz]
    exact (Exact.refl d.shell).of_iff (by simp [hz])
  · rw [if_neg hz]
    exact h.of_iff (by simp [hz])

theorem handle_exact {d : Daemon} (hok : d.shell.holdings.Ok) (e : Event) :
    Exact env d.shell (d.handle env e) (d.Carries env e.packet) := by
  have hunless {o : Out} (h : Exact env d.shell o True) :
      Exact env d.shell (d.unlessZoning o) True :=
    (unlessZoning_exact env h).of_iff (iff_of_true (fun _ => trivial) trivial)
  obtain ⟨order, packet⟩ := e
  cases packet with
  | zonePlayer profile loaded =>
      unfold Daemon.handle
      dsimp only
      split
      · exact Exact.cleared (zoneBegin_profile_clears env d.shell order _ loaded profile)
      · exact (Exact.refl d.shell).andThen (playerProfile_exact env hok profile)
  | zoneChange zoneId dir =>
      unfold Daemon.handle
      dsimp only
      split
      · exact Exact.cleared (zoneChanged_clears d.shell _)
      · exact Exact.refl d.shell
  | zoneCheckpoint cp loaded =>
      unfold Daemon.handle
      dsimp only
      split
      · exact Exact.refl d.shell
      · exact Exact.cleared (zoneBegin_clears env d.shell order _ loaded)
  | playerCheckpoint cp => exact playerCheckpoint_exact env hok cp
  | newGroundItem ds => exact hunless (newGroundItem_exact env hok ds)
  | removeGroundItem dropId => exact unlessZoning_exact env (removeGroundItem_exact env hok dropId)
  | newDoorSpawn door => exact newDoorSpawn_exact env hok door
  | zoneEntry s => exact zoneEntry_exact env hok s
  | zoneSpawn s => exact newSpawn_exact env hok s
  | newSpawn s => exact hunless (newSpawn_exact env hok s)
  | updateSpawn u => exact hunless (updateSpawn_exact env hok _)
  | clientUpdate dir u => exact clientUpdate_exact env hok d.zone.m_zoning dir u
  | updateNpcHP spawnId curHP maxHP => exact updateNpcHP_exact env hok spawnId curHP maxHP
  | deleteSpawn spawnId => exact deleteSpawn_exact env hok spawnId
  | illusionSpawn spawnId race => exact illusionSpawn_exact env hok spawnId race
  | updateSpawnAppearance spawnId type parameter =>
      exact updateSpawnAppearance_exact env hok spawnId type parameter
  | killSpawn spawnId killerId => exact killSpawn_exact env hok spawnId killerId
  | filtersChanged loaded =>
      let sh' : SpawnShell := { d.shell with m_filterMgr := loaded }
      have hok' : sh'.holdings.Ok := hok
      exact refilterSpawns_exact env hok' order
  | runtimeFiltersChanged loaded =>
      let sh' : SpawnShell := { d.shell with m_filterMgr := loaded }
      have hok' : sh'.holdings.Ok := hok
      exact refilterSpawnsRuntime_exact env hok' order
  | guildTagUpdated guildMgr guildId =>
      let sh' : SpawnShell := { d.shell with m_guildMgr := guildMgr }
      have hok' : sh'.holdings.Ok := hok
      exact updateGuildTag_exact env hok' order guildId
  | zoneEntryClient => exact Exact.refl d.shell
  | zoneNew shortName longName => exact Exact.refl d.shell
  | addGroupMember data => exact Exact.refl d.shell
  | removeGroupMember membername => exact Exact.refl d.shell
  | subscribe => exact Exact.refl d.shell

/-! ## Steps -/

namespace Daemon

/-- The client's entry under the spawn's id has the current values. -/
def Shows (d : Daemon) (s : Spawn) : Prop :=
  ∃ m, Client.after d.session.sent s.m_ID = some m ∧ m.fields = (Item.spawn s).fields

/-- After the Subscribe every spawn whose id no other item has is shown. -/
def Fresh (d : Daemon) : Prop :=
  d.session.m_subscribed = true → ∀ s, d.shell.Holds (.spawn s) → d.shell.Alone s → d.Shows s

theorem shows_iff (d : Daemon) (s : Spawn) : d.Shows s ↔
    (Client.after d.session.sent).fields s.m_ID = some (Item.spawn s).fields :=
  Option.map_eq_some_iff.symm

theorem fresh_iff (d : Daemon) : d.Fresh ↔
    (d.session.m_subscribed = true → Shown (Client.after d.session.sent).fields d.shell) := by
  unfold Fresh Shown
  simp only [shows_iff]

variable {env}

/-- An exact operation of a shell whose signals a subscribed session sends. -/
theorem sent_fresh_iff {d d' : Daemon} (hsub : d.session.m_subscribed = true) (h : d.Fresh)
    {o : Out} {C : Prop} (hexact : Exact env d.shell o C) (order : Table.Order) (zone : ZoneMgr)
    (hshell : d'.shell = o.1) (hsession : d'.session = { d.session with
      sent := d.session.sent ++ o.2.flatMap (payloads env order zone) }) : d'.Fresh ↔ C := by
  rw [fresh_iff] at h ⊢
  rw [hshell, hsession, Client.after_append_fields]
  have hstep := hexact order zone _ (h hsub)
  exact ⟨fun h' => hstep.mp (h' hsub), fun hC _ => hstep.mpr hC⟩

theorem step_fresh_iff {d : Daemon} (hok : d.shell.holdings.Ok) (h : d.Fresh) (e : Event) :
    (d.step env e).Fresh ↔ (d.session.m_subscribed = true → d.Carries env e.packet) := by
  by_cases hsub : d.session.m_subscribed = true
  · rw [forall_prop_of_true hsub]
    exact sent_fresh_iff hsub h (handle_exact env hok e) e.order _ rfl (step_session env hsub e)
  · refine iff_of_true ?_ fun h' => absurd h' hsub
    rcases step_unsubscribed env hsub e with ⟨-, hshell, hsession⟩ | ⟨-, hsub'⟩
    · rw [fresh_iff, hshell, hsession, Client.after_append_fields]
      intro _
      exact snapshot_shown env e.order d.zone hok (Client.after d.session.sent).fields
    · exact fun h' => absurd h' hsub'

end Daemon

/-! ## Calls -/

/-- An event, or the handler for worn items, which no packet reaches. -/
inductive Call where
  | event (e : Event)
  | spawnWearingUpdate (order : Table.Order) (spawnId : UInt16)

namespace Daemon

/-- The daemon after `spawnWearingUpdate`, which no packet reaches. -/
def wear (d : Daemon) (order : Table.Order) (spawnId : UInt16) : Daemon where
  shell := (d.shell.spawnWearingUpdate env spawnId).1
  zone := d.zone
  group := (d.shell.spawnWearingUpdate env spawnId).2.foldl GroupMgr.onSignal d.group
  session := d.session.onSignals env order d.zone (d.shell.spawnWearingUpdate env spawnId).2

/-- The daemon after a call. -/
def call (d : Daemon) : Call → Daemon
  | .event e => d.step env e
  | .spawnWearingUpdate order spawnId => d.wear env order spawnId

/-- What the call sends carries every field it changes of a spawn that is alone. -/
def Tells (d : Daemon) : Call → Prop
  | .event e => d.session.m_subscribed = true → d.Carries env e.packet
  | .spawnWearingUpdate _ _ => True

theorem wear_holdings (d : Daemon) (order : Table.Order) (spawnId : UInt16) :
    (d.wear env order spawnId).shell.holdings = d.shell.holdings := by
  show (d.shell.spawnWearingUpdate env spawnId).1.holdings = _
  unfold SpawnShell.spawnWearingUpdate
  cases hitem : d.shell.m_spawns.lookup (idKey spawnId) with
  | none => rfl
  | some item => exact (sets_spawn_here d.shell _ _).holdings (find_spawn hitem) rfl rfl

theorem call_ok (d : Daemon) (c : Call) (hok : d.shell.holdings.Ok) :
    (d.call env c).shell.holdings.Ok := by
  cases c with
  | event e => exact step_ok env d e hok
  | spawnWearingUpdate order spawnId => exact wear_holdings env d order spawnId ▸ hok

theorem call_fresh_iff {d : Daemon} (hok : d.shell.holdings.Ok) (h : d.Fresh) (c : Call) :
    (d.call env c).Fresh ↔ d.Tells env c := by
  cases c with
  | event e => exact step_fresh_iff hok h e
  | spawnWearingUpdate order spawnId =>
      let o := d.shell.spawnWearingUpdate env spawnId
      by_cases hsub : d.session.m_subscribed = true
      · exact sent_fresh_iff hsub h (spawnWearingUpdate_exact env hok spawnId) order d.zone rfl
          (if_pos hsub)
      · have hsession : (d.wear env order spawnId).session = d.session := if_neg hsub
        refine iff_of_true (fun hsub' => ?_) trivial
        exact absurd (hsession ▸ hsub') hsub

end Daemon

/-! ## Spawns that have just come -/

/-- Where no two items shared an id, an operation that adds a spawn at most leaves every spawn
    alone but the one it has just announced. -/
theorem Effect.Of.alone_or_added {o : Out} {eff : Effect} (h : eff.Of sh o)
    (hok : sh.holdings.Ok) (hun : Unambiguous sh.holdings.Held)
    (htype : ∀ type k id, eff = .adds type k id → type = .tSpawn) {s : Spawn}
    (hs : o.1.Holds (.spawn s)) : o.1.Alone s ∨ o.2 = [.addItem (.spawn s)] := by
  have hok' := h.ok hok
  have hheld : o.1.holdings.Held s.m_ID s.addr := held_iff.mpr ⟨_, hs, rfl, rfl⟩
  rw [alone_iff hok' hs]
  cases eff with
  | quiet =>
      left
      intro a ha
      rw [Quiet.holdings h] at ha hheld
      exact hun s.m_ID a s.addr ha hheld
  | removes type k x =>
      have hsub : ∀ a, o.1.holdings.Held s.m_ID a → sh.holdings.Held s.m_ID a := by
        rintro a ⟨t, k', hat⟩
        rw [Removes.holdings h, Holdings.remove_at] at hat
        split at hat
        · cases hat
        · exact ⟨t, k', hat⟩
      exact Or.inl fun a ha => hun s.m_ID a s.addr (hsub a ha) (hsub _ hheld)
  | clears id announced => exact absurd hs (Clears.not_holds h s)
  | renames p =>
      left
      have hlookup := (holds_spawn hok').mp hs
      have hat : (sh.holdings.rename p.m_ID).at_ .tSpawn (idKey s.m_ID) = some (s.m_ID, s.addr) :=
        Renames.holdings h ▸ holdings_at.mpr ⟨_, find_spawn hlookup, rfl⟩
      obtain ⟨ht, -⟩ | ⟨-, hat, hne⟩ := Holdings.rename_at hat
      · cases ht
      · rintro a ⟨t, k', hat'⟩
        rw [Renames.holdings h] at hat'
        obtain ⟨-, -, hid, -⟩ | ⟨-, hat', -⟩ := Holdings.rename_at hat'
        · exact absurd (congrArg idKey hid) (hne rfl)
        · exact hun s.m_ID a s.addr ⟨t, k', hat'⟩ ⟨_, _, hat⟩
  | adds type k id =>
      obtain rfl := htype type k id rfl
      obtain ⟨x, hsignals, hfind⟩ := Adds.stored h
      by_cases hid : s.m_ID = id
      · right
        have hlookup := (holds_spawn hok').mp hs
        rw [hid, ← Adds.key_eq h rfl] at hlookup
        rw [hsignals, Option.some.inj (hfind.symm.trans (find_spawn hlookup))]
      · left
        have hold : ∀ a, o.1.holdings.Held s.m_ID a → sh.holdings.Held s.m_ID a := by
          intro a ha
          rw [Adds.holdings h, Holdings.held_add (Adds.free h)] at ha
          exact ha.resolve_right fun hnew => hid hnew.1
        exact fun a ha => hun s.m_ID a s.addr (hold a ha) (hold _ hheld)

/-- The handlers by which drops and doors come. -/
def Call.bringsFixture : Call → Bool
  | .event ⟨_, .newGroundItem _⟩ | .event ⟨_, .newDoorSpawn _⟩ => true
  | _ => false

namespace Daemon

theorem effect_adds_spawn {d : Daemon} {e : Event} (h : (Call.event e).bringsFixture = false)
    {type : SpawnItemType} {k : Int} {id : UInt16}
    (heff : d.effect env e.packet = .adds type k id) : type = .tSpawn := by
  obtain ⟨order, packet⟩ := e
  unfold effect at heff
  cases packet with
  | newGroundItem ds => cases h
  | newDoorSpawn door => cases h
  | _ =>
      grind [SpawnShell.newSpawnEffect, SpawnShell.updateSpawnEffect,
        SpawnShell.deleteItemEffect, Player.setPlayerIDEffect]

/-- If no two items shared an id, every spawn is shown after the call, also one that has come under
    the id of something else. -/
def ShowsAll (d : Daemon) (c : Call) : Prop :=
  d.session.m_subscribed = true → (∀ x y, d.shell.Holds x → d.shell.Holds y → x.id = y.id → x = y) →
    c.bringsFixture = false → ∀ s, (d.call env c).shell.Holds (.spawn s) → (d.call env c).Shows s

theorem showsAll_of_fresh {d : Daemon} (hok : d.shell.holdings.Ok) {c : Call}
    (hfresh : (d.call env c).Fresh) : d.ShowsAll env c := by
  intro hsub hdistinct hbrings s hs
  have hun := (unambiguous_iff hok).mpr hdistinct
  cases c with
  | event e =>
      have hsession := step_session env hsub e
      rcases (handle_effect env hok e).alone_or_added hok hun
        (fun _ _ _ => effect_adds_spawn env hbrings) hs with halone | hadded
      · exact hfresh ((congrArg Session.m_subscribed hsession).trans hsub) s hs halone
      · rw [shows_iff]
        show (Client.after (d.step env e).session.sent).fields s.m_ID = _
        rw [hsession, Client.after_append_fields, hadded]
        show view env e.order _ _ [.addItem (.spawn s)] s.m_ID = _
        rw [view_addItem]
        exact Function.update_self ..
  | spawnWearingUpdate order spawnId =>
      have hsession : (d.wear env order spawnId).session = _ := if_pos hsub
      refine hfresh ((congrArg Session.m_subscribed hsession).trans hsub) s hs ?_
      refine (alone_iff (call_ok env d _ hok) hs).mpr fun a ha => ?_
      have hheld : (d.wear env order spawnId).shell.holdings.Held s.m_ID s.addr :=
        held_iff.mpr ⟨_, hs, rfl, rfl⟩
      have ha' : (d.wear env order spawnId).shell.holdings.Held s.m_ID a := ha
      rw [wear_holdings] at ha' hheld
      exact hun s.m_ID a s.addr ha' hheld

end Daemon

end

/-- In every run of the daemon: after every call a subscribed client has the current fields of each
    spawn whose id no other item has, and after every call but those that bring drops and doors it
    has those of all spawns if no two items shared an id before it, exactly when every call tells
    what it changes. -/
theorem fresh_runs (env : Env) (player : Player) (filterMgr : FilterMgr) (guildMgr : GuildMgr)
    (createUnknownSpawns : Bool) (cs : List Call) :
    let start := Daemon.init player filterMgr guildMgr createUnknownSpawns
    (∀ d ∈ Machine.trace (Daemon.call env) start cs, d.Fresh) ∧
        Machine.StepsMeet (Daemon.call env) (Daemon.ShowsAll env) start cs ↔
      Machine.StepsMeet (Daemon.call env) (Daemon.Tells env) start cs := by
  intro start
  refine Machine.trace_forall_and_iff_stepsMeet (Daemon.call env) (Daemon.call_ok env)
    (fun d c hok hfresh => ?_) (init_ok player filterMgr guildMgr createUnknownSpawns)
    (fun hsub => nomatch hsub) cs
  have hstep := Daemon.call_fresh_iff env hok hfresh c
  exact ⟨fun h => hstep.mp h.1, fun h => ⟨hstep.mpr h,
    Daemon.showsAll_of_fresh env hok (hstep.mpr h)⟩⟩

/-- A shell with one spawn and nothing on the ground. -/
theorem holds_single {sh : SpawnShell} {s : Spawn} (hs : sh.m_spawns.values = [s])
    (hdrops : sh.m_drops.values = []) (hdoors : sh.m_doors.values = []) {x : Item}
    (hx : sh.Holds x) : x = .spawn s ∨ x = .player sh.m_player := by
  have hcases := holds_cases hx
  cases x with
  | spawn s' =>
      have hmem := Table.mem_values.mpr hcases
      rw [hs, List.mem_singleton] at hmem
      exact Or.inl (congrArg Item.spawn hmem)
  | drop d =>
      have hmem := Table.mem_values.mpr hcases
      rw [hdrops] at hmem
      cases hmem
  | door d =>
      have hmem := Table.mem_values.mpr hcases
      rw [hdoors] at hmem
      cases hmem
  | player p => exact Or.inr (congrArg Item.player hcases)

/-- A spawn gets a new level by its appearance: the client keeps the old one. -/
theorem appearance_leaves_old_level :
    ¬ ∀ (env : Env) (player : Player) (filterMgr : FilterMgr) (guildMgr : GuildMgr)
      (createUnknownSpawns : Bool) (cs : List Call),
      ∀ d ∈ Machine.trace (Daemon.call env)
          (Daemon.init player filterMgr guildMgr createUnknownSpawns) cs,
        d.session.m_subscribed = true →
        (∀ x y, d.shell.Holds x → d.shell.Holds y → x.id = y.id → x = y) →
        ∀ s, d.shell.Holds (.spawn s) →
          ∃ m, Client.after d.session.sent s.m_ID = some m ∧ m.fields = (Item.spawn s).fields := by
  intro h
  let cs : List Call := [.event ⟨.entries, .subscribe⟩,
    .event ⟨.entries, .newSpawn { spawnId := 5, npc := SPAWN_NPC, level := 10 }⟩,
    .event ⟨.entries, .updateSpawnAppearance 5 1 20⟩]
  let start := Daemon.init { addr := 0, m_ID := 0 } .none (fun _ _ => []) false
  let last := cs.foldl (Daemon.call .ascii) start
  have hlast := h .ascii { addr := 0, m_ID := 0 } .none (fun _ _ => []) false cs
    last ((Machine.mem_trace_iff (Daemon.call .ascii) start last cs).mpr ⟨cs, [], by simp, rfl⟩)
  have hsub : last.session.m_subscribed = true := by decide +kernel
  have hspawns : last.shell.m_spawns.values.map (fun s => (s.m_ID, s.m_level)) = [(5, 20)] := by
    decide +kernel
  have hdrops : last.shell.m_drops.values.length = 0 := by decide +kernel
  have hdoors : last.shell.m_doors.values.length = 0 := by decide +kernel
  have hplayer : last.shell.m_player.m_ID = 0 := by decide +kernel
  have hold : (Client.after last.session.sent 5).map (fun m => m.level) = some 10 := by
    decide +kernel
  obtain ⟨s, hs, hvalues⟩ := List.map_eq_singleton_iff.mp hspawns
  obtain ⟨hid, hlevel⟩ := Prod.mk.inj hvalues
  have honly {x : Item} : last.shell.Holds x → x = .spawn s ∨ x = .player last.shell.m_player :=
    holds_single hs (List.length_eq_zero_iff.mp hdrops) (List.length_eq_zero_iff.mp hdoors)
  have hne : (Item.spawn s).id ≠ (Item.player last.shell.m_player).id := by
    show s.m_ID ≠ last.shell.m_player.m_ID
    rw [hid, hplayer]
    decide
  have hun : ∀ x y, last.shell.Holds x → last.shell.Holds y → x.id = y.id → x = y := by
    intro x y hx hy heq
    rcases honly hx with rfl | rfl <;> rcases honly hy with rfl | rfl
    · rfl
    · exact absurd heq hne
    · exact absurd heq.symm hne
    · rfl
  have hheld : last.shell.Holds (.spawn s) := by
    obtain ⟨k, hk⟩ := Table.mem_values.mp (hs ▸ List.mem_singleton_self s)
    exact ⟨.tSpawn, k, find_spawn hk⟩
  obtain ⟨m, hm, hfields⟩ := hlast hsub hun s hheld
  rw [hid] at hm
  rw [hm] at hold
  have hnew : m.level = 20 := (congrArg SpawnFields.level hfields).trans hlevel
  exact absurd (hnew.symm.trans (Option.some.inj hold)) (by decide)

end ShoweqDaemon.Spawns
