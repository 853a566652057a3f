/-
  What an event does to the items that the shell holds, and that every run keeps them in order.

  `Daemon.effect` reads the effect off the state before the event: nothing, one item more or less,
  the player under a new id, or everything gone but the player. `handle_effect` proves it of the
  handlers; so the daemon refines the machine on `Holdings` whose steps are the effects
  (`step_refines`), and `run_ok` carries `Holdings.Ok` through a run. What the roster and a client
  make of an event is proved from its effect alone.
-/
import ShoweqDaemon.Lib.Run
import ShoweqDaemon.Spawn.Effects
import ShoweqDaemon.Daemon.Wiring

namespace ShoweqDaemon.Spawns

/-- What an event can do to the maps of the shell; everything else leaves them as they are. -/
inductive Effect where
  | quiet
  | adds (type : SpawnItemType) (k : Int) (id : UInt16)
  | removes (type : SpawnItemType) (k : Int) (x : Item)
  /-- The player becomes `p`, which has another id. -/
  | renames (p : Player)
  /-- Only the player stays, with the id `id`. Is it announced after the zone change? -/
  | clears (id : UInt16) (announced : Bool)

/-- The player goes, a spawn with its new id goes, the player comes back and all is sent anew. -/
structure Renames (sh : SpawnShell) (o : Out) (p : Player) : Prop where
  ne : sh.m_player.m_ID ≠ p.m_ID
  addr : p.addr = sh.m_player.addr
  holdings : o.1.holdings = sh.holdings.rename p.m_ID
  signals : ∃ sh' rest, o.2 = [.delItem (.player p)] ++ sh.evicted p.m_ID ++
    [.changeItem (.player p) tSpawnChangedALL, .changedID sh',
      .playerChangeItem (.player p) tSpawnChangedALL] ++ rest ∧
    sh'.holdings = o.1.holdings ∧ (∀ sg ∈ rest, sg.Quiet o.1.holdings) ∧
      ∀ g : GroupMgr, rest.foldl GroupMgr.onSignal g = g

/-- A zone begins: the maps are emptied but for the player, with the signals of `clear` and of the
    zone. -/
structure Clears (sh : SpawnShell) (o : Out) (id : UInt16) (announced : Bool) : Prop where
  holdings : o.1.holdings = { sh.holdings with player := (id, sh.m_player.addr) }.clear
  signals : ∃ p shortName longName, o.2 = [.clearItems, .changeItem (.player p) tSpawnChangedALL,
    .zoneBegin shortName longName] ++
      if announced = true then [.playerChangeItem (.player o.1.m_player) tSpawnChangedALL] else []

/-- The shell's output is what the effect says. -/
def Effect.Of (sh : SpawnShell) (o : Out) : Effect → Prop
  | quiet => Quiet sh o
  | adds type k id => Adds sh o type k id
  | removes type k x => Removes sh o type k x
  | renames p => Renames sh o p
  | clears id announced => Clears sh o id announced

/-- The operation on the holdings that an event with this effect performs. -/
def Effect.on (h : Holdings) : Effect → Holdings
  | quiet => h
  | adds type k id => h.add type k id
  | removes type k _ => h.remove type k
  | renames p => h.rename p.m_ID
  | clears id _ => { h with player := (id, h.player.2) }.clear

theorem Effect.Of.refines {sh : SpawnShell} {o : Out} {eff : Effect} (h : eff.Of sh o) :
    o.1.holdings = eff.on sh.holdings := by
  cases eff with
  | quiet => exact Quiet.holdings h
  | adds type k id => exact Adds.holdings h
  | removes type k x => exact Removes.holdings h
  | renames p => exact Renames.holdings h
  | clears id announced => exact Clears.holdings h

/-! ## Reading the effect off the state -/

namespace SpawnShell

variable (sh : SpawnShell)

instance (s : SpawnStruct) : Decidable (sh.Creates s) := inferInstanceAs (Decidable (_ ∧ _))

instance (u : SpawnPositionUpdate) : Decidable (sh.CreatesUnknown u) :=
  inferInstanceAs (Decidable (_ ∧ _))

/-- The effect of `newSpawn`: a spawn is added when it is new. -/
def newSpawnEffect (s : SpawnStruct) : Effect :=
  if sh.Creates s then .adds .tSpawn (idKey s.spawnId) s.spawnId else .quiet

/-- The effect of `updateSpawn`: a spawn is added when the id is unknown and was not deleted. -/
def updateSpawnEffect (u : SpawnPositionUpdate) : Effect :=
  if sh.CreatesUnknown u then .adds .tSpawn (idKey u.spawnId) u.spawnId else .quiet

/-- The effect of `newGroundItem`. -/
def newGroundItemEffect (ds : MakeDropStruct) : Effect :=
  if sh.m_drops.lookup (intKey ds.dropId) = none then
    .adds .tDrop (intKey ds.dropId) ds.dropId.toUInt16
  else .quiet

/-- The effect of `newDoorSpawn`. -/
def newDoorSpawnEffect (d : DoorStruct) : Effect :=
  if sh.m_doors.lookup (idKey d.doorId.toUInt16) = none then
    .adds .tDoors (idKey d.doorId.toUInt16) d.doorId.toUInt16
  else .quiet

/-- The effect of `deleteItem`: what the map has under the key goes. -/
def deleteItemEffect (type : SpawnItemType) (k : Int) : Effect :=
  match sh.find type k with
  | some x => .removes type k x
  | none => .quiet

end SpawnShell

/-- `setPlayerID` when the player is `p`. -/
def Player.setPlayerIDEffect (p : Player) (id : UInt16) : Effect :=
  if p.m_ID = id then .quiet else .renames { p with m_ID := id }

section
variable (env : Env)

namespace Daemon

/-- The effect of a packet on the daemon as it is. -/
def effect (d : Daemon) (packet : Packet) : Effect :=
  let sh := d.shell
  match packet with
  | .zonePlayer profile _ =>
      if d.zone.zoneChanged env profile then .clears sh.m_player.m_ID true else .quiet
  | .zoneChange _ dir => if dir = .server then .clears 0 false else .quiet
  | .zoneCheckpoint cp _ =>
      if cp.short_zone_name = [] then .quiet else .clears sh.m_player.m_ID false
  | .playerCheckpoint cp => (sh.m_player.restored cp).setPlayerIDEffect cp.player_id
  | .newGroundItem ds => if d.zone.m_zoning then .quiet else sh.newGroundItemEffect ds
  | .removeGroundItem dropId =>
      if d.zone.m_zoning then .quiet else sh.deleteItemEffect .tDrop (intKey dropId)
  | .newDoorSpawn door => sh.newDoorSpawnEffect door
  | .zoneEntry s =>
      if sh.isSelf env s then sh.m_player.setPlayerIDEffect s.spawnId
      else sh.newSpawnEffect s
  | .zoneSpawn s => sh.newSpawnEffect s
  | .newSpawn s => if d.zone.m_zoning then .quiet else sh.newSpawnEffect s
  | .updateSpawn u => if d.zone.m_zoning then .quiet else sh.updateSpawnEffect u
  | .clientUpdate dir u =>
      if dir = .client ∧ sh.m_player.m_ID = 0 then sh.m_player.setPlayerIDEffect u.spawnId
      else if d.zone.m_zoning then .quiet
      else sh.updateSpawnEffect u
  | .deleteSpawn spawnId => sh.deleteItemEffect .tSpawn (idKey spawnId)
  | _ => .quiet

end Daemon

theorem Out.andThen_nil (o : Out) : (o.andThen fun sh => (sh, [])) = o :=
  Prod.ext rfl (List.append_nil _)

/-! ## The invariant -/

theorem Effect.Of.ok {sh : SpawnShell} {o : Out} {eff : Effect} (h : eff.Of sh o)
    (hok : sh.holdings.Ok) : o.1.holdings.Ok := by
  rw [h.refines]
  cases eff with
  | quiet => exact hok
  | adds type k id => exact hok.add (Adds.type_ne h) (Adds.key_eq h)
  | removes type k x => exact hok.remove (Removes.type_ne h) k
  | renames p => exact hok.rename p.m_ID
  | clears id announced => exact Holdings.clear_ok hok.player_lt

theorem Effect.Of.ite {sh : SpawnShell} {o : Out} {c : Prop} [Decidable c] {a b : Effect}
    (h : c → a.Of sh o) (h' : ¬ c → b.Of sh o) : (if c then a else b).Of sh o := by
  split
  · rename_i hc
    exact h hc
  · rename_i hc
    exact h' hc

/-! ## The player's id -/

/-- `setPlayerID`, followed by something quiet that the roster does not hear. -/
theorem setPlayerID_andThen {sh : SpawnShell} (hok : sh.holdings.Ok) (id : UInt16)
    {f : SpawnShell → Out} (hf : Quiet (sh.setPlayerID id).1 (f (sh.setPlayerID id).1))
    (hroster : ∀ g : GroupMgr, (f (sh.setPlayerID id).1).2.foldl GroupMgr.onSignal g = g) :
    (sh.m_player.setPlayerIDEffect id).Of sh ((sh.setPlayerID id).andThen f) := by
  unfold Player.setPlayerIDEffect
  by_cases hid : sh.m_player.m_ID = id
  · rw [if_pos hid]
    rw [setPlayerID_of_eq hid] at hf ⊢
    exact (Quiet.refl sh).andThen hf
  · rw [if_neg hid]
    obtain ⟨hholdings, -, hsignals⟩ := setPlayerID_of_ne hok hid
    refine ⟨hid, rfl, hf.holdings.trans hholdings, (sh.setPlayerID id).1,
      (f (sh.setPlayerID id).1).2, ?_, hf.holdings.symm, ?_,
      hroster⟩
    · show (sh.setPlayerID id).2 ++ _ = _
      rw [hsignals]
    · intro sg hsg
      show sg.Quiet (f (sh.setPlayerID id).1).1.holdings
      rw [hf.holdings]
      exact hf.signals sg hsg

theorem setPlayerID_effect {sh : SpawnShell} (hok : sh.holdings.Ok) (id : UInt16) :
    (sh.m_player.setPlayerIDEffect id).Of sh (sh.setPlayerID id) := by
  rw [← Out.andThen_nil (sh.setPlayerID id)]
  exact setPlayerID_andThen hok id (Quiet.refl _) fun _ => rfl

/-- The checkpoint changes the player first, which nobody notices. -/
theorem playerCheckpoint_effect {sh : SpawnShell} (hok : sh.holdings.Ok) (cp : CheckpointData) :
    ((sh.m_player.restored cp).setPlayerIDEffect cp.player_id).Of sh
      ({ sh with m_player := sh.m_player.restored cp }.setPlayerID cp.player_id) := by
  let sh' : SpawnShell := { sh with m_player := sh.m_player.restored cp }
  have hholdings : sh'.holdings = sh.holdings := by
    refine holdings_setPlayer ?_
    rfl
  have hok' : sh'.holdings.Ok := hholdings ▸ hok
  have h := setPlayerID_effect hok' cp.player_id
  show (sh'.m_player.setPlayerIDEffect cp.player_id).Of sh (sh'.setPlayerID cp.player_id)
  unfold Player.setPlayerIDEffect at h ⊢
  split
  · rename_i hid
    rw [if_pos hid] at h
    exact Quiet.congr h hholdings
  · rename_i hid
    rw [if_neg hid] at h
    obtain ⟨hne, haddr, hrename, hsignals⟩ := h
    exact ⟨hne, haddr, hholdings ▸ hrename, hsignals⟩

/-! ## Clearing -/

theorem refilterMap_empty {α : Type} (order : Table.Order) (refilter : α → α) (flags : α → UInt32)
    (mk : α → Item) (changeType : UInt32) {m : Table Int α} (hm : m = ∅) :
    (SpawnShell.refilterMap order refilter flags mk changeType m).2 = [] := by
  have hvisit : order.visit m.values = [] := by
    rw [hm]
    exact (order.perm []).eq_nil
  unfold SpawnShell.refilterMap
  rw [hvisit]
  rfl

theorem refilterSpawns_empty {sh : SpawnShell} (order : Table.Order) (hspawns : sh.m_spawns = ∅)
    (hdrops : sh.m_drops = ∅) (hdoors : sh.m_doors = ∅) :
    (sh.refilterSpawns env order).2 = [] := by
  unfold SpawnShell.refilterSpawns
  dsimp only
  rw [refilterMap_empty order _ _ _ _ hspawns, refilterMap_empty order _ _ _ _ hdrops,
    refilterMap_empty order _ _ _ _ hdoors]
  rfl

/-- The filters of the new zone meet empty maps. -/
theorem zoneBegin_eq (sh : SpawnShell) (order : Table.Order) (zone : ZoneMgr)
    (loaded : FilterMgr) : (sh.zoneBegin env order zone loaded).1.holdings = sh.holdings.clear ∧
      (sh.zoneBegin env order zone loaded).1.m_player = sh.m_player ∧
      (sh.zoneBegin env order zone loaded).2 = [.clearItems,
        .changeItem (.player sh.m_player) tSpawnChangedALL,
        .zoneBegin zone.m_shortZoneName zone.m_longZoneName] := by
  let sh' : SpawnShell := { sh.clear.1 with m_filterMgr := loaded }
  have hrefilter : (sh'.refilterSpawns env order).2 = [] :=
    refilterSpawns_empty env order rfl rfl rfl
  refine ⟨((refilterSpawns_quiet env sh' order).holdings.trans rfl).trans (clear_holdings sh), rfl,
    ?_⟩
  show ((_ ++ (sh'.refilterSpawns env order).2) ++ _ : List Signal) = _
  rw [hrefilter]
  rfl

theorem zoneBegin_clears (sh : SpawnShell) (order : Table.Order) (zone : ZoneMgr)
    (loaded : FilterMgr) :
    Clears sh (sh.zoneBegin env order zone loaded) sh.m_player.m_ID false := by
  obtain ⟨hholdings, -, hsignals⟩ := zoneBegin_eq env sh order zone loaded
  exact ⟨hholdings, sh.m_player, _, _, hsignals⟩

theorem zoneBegin_profile_clears (sh : SpawnShell) (order : Table.Order) (zone : ZoneMgr)
    (loaded : FilterMgr) (profile : CharProfileStruct) :
    Clears sh ((sh.zoneBegin env order zone loaded).andThen fun sh => sh.playerProfile env profile)
      sh.m_player.m_ID true := by
  obtain ⟨hholdings, hplayer, hsignals⟩ := zoneBegin_eq env sh order zone loaded
  refine ⟨Eq.trans ?_ hholdings, sh.m_player, zone.m_shortZoneName, zone.m_longZoneName, ?_⟩
  · refine holdings_setPlayer ?_
    rfl
  · unfold Out.andThen
    rw [hsignals]
    rfl

theorem zoneChanged_clears (sh : SpawnShell) (zone : ZoneMgr) :
    Clears sh (sh.zoneChanged zone) 0 false := by
  let sh' : SpawnShell := { sh with m_player := sh.m_player.zoneChanged }
  exact ⟨clear_holdings sh', sh'.m_player, _, _, rfl⟩

/-! ## The handlers -/

theorem newSpawn_effect (sh : SpawnShell) (s : SpawnStruct) :
    (sh.newSpawnEffect s).Of sh (sh.newSpawn env s) :=
  Effect.Of.ite (newSpawn_adds env) (newSpawn_quiet env)

theorem updateSpawn_effect {sh : SpawnShell} (hok : sh.holdings.Ok) (u : SpawnPositionUpdate) :
    (sh.updateSpawnEffect u).Of sh (sh.updateSpawn env u) :=
  Effect.Of.ite (updateSpawn_adds env) (updateSpawn_quiet env hok)

theorem newGroundItem_effect (sh : SpawnShell) (ds : MakeDropStruct) :
    (sh.newGroundItemEffect ds).Of sh (sh.newGroundItem env ds) :=
  Effect.Of.ite (newGroundItem_adds env) (newGroundItem_quiet env)

theorem newDoorSpawn_effect (sh : SpawnShell) (d : DoorStruct) :
    (sh.newDoorSpawnEffect d).Of sh (sh.newDoorSpawn env d) :=
  Effect.Of.ite (newDoorSpawn_adds env) (newDoorSpawn_quiet env)

theorem removeGroundItem_effect (sh : SpawnShell) (dropId : UInt32) :
    (sh.deleteItemEffect .tDrop (intKey dropId)).Of sh (sh.removeGroundItem dropId) := by
  unfold SpawnShell.deleteItemEffect SpawnShell.removeGroundItem
  split
  · rename_i x hx
    exact deleteItem_removes (by decide) hx
  · rename_i hnone
    exact deleteItem_quiet hnone

theorem deleteSpawn_effect (sh : SpawnShell) (spawnId : UInt16) :
    (sh.deleteItemEffect .tSpawn (idKey spawnId)).Of sh (sh.deleteSpawn spawnId) := by
  unfold SpawnShell.deleteItemEffect
  split
  · rename_i x hx
    exact deleteSpawn_removes hx
  · rename_i hnone
    exact deleteSpawn_quiet hnone

theorem zoneEntry_effect {sh : SpawnShell} (hok : sh.holdings.Ok) (s : SpawnStruct) :
    (if sh.isSelf env s then sh.m_player.setPlayerIDEffect s.spawnId
      else sh.newSpawnEffect s).Of sh (sh.zoneEntry env s) := by
  unfold SpawnShell.zoneEntry
  by_cases hself : sh.isSelf env s = true
  · rw [if_pos hself, if_pos hself]
    have hok' : (sh.setPlayerID s.spawnId).1.holdings.Ok := (setPlayerID_effect hok s.spawnId).ok hok
    refine setPlayerID_andThen hok s.spawnId ?_ fun _ => rfl
    refine quiet_setPlayer hok' ?_ tSpawnChangedALL
    rfl
  · rw [if_neg hself, if_neg hself]
    cases hitem : sh.m_spawns.lookup (idKey s.spawnId) with
    | none => exact newSpawn_effect env sh s
    | some item =>
        -- the spawn that is there changes without a signal
        have hnone : ¬ sh.Creates s := fun h => nomatch hitem.symm.trans h.2
        have hsets := sets_spawn sh (idKey s.spawnId) (item.update env s) sh.next
        unfold SpawnShell.newSpawnEffect
        rw [if_neg hnone]
        exact ⟨hsets.holdings (find_spawn hitem) rfl rfl, fun _ hsg => nomatch hsg⟩

/-! ## `OP_ClientUpdate` -/

theorem setPlayerID_m_ID {sh : SpawnShell} (hok : sh.holdings.Ok) (id : UInt16) :
    (sh.setPlayerID id).1.m_player.m_ID = id := by
  by_cases h : sh.m_player.m_ID = id
  · rw [setPlayerID_of_eq h]
    exact h
  · rw [(setPlayerID_of_ne hok h).2.1]

theorem moveSelf_quiet {sh : SpawnShell} (hok : sh.holdings.Ok) (u : SpawnPositionUpdate) :
    Quiet sh ({ sh with m_player := sh.m_player.moveSelf u },
      [.playerChangeItem (.player (sh.m_player.moveSelf u)) tSpawnChangedPosition]) := by
  refine quiet_setPlayer' hok ?_ tSpawnChangedPosition
  rfl

/-- The first update of the client tells the player's id. -/
theorem playerUpdateSelf_first {sh : SpawnShell} (hok : sh.holdings.Ok) (z : Bool)
    (u : SpawnPositionUpdate) (hid : sh.m_player.m_ID = 0) :
    sh.playerUpdateSelf env z .client u = (sh.setPlayerID u.spawnId).andThen fun sh =>
      ({ sh with m_player := sh.m_player.moveSelf u },
        [.playerChangeItem (.player (sh.m_player.moveSelf u)) tSpawnChangedPosition]) := by
  have hself : ¬ u.spawnId ≠ (sh.setPlayerID u.spawnId).1.m_player.m_ID :=
    fun h => h (setPlayerID_m_ID hok u.spawnId).symm
  unfold SpawnShell.playerUpdateSelf
  rw [if_neg fun h => h.1 rfl, if_pos ⟨rfl, hid⟩]
  unfold Out.andThen
  dsimp only
  rw [if_neg hself]

theorem playerUpdateSelf_self {sh : SpawnShell} {z : Bool} {dir : SpawnShell.Dir}
    {u : SpawnPositionUpdate} (hset : ¬ (dir = .client ∧ sh.m_player.m_ID = 0))
    (hself : u.spawnId = sh.m_player.m_ID) :
    sh.playerUpdateSelf env z dir u = ({ sh with m_player := sh.m_player.moveSelf u },
      [.playerChangeItem (.player (sh.m_player.moveSelf u)) tSpawnChangedPosition]) := by
  unfold SpawnShell.playerUpdateSelf
  rw [if_neg fun h => h.2 hself, if_neg hset]
  show (if u.spawnId ≠ sh.m_player.m_ID then _ else _) = _
  rw [if_neg fun h => h hself]

/-- The shell's own slot ignores what the client sends. -/
theorem clientUpdate_client (o : Out) (z : Bool) (u : SpawnPositionUpdate) :
    (o.andThen fun sh => if z = true ∨ SpawnShell.Dir.client = .client then (sh, [])
      else sh.updateSpawn env u) = o := by
  have hstop : (fun sh : SpawnShell => if z = true ∨ SpawnShell.Dir.client = .client then
      ((sh, []) : Out) else sh.updateSpawn env u) = fun sh => (sh, []) :=
    funext fun sh => if_pos (Or.inr rfl)
  rw [hstop, Out.andThen_nil]

/-- An update for something else reaches `updateSpawn` once, whoever sent it. -/
theorem clientUpdate_other {sh : SpawnShell} {z : Bool} {dir : SpawnShell.Dir}
    {u : SpawnPositionUpdate} (hset : ¬ (dir = .client ∧ sh.m_player.m_ID = 0))
    (hother : u.spawnId ≠ sh.m_player.m_ID) :
    (sh.playerUpdateSelf env z dir u).andThen (fun sh =>
      if z = true ∨ dir = .client then (sh, []) else sh.updateSpawn env u) =
        if z = true then (sh, []) else sh.updateSpawn env u := by
  unfold SpawnShell.playerUpdateSelf
  cases dir with
  | client =>
      rw [clientUpdate_client, if_neg fun h => h.1 rfl, if_neg hset]
      show (if u.spawnId ≠ sh.m_player.m_ID then _ else _) = _
      rw [if_pos hother]
  | server =>
      rw [if_pos ⟨by decide, hother⟩]
      show (if z = true ∨ SpawnShell.Dir.server = .client then (sh, []) else _) = _
      simp

theorem clientUpdate_effect {sh : SpawnShell} (hok : sh.holdings.Ok) (z : Bool)
    (dir : SpawnShell.Dir) (u : SpawnPositionUpdate) :
    (if dir = .client ∧ sh.m_player.m_ID = 0 then sh.m_player.setPlayerIDEffect u.spawnId
      else if z = true then .quiet else sh.updateSpawnEffect u).Of sh
    ((sh.playerUpdateSelf env z dir u).andThen fun sh =>
      if z = true ∨ dir = .client then (sh, []) else sh.updateSpawn env u) := by
  by_cases hset : dir = .client ∧ sh.m_player.m_ID = 0
  · obtain ⟨rfl, hid⟩ := hset
    rw [if_pos ⟨rfl, hid⟩, clientUpdate_client, playerUpdateSelf_first env hok z u hid]
    have hok' : (sh.setPlayerID u.spawnId).1.holdings.Ok := (setPlayerID_effect hok u.spawnId).ok hok
    exact setPlayerID_andThen hok u.spawnId (moveSelf_quiet hok' u) fun _ => rfl
  · rw [if_neg hset]
    by_cases hself : u.spawnId = sh.m_player.m_ID
    · have hcreates : ∀ sh' : SpawnShell, sh'.m_player.m_ID = sh.m_player.m_ID →
          ¬ sh'.CreatesUnknown u := fun sh' h hc => hc.1 (hself.trans h.symm)
      have hquiet : (if z = true then .quiet else sh.updateSpawnEffect u) = Effect.quiet := by
        unfold SpawnShell.updateSpawnEffect
        rw [if_neg (hcreates sh rfl), ite_self]
      rw [hquiet, playerUpdateSelf_self env hset hself]
      refine (moveSelf_quiet hok u).andThen ?_
      split
      · exact Quiet.refl _
      · exact updateSpawn_quiet env ((moveSelf_quiet hok u).holdings ▸ hok) (hcreates _ rfl)
    · rw [clientUpdate_other env hset hself]
      split
      · exact Quiet.refl sh
      · exact updateSpawn_effect env hok u

/-! ## Every event -/

theorem unlessZoning_effect {d : Daemon} {o : Out} {eff : Effect} (h : eff.Of d.shell o) :
    (if d.zone.m_zoning = true then .quiet else eff).Of d.shell (d.unlessZoning o) := by
  unfold Daemon.unlessZoning
  split
  · exact Quiet.refl d.shell
  · exact h

theorem playerUpdateNpcHP_quiet {sh : SpawnShell} (hok : sh.holdings.Ok) (spawnId : UInt32)
    (curHP maxHP : Int32) : Quiet sh (sh.playerUpdateNpcHP spawnId curHP maxHP) := by
  unfold SpawnShell.playerUpdateNpcHP
  split
  · exact Quiet.refl sh
  · refine quiet_setPlayer' hok ?_ tSpawnChangedHP
    rfl

theorem playerProfile_quiet {sh : SpawnShell} (hok : sh.holdings.Ok) (profile : CharProfileStruct) :
    Quiet sh (sh.playerProfile env profile) := by
  refine quiet_setPlayer' hok ?_ tSpawnChangedALL
  rfl

theorem handle_effect {d : Daemon} (hok : d.shell.holdings.Ok) (e : Event) :
    (d.effect env e.packet).Of d.shell (d.handle env e) := by
  obtain ⟨order, packet⟩ := e
  cases packet with
  | zonePlayer profile loaded =>
      unfold Daemon.effect Daemon.handle
      dsimp only
      split
      · exact zoneBegin_profile_clears env d.shell order _ loaded profile
      · exact (Quiet.refl d.shell).andThen (playerProfile_quiet env hok profile)
  | zoneChange zoneId dir =>
      unfold Daemon.effect Daemon.handle
      dsimp only
      split
      · exact zoneChanged_clears d.shell _
      · exact Quiet.refl d.shell
  | zoneCheckpoint cp loaded =>
      unfold Daemon.effect Daemon.handle
      dsimp only
      split
      · exact Quiet.refl d.shell
      · exact zoneBegin_clears env d.shell order _ loaded
  | playerCheckpoint cp => exact playerCheckpoint_effect hok cp
  | newGroundItem ds => exact unlessZoning_effect (newGroundItem_effect env d.shell ds)
  | removeGroundItem dropId => exact unlessZoning_effect (removeGroundItem_effect d.shell dropId)
  | newDoorSpawn door => exact newDoorSpawn_effect env d.shell door
  | zoneEntry s => exact zoneEntry_effect env hok s
  | zoneSpawn s => exact newSpawn_effect env d.shell s
  | newSpawn s => exact unlessZoning_effect (newSpawn_effect env d.shell s)
  | updateSpawn u => exact unlessZoning_effect (updateSpawn_effect env hok _)
  | clientUpdate dir u => exact clientUpdate_effect env hok d.zone.m_zoning dir u
  | updateNpcHP spawnId curHP maxHP =>
      have hquiet := updateNpcHP_quiet d.shell spawnId curHP maxHP
      show Quiet d.shell ((d.shell.updateNpcHP spawnId curHP maxHP).andThen fun sh =>
        sh.playerUpdateNpcHP spawnId curHP maxHP)
      refine hquiet.andThen ?_
      exact playerUpdateNpcHP_quiet (hquiet.holdings ▸ hok) spawnId curHP maxHP
  | deleteSpawn spawnId => exact deleteSpawn_effect d.shell spawnId
  | illusionSpawn spawnId race => exact illusionSpawn_quiet d.shell spawnId race
  | updateSpawnAppearance spawnId type parameter =>
      exact updateSpawnAppearance_quiet d.shell spawnId type parameter
  | killSpawn spawnId killerId => exact killSpawn_quiet env d.shell spawnId killerId
  | filtersChanged loaded =>
      exact (refilterSpawns_quiet env { d.shell with m_filterMgr := loaded } order).congr rfl
  | runtimeFiltersChanged loaded =>
      exact (refilterSpawnsRuntime_quiet env { d.shell with m_filterMgr := loaded } order).congr rfl
  | guildTagUpdated guildMgr guildId =>
      let sh' : SpawnShell := { d.shell with m_guildMgr := guildMgr }
      have hok' : sh'.holdings.Ok := hok
      exact (updateGuildTag_quiet hok' order guildId).congr rfl
  | zoneEntryClient => exact Quiet.refl d.shell
  | zoneNew shortName longName => exact Quiet.refl d.shell
  | addGroupMember data => exact Quiet.refl d.shell
  | removeGroupMember membername => exact Quiet.refl d.shell
  | subscribe => exact Quiet.refl d.shell

theorem step_refines {d : Daemon} (hok : d.shell.holdings.Ok) (e : Event) :
    (d.step env e).shell.holdings = (d.effect env e.packet).on d.shell.holdings :=
  (handle_effect env hok e).refines

theorem step_ok (d : Daemon) (e : Event) (hok : d.shell.holdings.Ok) :
    (d.step env e).shell.holdings.Ok :=
  (handle_effect env hok e).ok hok

end

theorem init_ok (player : Player) (filterMgr : FilterMgr) (guildMgr : GuildMgr)
    (createUnknownSpawns : Bool) :
    (Daemon.init player filterMgr guildMgr createUnknownSpawns).shell.holdings.Ok := by
  let sh := SpawnShell.init player filterMgr guildMgr createUnknownSpawns
  have hclear : sh.holdings = sh.holdings.clear := clear_holdings sh
  show sh.holdings.Ok
  rw [hclear]
  exact Holdings.clear_ok (Nat.lt_succ_self player.addr)

/-- Every run: spawns lie under their ids, the player under its id or 0, and no object in two
    places. -/
theorem run_ok (env : Env) (player : Player) (filterMgr : FilterMgr) (guildMgr : GuildMgr)
    (createUnknownSpawns : Bool) (es : List Event) :
    ∀ d ∈ Machine.trace (Daemon.step env)
      (Daemon.init player filterMgr guildMgr createUnknownSpawns) es, d.shell.holdings.Ok :=
  Machine.trace_invariant (Daemon.step env) (step_ok env)
    (init_ok player filterMgr guildMgr createUnknownSpawns) es

end ShoweqDaemon.Spawns
