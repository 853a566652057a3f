/-
  `SpawnShell`: the four maps, the ring of deleted ids, and the packet handlers.

  A handler returns the new state with the signals it emits, in order and by value: a slot reads
  an item as it is at that moment. `Player` emits through the shell as well, so its handlers that
  concern the spawn lists stand here too.

  `deleteItem` takes an item out of its map and leaves the object in memory; `clear` empties all
  maps and puts the player back. `find` looks an item up by its type and its key there.

  Proved:
  * `deleteItem_cases`: a deletion removes the item if there is one, and the rest of the state
    stays.
  * `remove_player`, `remove_dead`, `remove_next`: what `remove` leaves alone.
-/
import ShoweqDaemon.Lib.Table
import ShoweqDaemon.Spawn.Item

namespace ShoweqDaemon.Spawns

/-! ## Deleted ids -/

/-- The places in the ring of deleted ids. -/
def MAX_DEAD_SPAWNIDS : Nat := 50

/-- The ring of recently deleted ids: `m_deadSpawnID`, `m_cntDeadSpawnIDs`, `m_posDeadSpawnIDs`. -/
structure DeadSpawns where
  ids : Fin MAX_DEAD_SPAWNIDS → UInt16
  cnt : Fin (MAX_DEAD_SPAWNIDS + 1)
  pos : Fin MAX_DEAD_SPAWNIDS

namespace DeadSpawns

/-- No id was deleted yet. -/
def empty : DeadSpawns where
  ids := fun _ => 0
  cnt := ⟨0, by decide⟩
  pos := ⟨0, by decide⟩

/-- `deleteSpawn`: the position moves first, the id is written behind it. -/
def push (r : DeadSpawns) (id : UInt16) : DeadSpawns :=
  let pos : Fin MAX_DEAD_SPAWNIDS :=
    if h : r.pos.val + 1 < MAX_DEAD_SPAWNIDS then ⟨r.pos.val + 1, h⟩ else ⟨0, by decide⟩
  let cnt : Fin (MAX_DEAD_SPAWNIDS + 1) :=
    if h : r.cnt.val < MAX_DEAD_SPAWNIDS then ⟨r.cnt.val + 1, by omega⟩ else r.cnt
  { ids := fun i => if i = pos then id else r.ids i, cnt, pos }

/-- The test of the search loops at slot `i`; they run below `cnt`. -/
def hit (r : DeadSpawns) (id : UInt16) (i : Fin MAX_DEAD_SPAWNIDS) : Bool :=
  i.val < r.cnt.val ∧ r.ids i ≠ 0 ∧ r.ids i = id

/-- The loop of `newSpawn`: every match is zeroed. -/
def forget (r : DeadSpawns) (id : UInt16) : DeadSpawns :=
  { r with ids := fun i => if r.hit id i then 0 else r.ids i }

/-- The loop of `updateSpawn` stops at the first match. -/
def find (r : DeadSpawns) (id : UInt16) : Option (Fin MAX_DEAD_SPAWNIDS) :=
  (List.finRange MAX_DEAD_SPAWNIDS).find? (r.hit id)

/-- A place is given back: 0 is no id. -/
def zero (r : DeadSpawns) (i : Fin MAX_DEAD_SPAWNIDS) : DeadSpawns :=
  { r with ids := fun j => if j = i then 0 else r.ids j }

end DeadSpawns

/-! ## State and signals -/

/-- The four maps of the shell, by which `deleteItem` and `find` are told where to look. -/
inductive SpawnItemType where
  | tSpawn
  | tDrop
  | tDoors
  | tPlayer
  deriving DecidableEq, Repr

/-- The bits that say what has changed of an item, from spawn.h. -/
def tSpawnChangedPosition : UInt32 := 1
def tSpawnChangedHP : UInt32 := 2
def tSpawnChangedWearing : UInt32 := 4
def tSpawnChangedLevel : UInt32 := 16
def tSpawnChangedFilter : UInt32 := 64
def tSpawnChangedRuntimeFilter : UInt32 := 128
def tSpawnChangedName : UInt32 := 512
def tSpawnChangedALL : UInt32 := 1023

/-- `SpawnShell` with the player and the filter manager that it refers to. The maps are hash tables;
    the player is in the one that has only keys. -/
structure SpawnShell where
  m_player : Player
  m_filterMgr : FilterMgr
  m_guildMgr : GuildMgr
  /-- `showeq_params->createUnknownSpawns` -/
  createUnknownSpawns : Bool
  m_dead : DeadSpawns
  m_spawns : Table Int Spawn
  m_drops : Table Int Drop
  m_doors : Table Int Door
  /-- The keys of `m_players`. All of its values are `m_player`. -/
  m_players : Table Int Unit
  /-- The spawns that were taken out of `m_spawns`, as they were then. Nobody frees them: `clear`
      frees what the maps hold. -/
  removed : List Spawn
  /-- The address of the next object. -/
  next : Addr

/-- The signals that the shell and the player emit, with what they point to. -/
inductive Signal where
  | addItem (item : Item)
  | delItem (item : Item)
  | changeItem (item : Item) (changeType : UInt32)
  | killSpawn (deceased : Item) (killer : Option Item) (killerId : UInt16)
  | clearItems
  /-- `Player::changeItem`, which the shell emits again as its own. -/
  | playerChangeItem (item : Item) (changeType : UInt32)
  /-- `Player::changedID`, with the shell as the slots after `playerChangedID` find it. -/
  | changedID (shell : SpawnShell)
  /-- `ZoneMgr::zoneBegin` and `ZoneMgr::zoneChanged`, as the slots after `clear` see it. -/
  | zoneBegin (shortName longName : QString)

/-- What a handler does. -/
abbrev Out := SpawnShell × List Signal

/-- A second handler runs after the first. -/
def Out.andThen (o : Out) (f : SpawnShell → Out) : Out :=
  ((f o.1).1, o.2 ++ (f o.1).2)

/-- The key of a map: an `int` made from a `uint32_t`. -/
def intKey (n : UInt32) : Int := n.toInt32.toInt

/-- The key of a map: an `int` made from a `uint16_t`. -/
def idKey (id : UInt16) : Int := id.toNat

theorem idKey_inj {a b : UInt16} (h : idKey a = idKey b) : a = b := by
  unfold idKey at h
  exact UInt16.toNat_inj.mp (by omega)

namespace SpawnShell

/-- The start: nothing but the player, under key 0. -/
def init (player : Player) (filterMgr : FilterMgr) (guildMgr : GuildMgr)
    (createUnknownSpawns : Bool) : SpawnShell where
  m_player := player
  m_filterMgr := filterMgr
  m_guildMgr := guildMgr
  createUnknownSpawns := createUnknownSpawns
  m_dead := .empty
  m_spawns := ∅
  m_drops := ∅
  m_doors := ∅
  m_players := AList.singleton 0 ()
  removed := []
  next := player.addr + 1

/-- `getMap(type).value(id)`. -/
def find (sh : SpawnShell) : SpawnItemType → Int → Option Item
  | .tSpawn, id => (sh.m_spawns.lookup id).map .spawn
  | .tDrop, id => (sh.m_drops.lookup id).map .drop
  | .tDoors, id => (sh.m_doors.lookup id).map .door
  | .tPlayer, id => (sh.m_players.lookup id).map fun _ => .player sh.m_player

/-- `getMap(type).remove(id)`. The map loses the pointer, the object stays in memory. -/
def remove (sh : SpawnShell) : SpawnItemType → Int → SpawnShell
  | .tSpawn, id =>
      { sh with
        m_spawns := sh.m_spawns.erase id
        removed := (sh.m_spawns.lookup id).toList ++ sh.removed }
  | .tDrop, id => { sh with m_drops := sh.m_drops.erase id }
  | .tDoors, id => { sh with m_doors := sh.m_doors.erase id }
  | .tPlayer, id => { sh with m_players := sh.m_players.erase id }

/-- `SpawnShell::clear`: one signal for all items, and the player is put back in his map. -/
def clear (sh : SpawnShell) : Out :=
  ({ sh with
      m_spawns := ∅
      m_doors := ∅
      m_drops := ∅
      m_players := AList.singleton 0 ()
      m_dead := .empty },
    [.clearItems, .changeItem (.player sh.m_player) tSpawnChangedALL])

/-- `SpawnShell::deleteItem`: the item leaves its map behind the signal; what was not there changes
    nothing. -/
def deleteItem (sh : SpawnShell) (type : SpawnItemType) (id : Int) : Out :=
  match sh.find type id with
  | some item => (sh.remove type id, [.delItem item])
  | none => (sh, [])

section
variable (env : Env)

/-! ## Drops and doors -/

/-- `SpawnShell::newGroundItem`: an item under a known id is updated, an unknown one is made. -/
def newGroundItem (sh : SpawnShell) (ds : MakeDropStruct) : Out :=
  match sh.m_drops.lookup (intKey ds.dropId) with
  | some item =>
      let item := (Drop.update env item ds).updateFilterFlags env .drop sh.m_filterMgr
      ({ sh with m_drops := sh.m_drops.insert (intKey ds.dropId) item },
        [.changeItem (.drop item) tSpawnChangedALL])
  | none =>
      let item := (Drop.ofStruct env sh.next ds).updateFilterFlags env .drop sh.m_filterMgr
      ({ sh with m_drops := sh.m_drops.insert (intKey ds.dropId) item, next := sh.next + 1 },
        [.addItem (.drop item)])

/-- `SpawnShell::removeGroundItem`: the id is taken as a signed number, as the maps do. -/
def removeGroundItem (sh : SpawnShell) (dropId : UInt32) : Out :=
  sh.deleteItem .tDrop (intKey dropId)

/-- `SpawnShell::newDoorSpawn`, for one door of the packet: a known door is updated and announced as
    changed, an unknown one is added. -/
def newDoorSpawn (sh : SpawnShell) (d : DoorStruct) : Out :=
  match sh.m_doors.lookup (idKey d.doorId.toUInt16) with
  | some item =>
      let item := (Door.update env item d).updateFilterFlags env .door sh.m_filterMgr
      ({ sh with m_doors := sh.m_doors.insert (idKey d.doorId.toUInt16) item },
        [.changeItem (.door item) tSpawnChangedALL])
  | none =>
      let item := (Door.ofStruct env sh.next d).updateFilterFlags env .door sh.m_filterMgr
      ({ sh with m_doors := sh.m_doors.insert (idKey d.doorId.toUInt16) item, next := sh.next + 1 },
        [.addItem (.door item)])

/-! ## Spawns -/

/-- The two flag updates, then the guild tag, as `newSpawn` orders them. -/
def labelled (sh : SpawnShell) (s : Spawn) : Spawn :=
  let s := (s.updateFilterFlags env sh.m_filterMgr).updateRuntimeFilterFlags env sh.m_filterMgr
  { s with m_guildTag := sh.m_guildMgr s.m_guildID s.m_guildServerID }

/-- `SpawnShell::newSpawn`: a known spawn is updated, an unknown one is made; the id is no deleted
    one any more. -/
def newSpawn (sh : SpawnShell) (s : SpawnStruct) : Out :=
  if s.npc = SPAWN_SELF then (sh, [])
  else
    let sh := { sh with m_dead := sh.m_dead.forget s.spawnId }
    match sh.m_spawns.lookup (idKey s.spawnId) with
    | some item =>
        let item := sh.labelled env (item.update env s)
        ({ sh with m_spawns := sh.m_spawns.insert (idKey s.spawnId) item },
          [.changeItem (.spawn item) tSpawnChangedALL])
    | none =>
        let item := sh.labelled env (Spawn.ofStruct env sh.next s)
        ({ sh with m_spawns := sh.m_spawns.insert (idKey s.spawnId) item, next := sh.next + 1 },
          [.addItem (.spawn item)])

/-- `SpawnShell::updateSpawn`: the player, a known spawn, or an unknown one where the settings ask
    for it and the id was not deleted. -/
def updateSpawn (sh : SpawnShell) (u : SpawnPositionUpdate) : Out :=
  if u.spawnId = sh.m_player.m_ID then
    let p := { sh.m_player with toSpawn := sh.m_player.toSpawn.move u }
    ({ sh with m_player := p }, [.changeItem (.player p) tSpawnChangedPosition])
  else
    match sh.m_spawns.lookup (idKey u.spawnId) with
    | some item =>
        let item := item.move u
        ({ sh with m_spawns := sh.m_spawns.insert (idKey u.spawnId) item },
          [.changeItem (.spawn item) tSpawnChangedPosition])
    | none =>
        if sh.createUnknownSpawns then
          match sh.m_dead.find u.spawnId with
          -- deleted a while ago: taken for a bogus update
          | some i => ({ sh with m_dead := sh.m_dead.zero i }, [])
          | none =>
              let item := ((Spawn.ofUpdate sh.next u).updateFilterFlags env
                sh.m_filterMgr).updateRuntimeFilterFlags env sh.m_filterMgr
              ({ sh with m_spawns := sh.m_spawns.insert (idKey u.spawnId) item, next := sh.next + 1 },
                [.addItem (.spawn item)])
        else (sh, [])

/-- `SpawnShell::deleteSpawn`: the id goes into the ring before the item goes. -/
def deleteSpawn (sh : SpawnShell) (spawnId : UInt16) : Out :=
  { sh with m_dead := sh.m_dead.push spawnId }.deleteItem .tSpawn (idKey spawnId)

/-- A handler that changes one spawn in place, if it is there, and announces it. -/
def changeSpawn (sh : SpawnShell) (id : Int) (f : Spawn → Spawn) (changeType : UInt32) : Out :=
  match sh.m_spawns.lookup id with
  | some item =>
      ({ sh with m_spawns := sh.m_spawns.insert id (f item) },
        [.changeItem (.spawn (f item)) changeType])
  | none => (sh, [])

/-- The fields of `hpNpcUpdateStruct`. -/
def updateNpcHP (sh : SpawnShell) (spawnId : UInt32) (curHP maxHP : Int32) : Out :=
  sh.changeSpawn (intKey spawnId) (fun s => { s with m_curHP := curHP, m_maxHP := maxHP })
    tSpawnChangedHP

/-- `SpawnShell::illusionSpawn`: only the race changes, but the whole item is announced. -/
def illusionSpawn (sh : SpawnShell) (spawnId race : UInt32) : Out :=
  sh.changeSpawn (intKey spawnId) (fun s => { s with m_race := race.toUInt16 }) tSpawnChangedALL

/-- `SpawnShell::updateSpawnAppearance`, for the one type that it handles: the level. -/
def updateSpawnAppearance (sh : SpawnShell) (spawnId type : UInt16) (parameter : UInt32) : Out :=
  if type = 1 then
    sh.changeSpawn (idKey spawnId) (fun s => { s with m_level := parameter.toInt32 })
      tSpawnChangedLevel
  else (sh, [])

/-- The corpse keeps its key and its address; its class and its name change before the signal. -/
def killSpawn (sh : SpawnShell) (spawnId killerId : UInt16) : Out :=
  let killer (sh : SpawnShell) : Option Item := sh.find .tSpawn (idKey killerId)
  if spawnId = sh.m_player.m_ID then
    let p := { sh.m_player with toSpawn := sh.m_player.toSpawn.killSpawn }
    let p := (p.updateFilterFlags env sh.m_filterMgr).updateRuntimeFilterFlags env sh.m_filterMgr
    let p := { p with m_name := p.m_name ++ Spawn_Corpse_Designator }
    let sh := { sh with m_player := p }
    (sh, [.killSpawn (.player p) (killer sh) killerId])
  else
    match sh.m_spawns.lookup (idKey spawnId) with
    | some item =>
        let s := (item.killSpawn.updateFilterFlags env sh.m_filterMgr).updateRuntimeFilterFlags env
          sh.m_filterMgr
        let s := { s with m_name := s.m_name ++ Spawn_Corpse_Designator }
        let sh := { sh with m_spawns := sh.m_spawns.insert (idKey spawnId) s }
        (sh, [.killSpawn (.spawn s) (killer sh) killerId])
    | none => (sh, [])

/-- The flags are looked up again; what is worn is not stored. No packet reaches this handler. -/
def spawnWearingUpdate (sh : SpawnShell) (spawnId : UInt16) : Out :=
  match sh.m_spawns.lookup (idKey spawnId) with
  | some item =>
      let s := item.updateFilterFlags env sh.m_filterMgr
      let changeType := if s.m_filterFlags ≠ item.m_filterFlags then
          tSpawnChangedWearing ||| tSpawnChangedFilter
        else tSpawnChangedWearing
      let s := s.updateRuntimeFilterFlags env sh.m_filterMgr
      let changeType := if s.m_runtimeFilterFlags ≠ item.m_runtimeFilterFlags then
          changeType ||| tSpawnChangedRuntimeFilter
        else changeType
      ({ sh with m_spawns := sh.m_spawns.insert (idKey spawnId) s },
        [.changeItem (.spawn s) changeType])
  | none => (sh, [])

/-! ## Filters and guild tags -/

/-- One map of `refilterSpawns`: every value gets its flags, those that differ are announced. -/
def refilterMap {α : Type} (order : Table.Order) (refilter : α → α) (flags : α → UInt32)
    (mk : α → Item) (changeType : UInt32) (m : Table Int α) : Table Int α × List Signal :=
  (m.mapValues refilter,
    (order.visit m.values).filterMap fun x =>
      if flags (refilter x) ≠ flags x then some (.changeItem (mk (refilter x)) changeType) else none)

/-- `SpawnShell::refilterSpawns`: the masks of all items anew, a signal for each that changed. -/
def refilterSpawns (sh : SpawnShell) (order : Table.Order) : Out :=
  let f := sh.m_filterMgr
  let spawns := refilterMap order (Spawn.updateFilterFlags env f) Spawn.m_filterFlags .spawn
    tSpawnChangedFilter sh.m_spawns
  let drops := refilterMap order (Fixture.updateFilterFlags env .drop f) Fixture.m_filterFlags .drop
    tSpawnChangedFilter sh.m_drops
  let doors := refilterMap order (Fixture.updateFilterFlags env .door f) Fixture.m_filterFlags .door
    tSpawnChangedFilter sh.m_doors
  ({ sh with m_spawns := spawns.1, m_drops := drops.1, m_doors := doors.1 },
    spawns.2 ++ drops.2 ++ doors.2)

/-- `SpawnShell::refilterSpawnsRuntime`, the same for the runtime filters. -/
def refilterSpawnsRuntime (sh : SpawnShell) (order : Table.Order) : Out :=
  let f := sh.m_filterMgr
  let spawns := refilterMap order (Spawn.updateRuntimeFilterFlags env f) Spawn.m_runtimeFilterFlags
    .spawn tSpawnChangedRuntimeFilter sh.m_spawns
  let drops := refilterMap order (Fixture.updateRuntimeFilterFlags env .drop f)
    Fixture.m_runtimeFilterFlags .drop tSpawnChangedRuntimeFilter sh.m_drops
  let doors := refilterMap order (Fixture.updateRuntimeFilterFlags env .door f)
    Fixture.m_runtimeFilterFlags .door tSpawnChangedRuntimeFilter sh.m_doors
  ({ sh with m_spawns := spawns.1, m_drops := drops.1, m_doors := doors.1 },
    spawns.2 ++ drops.2 ++ doors.2)

/-- The members of guild `guildId` get their tags anew: the spawns, then the player. -/
def updateGuildTag (sh : SpawnShell) (order : Table.Order) (guildId : UInt32) : Out :=
  let tagged (s : Spawn) : Spawn := { s with m_guildTag := sh.m_guildMgr s.m_guildID s.m_guildServerID }
  let member (s : Spawn) : Bool := guildId = s.m_guildID.toUInt32
  let p : Player :=
    if member sh.m_player.toSpawn then { sh.m_player with toSpawn := tagged sh.m_player.toSpawn }
    else sh.m_player
  ({ sh with
      m_spawns := sh.m_spawns.mapValues fun s => if member s then tagged s else s
      m_player := p },
    ((order.visit sh.m_spawns.values).filterMap fun s =>
      if member s then some (.changeItem (.spawn (tagged s)) tSpawnChangedALL) else none) ++
    ((order.visit sh.m_players.values).filterMap fun _ =>
      if member sh.m_player.toSpawn then some (.changeItem (.player p) tSpawnChangedALL) else none))

/-! ## The player -/

/-- `SpawnShell::playerChangedID`: the player leaves his old keys, a spawn under his new id goes,
    and he is announced under it. -/
def playerChangedID (sh : SpawnShell) (oldPlayerID newPlayerID : UInt16) : Out :=
  let o := sh.deleteItem .tPlayer 0
  if oldPlayerID = newPlayerID then o
  else
    ((o.andThen (·.deleteItem .tPlayer (idKey oldPlayerID))).andThen
      (·.deleteItem .tSpawn (idKey newPlayerID))).andThen fun sh =>
        ({ sh with m_players := sh.m_players.insert (idKey newPlayerID) () },
          [.changeItem (.player sh.m_player) tSpawnChangedALL])

/-- `Player::setPlayerID` with the slots of its `changedID`: the shell moves the player to his new
    key, and the change is announced. The id that the player has does nothing. -/
def setPlayerID (sh : SpawnShell) (playerID : UInt16) : Out :=
  if sh.m_player.m_ID = playerID then (sh, [])
  else
    let oldId := sh.m_player.m_ID
    ({ sh with m_player := { sh.m_player with m_ID := playerID } }.playerChangedID oldId
      playerID).andThen fun sh =>
        (sh, [.changedID sh, .playerChangeItem (.player sh.m_player) tSpawnChangedALL])

/-- `strcmp(spawn->name, m_player->realName().toLatin1().data())` is 0. -/
def isSelf (sh : SpawnShell) (s : SpawnStruct) : Bool :=
  s.name = (env.toLatin1 sh.m_player.m_realName).takeWhile (· ≠ 0)

/-- The update of a spawn that is already there has no signal and leaves the flags alone. -/
def zoneEntry (sh : SpawnShell) (s : SpawnStruct) : Out :=
  if sh.isSelf env s then
    (sh.setPlayerID s.spawnId).andThen fun sh =>
      let p := { sh.m_player with toSpawn := sh.m_player.toSpawn.update env s }
      ({ sh with m_player := p }, [.changeItem (.player p) tSpawnChangedALL])
  else
    match sh.m_spawns.lookup (idKey s.spawnId) with
    | some item =>
        ({ sh with m_spawns := sh.m_spawns.insert (idKey s.spawnId) (item.update env s) }, [])
    | none => sh.newSpawn env s

/-- `Player::updateNpcHP`: both numbers are stored and announced, for the player's own id alone. -/
def playerUpdateNpcHP (sh : SpawnShell) (spawnId : UInt32) (curHP maxHP : Int32) : Out :=
  if spawnId ≠ sh.m_player.m_ID.toUInt32 then (sh, [])
  else
    let p := { sh.m_player with m_curHP := curHP, m_maxHP := maxHP }
    ({ sh with m_player := p }, [.playerChangeItem (.player p) tSpawnChangedHP])

/-- The direction of a packet, by who sent it. -/
inductive Dir where
  | client
  | server
  deriving DecidableEq, Repr

/-- `Player::playerUpdateSelf`. Updates for something else that the player steers go to
    `playerUpdate2`, which `m_zoning` switches off. -/
def playerUpdateSelf (sh : SpawnShell) (m_zoning : Bool) (dir : Dir) (u : SpawnPositionUpdate) :
    Out :=
  if dir ≠ .client ∧ u.spawnId ≠ sh.m_player.m_ID then (sh, [])
  else
    let o := if dir = .client ∧ sh.m_player.m_ID = 0 then sh.setPlayerID u.spawnId else (sh, [])
    o.andThen fun sh =>
      if u.spawnId ≠ sh.m_player.m_ID then
        if m_zoning then (sh, []) else sh.updateSpawn env u
      else
        let p := sh.m_player.moveSelf u
        ({ sh with m_player := p }, [.playerChangeItem (.player p) tSpawnChangedPosition])

end

end SpawnShell

/-! ## Deleting an item -/

theorem deleteItem_of_find {sh : SpawnShell} {type : SpawnItemType} {id : Int} {item : Item}
    (h : sh.find type id = some item) :
    sh.deleteItem type id = (sh.remove type id, [.delItem item]) := by
  unfold SpawnShell.deleteItem
  rw [h]

theorem deleteItem_of_none {sh : SpawnShell} {type : SpawnItemType} {id : Int}
    (h : sh.find type id = none) : sh.deleteItem type id = (sh, []) := by
  unfold SpawnShell.deleteItem
  rw [h]

@[simp] theorem remove_dead (sh : SpawnShell) (type : SpawnItemType) (id : Int) :
    (sh.remove type id).m_dead = sh.m_dead := by
  cases type <;> rfl

@[simp] theorem remove_player (sh : SpawnShell) (type : SpawnItemType) (id : Int) :
    (sh.remove type id).m_player = sh.m_player := by
  cases type <;> rfl

@[simp] theorem remove_createUnknownSpawns (sh : SpawnShell) (type : SpawnItemType) (id : Int) :
    (sh.remove type id).createUnknownSpawns = sh.createUnknownSpawns := by
  cases type <;> rfl

@[simp] theorem remove_next (sh : SpawnShell) (type : SpawnItemType) (id : Int) :
    (sh.remove type id).next = sh.next := by
  cases type <;> rfl

/-- A deletion removes the item if there is one; the rest of the state stays. -/
theorem deleteItem_cases (sh : SpawnShell) (type : SpawnItemType) (id : Int) :
    (sh.find type id = none ∧ sh.deleteItem type id = (sh, [])) ∨
      ∃ item, sh.find type id = some item ∧
        sh.deleteItem type id = (sh.remove type id, [.delItem item]) := by
  cases h : sh.find type id with
  | none => exact Or.inl ⟨rfl, deleteItem_of_none h⟩
  | some item => exact Or.inr ⟨item, rfl, deleteItem_of_find h⟩

@[simp] theorem deleteItem_dead (sh : SpawnShell) (type : SpawnItemType) (id : Int) :
    (sh.deleteItem type id).1.m_dead = sh.m_dead := by
  rcases deleteItem_cases sh type id with ⟨-, heq⟩ | ⟨item, -, heq⟩ <;> simp [heq]

@[simp] theorem deleteItem_player (sh : SpawnShell) (type : SpawnItemType) (id : Int) :
    (sh.deleteItem type id).1.m_player = sh.m_player := by
  rcases deleteItem_cases sh type id with ⟨-, heq⟩ | ⟨item, -, heq⟩ <;> simp [heq]

@[simp] theorem deleteItem_createUnknownSpawns (sh : SpawnShell) (type : SpawnItemType) (id : Int) :
    (sh.deleteItem type id).1.createUnknownSpawns = sh.createUnknownSpawns := by
  rcases deleteItem_cases sh type id with ⟨-, heq⟩ | ⟨item, -, heq⟩ <;> simp [heq]

theorem deleteItem_spawns (sh : SpawnShell) (id id' : Int) :
    (sh.deleteItem .tSpawn id).1.m_spawns.lookup id' =
      if id' = id then none else sh.m_spawns.lookup id' := by
  rcases deleteItem_cases sh .tSpawn id with ⟨hnone, heq⟩ | ⟨item, -, heq⟩
  · rw [heq]
    have hlookup : sh.m_spawns.lookup id = none := Option.map_eq_none_iff.mp hnone
    by_cases h : id' = id
    · rw [if_pos h, h, hlookup]
    · rw [if_neg h]
  · rw [heq]
    exact Table.lookup_erase sh.m_spawns id id'

end ShoweqDaemon.Spawns
