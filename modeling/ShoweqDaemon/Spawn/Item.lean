/-
  The items that `SpawnShell` holds: spawns, drops, doors and the player.

  A pointer to an item is its address `addr`; no two objects ever get the same one. `Env`
  collects what the items read from outside: the text conversions of Qt, the name tables, the
  categories. Texts are lists of characters.

  The structs of the packets stand first, with the fields that a handler reads. Then come the
  items with the accessors that the filters and the session adapter use: a door and a drop answer
  them with the defaults of `Item`. `Spawn.update` takes over the struct of a packet and
  `Spawn.ofStruct` is the constructor with it; `killSpawn` turns a spawn into its corpse.
  `filterString` is the text that the filter rules see, written field by field in the order of the
  source.
-/
import Mathlib.Data.UInt
import ShoweqDaemon.Lib.Numeral

namespace ShoweqDaemon.Spawns

open Numeral (printInt)

/-- A `QString` as its characters; where positions in the string matter the modules count UTF-16
    units (`Lib/Utf16.lean`). -/
abbrev QString := List Char

/-- The address of an item object. -/
abbrev Addr := Nat

/-! ## Constants -/

/-- The kinds of a spawn as `m_NPC` holds them, from spawn.h. -/
def SPAWN_PLAYER : UInt8 := 0
def SPAWN_NPC : UInt8 := 1
def SPAWN_PC_CORPSE : UInt8 := 2
def SPAWN_NPC_CORPSE : UInt8 := 3
def SPAWN_NPC_UNKNOWN : UInt8 := 4
def SPAWN_DROP : UInt8 := 6
def SPAWN_DOOR : UInt8 := 7
def SPAWN_SELF : UInt8 := 10
def DEITY_UNKNOWN : Int16 := 0

/-- What `killSpawn` appends to the name of the deceased. -/
def Spawn_Corpse_Designator : QString := "'s corpse".toList

/-! ## Packets -/

/-- The fields of `spawnStruct` that `Spawn::update` reads. Names end before their first NUL. -/
structure SpawnStruct where
  spawnId : UInt16 := 0
  name : List UInt8 := []
  lastName : List UInt8 := []
  x : Int16 := 0
  y : Int16 := 0
  z : Int16 := 0
  deltaX : UInt16 := 0
  deltaY : UInt16 := 0
  deltaZ : UInt16 := 0
  heading : UInt8 := 0
  deltaHeading : Int8 := 0
  animation : UInt8 := 0
  light : UInt8 := 0
  deity : Int16 := 0
  race : UInt16 := 0
  class_ : UInt8 := 0
  curHp : Int16 := 0
  guildID : Int16 := 0
  level : UInt8 := 0
  equipment : List UInt16 := List.replicate 9 0
  bodytype : Int16 := 0
  gm : Int8 := 0
  npc : UInt8 := 0
  deriving DecidableEq, Repr

/-- `spawnPositionUpdate`, also the layout of `playerSpawnPosStruct` and `playerSelfPosStruct`. -/
structure SpawnPositionUpdate where
  spawnId : UInt16
  animation : Int8 := 0
  heading : Int8 := 0
  deltaHeading : Int8 := 0
  x : Int16 := 0
  y : Int16 := 0
  z : Int16 := 0
  deltaX : Int16 := 0
  deltaY : Int16 := 0
  deltaZ : Int16 := 0
  deriving DecidableEq, Repr

/-- `makeDropStruct` as `newGroundItem` fills it, its floats already cut to `int16_t`. -/
structure MakeDropStruct where
  dropId : UInt32
  idFile : List UInt8 := []
  x : Int16 := 0
  y : Int16 := 0
  z : Int16 := 0
  deriving DecidableEq, Repr

/-- `doorStruct`, its floats already cut to `int16_t`. Only the fields that a door keeps are here.
    -/
structure DoorStruct where
  doorId : UInt8
  name : List UInt8 := []
  x : Int16 := 0
  y : Int16 := 0
  z : Int16 := 0
  deriving DecidableEq, Repr

/-- The fields of `charProfileStruct` that `Player::player` puts into the spawn. The heading is
    what `lrintf` makes of the float, the position is rounded the same way. -/
structure CharProfileStruct where
  zoneId : UInt32
  name : List UInt8 := []
  lastName : List UInt8 := []
  race : UInt16 := 0
  class_ : UInt16 := 0
  deity : UInt16 := 0
  curHp : Int16 := 0
  level : UInt8 := 0
  guildID : UInt16 := 0
  x : Int16 := 0
  y : Int16 := 0
  z : Int16 := 0
  heading : Int32 := 0
  deriving DecidableEq, Repr

/-! ## Objects -/

/-- `Spawn`, the base class of `Player`: what the packets say of a creature, and the two masks of
    filters that match it. Position and deltas are in the units that the source keeps. -/
structure Spawn where
  addr : Addr
  m_ID : UInt16
  m_NPC : UInt8 := SPAWN_NPC_UNKNOWN
  m_name : QString := []
  m_lastName : QString := []
  m_guildTag : QString := []
  m_x : Int16 := 0
  m_y : Int16 := 0
  m_z : Int16 := 0
  m_deltaX : Int16 := 0
  m_deltaY : Int16 := 0
  m_deltaZ : Int16 := 0
  m_heading : Int8 := 0
  m_deltaHeading : Int8 := 0
  m_animation : UInt8 := 0
  m_light : UInt8 := 0
  m_deity : UInt16 := 0
  m_race : UInt16 := 0
  m_class : UInt8 := 0
  m_curHP : Int32 := 0
  m_maxHP : Int32 := 0
  m_guildID : UInt16 := 0xffff
  m_guildServerID : UInt16 := 0
  m_level : Int32 := 0
  m_equipment : List UInt16 := List.replicate 9 0
  m_typeflag : UInt8 := 0
  m_gm : UInt8 := 0
  m_filterFlags : UInt32 := 0
  m_runtimeFilterFlags : UInt32 := 0
  deriving DecidableEq, Repr

/-- The one object of class `Player`, a `Spawn` whose accessors may return defaults. -/
structure Player extends Spawn where
  m_realName : QString := []
  m_defaultName : QString := "You".toList
  m_defaultLastName : QString := []
  m_defaultLevel : UInt8 := 1
  m_defaultRace : UInt16 := 1
  m_defaultClass : UInt8 := 1
  m_defaultDeity : UInt16 := 396
  m_useDefaults : Bool := true
  m_useAutoDetectedSettings : Bool := true
  m_headingDegrees : Int16 := 360
  deriving DecidableEq, Repr

/-- A drop or a door. Both add nothing to `Item` that is read here. -/
structure Fixture where
  addr : Addr
  m_ID : UInt16
  m_NPC : UInt8
  m_name : QString := []
  m_x : Int16 := 0
  m_y : Int16 := 0
  m_z : Int16 := 0
  m_filterFlags : UInt32 := 0
  m_runtimeFilterFlags : UInt32 := 0
  deriving DecidableEq, Repr

/-- An item on the ground and a door are the same record under two names. -/
abbrev Drop := Fixture
abbrev Door := Fixture

/-- What a pointer to an `Item` can point to. The accessors below choose as the virtual functions of
    the source do. -/
inductive Item where
  | spawn (s : Spawn)
  | player (p : Player)
  | drop (d : Drop)
  | door (d : Door)
  deriving DecidableEq, Repr

/-! ## Accessors -/

namespace Spawn

/-- `isCorpse`, of either kind. -/
def isCorpse (s : Spawn) : Bool :=
  s.m_NPC = SPAWN_PC_CORPSE ∨ s.m_NPC = SPAWN_NPC_CORPSE

/-- `isPlayer`, for others and for the player's own spawn. -/
def isPlayer (s : Spawn) : Bool :=
  s.m_NPC = SPAWN_PLAYER ∨ s.m_NPC = SPAWN_SELF

end Spawn

namespace Player

/-- The test that the overriding accessors make. -/
def defaults (p : Player) : Bool := !p.m_useAutoDetectedSettings || p.m_useDefaults

/-- The accessors that `Player` overrides: the settings of the user while `m_useDefaults` stands,
    else what the profile said. -/
def name (p : Player) : QString := if p.defaults then p.m_defaultName else p.m_name
def lastName (p : Player) : QString := if p.defaults then p.m_defaultLastName else p.m_lastName
def level (p : Player) : Int32 := if p.defaults then p.m_defaultLevel.toUInt32.toInt32 else p.m_level
def race (p : Player) : UInt16 := if p.defaults then p.m_defaultRace else p.m_race
def classVal (p : Player) : UInt8 := if p.defaults then p.m_defaultClass else p.m_class
def deity (p : Player) : UInt16 := if p.defaults then p.m_defaultDeity else p.m_deity

end Player

/-- `Spawn::cleanedName` of a name: digits go, underscores become blanks. -/
def cleanedName (name : QString) : QString :=
  (name.filter fun c => !('0' ≤ c && c ≤ '9')).map fun c => if c = '_' then ' ' else c

/-- `Spawn::transformedName` of a name: a leading article moves to the end. -/
def transformedName (name : QString) : QString :=
  let temp := cleanedName name
  if "a ".toList.isPrefixOf temp then temp.drop 2 ++ ", a".toList
  else if "an ".toList.isPrefixOf temp then temp.drop 3 ++ ", an".toList
  else if "the ".toList.isPrefixOf temp then temp.drop 4 ++ ", the".toList
  else temp

namespace Item

/-- The address of the object, which tells two items with the same fields apart. -/
def addr : Item → Addr
  | spawn s => s.addr
  | player p => p.addr
  | drop d | door d => d.addr

/-- `Item::id`, 16 bits for every kind. -/
def id : Item → UInt16
  | spawn s => s.m_ID
  | player p => p.m_ID
  | drop d | door d => d.m_ID

/-- The `Spawn` that a `dynamic_cast` to it finds. -/
def spawn? : Item → Option Spawn
  | spawn s => some s
  | player p => some p.toSpawn
  | drop _ | door _ => none

/-- `Item::NPC`, the kind of the item. -/
def NPC : Item → UInt8
  | spawn s => s.m_NPC
  | player p => p.m_NPC
  | drop d | door d => d.m_NPC

/-- Virtual: the player may answer with its default. -/
def name : Item → QString
  | spawn s => s.m_name
  | player p => p.name
  | drop d | door d => d.m_name

/-- `Item::transformedName`: only the names of spawns are transformed. -/
def transformedName : Item → QString
  | spawn s => Spawns.transformedName s.m_name
  | player p => Spawns.transformedName p.name
  | drop d | door d => d.m_name

/-- `Item::level`; an item on the ground and a door have none. -/
def level : Item → Int32
  | spawn s => s.m_level
  | player p => p.level
  | drop _ | door _ => 0

/-- `Item::lastName`; only spawns and the player have one. -/
def lastName : Item → QString
  | spawn s => s.m_lastName
  | player p => p.lastName
  | drop _ | door _ => []

/-- `Item::race`, 0 for what is no spawn. -/
def race : Item → UInt16
  | spawn s => s.m_race
  | player p => p.race
  | drop _ | door _ => 0

/-- `Item::classVal`, 0 for what is no spawn. -/
def classVal : Item → UInt8
  | spawn s => s.m_class
  | player p => p.classVal
  | drop _ | door _ => 0

/-- `Item::deity`, 0 for what is no spawn. -/
def deity : Item → UInt16
  | spawn s => s.m_deity
  | player p => p.deity
  | drop _ | door _ => 0

/-- Where the item is, in the units of the map. -/
def position : Item → Int16 × Int16 × Int16
  | spawn s => (s.m_x, s.m_y, s.m_z)
  | player p => (p.m_x, p.m_y, p.m_z)
  | drop d | door d => (d.m_x, d.m_y, d.m_z)

end Item

/-! ## What is read from outside -/

/-- Qt's text conversions, the name tables of the source, the zone table, the clock at the time an
    object is made, and the categories. -/
structure Env where
  fromUtf8 : List UInt8 → QString
  toLatin1 : QString → List UInt8
  raceString : UInt16 → QString
  classString : UInt8 → QString
  lightName : UInt8 → QString
  deityName : UInt16 → QString
  typeString : UInt8 → QString
  raceTeam : UInt16 → Int
  deityTeam : UInt16 → Int
  /-- `Spawn::info` of the light and the equipment. -/
  info : UInt8 → List UInt16 → QString
  /-- The name that `Drop::update` gives to a drop with this `idFile`. -/
  dropName : List UInt8 → QString
  spawnTimeStr : Addr → QString
  zoneNameFromID : UInt16 → QString
  zoneLongNameFromID : UInt16 → QString
  /-- The indices of the categories that an item falls into. -/
  categoryIds : Item → List Nat

/-- The masks of the filters that are loaded. -/
structure FilterMgr where
  filterMask : QString → UInt8 → UInt32
  runtimeFilterMask : QString → UInt8 → UInt32

/-- No filters. -/
def FilterMgr.none : FilterMgr where
  filterMask := fun _ _ => 0
  runtimeFilterMask := fun _ _ => 0

/-- An `Env` for examples: names are ASCII, every table is empty, and a zone has its number for a
    name. -/
def Env.ascii : Env where
  fromUtf8 := List.map fun b => Char.ofNat b.toNat
  toLatin1 := List.map fun c => c.toNat.toUInt8
  raceString := fun _ => []
  classString := fun _ => []
  lightName := fun _ => []
  deityName := fun _ => []
  typeString := fun _ => []
  raceTeam := fun _ => 0
  deityTeam := fun _ => 0
  info := fun _ _ => []
  dropName := fun _ => []
  spawnTimeStr := fun _ => []
  zoneNameFromID := fun id => (toString id.toNat).toList
  zoneLongNameFromID := fun id => (toString id.toNat).toList
  categoryIds := fun _ => []

/-- `GuildMgr::guildIdToName`. -/
abbrev GuildMgr := UInt16 → UInt16 → QString

section
variable (env : Env)

/-- `Spawn::filterString`, with what the overriding accessors answer. -/
def spawnFilterString (item : Item) (s : Spawn) : QString :=
  "Name:".toList ++ item.transformedName ++ ":Level:".toList ++ printInt item.level.toInt ++
  ":Race:".toList ++ env.raceString item.race ++ ":Class:".toList ++ env.classString item.classVal ++
  ":NPC:".toList ++ printInt (if s.m_NPC = SPAWN_SELF then 0 else s.m_NPC.toNat) ++
  ":X:".toList ++ printInt s.m_x.toInt ++ ":Y:".toList ++ printInt s.m_y.toInt ++
  ":Z:".toList ++ printInt s.m_z.toInt ++ ":Light:".toList ++ env.lightName s.m_light ++
  ":Deity:".toList ++ env.deityName item.deity ++
  ":RTeam:".toList ++ printInt (env.raceTeam s.m_race) ++
  ":DTeam:".toList ++ printInt (env.deityTeam s.m_deity) ++
  ":Type:".toList ++ env.typeString s.m_typeflag ++
  ":LastName:".toList ++ item.lastName ++ ":Guild:".toList ++ s.m_guildTag ++
  ":Spawn:".toList ++ env.spawnTimeStr s.addr ++ ":Info:".toList ++ env.info s.m_light s.m_equipment ++
  ":".toList ++
  if s.m_gm ≠ 0 then "GM:".toList ++ printInt s.m_gm.toNat ++ ":".toList else []

/-- `Item::filterString` of a drop or a door. -/
def fixtureFilterString (raceString : QString) (f : Fixture) : QString :=
  "Name:".toList ++ f.m_name ++ ":Race:".toList ++ raceString ++ ":Class:Thing:NPC:".toList ++
  printInt f.m_NPC.toNat ++ ":X:".toList ++ printInt f.m_x.toInt ++
  ":Y:".toList ++ printInt f.m_y.toInt ++ ":Z:".toList ++ printInt f.m_z.toInt ++ ":".toList

/-- `Item::filterString`: the text that the filters of all categories are matched with. -/
def Item.filterString : Item → QString
  | .spawn s => spawnFilterString env (.spawn s) s
  | .player p => spawnFilterString env (.player p) p.toSpawn
  | .drop d => fixtureFilterString "Drop".toList d
  | .door d => fixtureFilterString "Door".toList d

/-- The level that the filters see: a `uint8_t`. -/
def Item.filterLevel (item : Item) : UInt8 := item.level.toUInt32.toUInt8

/-! ## Changing an object -/

/-- The class that `Spawn::update` stores: a corpse without a deity is a dead monster. -/
def SpawnStruct.storedNPC (s : SpawnStruct) : UInt8 :=
  if s.npc = SPAWN_PC_CORPSE ∧ s.deity = DEITY_UNKNOWN then SPAWN_NPC_CORPSE else s.npc

namespace Spawn

/-- `Spawn::update` with the struct of `OP_NewSpawn` and `OP_ZoneSpawns`: every field that the
    struct has is taken over, the position only of what can move. -/
def update (sp : Spawn) (s : SpawnStruct) : Spawn :=
  let npc := s.storedNPC
  -- only non corpses move
  let corpse : Bool := npc = SPAWN_PC_CORPSE ∨ npc = SPAWN_NPC_CORPSE
  { sp with
    m_name := env.fromUtf8 s.name
    m_lastName := env.fromUtf8 s.lastName
    m_x := s.x >>> 3
    m_y := s.y >>> 3
    m_z := s.z >>> 3
    m_light := s.light
    m_deity := s.deity.toUInt16
    m_race := s.race
    m_class := s.class_
    m_curHP := s.curHp.toInt32
    m_maxHP := 100
    m_guildID := s.guildID.toUInt16
    m_guildServerID := 0
    m_level := s.level.toUInt32.toInt32
    m_equipment := s.equipment
    m_typeflag := s.bodytype.toUInt16.toUInt8
    m_gm := s.gm.toUInt8
    m_NPC := npc
    m_animation := s.animation
    m_deltaX := if corpse then 0 else (s.deltaX >>> 2).toInt16
    m_deltaY := if corpse then 0 else (s.deltaY >>> 2).toInt16
    m_deltaZ := if corpse then 0 else (s.deltaZ >>> 2).toInt16
    m_heading := if corpse then 0 else s.heading.toInt8
    m_deltaHeading := if corpse then 0 else s.deltaHeading }

/-- `new Spawn(s)`. -/
def ofStruct (addr : Addr) (s : SpawnStruct) : Spawn :=
  ({ addr, m_ID := s.spawnId } : Spawn).update env s

/-- The constructor for a spawn of which only a position update was seen. -/
def ofUpdate (addr : Addr) (u : SpawnPositionUpdate) : Spawn where
  addr := addr
  m_ID := u.spawnId
  m_name := "unknown".toList
  m_x := u.x
  m_y := u.y
  m_z := u.z
  m_deltaX := u.deltaX
  m_deltaY := u.deltaY
  m_deltaZ := u.deltaZ
  m_heading := u.heading
  m_deltaHeading := u.deltaHeading
  m_animation := u.animation.toUInt8

/-- What `SpawnShell::updateSpawn` sets on an item it finds. -/
def move (sp : Spawn) (u : SpawnPositionUpdate) : Spawn :=
  { sp with
    m_x := u.x
    m_y := u.y
    m_z := u.z
    m_animation := u.animation.toUInt8
    m_deltaX := u.deltaX
    m_deltaY := u.deltaY
    m_deltaZ := u.deltaZ
    m_heading := u.heading
    m_deltaHeading := u.deltaHeading }

/-- `Spawn::killSpawn`: the spawn stops, loses its hit points and becomes a corpse of its kind. -/
def killSpawn (sp : Spawn) : Spawn :=
  { sp with
    m_deltaX := 0
    m_deltaY := 0
    m_deltaZ := 0
    m_heading := 0
    m_deltaHeading := 0
    m_curHP := 0
    m_maxHP := 0
    m_NPC :=
      if sp.m_NPC = SPAWN_PLAYER ∨ sp.m_NPC = SPAWN_SELF ∨ sp.m_NPC = SPAWN_PC_CORPSE then
        SPAWN_PC_CORPSE
      else SPAWN_NPC_CORPSE }

/-- The mask of the filters that match the spawn as it is now. -/
def updateFilterFlags (f : FilterMgr) (sp : Spawn) : Spawn :=
  let item := Item.spawn sp
  { sp with m_filterFlags := f.filterMask (item.filterString env) item.filterLevel }

/-- The mask of the filters that were added at runtime and match the spawn as it is now. -/
def updateRuntimeFilterFlags (f : FilterMgr) (sp : Spawn) : Spawn :=
  let item := Item.spawn sp
  { sp with m_runtimeFilterFlags := f.runtimeFilterMask (item.filterString env) item.filterLevel }

end Spawn

namespace Player

/-- The same for the player, whose accessors may answer the defaults. -/
def updateFilterFlags (f : FilterMgr) (p : Player) : Player :=
  let item := Item.player p
  { p with m_filterFlags := f.filterMask (item.filterString env) item.filterLevel }

/-- The same for the player and the runtime filters. -/
def updateRuntimeFilterFlags (f : FilterMgr) (p : Player) : Player :=
  let item := Item.player p
  { p with m_runtimeFilterFlags := f.runtimeFilterMask (item.filterString env) item.filterLevel }

/-- `360 - ((heading * 360) >> 8)` of a heading cut to eight bits. -/
def degrees (heading : UInt8) : Int16 := .ofInt (360 - (heading.toNat * 360) / 256)

/-- `Player::zoneChanged`: `reset` and `clear`. The id goes back to 0 without a signal. -/
def zoneChanged (p : Player) : Player :=
  { p with
    m_useDefaults := true
    m_level := 1
    m_race := 1
    m_class := 1
    m_curHP := 0
    m_maxHP := 0
    m_heading := 0
    m_headingDegrees := degrees 0
    m_ID := 0
    m_x := 0
    m_y := 0
    m_z := 0 }

/-- `Player::player`, its stores to the spawn, with `loadProfile`. -/
def player (p : Player) (guildMgr : GuildMgr) (profile : CharProfileStruct) : Player :=
  { p with
    m_NPC := SPAWN_SELF
    m_typeflag := 1
    m_name := env.fromUtf8 profile.name
    m_realName := env.fromUtf8 profile.name
    m_lastName := env.fromUtf8 profile.lastName
    m_useDefaults := false
    m_race := profile.race
    m_class := profile.class_.toUInt8
    m_deity := profile.deity
    m_curHP := profile.curHp.toInt32
    m_level := profile.level.toUInt32.toInt32
    m_guildID := profile.guildID
    m_guildServerID := 0
    m_guildTag := guildMgr profile.guildID 0
    m_x := profile.x
    m_y := profile.y
    m_z := profile.z
    m_deltaX := 0
    m_deltaY := 0
    m_deltaZ := 0
    m_heading := profile.heading.toInt8
    m_deltaHeading := 0
    m_headingDegrees := degrees profile.heading.toUInt32.toUInt8 }

/-- What `playerUpdateSelf` sets on the player: place, speed and heading, also in degrees. -/
def moveSelf (p : Player) (u : SpawnPositionUpdate) : Player :=
  { p with
    m_x := u.x
    m_y := u.y
    m_z := u.z
    m_deltaX := u.deltaX
    m_deltaY := u.deltaY
    m_deltaZ := u.deltaZ
    m_heading := u.heading
    m_deltaHeading := u.deltaHeading
    m_headingDegrees := degrees u.heading.toUInt8 }

end Player

/-- The two kinds of `Fixture`, each with its class number and its constructor. -/
def Fixture.updateFilterFlags (mk : Fixture → Item) (f : FilterMgr) (d : Fixture) : Fixture :=
  { d with m_filterFlags := f.filterMask ((mk d).filterString env) (mk d).filterLevel }

/-- The runtime filters for an item on the ground or a door; `mk` says which of the two it is. -/
def Fixture.updateRuntimeFilterFlags (mk : Fixture → Item) (f : FilterMgr) (d : Fixture) : Fixture :=
  { d with m_runtimeFilterFlags := f.runtimeFilterMask ((mk d).filterString env) (mk d).filterLevel }

/-- `Drop::update`. The name handed to it is always empty: `newGroundItem` has cleared it. -/
def Drop.update (d : Drop) (ds : MakeDropStruct) : Drop :=
  { d with m_x := ds.x, m_y := ds.y, m_z := ds.z, m_name := env.dropName ds.idFile }

/-- `new Drop(&ds, name)`: the id is cut to sixteen bits. -/
def Drop.ofStruct (addr : Addr) (ds : MakeDropStruct) : Drop :=
  Drop.update env { addr, m_ID := ds.dropId.toUInt16, m_NPC := SPAWN_DROP } ds

/-- `Door::update`: the name is made of the door's own name and its number. -/
def Door.update (d : Door) (s : DoorStruct) : Door :=
  { d with
    m_x := s.x
    m_y := s.y
    m_z := s.z
    m_name := "Door: ".toList ++ env.fromUtf8 s.name ++ " (".toList ++ printInt s.doorId.toNat ++
      ") ".toList }

/-- The constructor of `Door`. -/
def Door.ofStruct (addr : Addr) (s : DoorStruct) : Door :=
  Door.update env { addr, m_ID := s.doorId.toUInt16, m_NPC := SPAWN_DOOR } s

end

end ShoweqDaemon.Spawns
