/-
  The daemon: which handler a packet reaches, and which slots its signals reach.

  `DaemonApp` connects the packets to `ZoneMgr`, `Player`, `SpawnShell` and `GroupMgr`, and their
  signals to each other. All connections are direct: a step ends when the last slot has returned.
  A packet that holds several spawns, doors or position updates is as many events in a row.

  `Packet` lists what can come in, with what the payload holds, and what the filters are once they
  are loaded; `Event` is one of them with the order in which the hash tables are iterated
  meanwhile. `Daemon.step` is the state after an event: the shell after the handlers, and the
  group and the session after the slots of the signals that the handlers emitted, in their order.
  While the player is zoning some handlers return at once (`unlessZoning`). `dropNumber` and
  `dropSuffix` are the expressions that cut the end off the name of a zone.
-/
import ShoweqDaemon.Group.GroupMgr
import ShoweqDaemon.Session.Client

namespace ShoweqDaemon.Spawns

open SpawnShell (Dir)

/-! ## Zone names -/

/-- `$` matches at the end of a text and in front of a line feed that ends it. -/
def beforeEnd (drop : QString → QString) (name : QString) : QString :=
  if name.getLast? = some '\n' then drop name.dropLast ++ ['\n'] else drop name

/-- `replace(QRegularExpression("_\\d+$"), "")`: a trailing underscore with digits goes. -/
def dropNumber : QString → QString :=
  beforeEnd fun name =>
    let digits := name.reverse.takeWhile Char.isDigit
    match name.reverse.drop digits.length with
    | '_' :: rest => if digits = [] then name else rest.reverse
    | _ => name

/-- The same for an expression that is a plain text in front of `$`. -/
def dropSuffix (name suffix : QString) : QString :=
  beforeEnd (fun name =>
    if suffix.isSuffixOf name then name.take (name.length - suffix.length) else name) name

example : dropNumber "guktop_262".toList = "guktop".toList ∧
    dropNumber "guktop_262\n".toList = "guktop\n".toList := by decide

namespace ZoneMgr

/-- `ZoneMgr::ZoneMgr` -/
def init : ZoneMgr where
  m_shortZoneName := "unknown".toList
  m_longZoneName := "unknown".toList
  m_zoning := false

/-- `ZoneMgr::zoneEntryClient`: the zone is not known until the profile comes. -/
def zoneEntryClient : ZoneMgr := init

section
variable (env : Env) (z : ZoneMgr)

/-- `ZoneMgr::zonePlayer`: the zone of the profile, by the names that the table has for it. -/
def zonePlayer (profile : CharProfileStruct) : ZoneMgr where
  m_shortZoneName := env.zoneNameFromID profile.zoneId.toUInt16
  m_longZoneName := env.zoneLongNameFromID profile.zoneId.toUInt16
  m_zoning := false

/-- The profile comes again and again; only one from another zone, or one that ends a zoning, is
    announced. -/
def zoneChanged (profile : CharProfileStruct) : Bool :=
  env.zoneNameFromID profile.zoneId.toUInt16 ≠ z.m_shortZoneName || z.m_zoning

/-- `ZoneMgr::zoneChange` from the server: the zone that is entered, by the names of the table. -/
def zoneChange (zoneId : UInt16) : ZoneMgr where
  m_shortZoneName := env.zoneNameFromID zoneId
  m_longZoneName := env.zoneLongNameFromID zoneId
  m_zoning := true

/-- A known short name stays, an unknown one is read off the packet without its suffixes. -/
def zoneNew (shortName longName : List UInt8) : ZoneMgr where
  m_shortZoneName :=
    if z.m_shortZoneName = [] ∨ "unk".toList.isPrefixOf z.m_shortZoneName then
      dropSuffix (dropSuffix (dropSuffix (dropNumber (env.fromUtf8 shortName)) "_progress".toList)
        "_int".toList) "_errand".toList
    else z.m_shortZoneName
  m_longZoneName := env.fromUtf8 longName
  m_zoning := false

end

end ZoneMgr

/-! ## Events -/

/-- What the checkpoint file has about the player and the zone. -/
structure CheckpointData where
  player_id : UInt16
  player_name : QString
  player_last_name : QString
  player_level : UInt8
  player_class : UInt8
  player_race : UInt16
  player_deity : UInt16
  short_zone_name : QString
  long_zone_name : QString
  deriving DecidableEq, Repr

/-- What reaches the managers: the packets of the zone server that they handle, changes of filters
    and of the guild list, the checkpoint, and the subscription of the client. -/
inductive Packet where
  /-- `OP_ZoneEntry` from the client. -/
  | zoneEntryClient
  /-- `OP_PlayerProfile`. When it begins a zone, the filters of that zone are loaded. -/
  | zonePlayer (profile : CharProfileStruct) (loaded : FilterMgr)
  | zoneChange (zoneId : UInt16) (dir : Dir)
  | zoneNew (shortName longName : List UInt8)
  /-- `OP_GroundSpawn`. Under the opcode file that is installed the slot is attached to the payload
      of the client and is never called (`Packet.dispatchPacket_groundSpawn`). -/
  | newGroundItem (ds : MakeDropStruct)
  | removeGroundItem (dropId : UInt32)
  | newDoorSpawn (d : DoorStruct)
  /-- `OP_ZoneEntry` from the server. -/
  | zoneEntry (s : SpawnStruct)
  /-- One spawn of `OP_ZoneSpawns`, which comes in while zoning, too. -/
  | zoneSpawn (s : SpawnStruct)
  | newSpawn (s : SpawnStruct)
  /-- One update of `OP_MobUpdate`. -/
  | updateSpawn (u : SpawnPositionUpdate)
  /-- `OP_ClientUpdate`, for the player and for the shell. -/
  | clientUpdate (dir : Dir) (u : SpawnPositionUpdate)
  | updateNpcHP (spawnId : UInt32) (curHP maxHP : Int32)
  | deleteSpawn (spawnId : UInt16)
  | illusionSpawn (spawnId race : UInt32)
  | updateSpawnAppearance (spawnId type : UInt16) (parameter : UInt32)
  | killSpawn (spawnId killerId : UInt16)
  /-- `OP_GroupFollow`: the packet from its first byte. -/
  | addGroupMember (data : List UInt8)
  /-- `OP_GroupDisband`: the name up to its NUL. -/
  | removeGroupMember (membername : List UInt8)
  | filtersChanged (loaded : FilterMgr)
  | runtimeFiltersChanged (loaded : FilterMgr)
  | guildTagUpdated (guildMgr : GuildMgr) (guildId : UInt32)
  /-- `Player::applyCheckpoint` -/
  | playerCheckpoint (cp : CheckpointData)
  /-- `ZoneMgr::applyCheckpoint`, which loads the filters of the zone. -/
  | zoneCheckpoint (cp : CheckpointData) (loaded : FilterMgr)
  /-- The client asks for the stream. -/
  | subscribe

/-- A packet, and the order in which the hash tables are iterated meanwhile. -/
structure Event where
  order : Table.Order
  packet : Packet

/-- The managers that `DaemonApp` connects, and one session. -/
structure Daemon where
  shell : SpawnShell
  zone : ZoneMgr
  group : GroupMgr
  session : Session

section
variable (env : Env)

/-! ## Slots of zone signals and of profiles -/

/-- The slots of `ZoneMgr::zoneBegin`: the shell, the filters, the adapter. -/
def SpawnShell.zoneBegin (sh : SpawnShell) (order : Table.Order) (zone : ZoneMgr)
    (loaded : FilterMgr) : Out :=
  (sh.clear.andThen fun sh =>
    { sh with m_filterMgr := loaded }.refilterSpawns env order).andThen fun sh =>
      (sh, [.zoneBegin zone.m_shortZoneName zone.m_longZoneName])

/-- The slots of `ZoneMgr::zoneChanged`: the player, the shell, the adapter. -/
def SpawnShell.zoneChanged (sh : SpawnShell) (zone : ZoneMgr) : Out :=
  { sh with m_player := sh.m_player.zoneChanged }.clear.andThen fun sh =>
    (sh, [.zoneBegin zone.m_shortZoneName zone.m_longZoneName])

/-- `Player::player`. -/
def SpawnShell.playerProfile (sh : SpawnShell) (profile : CharProfileStruct) : Out :=
  let p := sh.m_player.player env sh.m_guildMgr profile
  ({ sh with m_player := p }, [.playerChangeItem (.player p) tSpawnChangedALL])

/-- What the checkpoint says about the player, its id apart. -/
def Player.restored (p : Player) (cp : CheckpointData) : Player :=
  { p with
    m_name := cp.player_name
    m_lastName := cp.player_last_name
    m_level := cp.player_level.toUInt32.toInt32
    m_class := cp.player_class
    m_race := cp.player_race
    m_deity := cp.player_deity }

namespace Daemon

/-- The daemon when it starts: no items, no zone, no client. -/
def init (player : Player) (filterMgr : FilterMgr) (guildMgr : GuildMgr)
    (createUnknownSpawns : Bool) : Daemon where
  shell := .init player filterMgr guildMgr createUnknownSpawns
  zone := .init
  group := .init
  session := .init

/-- `ZoneMgr` after a packet. Its slots run before it emits. -/
def zoneAfter (d : Daemon) : Packet → ZoneMgr
  | .zoneEntryClient => .zoneEntryClient
  | .zonePlayer profile _ => .zonePlayer env profile
  | .zoneChange zoneId _ => .zoneChange env zoneId
  | .zoneNew shortName longName => d.zone.zoneNew env shortName longName
  | .zoneCheckpoint cp _ =>
      if cp.short_zone_name = [] then d.zone
      else
        { m_shortZoneName := cp.short_zone_name
          m_longZoneName := cp.long_zone_name
          m_zoning := false }
  | _ => d.zone

/-- The handlers that return at once while the player is zoning. -/
def unlessZoning (d : Daemon) (o : Out) : Out := if d.zone.m_zoning then (d.shell, []) else o

/-- What a packet does to the shell and the player, with the signals in order. -/
def handle (d : Daemon) (e : Event) : Out :=
  let sh := d.shell
  match e.packet with
  | .zonePlayer profile loaded =>
      let o := if d.zone.zoneChanged env profile then
          sh.zoneBegin env e.order (.zonePlayer env profile) loaded
        else (sh, [])
      o.andThen fun sh => sh.playerProfile env profile
  | .zoneChange zoneId dir =>
      if dir = .server then sh.zoneChanged (.zoneChange env zoneId) else (sh, [])
  | .zoneCheckpoint cp loaded =>
      if cp.short_zone_name = [] then (sh, [])
      else sh.zoneBegin env e.order (d.zoneAfter env e.packet) loaded
  | .playerCheckpoint cp =>
      { sh with m_player := sh.m_player.restored cp }.setPlayerID cp.player_id
  | .newGroundItem ds => d.unlessZoning (sh.newGroundItem env ds)
  | .removeGroundItem dropId => d.unlessZoning (sh.removeGroundItem dropId)
  | .newDoorSpawn door => sh.newDoorSpawn env door
  | .zoneEntry s => sh.zoneEntry env s
  | .zoneSpawn s => sh.newSpawn env s
  | .newSpawn s => d.unlessZoning (sh.newSpawn env s)
  | .updateSpawn u =>
      d.unlessZoning (sh.updateSpawn env { u with deltaX := 0, deltaY := 0, deltaZ := 0 })
  | .clientUpdate dir u =>
      (sh.playerUpdateSelf env d.zone.m_zoning dir u).andThen fun sh =>
        if d.zone.m_zoning = true ∨ dir = .client then (sh, []) else sh.updateSpawn env u
  | .updateNpcHP spawnId curHP maxHP =>
      (sh.updateNpcHP spawnId curHP maxHP).andThen fun sh =>
        sh.playerUpdateNpcHP spawnId curHP maxHP
  | .deleteSpawn spawnId => sh.deleteSpawn spawnId
  | .illusionSpawn spawnId race => sh.illusionSpawn spawnId race
  | .updateSpawnAppearance spawnId type parameter =>
      sh.updateSpawnAppearance spawnId type parameter
  | .killSpawn spawnId killerId => sh.killSpawn env spawnId killerId
  | .filtersChanged loaded => { sh with m_filterMgr := loaded }.refilterSpawns env e.order
  | .runtimeFiltersChanged loaded =>
      { sh with m_filterMgr := loaded }.refilterSpawnsRuntime env e.order
  | .guildTagUpdated guildMgr guildId =>
      { sh with m_guildMgr := guildMgr }.updateGuildTag e.order guildId
  | .zoneEntryClient | .zoneNew _ _ | .addGroupMember _ | .removeGroupMember _ | .subscribe =>
      (sh, [])

/-- What the two packets of the group do to the roster, before the signals of the shell reach it. -/
def groupHandle (d : Daemon) (e : Event) : GroupMgr :=
  match e.packet with
  | .addGroupMember data => d.group.addGroupMember d.shell e.order data
  | .removeGroupMember membername => d.group.removeGroupMember env d.shell e.order membername
  | _ => d.group

/-- What the session does itself on an event. -/
def sessionHandle (d : Daemon) (e : Event) : Session :=
  match e.packet with
  | .subscribe => d.session.subscribe env e.order d.zone d.shell
  | _ => d.session

/-- The daemon after an event: the shell first, then the slots of the signals that it emitted. -/
def step (d : Daemon) (e : Event) : Daemon where
  shell := (d.handle env e).1
  zone := d.zoneAfter env e.packet
  group := (d.handle env e).2.foldl GroupMgr.onSignal (d.groupHandle env e)
  session := (d.sessionHandle env e).onSignals env e.order (d.zoneAfter env e.packet)
    (d.handle env e).2

end Daemon

end

end ShoweqDaemon.Spawns
