/-
  The spawn messages of `SessionAdapter` and the client that follows them.

  The adapter turns the signals it is connected to into payloads; the client folds them into a
  map from ids to spawns. A spawn message remembers the object it was made from (`origin`), which
  is not on the wire: it says which item an entry of the client's map is.

  Ids are 16 bits on the wire, and spawns, drops, doors and the player share them: an entry that
  comes later takes the place of one with the same id. `fillSpawn` writes a message from an item
  with the widths of the fields of the message, `snapshotItems` lists what a snapshot holds in the
  order in which it is sent, and `onChangeItem` tells a change that sends the item anew from one
  that sends some fields of it. `receive` is one payload at the client; `after` and `origins` are
  the client after a list of them, and whose messages it holds.
-/
import ShoweqDaemon.Lib.Replica
import ShoweqDaemon.Spawn.SpawnShell

namespace ShoweqDaemon.Spawns

/-! ## Messages -/

/-- The types of spawns in the protocol of the clients. -/
inductive SpawnType where
  | NPC
  | PC
  | CORPSE_PC
  | CORPSE_NPC
  | DROP
  | DOOR
  deriving DecidableEq, Repr

/-- A position with the deltas, as the client gets them. -/
structure Pos where
  x : Int16
  y : Int16
  z : Int16
  vx : Int16 := 0
  vy : Int16 := 0
  vz : Int16 := 0
  heading : Int16 := 0
  delta_heading : Int8 := 0
  animation : UInt8 := 0
  deriving DecidableEq, Repr

/-- `Spawn` of the protocol. `origin` is the address of the object that it was made from; the client
    does not get it. -/
structure SpawnMsg where
  origin : Addr
  id : UInt16
  type : SpawnType
  name : QString
  last_name : QString := []
  level : Int32 := 0
  race : UInt16 := 0
  class_ : UInt8 := 0
  deity : UInt16 := 0
  hp_cur : Int32 := 0
  hp_max : Int32 := 0
  guild_id : UInt16 := 0
  guild_server_id : UInt16 := 0
  is_gm : Bool := false
  filter_flags : UInt32 := 0
  pos : Pos
  category_ids : List Nat
  deriving DecidableEq, Repr

/-- The payloads of an envelope that are about items. -/
inductive Payload where
  | snapshot (zone_short zone_long : QString) (player_id : UInt16) (spawns : List SpawnMsg)
  | spawnAdded (spawn : SpawnMsg)
  | spawnUpdated (id : UInt16) (pos : Option Pos) (hp_cur : Option Int32) (name : Option QString)
  | spawnRemoved (id : UInt16)
  | spawnKilled (deceased_id killer_id : UInt16)
  | zoneChanged (zone_short zone_long : QString)
  /-- `PlayerStats`, which says nothing about spawns. -/
  | playerStats
  deriving DecidableEq, Repr

/-! ## Encoders -/

/-- `typeFromItem`: the class of the object first, then the kind of the spawn. -/
def typeFromItem (item : Item) : SpawnType :=
  match item with
  | .drop _ => .DROP
  | .door _ => .DOOR
  | .spawn _ | .player _ =>
      match item.spawn? with
      | some sp =>
          if sp.isCorpse then
            if sp.m_NPC = SPAWN_NPC_CORPSE then .CORPSE_NPC else .CORPSE_PC
          else if sp.isPlayer then .PC
          else .NPC
      | none => .NPC

/-- The player has its heading in degrees, other spawns are converted. -/
def headingOf (item : Item) (sp : Spawn) : Int16 :=
  match item with
  | .player p => p.m_headingDegrees
  | _ => Player.degrees sp.m_heading.toUInt8

/-- `fillPos`: place, speed and heading of a spawn, each as the item's accessor gives it. -/
def fillPos (item : Item) (sp : Spawn) : Pos where
  x := sp.m_x
  y := sp.m_y
  z := sp.m_z
  vx := sp.m_deltaX
  vy := sp.m_deltaY
  vz := sp.m_deltaZ
  heading := headingOf item sp
  delta_heading := sp.m_deltaHeading
  animation := sp.m_animation

/-- `fillSpawn`: all that the client learns of an item when it is announced. -/
def fillSpawn (env : Env) (item : Item) : SpawnMsg :=
  match item.spawn? with
  | some sp =>
      { origin := item.addr
        id := item.id
        type := typeFromItem item
        name := item.transformedName
        last_name := item.lastName
        level := item.level
        race := item.race
        class_ := item.classVal
        deity := item.deity
        hp_cur := sp.m_curHP
        hp_max := sp.m_maxHP
        guild_id := sp.m_guildID
        guild_server_id := sp.m_guildServerID
        is_gm := sp.m_gm ≠ 0
        filter_flags := sp.m_filterFlags
        pos := fillPos item sp
        category_ids := env.categoryIds item }
  | none =>
      { origin := item.addr
        id := item.id
        type := typeFromItem item
        name := item.name
        pos := { x := item.position.1, y := item.position.2.1, z := item.position.2.2 }
        category_ids := env.categoryIds item }

/-! ## The adapter -/

/-- `spawnItemType` of an item, as the number it is sorted by. The player is a `tSpawn`. -/
def Item.typeRank : Item → Nat
  | .door _ => 1
  | .drop _ => 2
  | .spawn _ | .player _ => 3

/-- The items of a snapshot: the four maps, and the player if no item has its id. -/
def snapshotItems (order : Table.Order) (sh : SpawnShell) : List Item :=
  let all := (order.visit sh.m_spawns.values).map .spawn ++ (order.visit sh.m_drops.values).map .drop
    ++ (order.visit sh.m_doors.values).map .door
    ++ (order.visit sh.m_players.values).map fun _ => .player sh.m_player
  let all :=
    if sh.m_player.m_ID ≠ 0 ∧ sh.m_player.m_ID ∉ all.map Item.id then all ++ [.player sh.m_player]
    else all
  all.mergeSort fun a b => a.id < b.id || (a.id = b.id && a.typeRank ≤ b.typeRank)

/-- `ZoneMgr`: the names of the zone, and whether the player is between two. -/
structure ZoneMgr where
  m_shortZoneName : QString
  m_longZoneName : QString
  m_zoning : Bool
  deriving DecidableEq, Repr

section
variable (env : Env)

/-- The payload that a new client gets first: the zone, the player's id and all items. -/
def snapshot (order : Table.Order) (zone : ZoneMgr) (sh : SpawnShell) : Payload :=
  .snapshot zone.m_shortZoneName zone.m_longZoneName sh.m_player.m_ID
    ((snapshotItems order sh).map (fillSpawn env))

/-- `onChangeItem`: a full message for `tSpawnChangedALL` and for changed filter flags. -/
def onChangeItem (item : Item) (changeType : UInt32) : Payload :=
  if changeType &&& tSpawnChangedALL = tSpawnChangedALL ∨
      changeType &&& (tSpawnChangedFilter ||| tSpawnChangedRuntimeFilter) ≠ 0 then
    .spawnAdded (fillSpawn env item)
  else
    match item.spawn? with
    | some sp =>
        .spawnUpdated item.id
          (if changeType &&& tSpawnChangedPosition ≠ 0 then some (fillPos item sp) else none)
          (if changeType &&& tSpawnChangedHP ≠ 0 then some sp.m_curHP else none)
          (if changeType &&& tSpawnChangedName ≠ 0 then some item.name else none)
    | none => .spawnUpdated item.id none none none

/-- What a subscribed adapter sends for a signal. `Player::changeItem` comes in twice: directly and
    forwarded by the shell. -/
def payloads (order : Table.Order) (zone : ZoneMgr) : Signal → List Payload
  | .addItem item => [.spawnAdded (fillSpawn env item)]
  | .delItem item => [.spawnRemoved item.id]
  | .changeItem item changeType => [onChangeItem env item changeType]
  | .playerChangeItem item changeType =>
      [onChangeItem env item changeType, onChangeItem env item changeType]
  | .killSpawn deceased killer killerId =>
      [.spawnKilled deceased.id ((killer.map Item.id).getD killerId)]
  | .changedID sh => [snapshot env order zone sh, .playerStats]
  | .zoneBegin shortName longName => [.zoneChanged shortName longName]
  | .clearItems => []

end

/-- What the adapter has sent, from its Subscribe on. -/
structure Session where
  m_subscribed : Bool
  sent : List Payload
  deriving DecidableEq, Repr

namespace Session

/-- A session before its client asks for the stream. -/
def init : Session where
  m_subscribed := false
  sent := []

/-- The slots are connected by the Subscribe. -/
def onSignals (env : Env) (order : Table.Order) (zone : ZoneMgr) (s : Session)
    (sigs : List Signal) : Session :=
  if s.m_subscribed then { s with sent := s.sent ++ sigs.flatMap (payloads env order zone) } else s

/-- `startStreaming`, once per session: a snapshot of all items goes out, and from then on the
    signals are forwarded. -/
def subscribe (env : Env) (order : Table.Order) (zone : ZoneMgr) (s : Session) (sh : SpawnShell) :
    Session :=
  if s.m_subscribed then s
  else
    { m_subscribed := true
      sent := s.sent ++ [snapshot env order zone sh, .playerStats] }

end Session

/-! ## The client -/

/-- The client's map. -/
abbrev Client := UInt16 → Option SpawnMsg

namespace Client

/-- The client takes a spawn under its id, over what it had there. -/
def put (c : Client) (m : SpawnMsg) : Client := Function.update c m.id (some m)

/-- What the client makes of a payload: a snapshot or a zone change replaces all it has, an added
    spawn takes the place of what has its id, and an update overwrites the fields that it carries.
    -/
def receive (c : Client) : Payload → Client
  | .snapshot _ _ _ spawns => spawns.foldl put fun _ => none
  | .spawnAdded spawn => c.put spawn
  | .spawnUpdated id pos hp_cur name =>
      Function.update c id ((c id).map fun m =>
        { m with pos := pos.getD m.pos, hp_cur := hp_cur.getD m.hp_cur, name := name.getD m.name })
  | .spawnRemoved id => Function.update c id none
  | .zoneChanged _ _ => fun _ => none
  | .spawnKilled _ _ => c
  | .playerStats => c

/-- The map after the payloads of the stream. -/
def after (sent : List Payload) : Client := sent.foldl receive fun _ => none

/-- Which object stands behind an entry. -/
def origins (c : Client) (id : UInt16) : Option Addr := (c id).map SpawnMsg.origin

end Client

end ShoweqDaemon.Spawns
