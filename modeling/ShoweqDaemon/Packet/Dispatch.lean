/-
  From a message to its handlers: `EQPacketPayload` and `EQPacketStream`.

  An opcode has a list of payloads. `connect2` attaches a slot to one of them, `dispatchPacket`
  activates the slots of all that match the message.

  `connect2` looks for a payload of the direction, the type and the size check; where there is
  none its loop stays at the last payload of the opcode and attaches the slot there. A payload
  matches by its direction and by its check: none, the size of the type, or a multiple of it.

  Proved:
  * `dispatchPacket_total`: the handlers of the profile, of a new zone and of an entry are
    activated by messages of every length, the empty one included.
  * `dispatchPacket_groundSpawn`: as the opcode file stands, no server message reaches
    `newGroundItem`.
-/
import ShoweqDaemon.Lib.Table
import ShoweqDaemon.Spawn.Item

namespace ShoweqDaemon.Packet

open Spawns (QString)

/-- The directions, as bits of a mask. -/
def DIR_Client : UInt8 := 0x01
def DIR_Server : UInt8 := 0x02

/-- How a payload's size is checked: not at all, as equal to that of its type, or as a multiple of
    it. -/
inductive EQSizeCheckType where
  | SZC_None
  | SZC_Match
  | SZC_Modulus
  deriving DecidableEq, Repr

open EQSizeCheckType

/-- `EQPacketPayload`: a type for the payloads of an opcode from one or both directions. -/
structure EQPacketPayload where
  m_typeName : QString := []
  m_typeSize : ℕ := 0
  m_sizeCheckType : EQSizeCheckType := SZC_None
  m_dir : UInt8 := 0
  deriving DecidableEq, Repr

/-- `match`: does the payload take a message of this size and direction? Without a size check the
    message must be at least as long as the struct, unless the struct is a single byte. -/
def EQPacketPayload.isMatch (payload : EQPacketPayload) (size : ℕ) (dir : UInt8) : Bool :=
  match payload.m_sizeCheckType with
  | SZC_None =>
      payload.m_dir &&& dir != 0 && (payload.m_typeSize ≤ 1 || payload.m_typeSize ≤ size)
  | SZC_Match => payload.m_dir &&& dir != 0 && payload.m_typeSize == size
  | SZC_Modulus =>
      payload.m_dir &&& dir != 0 && 0 < payload.m_typeSize && size % payload.m_typeSize == 0

/-- A stream with slots `ρ`. What tells a payload from another is its address; here that is the
    name of its opcode with its place in the list. -/
structure EQPacketStream (ρ : Type) where
  m_dir : UInt8
  m_opcodeDB : Table QString (List EQPacketPayload)
  m_dispatchers : Table (QString × ℕ) (List ρ) := ∅

namespace EQPacketStream

variable {ρ : Type}

/-- The loop of `connect2`, from place `i` on: it ends with the first payload that is as asked for.
    `payload` is the one it had last, and stays so behind the end of the list. -/
def findPayload (dir : UInt8) (payloadType : QString) (szt : EQSizeCheckType) :
    List EQPacketPayload → ℕ → Option ℕ → Option ℕ
  | [], _, payload => payload
  | p :: rest, i, _ =>
      if p.m_dir &&& dir ≠ 0 ∧ p.m_typeName = payloadType ∧ p.m_sizeCheckType = szt then some i
      else findPayload dir payloadType szt rest (i + 1) (some i)

/-- `QObject::connect` succeeds if the receiver has the slot. -/
def connect2 (stream : EQPacketStream ρ) (hasSlot : ρ → Bool) (opcodeName payloadType : QString)
    (szt : EQSizeCheckType) (receiver : ρ) : EQPacketStream ρ × Bool :=
  match stream.m_opcodeDB.lookup opcodeName with
  | none => (stream, false)
  | some opcode =>
      match findPayload stream.m_dir payloadType szt opcode 0 none with
      | none => (stream, false)
      | some i =>
          let dispatch := (stream.m_dispatchers.lookup (opcodeName, i)).getD []
          ({ stream with
              m_dispatchers := stream.m_dispatchers.insert (opcodeName, i)
                (if hasSlot receiver then dispatch ++ [receiver] else dispatch) },
            hasSlot receiver)

/-- The slots that a message of `len` bytes activates, in order. -/
def dispatchPacket (stream : EQPacketStream ρ) (opcodeName : QString) (len : ℕ) : List ρ :=
  match stream.m_opcodeDB.lookup opcodeName with
  | none => []
  | some opcodeEntry =>
      opcodeEntry.zipIdx.flatMap fun p =>
        if p.1.isMatch len stream.m_dir then
          (stream.m_dispatchers.lookup (opcodeName, p.2)).getD []
        else []

end EQPacketStream

/-! ## The zone stream of the daemon -/

/-- The slots that get texts of the server or a struct they fill themselves. -/
inductive ZoneSlot where
  | zonePlayer
  | zoneNew
  | zoneEntry
  | newGroundItem
  deriving DecidableEq, Repr

/-- The opcodes of these slots with their payloads, as `zoneopcodes.xml` lists them: direction, type
    and size check, in the order of the file. -/
def zoneOpcodes : Table QString (List EQPacketPayload) :=
  let octets : EQPacketPayload :=
    { m_typeName := "uint8_t".toList, m_typeSize := 1, m_dir := DIR_Server }
  ((((∅ : Table QString (List EQPacketPayload)).insert "OP_PlayerProfile".toList [octets]).insert
    "OP_ZoneEntry".toList
      [{ m_typeName := "ClientZoneEntryStruct".toList
         m_typeSize := 68
         m_sizeCheckType := SZC_Match
         m_dir := DIR_Client }, octets]).insert
    "OP_NewZone".toList [octets]).insert
    "OP_GroundSpawn".toList
      [{ m_typeName := "makeDropStruct".toList, m_typeSize := 50, m_dir := DIR_Server },
        { octets with m_dir := DIR_Client }]

/-- `m_zone2ClientStream` as `DaemonApp` connects it, by the calls of `connect2` for these slots in
    their order. -/
def zone2ClientStream : EQPacketStream ZoneSlot :=
  let stream : EQPacketStream ZoneSlot := { m_dir := DIR_Server, m_opcodeDB := zoneOpcodes }
  let connect (stream : EQPacketStream ZoneSlot) (opcodeName payloadType : String)
      (szt : EQSizeCheckType) (receiver : ZoneSlot) : EQPacketStream ZoneSlot :=
    (stream.connect2 (fun _ => true) opcodeName.toList payloadType.toList szt receiver).1
  let stream := connect stream "OP_PlayerProfile" "charProfileStruct" SZC_Match .zonePlayer
  let stream := connect stream "OP_NewZone" "newZoneStruct" SZC_Match .zoneNew
  let stream := connect stream "OP_GroundSpawn" "makeDropStruct" SZC_Modulus .newGroundItem
  connect stream "OP_ZoneEntry" "uint8_t" SZC_None .zoneEntry

/-- No length keeps a message from these three: their opcodes have no other payload, so `connect2`
    ends with it, whatever was asked for. -/
theorem dispatchPacket_total (len : ℕ) :
    zone2ClientStream.dispatchPacket "OP_PlayerProfile".toList len = [.zonePlayer] ∧
      zone2ClientStream.dispatchPacket "OP_NewZone".toList len = [.zoneNew] ∧
      zone2ClientStream.dispatchPacket "OP_ZoneEntry".toList len = [.zoneEntry] :=
  ⟨rfl, rfl, rfl⟩

/-- `newGroundItem` is attached to the last payload of its opcode, which is of the client. -/
theorem dispatchPacket_groundSpawn (len : ℕ) :
    zone2ClientStream.dispatchPacket "OP_GroundSpawn".toList len = [] := by
  have hfirst : zone2ClientStream.m_dispatchers.lookup ("OP_GroundSpawn".toList, 0) = none := rfl
  show (if _ then (zone2ClientStream.m_dispatchers.lookup ("OP_GroundSpawn".toList, 0)).getD []
    else []) ++ [] = []
  rw [hfirst]
  split <;> rfl

end ShoweqDaemon.Packet
