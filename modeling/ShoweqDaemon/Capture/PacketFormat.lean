/-
  `EQUDPIPPacketFormat` and `EQPacket::dispatchPacket` on the memory of a captured frame.

  Memory is read byte by byte, and every read is noted, so is every unsigned subtraction of
  a length and every pointer with a length that is handed on. What lies behind the frame is
  memory too: a read there returns a byte like any other. A struct field that spans several
  bytes notes each of them.

  The host is little-endian: a `uint16_t` read through a cast has its low byte first, and
  `ip_hl` is the low half of byte 0.
-/
import ShoweqDaemon.Lib.Audit
import ShoweqDaemon.Decoder.Streams

namespace ShoweqDaemon.Capture

open Audit Decoder

/-- What lies at each address, counted from the start of the frame. -/
abbrev Memory := Nat → UInt8

/-- What the code does with memory and with lengths, so that each use can be judged on its own. -/
inductive Access where
  | read (address : Nat)
  /-- A subtraction from the IP length. -/
  | minus (a b : UInt32)
  /-- A subtraction from the length of the UDP payload. -/
  | payloadMinus (a b : UInt32)
  /-- A pointer and a length handed to someone else. -/
  | region (address : Nat) (length : UInt32)

/-! ## Reads -/

/-- The read of one byte, which is noted. -/
def byte (mem : Memory) (i : Nat) : Noted Access UInt8 := do
  note (.read i)
  pure (mem i)

/-- `ntohs` of two bytes, `eqntohuint16`. -/
def be16 (mem : Memory) (i : Nat) : Noted Access UInt16 := do
  let hi ← byte mem i
  let lo ← byte mem (i + 1)
  pure (ByteReader.be16 hi lo)

/-- `*(uint16_t*)`. -/
def le16 (mem : Memory) (i : Nat) : Noted Access UInt16 := do
  let lo ← byte mem i
  let hi ← byte mem (i + 1)
  pure (ByteReader.be16 hi lo)

/-- An `in_addr_t` as it stands in the header. -/
def le32 (mem : Memory) (i : Nat) : Noted Access UInt32 := do
  let lo ← le16 mem i
  let hi ← le16 mem (i + 2)
  pure (hi.toUInt32 <<< 16 ||| lo.toUInt32)

/-- The difference that is taken as the length behind an IP or UDP header; it wraps when the header
    is longer. -/
def minus (a b : UInt32) : Noted Access UInt32 := do
  note (.minus a b)
  pure (a - b)

/-- The difference that is taken as the length of a payload; it wraps in the same way. -/
def payloadMinus (a b : UInt32) : Noted Access UInt32 := do
  note (.payloadMinus a b)
  pure (a - b)

/-! ## The protocol packet -/

/-- The net opcodes of the session protocol, in the byte order of the source's constants. -/
def OP_Combined : UInt16 := 0x0300
def OP_SessionStatRequest : UInt16 := 0x0700
def OP_SessionStatResponse : UInt16 := 0x0800
def OP_Packet : UInt16 := 0x0900
def OP_Oversized : UInt16 := 0x0d00
def OP_AppCombined : UInt16 := 0x1900

/-- The flag of a payload that was compressed. -/
def PROTOCOL_FLAG_COMPRESSED : UInt8 := 0x5a

/-- An opcode of the application, told from a net opcode by its low byte. -/
def IS_APP_OPCODE (op : UInt16) : Bool := op &&& 0x00ff != 0x0000

/-- `EQProtocolPacket`: where the packet and its payload begin, how long they are, and what was read
    off its head. Pointers are addresses. -/
structure EQProtocolPacket where
  m_packet : Nat
  m_length : UInt32
  m_netOp : UInt16
  m_flags : UInt8
  m_payload : Nat
  m_payloadLength : UInt32
  m_rawPayload : Nat
  m_rawPayloadLength : UInt32
  m_arqSeq : UInt16
  m_bDecoded : Bool
  m_subpacket : Bool

/-- `hasFlags` and `hasCRC`, whose bodies are the same. -/
def hasFlags (m_subpacket : Bool) (m_netOp : UInt16) : Bool :=
  if m_subpacket then false
  else
    m_netOp == OP_SessionStatRequest || m_netOp == OP_SessionStatResponse ||
      m_netOp == OP_Combined || m_netOp == OP_Packet || m_netOp == OP_Oversized ||
      m_netOp == OP_AppCombined || IS_APP_OPCODE m_netOp

/-- Packets with flags end in a checksum. -/
def hasCRC (m_subpacket : Bool) (m_netOp : UInt16) : Bool := hasFlags m_subpacket m_netOp

/-- The two kinds of packets that carry a sequence number. -/
def hasArqSeq (m_netOp : UInt16) : Bool := m_netOp == OP_Packet || m_netOp == OP_Oversized

/-- The flags and the opcode of a packet with flags. An app opcode is split by them. -/
def flagsAndOp (mem : Memory) (packet : Nat) (netOp : UInt16) : Noted Access (UInt8 × UInt16) :=
  if IS_APP_OPCODE netOp then do
    let flags ← byte mem (packet + 1)
    let hi ← byte mem (packet + 2)
    let lo ← byte mem packet
    pure (flags, ByteReader.be16 hi lo)
  else do
    let flags ← byte mem (packet + 2)
    pure (flags, netOp)

/-- `init` up to the sequence number: the flags and the checksum are taken off the length, and the
    payload begins behind them. A compressed payload is not lined up before it is inflated. -/
def EQProtocolPacket.lineUp (mem : Memory) (packet : Nat) (length : UInt32) (subpacket : Bool)
    (netOp : UInt16) : Noted Access EQProtocolPacket :=
  if hasFlags subpacket netOp then do
    let (flags, netOp) ← flagsAndOp mem packet netOp
    let rawLength ← payloadMinus length 2
    let rawLength ← payloadMinus rawLength 1
    let rawLength ← payloadMinus rawLength (if hasCRC subpacket netOp then 2 else 0)
    let decoded := flags &&& PROTOCOL_FLAG_COMPRESSED == 0
    pure
      { m_packet := packet, m_length := length, m_netOp := netOp, m_flags := flags
        m_payload := if decoded then packet + 3 else 0
        m_payloadLength := if decoded then rawLength else 0
        m_rawPayload := packet + 3, m_rawPayloadLength := rawLength, m_arqSeq := 0
        m_bDecoded := decoded, m_subpacket := subpacket }
  else do
    let rawLength ← payloadMinus length 2
    let rawLength ← payloadMinus rawLength (if hasCRC subpacket netOp then 2 else 0)
    pure
      { m_packet := packet, m_length := length, m_netOp := netOp, m_flags := 0
        m_payload := packet + 2, m_payloadLength := rawLength
        m_rawPayload := packet + 2, m_rawPayloadLength := rawLength, m_arqSeq := 0
        m_bDecoded := true, m_subpacket := subpacket }

/-- `EQProtocolPacket::init`: net opcode, flags, and the sequence number of the packets that have
    one. -/
def EQProtocolPacket.init (mem : Memory) (packet : Nat) (length : UInt32) (subpacket : Bool) :
    Noted Access EQProtocolPacket := do
  let netOp ← le16 mem packet
  let p ← lineUp mem packet length subpacket netOp
  -- take the sequence number off the top
  if hasArqSeq p.m_netOp && p.m_bDecoded then do
    let arqSeq ← be16 mem p.m_payload
    let payloadLength ← payloadMinus p.m_payloadLength 2
    pure { p with
      m_arqSeq := arqSeq
      m_payload := p.m_payload + 2
      m_payloadLength := payloadLength }
  else pure p

/-! ## The UDP packet -/

/-- `EQUDPIPPacketFormat`: the protocol packet behind the headers of IP and UDP. -/
structure EQUDPIPPacketFormat extends EQProtocolPacket where
  m_dataLength : UInt32
  m_ip : Nat
  m_udp : Nat
  m_rawpayload : Nat
  m_rawpayloadSize : UInt32

/-- `EQUDPIPPacketFormat::init`: the headers are as long as the frame itself says. -/
def EQUDPIPPacketFormat.init (mem : Memory) (data : Nat) : Noted Access EQUDPIPPacketFormat := do
  let ip_len ← be16 mem (data + 2)
  let ip_hl ← byte mem data
  let ipHeaderLength := (ip_hl &&& 0x0f).toUInt32 * 4
  let length ← minus ip_len.toUInt32 ipHeaderLength
  let udp := data + ipHeaderLength.toNat
  -- sizeof (struct udphdr)
  let length ← minus length 8
  let base ← EQProtocolPacket.init mem (udp + 8) length false
  pure
    { toEQProtocolPacket := base
      m_dataLength := ip_len.toUInt32
      m_ip := data
      m_udp := udp
      m_rawpayload := udp + 8
      m_rawpayloadSize := length }

/-- The constructor, on the memory it is given (`copy` is false). -/
def EQUDPIPPacketFormat.ofData (mem : Memory) (data : Nat) (_length : UInt32) :
    Noted Access EQUDPIPPacketFormat := init mem data

section
variable (mem : Memory) (packet : EQUDPIPPacketFormat)

/-- The ports and addresses, read from the headers when they are asked for. -/
def EQUDPIPPacketFormat.getSourcePort : Noted Access UInt16 := be16 mem packet.m_udp
def EQUDPIPPacketFormat.getDestPort : Noted Access UInt16 := be16 mem (packet.m_udp + 2)
def EQUDPIPPacketFormat.getIPv4SourceN : Noted Access UInt32 := le32 mem (packet.m_ip + 12)
def EQUDPIPPacketFormat.getIPv4DestN : Noted Access UInt32 := le32 mem (packet.m_ip + 16)

/-- The payload as a sequence of bytes. -/
def EQUDPIPPacketFormat.payloadBytes : List UInt8 :=
  (List.range packet.m_rawpayloadSize.toNat).map (fun i => mem (packet.m_rawpayload + i))

/-- The packet as the stream's decoders see it. -/
def EQUDPIPPacketFormat.seen : Decoder.EQUDPIPPacketFormat :=
  { getIPv4SourceN := (packet.getIPv4SourceN mem).val
    getIPv4DestN := (packet.getIPv4DestN mem).val
    getSourcePort := (packet.getSourcePort mem).val
    getDestPort := (packet.getDestPort mem).val
    getNetOpCode := packet.m_netOp
    getUDPPayload := packet.payloadBytes mem }

/-- A test of the source port, and one of the destination port. -/
def EQUDPIPPacketFormat.sourceIs (q : UInt16 → Bool) : Noted Access Bool := do
  let port ← packet.getSourcePort mem
  pure (q port)

/-- A test of the port that the frame goes to. -/
def EQUDPIPPacketFormat.destIs (q : UInt16 → Bool) : Noted Access Bool := do
  let port ← packet.getDestPort mem
  pure (q port)

/-- A test of the address that the frame comes from. -/
def EQUDPIPPacketFormat.sourceAddrIs (q : UInt32 → Bool) : Noted Access Bool := do
  let addr ← packet.getIPv4SourceN mem
  pure (q addr)

/-- A test of the address that the frame goes to. -/
def EQUDPIPPacketFormat.destAddrIs (q : UInt32 → Bool) : Noted Access Bool := do
  let addr ← packet.getIPv4DestN mem
  pure (q addr)

/-! ## Dispatch -/

/-- The test that discards packets of another client than the latched one. -/
def discards (s : EQPacketStream) : Noted Access Bool :=
  (pure (s.m_sessionClientPort != 0 && s.m_sessionClientIP != 0) : Noted Access Bool).and <|
    ((pure (s.m_dir == .DIR_Server) : Noted Access Bool).and
      (packet.destIs mem (s.m_sessionClientPort != ·))).or <|
    ((pure (s.m_dir == .DIR_Client) : Noted Access Bool).and
      (packet.sourceIs mem (s.m_sessionClientPort != ·))).or <|
    ((pure (s.m_dir == .DIR_Server) : Noted Access Bool).and
      (packet.destAddrIs mem (s.m_sessionClientIP != ·))).or <|
    (pure (s.m_dir == .DIR_Client) : Noted Access Bool).and
      (packet.sourceAddrIs mem (s.m_sessionClientIP != ·))

/-- `EQPacketStream::handlePacket`, what it reads and hands on. Its effect on the stream is
    that of the decoder model. -/
def handlePacket (z : Inflater) (s : EQPacketStream) : Noted Access (EQPacketStream × Handled) := do
  let discarded ← discards mem packet s
  if discarded then pure ()
  else do
    let _ ← packet.getSourcePort mem
    let _ ← packet.getDestPort mem
    -- `emit rawPacket`, then `decoderSlot->process`
    note (.region packet.m_rawpayload packet.m_rawpayloadSize)
    note (.region packet.m_rawpayload packet.m_rawpayloadSize)
  pure (s.handlePacket z (packet.seen mem))

end

/-- The four streams of a client, to and from each of its two servers. -/
inductive EQStreamID where
  | client2world
  | world2client
  | client2zone
  | zone2client
  deriving DecidableEq, Repr

/-- `EQPacket`, as far as `dispatchPacket` uses it: whether a client is looked for, its address and
    the four streams. -/
structure EQPacket where
  m_detectingClient : Bool
  m_client_addr : UInt32
  m_streams : EQStreamID → EQPacketStream

/-- A port between `WorldServerGeneralMinPort` and `WorldServerGeneralMaxPort`. -/
def isWorldPort (port : UInt16) : Bool := 9000 ≤ port && port ≤ 9015

/-- A port between `LoginServerMinPort` and `LoginServerMaxPort`. -/
def isLoginPort (port : UInt16) : Bool := 15900 ≤ port && port ≤ 15910

/-- The ports of the chat servers, whose packets are dropped. -/
def ChatServerPort : UInt16 := 5998
/-- The port of the universal chat server. -/
def ucsPort : UInt16 := 7778
/-- The chat ports of the world server. -/
def WorldServerChatPort : UInt16 := 9876
def WorldServerChat2Port : UInt16 := 9875

section
variable (mem : Memory) (packet : EQUDPIPPacketFormat)

/-- The client is the one that talks to a world server port. -/
def detectClient (e : EQPacket) : Noted Access EQPacket := do
  let fromWorld ← (pure e.m_detectingClient : Noted Access Bool).and
    (packet.sourceIs mem isWorldPort)
  if fromWorld then do
    let addr ← packet.getIPv4DestN mem
    pure { e with m_client_addr := addr, m_detectingClient := false }
  else do
    let toWorld ← (pure e.m_detectingClient : Noted Access Bool).and
      (packet.destIs mem isWorldPort)
    if toWorld then do
      let addr ← packet.getIPv4SourceN mem
      pure { e with m_client_addr := addr, m_detectingClient := false }
    else pure e

/-- A test of either port, the destination first. -/
def eitherIs (q : UInt16 → Bool) : Noted Access Bool :=
  (packet.destIs mem q).or (packet.sourceIs mem q)

/-- Chat and login traffic is dropped: either port is one of theirs. -/
def dropped : Noted Access Bool :=
  (eitherIs mem packet (· == ChatServerPort)).or <|
  (eitherIs mem packet (· == ucsPort)).or <|
  (eitherIs mem packet (· == WorldServerChatPort)).or <|
  (eitherIs mem packet (· == WorldServerChat2Port)).or <|
  eitherIs mem packet isLoginPort

/-- The stream a packet goes to, by whether one of its ports is that of a world server and whether
    the client is its source. -/
def route (e : EQPacket) : Noted Access EQStreamID := do
  let world ← eitherIs mem packet isWorldPort
  let fromClient ← packet.sourceAddrIs mem (· == e.m_client_addr)
  pure <|
    if world then if fromClient then .client2world else .world2client
    else if fromClient then .client2zone else .zone2client

/-- `EQPacket::dispatchPacket`: a client is detected, chat is dropped, and what is left goes to its
    stream. -/
def dispatch (z : Inflater) (e : EQPacket) : Noted Access (EQPacket × Option Handled) := do
  let e ← detectClient mem packet e
  let drop ← dropped mem packet
  if drop then pure (e, none)
  else do
    let streamId ← route mem packet e
    let r ← handlePacket mem packet z (e.m_streams streamId)
    pure ({ e with m_streams := Function.update e.m_streams streamId r.1 }, some r.2)

end

/-- `EQPacket::dispatchPacket` on `size` bytes of capture. -/
def dispatchPacket (z : Inflater) (mem : Memory) (e : EQPacket) (size : Nat) :
    Noted Access (EQPacket × Option Handled) := do
  let packet ← EQUDPIPPacketFormat.ofData mem 0 (UInt32.ofNat size)
  dispatch mem packet z e

end ShoweqDaemon.Capture
