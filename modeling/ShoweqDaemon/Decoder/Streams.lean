/-
  `EQPacketStream::handlePacket`: one stream, many UDP flows.

  The stream keeps a decoder for each pair of ports, made on the first packet of the pair.
  All decoders work through the same two scratch buffers of `emitWithDecode`: one holds the
  decrypted copy, the other what zlib inflates it to, and neither is cleared between calls.

  `emitShared_snd`: what the buffers held before does not show in what is delivered.
  `handlePacket_separates`: with no client latched, the stream is a family of decoders, one
  for each pair of ports. `flow_isolation` is what this means for a run.
-/
import ShoweqDaemon.Lib.Bits
import ShoweqDaemon.Lib.Flows
import ShoweqDaemon.Decoder.Process

namespace ShoweqDaemon.Decoder

open Machine

/-! ## Scratch buffers -/

/-- zlib on memory. `written` is the output buffer after the call, whatever the call returns;
    a stream that inflates stands at its front. -/
structure Inflater extends Zlib where
  written : List UInt8 → List UInt8 → List UInt8
  written_length : ∀ inp out, (written inp out).length = out.length
  written_take : ∀ inp out bytes, inflate inp out.length = some bytes →
    (written inp out).take bytes.length = bytes

/-- The static buffers of `emitWithDecode`. -/
structure Scratch where
  scratch : List UInt8
  inflated : List UInt8
  inflated_length_le : inflated.length ≤ kInflateOutCap

/-- The buffers before the first call. -/
def Scratch.empty : Scratch := { scratch := [], inflated := [], inflated_length_le := Nat.zero_le _ }

/-- `inflated.resize(kInflateOutCap)`, if it is smaller. -/
def Scratch.resized (sh : Scratch) : List UInt8 :=
  if sh.inflated.length < kInflateOutCap then
    sh.inflated ++ List.replicate (kInflateOutCap - sh.inflated.length) 0
  else sh.inflated

theorem Scratch.resized_length (sh : Scratch) : sh.resized.length = kInflateOutCap := by
  have hle := sh.inflated_length_le
  unfold Scratch.resized
  split
  · rw [List.length_append, List.length_replicate]
    omega
  · omega

/-- `emitWithDecode` on the shared buffers, and the callback's argument. -/
def emitShared (z : Inflater) (sh : Scratch) (msg : AppPacket) : Scratch × Option AppPacket :=
  let (opcode, data) := msg
  if isObfuscated opcode then
    if data = [] then (sh, some (opcode, data))
    else
      let plain := decrypt opcode data
      let inflated := z.written plain sh.resized
      let outLen := (inflateBuffer z.toZlib plain sh.resized.length).length
      ({ scratch := plain
         inflated
         inflated_length_le := Nat.le_of_eq (by rw [z.written_length, sh.resized_length]) },
        -- `cb(opcode, inflated.data(), outLen)`
        if outLen = 0 then none else some (opcode, inflated.take outLen))
  else (sh, some (opcode, data))

/-- What `inflateBuffer` reports is what stands in the buffer. -/
theorem written_take_inflateBuffer (z : Inflater) (inp out : List UInt8) :
    (z.written inp out).take (inflateBuffer z.toZlib inp out.length).length =
      inflateBuffer z.toZlib inp out.length := by
  unfold inflateBuffer
  cases hz : z.inflate inp out.length with
  | none => rfl
  | some bytes => exact z.written_take inp out bytes hz

/-- The callback sees the same bytes whatever the buffers held. -/
theorem emitShared_snd (z : Inflater) (sh : Scratch) (msg : AppPacket) :
    (emitShared z sh msg).2 = emitWithDecode z.toZlib msg := by
  obtain ⟨opcode, data⟩ := msg
  simp only [emitShared, emitWithDecode]
  split
  · split
    · rfl
    · dsimp only
      rw [written_take_inflateBuffer, sh.resized_length]
      simp only [List.length_eq_zero_iff]
  · rfl

/-! ## The stream -/

/-- What `handlePacket` asks of the packet: its addresses and ports, by which it finds the decoder,
    the opcode of the protocol layer, and the payload. -/
structure EQUDPIPPacketFormat where
  getIPv4SourceN : UInt32
  getIPv4DestN : UInt32
  getSourcePort : UInt16
  getDestPort : UInt16
  getNetOpCode : UInt16
  getUDPPayload : List UInt8

/-- The direction of a stream. -/
inductive Dir where
  | DIR_Client
  | DIR_Server
  deriving DecidableEq, Repr

/-- `EQPacketStream`, as far as a packet changes it: its direction, the count, the client of the
    session and the decoder. -/
structure EQPacketStream where
  m_dir : Dir
  m_packetCount : Int
  m_sessionClientPort : UInt16
  m_sessionClientIP : UInt32
  m_decoders : UInt32 → Option EQMacDecoder
  /-- Static in `emitWithDecode`: shared by the decoders of the thread. -/
  buffers : Scratch

/-- The key of `m_decoders`. -/
def tupleKey (srcPort dstPort : UInt16) : UInt32 := srcPort.toUInt32 <<< 16 ||| dstPort.toUInt32

/-- The ports a packet goes between. -/
def EQUDPIPPacketFormat.tuple (packet : EQUDPIPPacketFormat) : UInt16 × UInt16 :=
  (packet.getSourcePort, packet.getDestPort)

/-- The packet does not belong to the latched client. -/
def EQPacketStream.discards (s : EQPacketStream) (packet : EQUDPIPPacketFormat) : Bool :=
  s.m_sessionClientPort ≠ 0 && s.m_sessionClientIP ≠ 0 &&
    (s.m_dir == .DIR_Server && s.m_sessionClientPort != packet.getDestPort ||
     s.m_dir == .DIR_Client && s.m_sessionClientPort != packet.getSourcePort ||
     s.m_dir == .DIR_Server && s.m_sessionClientIP != packet.getIPv4DestN ||
     s.m_dir == .DIR_Client && s.m_sessionClientIP != packet.getIPv4SourceN)

/-- The signals of one call, and the arguments it calls `dispatchPacket` with. -/
structure Handled where
  numPacket : Int
  rawPacket : Option (List UInt8 × Dir × UInt16)
  dispatchPacket : Option AppPacket

/-- `EQPacketStream::handlePacket`: the packet counts, packets of other clients are discarded, and
    the decoder gets the rest. -/
def EQPacketStream.handlePacket (z : Inflater) (s : EQPacketStream)
    (packet : EQUDPIPPacketFormat) : EQPacketStream × Handled :=
  let s := { s with m_packetCount := s.m_packetCount + 1 }
  if s.discards packet then
    (s, { numPacket := s.m_packetCount, rawPacket := none, dispatchPacket := none })
  else
    let key := tupleKey packet.getSourcePort packet.getDestPort
    let decoderSlot := (s.m_decoders key).getD reset
    let o := process decoderSlot packet.getUDPPayload
    let emitted :=
      match o.msg with
      | some msg => emitShared z s.buffers msg
      | none => (s.buffers, none)
    ({ s with
       m_decoders := Function.update s.m_decoders key (some o.state)
       buffers := emitted.1 },
      { numPacket := s.m_packetCount
        rawPacket := some (packet.getUDPPayload, s.m_dir, packet.getNetOpCode)
        dispatchPacket := emitted.2 })

/-- The decoder kept for a pair of ports. -/
def EQPacketStream.decoder (s : EQPacketStream) (ports : UInt16 × UInt16) : Option EQMacDecoder :=
  s.m_decoders (tupleKey ports.1 ports.2)

/-- The stream after a packet. -/
def handleStep (z : Inflater) (s : EQPacketStream) (packet : EQUDPIPPacketFormat) :
    EQPacketStream := (s.handlePacket z packet).1

/-- The message that a packet completes, if it does. -/
def dispatchOf (z : Inflater) (s : EQPacketStream) (packet : EQUDPIPPacketFormat) :
    Option AppPacket := (s.handlePacket z packet).2.dispatchPacket

/-! ## One packet -/

/-- Two pairs of ports never share a decoder. -/
theorem tupleKey_injective {srcPort dstPort srcPort' dstPort' : UInt16}
    (h : tupleKey srcPort dstPort = tupleKey srcPort' dstPort') :
    (srcPort, dstPort) = (srcPort', dstPort') := by
  obtain ⟨hsrc, hdst⟩ := Bits.pair_inj.mp h
  rw [hsrc, hdst]

/-- Without a latched client no packet is discarded. -/
theorem discards_unlatched {s : EQPacketStream} (hlatch : s.m_sessionClientPort = 0)
    (packet : EQUDPIPPacketFormat) : s.discards packet = false := by
  simp [EQPacketStream.discards, hlatch]

/-- One step of a flow's own decoder, made if there is none. -/
def ownStep (decoder : Option EQMacDecoder) (packet : EQUDPIPPacketFormat) :
    Option EQMacDecoder :=
  some (processStep (decoder.getD reset) packet.getUDPPayload)

/-- What a flow's own decoder delivers. -/
def ownDispatch (z : Zlib) (decoder : Option EQMacDecoder) (packet : EQUDPIPPacketFormat) :
    Option AppPacket :=
  (process (decoder.getD reset) packet.getUDPPayload).callback z

/-- No packet latches a client. -/
theorem handleStep_latch (z : Inflater) (s : EQPacketStream) (packet : EQUDPIPPacketFormat) :
    (handleStep z s packet).m_sessionClientPort = s.m_sessionClientPort := by
  simp only [handleStep, EQPacketStream.handlePacket]
  split <;> rfl

theorem handleStep_decoders (z : Inflater) {s : EQPacketStream}
    (hlatch : s.m_sessionClientPort = 0) (packet : EQUDPIPPacketFormat) :
    (handleStep z s packet).m_decoders =
      Function.update s.m_decoders (tupleKey packet.getSourcePort packet.getDestPort)
        (ownStep (s.decoder packet.tuple) packet) := by
  have hkeep : EQPacketStream.discards { s with m_packetCount := s.m_packetCount + 1 } packet =
      false := discards_unlatched hlatch packet
  simp only [handleStep, EQPacketStream.handlePacket, hkeep]
  rfl

theorem dispatchOf_unlatched (z : Inflater) {s : EQPacketStream}
    (hlatch : s.m_sessionClientPort = 0) (packet : EQUDPIPPacketFormat) :
    dispatchOf z s packet = ownDispatch z.toZlib (s.decoder packet.tuple) packet := by
  have hkeep : EQPacketStream.discards { s with m_packetCount := s.m_packetCount + 1 } packet =
      false := discards_unlatched hlatch packet
  simp only [dispatchOf, EQPacketStream.handlePacket, hkeep, ownDispatch, Outcome.callback,
    EQPacketStream.decoder, EQUDPIPPacketFormat.tuple]
  cases (process ((s.m_decoders (tupleKey packet.getSourcePort packet.getDestPort)).getD reset)
    packet.getUDPPayload).msg with
  | none => rfl
  | some msg => exact emitShared_snd z s.buffers msg

/-- A stream without a latched client is a family of decoders, one for each pair of ports. -/
theorem handlePacket_separates (z : Inflater) :
    Separates (fun s : EQPacketStream => s.m_sessionClientPort = 0) (handleStep z) (dispatchOf z)
      EQUDPIPPacketFormat.tuple EQPacketStream.decoder ownStep (ownDispatch z.toZlib) where
  inv := by
    intro s packet hlatch
    rw [handleStep_latch]
    exact hlatch
  own := by
    intro s packet hlatch
    rw [EQPacketStream.decoder, handleStep_decoders z hlatch]
    exact Function.update_self _ _ _
  other := by
    intro s packet ports hlatch hne
    have hkey : tupleKey ports.1 ports.2 ≠
        tupleKey packet.getSourcePort packet.getDestPort :=
      fun h => hne (tupleKey_injective h).symm
    rw [EQPacketStream.decoder, handleStep_decoders z hlatch, Function.update_of_ne hkey]
    rfl
  out := fun s packet hlatch => dispatchOf_unlatched z hlatch packet

/-! ## Runs -/

/-- A flow's own decoder is `feed` on its payloads, once there is one. -/
theorem foldl_ownStep (d : EQMacDecoder) (packets : List EQUDPIPPacketFormat) :
    packets.foldl ownStep (some d) =
      some (feed d (packets.map EQUDPIPPacketFormat.getUDPPayload)) := by
  induction packets generalizing d with
  | nil => rfl
  | cons packet packets ih => exact ih (processStep d packet.getUDPPayload)

/-- The decoder of a flow after its packets, and none before the first. -/
theorem foldl_ownStep_eq (decoder : Option EQMacDecoder) (packets : List EQUDPIPPacketFormat) :
    packets.foldl ownStep decoder =
      if packets = [] then decoder
      else some (feed (decoder.getD reset) (packets.map EQUDPIPPacketFormat.getUDPPayload)) := by
  cases packets with
  | nil => rfl
  | cons packet packets =>
      rw [if_neg (List.cons_ne_nil _ _)]
      exact foldl_ownStep (processStep (decoder.getD reset) packet.getUDPPayload) packets

/-- What the decoder's callback gets to see of a sequence of payloads. -/
def delivered (z : Zlib) (d : EQMacDecoder) (bufs : List (List UInt8)) : List (Option AppPacket) :=
  outputs processStep (fun d buf => (process d buf).callback z) d bufs

theorem outputs_ownDispatch (z : Zlib) (decoder : Option EQMacDecoder)
    (packets : List EQUDPIPPacketFormat) :
    outputs ownStep (ownDispatch z) decoder packets =
      delivered z (decoder.getD reset) (packets.map EQUDPIPPacketFormat.getUDPPayload) := by
  induction packets generalizing decoder with
  | nil => rfl
  | cons packet packets ih => exact congrArg _ (ih (ownStep decoder packet))

/-- In any interleaving, a pair of ports gets the messages and the decoder that its own packets
    alone give, which are those of an `EQMacDecoder` fed with their payloads. A packet of
    another pair leaves the decoder as it is, wherever it comes in the run. -/
theorem flow_isolation (z : Inflater) (s : EQPacketStream) (hlatch : s.m_sessionClientPort = 0)
    (packets : List EQUDPIPPacketFormat) (ports : UInt16 × UInt16) :
    let own := ofFlow EQUDPIPPacketFormat.tuple ports packets
    let payloads := own.map EQUDPIPPacketFormat.getUDPPayload
    let dispatched :=
      outputsOf (handleStep z) (dispatchOf z) EQUDPIPPacketFormat.tuple ports s packets
    let kept := (packets.foldl (handleStep z) s).decoder ports
    dispatched = outputs (handleStep z) (dispatchOf z) s own ∧
    kept = (own.foldl (handleStep z) s).decoder ports ∧
    dispatched = delivered z.toZlib ((s.decoder ports).getD reset) payloads ∧
    kept = (if own = [] then s.decoder ports
      else some (feed ((s.decoder ports).getD reset) payloads)) ∧
    (∀ t ∈ trace (handleStep z) s packets, t.m_sessionClientPort = 0 ∧
      ∀ packet : EQUDPIPPacketFormat, packet.tuple ≠ ports →
        (handleStep z t packet).decoder ports = t.decoder ports) := by
  have hsep := handlePacket_separates z
  refine ⟨hsep.outputsOf_alone hlatch ports packets, hsep.part_foldl_alone hlatch ports packets,
    ?_, ?_, ?_⟩
  · rw [hsep.outputsOf_eq hlatch ports packets]
    exact outputs_ownDispatch z.toZlib _ _
  · rw [hsep.part_foldl hlatch ports packets]
    exact foldl_ownStep_eq _ _
  · intro t ht
    have htlatch : t.m_sessionClientPort = 0 :=
      trace_invariant (handleStep z) hsep.inv hlatch packets t ht
    exact ⟨htlatch, fun packet hne => hsep.other t packet ports htlatch hne⟩

/-- A message, a packet of another zone server with the same `dwARQ`, and a retransmit of the
    message, which is dropped. -/
theorem flow_isolation_retransmit :
    let z : Inflater :=
      { inflate := fun _ _ => none
        inflate_length_le := fun _ _ _ h => nomatch h
        written := fun _ out => out
        written_length := fun _ _ => rfl
        written_take := fun _ _ _ h => nomatch h }
    let s : EQPacketStream :=
      { m_dir := .DIR_Server, m_packetCount := 0, m_sessionClientPort := 0,
        m_sessionClientIP := 0, m_decoders := fun _ => none, buffers := Scratch.empty }
    let packet (serverPort : UInt16) (payload : List UInt8) : EQUDPIPPacketFormat :=
      { getIPv4SourceN := 0, getIPv4DestN := 0, getSourcePort := serverPort, getDestPort := 1234,
        getNetOpCode := 0
        getUDPPayload := encode (Framing.bare 0x02 7 rfl rfl) none 0x1234 payload }
    outputsOf (handleStep z) (dispatchOf z) EQUDPIPPacketFormat.tuple (7000, 1234) s
      [packet 7000 [1, 2, 3], packet 7001 [4, 5, 6], packet 7000 [1, 2, 3]] =
        [some (0x1234, [1, 2, 3]), none] := by
  intro z s packet
  have h := flow_isolation z s rfl
    [packet 7000 [1, 2, 3], packet 7001 [4, 5, 6], packet 7000 [1, 2, 3]] (7000, 1234)
  rw [h.2.2.1]
  decide

end ShoweqDaemon.Decoder
