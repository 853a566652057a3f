/-
  When a captured frame keeps every read inside the capture.

  The frame has `n` bytes. `EQUDPIPPacketFormat` takes the header length and the total length
  from the IP header and never looks at `n`, so a frame cut short is read past its end, and
  its payload is handed on with a length that is not there. `staysInside_iff` is the exact
  condition on the header fields, on the addresses the dispatch looks at and on the first
  bytes behind the UDP header.
-/
import ShoweqDaemon.Capture.ProtocolPacket

namespace ShoweqDaemon.Capture

open Audit Decoder

/-! ## Header fields -/

section
variable (mem : Memory)

/-- `ip_hl`, in bytes. -/
def ipHeaderLength : Nat := ((mem 0 &&& 0x0f).toUInt32 * 4).toNat

/-- `ip_len`. -/
def ipLength : Nat := (ByteReader.be16 (mem 2) (mem 3)).toNat

/-- Where the UDP payload begins. -/
def payloadAt : Nat := ipHeaderLength mem + 8

/-- The ports of the UDP header, high byte first. -/
def srcPort : UInt16 := ByteReader.be16 (mem (ipHeaderLength mem)) (mem (ipHeaderLength mem + 1))

/-- The port that the frame goes to. -/
def dstPort : UInt16 :=
  ByteReader.be16 (mem (ipHeaderLength mem + 2)) (mem (ipHeaderLength mem + 3))

/-- The opcode in the first two bytes of the payload. -/
def payloadOp : UInt16 := ByteReader.be16 (mem (payloadAt mem + 1)) (mem (payloadAt mem))

/-- The payload begins with a sequence number that `init` takes off. -/
def takesArqSeq : Bool :=
  hasArqSeq (payloadOp mem) && mem (payloadAt mem + 2) &&& PROTOCOL_FLAG_COMPRESSED == 0

/-- How many bytes of the payload `init` reads. -/
def protocolBytes : Nat :=
  if hasFlags false (payloadOp mem) then if takesArqSeq mem then 5 else 3 else 2

/-- How much `init` takes off the length of the payload. -/
def protocolOverhead : Nat :=
  if hasFlags false (payloadOp mem) then if takesArqSeq mem then 7 else 5 else 2

/-- Chat and login traffic. -/
def isDropped : Bool :=
  let either (q : UInt16 → Bool) : Bool := q (dstPort mem) || q (srcPort mem)
  either (· == ChatServerPort) || (either (· == ucsPort) || (either (· == WorldServerChatPort) ||
    (either (· == WorldServerChat2Port) || either isLoginPort)))

/-- A latched stream compares the destination address when the port matches. -/
def comparesDest (s : EQPacketStream) : Bool :=
  s.m_sessionClientPort != 0 && s.m_sessionClientIP != 0 && s.m_dir == .DIR_Server &&
    s.m_sessionClientPort == dstPort mem

/-- The packet of the frame. -/
def packetOf : EQUDPIPPacketFormat := (EQUDPIPPacketFormat.init mem 0).val

/-- The stream the frame goes to, the client detected. -/
def streamOf (e : EQPacket) : EQPacketStream :=
  let packet := packetOf mem
  e.m_streams (route mem packet (detectClient mem packet e).val).val

/-- The source address is looked at on the way to a stream, or to detect the client. -/
def readsSource (e : EQPacket) : Bool :=
  !isDropped mem ||
    e.m_detectingClient && !isWorldPort (srcPort mem) && isWorldPort (dstPort mem)

/-- The destination address is looked at to detect the client, or to tell a latched one. -/
def readsDest (e : EQPacket) : Bool :=
  e.m_detectingClient && isWorldPort (srcPort mem) ||
    !isDropped mem && comparesDest mem (streamOf mem e)

end

/-! ## The protocol packet -/

section
variable (mem : Memory)

theorem takesArqSeq_flags (h : takesArqSeq mem = true) :
    hasFlags false (payloadOp mem) = true := by
  simp only [takesArqSeq, Bool.and_eq_true] at h
  exact hasFlags_of_arqSeq h.1

/-- A packet with a sequence number has flags. -/
theorem flags_arqSeq (k : Nat) :
    ((if hasFlags false (payloadOp mem) then k else 2) + if takesArqSeq mem then 2 else 0) =
      if hasFlags false (payloadOp mem) then if takesArqSeq mem then k + 2 else k else 2 := by
  have hflags := takesArqSeq_flags mem
  cases hs : takesArqSeq mem with
  | true => simp [hflags hs]
  | false => simp

theorem initBytes_payload : initBytes mem (payloadAt mem) false = protocolBytes mem :=
  flags_arqSeq mem 3

theorem initOverhead_payload : initOverhead mem (payloadAt mem) false = protocolOverhead mem :=
  flags_arqSeq mem 5

end

/-! ## The UDP packet -/

/-- The length of the UDP payload, as `init` computes it. -/
def payloadLength (mem : Memory) : UInt32 :=
  (ByteReader.be16 (mem 2) (mem 3)).toUInt32 - (mem 0 &&& 0x0f).toUInt32 * 4 - 8

section
variable (strict : Bool) {n : Nat} (mem : Memory)

@[simp] theorem packetOf_ip : (packetOf mem).m_ip = 0 := rfl

@[simp] theorem packetOf_udp : (packetOf mem).m_udp = ipHeaderLength mem := Nat.zero_add _

@[simp] theorem packetOf_rawpayload : (packetOf mem).m_rawpayload = payloadAt mem := by
  show 0 + ipHeaderLength mem + 8 = payloadAt mem
  rw [Nat.zero_add]
  rfl

@[simp] theorem packetOf_rawpayloadSize :
    (packetOf mem).m_rawpayloadSize = payloadLength mem := rfl

/-- The subtractions of `init` reach zero when the headers are longer than the packet. -/
theorem header_minus_iff (k : Nat) :
    ((mem 0 &&& 0x0f).toUInt32 * 4).toNat ≤ ((ByteReader.be16 (mem 2) (mem 3)).toUInt32).toNat ∧
      8 ≤ ((ByteReader.be16 (mem 2) (mem 3)).toUInt32 - (mem 0 &&& 0x0f).toUInt32 * 4).toNat ∧
      k ≤ (payloadLength mem).toNat ↔ payloadAt mem + k ≤ ipLength mem := by
  have hip : ((ByteReader.be16 (mem 2) (mem 3)).toUInt32).toNat = ipLength mem := by
    simp [ipLength]
  have h2 := le_minus_iff
    ((ByteReader.be16 (mem 2) (mem 3)).toUInt32 - (mem 0 &&& 0x0f).toUInt32 * 4) 8 k
  have h1 := le_minus_iff (ByteReader.be16 (mem 2) (mem 3)).toUInt32
    ((mem 0 &&& 0x0f).toUInt32 * 4) (8 + k)
  simp only [UInt32.toNat_ofNat, Nat.reducePow, Nat.reduceMod] at h2
  rw [hip] at h1 ⊢
  unfold payloadLength payloadAt ipHeaderLength
  omega

theorem payloadLength_toNat (h : payloadAt mem ≤ ipLength mem) :
    payloadAt mem + (payloadLength mem).toNat = ipLength mem := by
  have hle := (header_minus_iff mem (ipLength mem - payloadAt mem)).mpr (by omega)
  have hge := header_minus_iff mem (payloadLength mem).toNat
  have hfit := hge.mp ⟨hle.1, hle.2.1, Nat.le_refl _⟩
  omega

/-- What the constructor needs: the IP header's first four bytes, a packet no shorter than its
    headers, and what `init` reads of the payload. -/
theorem init_packet_allowed :
    (EQUDPIPPacketFormat.init mem 0).Allowed (Fine strict n) ↔
      4 ≤ n ∧ payloadAt mem ≤ ipLength mem ∧ payloadAt mem + protocolBytes mem ≤ n ∧
        (strict = true → payloadAt mem + protocolOverhead mem ≤ ipLength mem) := by
  have hplain := header_minus_iff mem 0
  have hstrict := header_minus_iff mem (protocolOverhead mem)
  have hinit := init_allowed strict (n := n) mem (payloadAt mem) (payloadLength mem) false
  rw [initBytes_payload, initOverhead_payload] at hinit
  have hat : 0 + ((mem 0 &&& 0x0f).toUInt32 * 4).toNat + 8 = payloadAt mem := by
    rw [Nat.zero_add]
    rfl
  have hlen : (ByteReader.be16 (mem 2) (mem 3)).toUInt32 - (mem 0 &&& 0x0f).toUInt32 * 4 - 8 =
      payloadLength mem := rfl
  simp only [EQUDPIPPacketFormat.init, Noted.allowed_bind,
    Noted.allowed_pure, allowed_be16, allowed_byte, val_be16, val_byte, allowed_minus, val_minus,
    hat, hlen, hinit]
  simp only [UInt32.toNat_ofNat, Nat.reducePow, Nat.reduceMod, Nat.zero_add, Nat.reduceAdd,
    and_true]
  cases strict
  · simp only [Bool.false_eq_true, false_imp_iff, and_true]
    omega
  · simp only [true_imp_iff]
    omega

end

/-! ## Dispatch -/

section
variable (strict : Bool) {n : Nat} (mem : Memory)

@[simp] theorem val_sourceIs (q : UInt16 → Bool) :
    ((packetOf mem).sourceIs mem q).val = q (srcPort mem) := by
  simp [EQUDPIPPacketFormat.sourceIs, EQUDPIPPacketFormat.getSourcePort, srcPort]

@[simp] theorem val_destIs (q : UInt16 → Bool) :
    ((packetOf mem).destIs mem q).val = q (dstPort mem) := by
  simp [EQUDPIPPacketFormat.destIs, EQUDPIPPacketFormat.getDestPort, dstPort]

theorem allowed_getSourcePort (h : payloadAt mem ≤ n) :
    ((packetOf mem).getSourcePort mem).Allowed (Fine strict n) := by
  unfold payloadAt at h
  simp [EQUDPIPPacketFormat.getSourcePort]
  omega

theorem allowed_getDestPort (h : payloadAt mem ≤ n) :
    ((packetOf mem).getDestPort mem).Allowed (Fine strict n) := by
  unfold payloadAt at h
  simp [EQUDPIPPacketFormat.getDestPort]
  omega

theorem allowed_sourceIs (q : UInt16 → Bool) (h : payloadAt mem ≤ n) :
    ((packetOf mem).sourceIs mem q).Allowed (Fine strict n) := by
  simp [EQUDPIPPacketFormat.sourceIs, allowed_getSourcePort strict mem h]

theorem allowed_destIs (q : UInt16 → Bool) (h : payloadAt mem ≤ n) :
    ((packetOf mem).destIs mem q).Allowed (Fine strict n) := by
  simp [EQUDPIPPacketFormat.destIs, allowed_getDestPort strict mem h]

@[simp] theorem allowed_getIPv4SourceN :
    ((packetOf mem).getIPv4SourceN mem).Allowed (Fine strict n) ↔ 16 ≤ n := by
  simp [EQUDPIPPacketFormat.getIPv4SourceN]

@[simp] theorem allowed_getIPv4DestN :
    ((packetOf mem).getIPv4DestN mem).Allowed (Fine strict n) ↔ 20 ≤ n := by
  simp [EQUDPIPPacketFormat.getIPv4DestN]

theorem detectClient_allowed (e : EQPacket) (h : payloadAt mem ≤ n) :
    (detectClient mem (packetOf mem) e).Allowed (Fine strict n) ↔
      ((e.m_detectingClient && isWorldPort (srcPort mem)) = true → 20 ≤ n) ∧
      ((e.m_detectingClient && !isWorldPort (srcPort mem) && isWorldPort (dstPort mem)) = true →
        16 ≤ n) := by
  have hsrc := allowed_sourceIs strict mem isWorldPort h
  have hdst := allowed_destIs strict mem isWorldPort h
  cases hd : e.m_detectingClient <;> cases hs : isWorldPort (srcPort mem) <;>
    cases ht : isWorldPort (dstPort mem) <;>
    simp [detectClient, hd, hs, ht, hsrc, hdst]

@[simp] theorem detectClient_streams (packet : EQUDPIPPacketFormat) (e : EQPacket) :
    (detectClient mem packet e).val.m_streams = e.m_streams := by
  simp only [detectClient, Noted.val_bind, Noted.val_ite]
  split
  · rfl
  · split <;> rfl

@[simp] theorem val_dropped : (dropped mem (packetOf mem)).val = isDropped mem := by
  simp [dropped, eitherIs, isDropped]

theorem allowed_eitherIs (q : UInt16 → Bool) (h : payloadAt mem ≤ n) :
    (eitherIs mem (packetOf mem) q).Allowed (Fine strict n) := by
  simp [eitherIs, allowed_destIs strict mem q h, allowed_sourceIs strict mem q h]

theorem dropped_allowed (h : payloadAt mem ≤ n) :
    (dropped mem (packetOf mem)).Allowed (Fine strict n) := by
  simp [dropped, allowed_eitherIs strict mem _ h]

theorem route_allowed (e : EQPacket) (h : payloadAt mem ≤ n) :
    (route mem (packetOf mem) e).Allowed (Fine strict n) ↔ 16 ≤ n := by
  simp [route, allowed_eitherIs strict mem _ h, EQUDPIPPacketFormat.sourceAddrIs]

theorem discards_allowed (s : EQPacketStream) (h : payloadAt mem ≤ n) (hsource : 16 ≤ n) :
    (discards mem (packetOf mem) s).Allowed (Fine strict n) ↔
      (comparesDest mem s = true → 20 ≤ n) := by
  have hsrc := allowed_sourceIs strict mem (s.m_sessionClientPort != ·) h
  have hdst := allowed_destIs strict mem (s.m_sessionClientPort != ·) h
  cases hdir : s.m_dir
  all_goals simp [discards, comparesDest, hdir, hsrc, hdst, EQUDPIPPacketFormat.destAddrIs,
    EQUDPIPPacketFormat.sourceAddrIs, hsource]

/-- The test on memory is the stream's own. -/
theorem discards_val (s : EQPacketStream) :
    (discards mem (packetOf mem) s).val = s.discards ((packetOf mem).seen mem) := by
  simp [discards, EQPacketStream.discards, EQUDPIPPacketFormat.seen,
    EQUDPIPPacketFormat.destAddrIs, EQUDPIPPacketFormat.sourceAddrIs, EQUDPIPPacketFormat.sourceIs,
    EQUDPIPPacketFormat.destIs, Bool.or_assoc]
  rfl

theorem handlePacket_allowed (z : Inflater) (s : EQPacketStream) (h : payloadAt mem ≤ n)
    (hsource : 16 ≤ n) (hregion : payloadAt mem + (payloadLength mem).toNat ≤ n) :
    (handlePacket mem (packetOf mem) z s).Allowed (Fine strict n) ↔
      (comparesDest mem s = true → 20 ≤ n) := by
  have hdisc := discards_allowed strict mem s h hsource
  have hsrc := allowed_getSourcePort strict mem h
  have hdst := allowed_getDestPort strict mem h
  cases hd : (discards mem (packetOf mem) s).val
  all_goals simp [handlePacket, hdisc, hd, hsrc, hdst, Fine, hregion]

/-- Once the header and the payload are inside, only the addresses remain. -/
theorem dispatch_allowed (z : Inflater) (e : EQPacket) (h : payloadAt mem ≤ n)
    (hregion : payloadAt mem + (payloadLength mem).toNat ≤ n) :
    (dispatch mem (packetOf mem) z e).Allowed (Fine strict n) ↔
      (readsSource mem e = true → 16 ≤ n) ∧ (readsDest mem e = true → 20 ≤ n) := by
  have hdetect := detectClient_allowed strict mem e h
  have hdrop := dropped_allowed strict mem h
  have hroute := route_allowed strict mem (detectClient mem (packetOf mem) e).val h
  have hstream : e.m_streams
      (route mem (packetOf mem) (detectClient mem (packetOf mem) e).val).val = streamOf mem e := rfl
  cases hd : isDropped mem
  · by_cases hsource : 16 ≤ n
    · have hhandle := handlePacket_allowed strict mem z (streamOf mem e) h hsource hregion
      simp [dispatch, hdetect, hdrop, hd, hroute, readsSource, readsDest, hsource]
      rw [hstream, hhandle]
      grind
    · -- the source address is always looked at
      simp [dispatch, hroute, hd, readsSource, hsource]
  · simp [dispatch, hdetect, hdrop, hd, readsSource, readsDest]
    grind

end

/-! ## Frames -/

/-- No read, no subtraction and nothing handed on leaves the `n` bytes of the frame, and the
    payload ends inside them. -/
def StaysInside (strict : Bool) (z : Inflater) (mem : Memory) (e : EQPacket) (n : Nat) : Prop :=
  let packet := (EQUDPIPPacketFormat.ofData mem 0 (UInt32.ofNat n)).val
  (dispatchPacket z mem e n).Allowed (Fine strict n) ∧
    packet.m_rawpayload + packet.m_rawpayloadSize.toNat ≤ n

/-- The headers are inside the packet, the packet is inside the frame, and so is what is looked
    at of the payload and of the addresses. -/
structure Fits (mem : Memory) (e : EQPacket) (n : Nat) : Prop where
  headers : payloadAt mem ≤ ipLength mem
  captured : ipLength mem ≤ n
  payload : payloadAt mem + protocolBytes mem ≤ n
  source : readsSource mem e = true → 16 ≤ n
  dest : readsDest mem e = true → 20 ≤ n

theorem staysInside_iff (strict : Bool) (z : Inflater) (mem : Memory) (e : EQPacket) (n : Nat) :
    StaysInside strict z mem e n ↔ Fits mem e n ∧
      (strict = true → payloadAt mem + protocolOverhead mem ≤ ipLength mem) := by
  have hsplit : StaysInside strict z mem e n ↔
      ((EQUDPIPPacketFormat.init mem 0).Allowed (Fine strict n) ∧
        (dispatch mem (packetOf mem) z e).Allowed (Fine strict n)) ∧
      payloadAt mem + (payloadLength mem).toNat ≤ n := by
    have hbind := Noted.allowed_bind (Fine strict n) (EQUDPIPPacketFormat.init mem 0)
      (fun packet => dispatch mem packet z e)
    rw [← packetOf_rawpayload, ← packetOf_rawpayloadSize]
    exact and_congr_left' hbind
  have hinit := init_packet_allowed strict (n := n) mem
  constructor
  · intro h
    obtain ⟨⟨hi, hd⟩, hregion⟩ := hsplit.mp h
    obtain ⟨-, hheaders, hpayload, hstrict⟩ := hinit.mp hi
    have hend := payloadLength_toNat mem hheaders
    have hat : payloadAt mem ≤ n := by omega
    obtain ⟨hsource, hdest⟩ := (dispatch_allowed strict mem z e hat hregion).mp hd
    exact ⟨⟨hheaders, by omega, hpayload, hsource, hdest⟩, hstrict⟩
  · rintro ⟨h, hstrict⟩
    have hend := payloadLength_toNat mem h.headers
    have hcaptured := h.captured
    have hat : payloadAt mem ≤ n := by
      have := h.headers
      omega
    have hregion : payloadAt mem + (payloadLength mem).toNat ≤ n := by omega
    have hfour : 4 ≤ n := by
      unfold payloadAt at hat
      omega
    exact hsplit.mpr ⟨⟨hinit.mpr ⟨hfour, h.headers, h.payload, hstrict⟩,
      (dispatch_allowed strict mem z e hat hregion).mpr ⟨h.source, h.dest⟩⟩, hregion⟩

/-- A frame stays inside the capture exactly when it fits; the lengths of the protocol layer
    do as well exactly when the packet also has room for the bytes `init` takes off. The
    decoder keeps to what it is handed. -/
theorem frame_inside_iff_fits (z : Inflater) (mem : Memory) (e : EQPacket) (n : Nat) :
    (StaysInside false z mem e n ↔ Fits mem e n) ∧
    (StaysInside true z mem e n ↔
      Fits mem e n ∧ payloadAt mem + protocolOverhead mem ≤ ipLength mem) ∧
    ∀ d : EQMacDecoder, (process d ((packetOf mem).payloadBytes mem)).exit ≠ .overread := by
  refine ⟨?_, ?_, fun d => process_ne_overread d _⟩
  · simpa using staysInside_iff false z mem e n
  · simpa using staysInside_iff true z mem e n

/-- A frame cut off after 38 bytes whose IP header says 100: the payload is 72 bytes from
    offset 28. -/
theorem frame_cut_short :
    let frame : List UInt8 :=
      [0x45, 0, 0, 100, 0, 0, 0, 0, 64, 17, 0, 0, 10, 0, 0, 1, 10, 0, 0, 2,
        0x1b, 0x58, 0x04, 0xd2, 0, 80, 0, 0, 0, 0, 0, 0, 0, 0, 0, 0, 0, 0]
    let mem : Memory := fun i => frame.getD i 0
    let z : Inflater :=
      { inflate := fun _ _ => none
        inflate_length_le := fun _ _ _ h => nomatch h
        written := fun _ out => out
        written_length := fun _ _ => rfl
        written_take := fun _ _ _ h => nomatch h }
    let stream : EQPacketStream :=
      { m_dir := .DIR_Server, m_packetCount := 0, m_sessionClientPort := 0,
        m_sessionClientIP := 0, m_decoders := fun _ => none, buffers := Scratch.empty }
    let e : EQPacket :=
      { m_detectingClient := false, m_client_addr := 0x0200000a, m_streams := fun _ => stream }
    frame.length = 38 ∧ payloadAt mem = 28 ∧ payloadLength mem = 72 ∧
      ¬ StaysInside false z mem e frame.length := by
  intro frame mem z stream e
  refine ⟨rfl, by decide, by decide, ?_⟩
  rw [staysInside_iff]
  rintro ⟨hfits, -⟩
  have hcaptured : ipLength mem ≤ frame.length := hfits.captured
  have hlong : ¬ ipLength mem ≤ frame.length := by decide
  exact hlong hcaptured

end ShoweqDaemon.Capture
