/-
  A recording played back is the session that was recorded.

  `processPackets` records each frame and dispatches it, `processPlaybackPackets` dispatches what
  `VPacket` gives back. Both take the frame from a buffer of which it fills only the first bytes;
  a frame that is `Whole` is dispatched by these bytes alone.

  Proved:
  * `replay_follows`: at any speed, and however the timer goes, the playback hands on the messages
    of the live session in their order, and is where the live session was behind them.
  * `replay_at_once`: as fast as possible, the first call of the timer hands on all of them.
-/
import ShoweqDaemon.Capture.Monitor
import ShoweqDaemon.Packet.Playback
import ShoweqDaemon.Packet.Recording

namespace ShoweqDaemon.Capture

open Audit Decoder Machine
open Spawns (QString)
open Packet (VPacket Rec Chunk DEFBUFSIZE PACKETVERSION headersize)
open Monitor (idleInflater)

/-! ## The bytes of a frame -/

section
variable {strict : Bool} {n : ℕ} {mem mem' : Memory} (h : ∀ i < n, mem' i = mem i)
include h

theorem byte_agree (i : ℕ) : (byte mem i).Agree (Fine strict n) (byte mem' i) := by
  intro hfine
  exact h i ((allowed_byte mem i).mp hfine)

theorem be16_agree (i : ℕ) : (be16 mem i).Agree (Fine strict n) (be16 mem' i) :=
  (byte_agree h i).bind ((byte_agree h (i + 1)).bind (.refl _))

theorem le16_agree (i : ℕ) : (le16 mem i).Agree (Fine strict n) (le16 mem' i) :=
  (byte_agree h i).bind ((byte_agree h (i + 1)).bind (.refl _))

theorem le32_agree (i : ℕ) : (le32 mem i).Agree (Fine strict n) (le32 mem' i) :=
  (le16_agree h i).bind ((le16_agree h (i + 2)).bind (.refl _))

theorem flagsAndOp_agree (packet : ℕ) (netOp : UInt16) :
    (flagsAndOp mem packet netOp).Agree (Fine strict n) (flagsAndOp mem' packet netOp) :=
  .ite _
    ((byte_agree h (packet + 1)).bind
      ((byte_agree h (packet + 2)).bind ((byte_agree h packet).bind (.refl _))))
    ((byte_agree h (packet + 2)).bind (.refl _))

theorem lineUp_agree (packet : ℕ) (length : UInt32) (subpacket : Bool) (netOp : UInt16) :
    (EQProtocolPacket.lineUp mem packet length subpacket netOp).Agree (Fine strict n)
      (EQProtocolPacket.lineUp mem' packet length subpacket netOp) :=
  .ite _ ((flagsAndOp_agree h packet netOp).bind (.refl _)) (.refl _)

theorem protocol_agree (packet : ℕ) (length : UInt32) (subpacket : Bool) :
    (EQProtocolPacket.init mem packet length subpacket).Agree (Fine strict n)
      (EQProtocolPacket.init mem' packet length subpacket) :=
  (le16_agree h packet).bind ((lineUp_agree h packet length subpacket _).bind
    (.ite _ ((be16_agree h _).bind (.refl _)) (.refl _)))

theorem packet_agree (data : ℕ) :
    (EQUDPIPPacketFormat.init mem data).Agree (Fine strict n)
      (EQUDPIPPacketFormat.init mem' data) :=
  (be16_agree h _).bind ((byte_agree h _).bind ((Noted.Agree.refl _).bind ((Noted.Agree.refl _).bind
    ((protocol_agree h _ _ _).bind (.refl _)))))

section
variable (packet : EQUDPIPPacketFormat)

theorem sourceIs_agree (q : UInt16 → Bool) :
    (packet.sourceIs mem q).Agree (Fine strict n) (packet.sourceIs mem' q) :=
  (be16_agree h _).bind (.refl _)

theorem destIs_agree (q : UInt16 → Bool) :
    (packet.destIs mem q).Agree (Fine strict n) (packet.destIs mem' q) :=
  (be16_agree h _).bind (.refl _)

theorem eitherIs_agree (q : UInt16 → Bool) :
    (eitherIs mem packet q).Agree (Fine strict n) (eitherIs mem' packet q) :=
  (destIs_agree h packet q).or (sourceIs_agree h packet q)

theorem detectClient_agree (e : EQPacket) :
    (detectClient mem packet e).Agree (Fine strict n) (detectClient mem' packet e) :=
  ((Noted.Agree.refl _).and (sourceIs_agree h packet _)).bind (.ite _
    ((le32_agree h _).bind (.refl _))
    (((Noted.Agree.refl _).and (destIs_agree h packet _)).bind
      (.ite _ ((le32_agree h _).bind (.refl _)) (.refl _))))

theorem dropped_agree :
    (dropped mem packet).Agree (Fine strict n) (dropped mem' packet) :=
  (eitherIs_agree h packet _).or ((eitherIs_agree h packet _).or ((eitherIs_agree h packet _).or
    ((eitherIs_agree h packet _).or (eitherIs_agree h packet _))))

theorem route_agree (e : EQPacket) :
    (route mem packet e).Agree (Fine strict n) (route mem' packet e) :=
  (eitherIs_agree h packet _).bind (((le32_agree h _).bind (.refl _)).bind (.refl _))

end

end

/-- The packet ends inside the `n` bytes of the frame and is no shorter than its headers. -/
structure Whole (mem : Memory) (n : ℕ) : Prop where
  headers : payloadAt mem ≤ ipLength mem
  captured : ipLength mem ≤ n
  payload : payloadAt mem + protocolBytes mem ≤ n
  addresses : 20 ≤ n

instance (mem : Memory) (n : ℕ) : Decidable (Whole mem n) :=
  decidable_of_iff (payloadAt mem ≤ ipLength mem ∧ ipLength mem ≤ n ∧
      payloadAt mem + protocolBytes mem ≤ n ∧ 20 ≤ n)
    ⟨fun h => ⟨h.1, h.2.1, h.2.2.1, h.2.2.2⟩,
      fun h => ⟨h.headers, h.captured, h.payload, h.addresses⟩⟩

section
variable {n : ℕ} {mem mem' : Memory}

theorem Whole.inside (hwhole : Whole mem n) (z : Inflater) (e : EQPacket) :
    StaysInside false z mem e n :=
  (staysInside_iff false z mem e n).mpr ⟨⟨hwhole.headers, hwhole.captured, hwhole.payload,
    fun _ => Nat.le_trans (by omega) hwhole.addresses, fun _ => hwhole.addresses⟩,
    fun h => nomatch h⟩

variable (hwhole : Whole mem n) (h : ∀ i < n, mem' i = mem i)
include hwhole h

theorem packetOf_same : packetOf mem' = packetOf mem := by
  have hinit := (init_packet_allowed false (n := n) mem).mpr
    ⟨Nat.le_trans (by omega) hwhole.addresses, hwhole.headers, hwhole.payload, fun hs => nomatch hs⟩
  exact packet_agree h 0 hinit

theorem ports_same : srcPort mem' = srcPort mem ∧ dstPort mem' = dstPort mem := by
  have hat : payloadAt mem ≤ n := Nat.le_trans hwhole.headers hwhole.captured
  have hsource := be16_agree h _ (allowed_getSourcePort false mem hat)
  have hdest := be16_agree h _ (allowed_getDestPort false mem hat)
  have hudp : ipHeaderLength mem' = ipHeaderLength mem := by
    unfold ipHeaderLength
    rw [h 0 (Nat.lt_of_lt_of_le (by omega) hwhole.addresses)]
  simp only [packetOf_udp, val_be16] at hsource hdest
  unfold srcPort dstPort
  rw [hudp]
  exact ⟨hsource, hdest⟩

theorem addresses_same (packet : EQUDPIPPacketFormat) (hip : packet.m_ip = 0) :
    (packet.getIPv4SourceN mem').val = (packet.getIPv4SourceN mem).val ∧
      (packet.getIPv4DestN mem').val = (packet.getIPv4DestN mem).val := by
  have haddresses := hwhole.addresses
  have hsame (i : ℕ) (hi : i + 4 ≤ n) : (le32 mem' i).val = (le32 mem i).val := by
    have hfine : (le32 mem i).Allowed (Fine false n) := (allowed_le32 mem i).mpr hi
    exact le32_agree h i hfine
  exact ⟨hsame _ (by omega), hsame _ (by omega)⟩

theorem seen_same : (packetOf mem).seen mem' = (packetOf mem).seen mem := by
  obtain ⟨hsource, hdest⟩ := addresses_same hwhole h (packetOf mem) rfl
  have hat : payloadAt mem ≤ n := Nat.le_trans hwhole.headers hwhole.captured
  have hsrc : ((packetOf mem).getSourcePort mem').val = ((packetOf mem).getSourcePort mem).val :=
    be16_agree h _ (allowed_getSourcePort false mem hat)
  have hdst : ((packetOf mem).getDestPort mem').val = ((packetOf mem).getDestPort mem).val :=
    be16_agree h _ (allowed_getDestPort false mem hat)
  have hend := payloadLength_toNat mem hwhole.headers
  have hcaptured := hwhole.captured
  have hpayload : (packetOf mem).payloadBytes mem' = (packetOf mem).payloadBytes mem := by
    unfold EQUDPIPPacketFormat.payloadBytes
    refine List.map_congr_left fun i hi => h _ ?_
    have hlt := List.mem_range.mp hi
    rw [packetOf_rawpayloadSize] at hlt
    rw [packetOf_rawpayload]
    omega
  unfold EQUDPIPPacketFormat.seen
  rw [hsource, hdest, hsrc, hdst, hpayload]

/-- What lies behind a frame has no part in its dispatch. -/
theorem dispatchPacket_same (z : Inflater) (e : EQPacket) :
    (dispatchPacket z mem' e n).val = (dispatchPacket z mem e n).val := by
  have hallowed := (hwhole.inside z e).1
  have hhandle (s : EQPacketStream) : (handlePacket mem (packetOf mem) z s).Agree (Fine false n)
      (handlePacket mem' (packetOf mem) z s) := by
    intro _
    rw [Monitor.val_handlePacket, Monitor.val_handlePacket, seen_same hwhole h]
  have hdispatch : (dispatch mem (packetOf mem) z e).Agree (Fine false n)
      (dispatch mem' (packetOf mem) z e) :=
    (detectClient_agree h _ e).bind ((dropped_agree h _).bind (.ite _ (.refl _)
      ((route_agree h _ _).bind ((hhandle _).bind (.refl _)))))
  exact Noted.Agree.bind (packet_agree h 0) hdispatch hallowed

theorem shownClient_same : shownClient mem' = shownClient mem := by
  obtain ⟨hsource, hdest⟩ := ports_same hwhole h
  obtain ⟨haddr, haddr'⟩ := addresses_same hwhole h (packetOf mem) rfl
  unfold shownClient
  rw [hsource, hdest, packetOf_same hwhole h, haddr, haddr']

end

/-! ## Live -/

/-- What lies in a buffer that was filled with `bytes`. -/
def memoryOf (bytes : List UInt8) (behind : Memory) : Memory := fun i => bytes.getD i (behind i)

theorem memoryOf_below (bytes : List UInt8) (behind behind' : Memory) :
    ∀ i < bytes.length, memoryOf bytes behind' i = memoryOf bytes behind i := by
  intro i hi
  unfold memoryOf
  simp [hi]

/-- A frame as `getPacket` leaves it in the buffer, `ether_header` and all, and the time then. -/
structure Captured where
  data : List UInt8
  time : Int64
  behind : Memory

namespace Captured

/-- What is recorded of it. -/
def chunk (c : Captured) : Chunk := ⟨c.data, c.time, PACKETVERSION⟩

/-- The frame as the monitor gets it, without its Ethernet header. -/
def event (c : Captured) : Monitor.Event :=
  .dispatchPacket (memoryOf (c.data.drop 14) c.behind) (c.data.length - 14)

end Captured

/-- A capture that is recorded. -/
structure Recorder where
  monitor : Monitor
  m_vPacket : VPacket

section
variable (inet : Inet) (z : Inflater)

namespace Recorder

/-- `processPackets`, with one frame. -/
def step (r : Recorder) (c : Captured) : Recorder where
  monitor := r.monitor.step inet z c.event
  m_vPacket := (r.m_vPacket.Record c.chunk).1

/-- The message that the recorder's monitor hands on for a frame. -/
def message (r : Recorder) (c : Captured) : Option AppPacket := r.monitor.message z c.event

/-- A daemon started to record. -/
def start (host : Option UInt32) (device ip mac : QString) (flush : Bool)
    (memory : ByteMemory) (clock : ℕ → ℤ) : Recorder where
  monitor := .construct inet host device ip mac .PLAYBACK_OFF
  m_vPacket := (VPacket.create 1 true DEFBUFSIZE memory clock []).setFlushPacket flush

theorem run_monitor (r : Recorder) (cs : List Captured) :
    (cs.foldl (step inet z) r).monitor =
      (cs.map Captured.event).foldl (Monitor.step inet z) r.monitor := by
  induction cs generalizing r with
  | nil => rfl
  | cons c cs ih => exact ih (r.step inet z c)

theorem run_recorded (r : Recorder) (cs : List Captured) :
    (cs.foldl (step inet z) r).m_vPacket = r.m_vPacket.recordAll (cs.map Captured.chunk) := by
  induction cs generalizing r with
  | nil => rfl
  | cons c cs ih => exact ih (r.step inet z c)

theorem outputs_message (r : Recorder) (cs : List Captured) :
    outputs (step inet z) (message z) r cs =
      outputs (Monitor.step inet z) (Monitor.message z) r.monitor (cs.map Captured.event) := by
  induction cs generalizing r with
  | nil => rfl
  | cons c cs ih => exact congrArg (List.cons _) (ih (r.step inet z c))

end Recorder

/-! ## Played back -/

/-- A call of the timer's slot: the readings of the clock, and what lies behind each frame. -/
structure TimerCall where
  clock : ℕ → ℤ
  behind : ℕ → Memory

/-- A frame of the recording, as the playback hands it to the monitor. -/
def frameEvent (behind : Memory) (f : Packet.Frame) : Monitor.Event :=
  .dispatchPacket (memoryOf f.buffer behind) f.size.toNat

/-- A daemon that plays a recording back, and the messages it handed on. -/
structure Replay where
  playback : Packet.EQPacket
  monitor : Monitor
  messages : List (Option AppPacket)

namespace Replay

/-- A call of `processPlaybackPackets`: the frames that it dispatches go to the monitor one after
    the other, and the messages that come out are added to those so far. -/
def timeout (r : Replay) (call : TimerCall) : Replay :=
  let playback := r.playback.timeout call.clock
  let events := (playback.dispatched.drop r.playback.dispatched.length).mapIdx fun i =>
    frameEvent (call.behind i)
  { playback
    monitor := events.foldl (Monitor.step inet z) r.monitor
    messages := r.messages ++ outputs (Monitor.step inet z) (Monitor.message z) r.monitor events }

/-- A playback at its beginning, with a monitor of its own. -/
def start (host : Option UInt32) (device ip mac : QString) (speed compressTime : ℤ)
    (memory : ByteMemory) (file : List UInt8) : Replay where
  playback := .start speed compressTime memory file
  monitor := .construct inet host device ip mac .PLAYBACK_FORMAT_SEQ
  messages := []

end Replay

/-! ## One session -/

/-- Two dispatches of one frame. -/
def SameFrame : Monitor.Event → Monitor.Event → Prop
  | .dispatchPacket mem n, .dispatchPacket mem' n' =>
      n' = n ∧ Whole mem n ∧ ∀ i < n, mem' i = mem i
  | _, _ => False

/-- Two daemons in one session. -/
structure SameSession (m m' : Monitor) : Prop where
  packets : m'.toEQPacket = m.toEQPacket
  ip : m'.m_ip = m.m_ip

theorem construct_same (host : Option UInt32) (device device' ip mac : QString) :
    SameSession (.construct inet host device ip mac .PLAYBACK_OFF)
      (.construct inet host device' ip mac .PLAYBACK_FORMAT_SEQ) := by
  have hstart (m : Monitor) : m.start.toEQPacket = m.toEQPacket ∧ m.start.m_ip = m.m_ip := by
    unfold Monitor.start
    split
    · exact ⟨rfl, rfl⟩
    · exact ⟨rfl, rfl⟩
  obtain ⟨hpackets, hip⟩ := hstart (Monitor.validateIP inet host
    (.unstarted device ip mac .PLAYBACK_OFF))
  exact ⟨hpackets.symm, hip.symm⟩

variable {inet z} in
theorem SameSession.step {m m' : Monitor} (h : SameSession m m') {e e' : Monitor.Event}
    (he : SameFrame e e') :
    SameSession (m.step inet z e) (m'.step inet z e') ∧ m'.message z e' = m.message z e := by
  cases e with
  | dispatchPacket mem n =>
      cases e' with
      | dispatchPacket mem' n' =>
          obtain ⟨rfl, hwhole, hbelow⟩ := he
          have hdispatch : (dispatchPacket z mem' m'.toEQPacket n').val =
              (dispatchPacket z mem m.toEQPacket n').val := by
            rw [h.packets]
            exact dispatchPacket_same hwhole hbelow z m.toEQPacket
          refine ⟨⟨congrArg Prod.fst hdispatch, ?_⟩, ?_⟩
          · show (if _ then _ else _) = (if _ then _ else _)
            rw [h.packets, h.ip, shownClient_same hwhole hbelow]
          · exact congrArg (fun r => r.2.bind (·.dispatchPacket)) hdispatch
      | monitorIPClient ip host => exact he.elim
      | monitorNextClient => exact he.elim
      | monitorDevice dev host => exact he.elim
  | monitorIPClient ip host => exact he.elim
  | monitorNextClient => exact he.elim
  | monitorDevice dev host => exact he.elim

theorem SameSession.run {es es' : List Monitor.Event} (hes : List.Forall₂ SameFrame es es')
    {m m' : Monitor} (h : SameSession m m') :
    SameSession (es.foldl (Monitor.step inet z) m) (es'.foldl (Monitor.step inet z) m') ∧
      outputs (Monitor.step inet z) (Monitor.message z) m' es' =
        outputs (Monitor.step inet z) (Monitor.message z) m es := by
  induction hes generalizing m m' with
  | nil => exact ⟨h, rfl⟩
  | cons he _ ih =>
      obtain ⟨hnext, hmessage⟩ := h.step he
      obtain ⟨hlast, hmessages⟩ := ih hnext
      exact ⟨hlast, congrArg₂ List.cons hmessage hmessages⟩

end

/-! ## The recording -/

/-- A whole frame that fits into the recorder's buffer. -/
structure Captured.Recordable (c : Captured) : Prop where
  whole : Whole (memoryOf (c.data.drop 14) c.behind) (c.data.length - 14)
  size : c.data.length + headersize ≤ DEFBUFSIZE

/-- The frames that come back are those that were captured. -/
theorem sameFrame_events (behind : ℕ → Memory) {cs : List Captured}
    (hcs : ∀ c ∈ cs, c.Recordable) :
    List.Forall₂ SameFrame (cs.map Captured.event)
      ((cs.map fun c => Packet.frame c.data).mapIdx fun i => frameEvent (behind i)) := by
  induction cs generalizing behind with
  | nil => exact .nil
  | cons c cs ih =>
      rw [List.map_cons, List.map_cons, List.mapIdx_cons]
      refine .cons ⟨?_, (hcs c List.mem_cons_self).whole, fun i hi => ?_⟩
        (ih (fun i => behind (i + 1)) fun c' hc' => hcs c' (List.mem_cons_of_mem c hc'))
      · show ((c.data.length : ℤ) - 14).toNat = c.data.length - 14
        omega
      · have hlength : (c.data.drop 14).length = c.data.length - 14 := List.length_drop
        exact memoryOf_below (c.data.drop 14) _ _ i (hlength.symm ▸ hi)

variable {inet : Inet} {z : Inflater}

/-- Between two calls: the frames dispatched so far are those captured first, and the session is
    where it was behind them. -/
structure Replay.Inv (cs : List Captured) (rs : List Rec) (m : Monitor) (inet : Inet)
    (z : Inflater) (r : Replay) : Prop where
  playback : Packet.EQPacket.Inv rs r.playback
  session : SameSession (((cs.take r.playback.dispatched.length).map Captured.event).foldl
    (Monitor.step inet z) m) r.monitor
  messages : r.messages = outputs (Monitor.step inet z) (Monitor.message z) m
    ((cs.take r.playback.dispatched.length).map Captured.event)

theorem Replay.Inv.timeout {cs : List Captured} {rs : List Rec} {m : Monitor} {r : Replay}
    (h : r.Inv cs rs m inet z) (hrs : rs.map Rec.toChunk = cs.map Captured.chunk)
    (hcs : ∀ c ∈ cs, c.Recordable) (call : TimerCall) :
    (r.timeout inet z call).Inv cs rs m inet z := by
  obtain ⟨left, hleaves⟩ := Packet.EQPacket.playbackLoop_leaves (h.playback.entered call.clock)
  have hinv := (Packet.EQPacket.timeout_inv h.playback hleaves).1
  obtain ⟨added, hadded⟩ := Packet.EQPacket.timeout_dispatched h.playback call.clock
  -- What the call dispatched are the frames that were captured next.
  have hnew : (r.playback.timeout call.clock).dispatched.drop r.playback.dispatched.length =
      ((cs.drop r.playback.dispatched.length).take added.length).map
        fun c => Packet.frame c.data := by
    have hframes : rs.map (fun r => Packet.frame r.data) =
        cs.map fun c => Packet.frame c.data := by
      have hdata := congrArg (List.map fun p : Chunk => Packet.frame p.data) hrs
      rw [List.map_map, List.map_map] at hdata
      exact hdata
    have hdispatched := hinv.dispatched
    rw [List.map_take, hframes, ← hadded, List.length_append] at hdispatched
    rw [← hadded, hdispatched, ← List.map_take, ← List.map_drop, List.drop_take,
      Nat.add_sub_cancel_left]
  have htake : cs.take (r.playback.timeout call.clock).dispatched.length =
      cs.take r.playback.dispatched.length ++
        (cs.drop r.playback.dispatched.length).take added.length := by
    rw [← hadded, List.length_append, List.take_add]
  have hnext : ∀ c ∈ (cs.drop r.playback.dispatched.length).take added.length, c.Recordable :=
    fun c hc => hcs c (List.mem_of_mem_drop (List.mem_of_mem_take hc))
  have hframes := sameFrame_events call.behind hnext
  rw [← hnew] at hframes
  obtain ⟨hsession, hmessages⟩ := h.session.run inet z hframes
  refine ⟨hinv, ?_, ?_⟩
  · show SameSession (((cs.take (r.playback.timeout call.clock).dispatched.length).map
      Captured.event).foldl _ m) _
    rw [htake, List.map_append, List.foldl_append]
    exact hsession
  · show r.messages ++ _ = outputs _ _ m ((cs.take
      (r.playback.timeout call.clock).dispatched.length).map Captured.event)
    rw [htake, List.map_append, outputs_append, ← h.messages, ← hmessages]

theorem Captured.Recordable.data {c : Captured} (h : c.Recordable) : 0 < c.data.length := by
  have haddresses := h.whole.addresses
  omega

/-- The file that a recorder leaves when it is done, and what was put into it. -/
theorem recorded_file (inet : Inet) (z : Inflater) {cs : List Captured}
    (hcs : ∀ c ∈ cs, c.Recordable) (host : Option UInt32) (device ip mac : QString) (flush : Bool)
    (memory : ByteMemory) (clock : ℕ → ℤ) :
    ∃ rs : List Rec, rs.map Rec.toChunk = cs.map Captured.chunk ∧
      (∀ r ∈ rs, Packet.EQPacket.Playable r) ∧
      (cs.foldl (Recorder.step inet z)
        (.start inet host device ip mac flush memory clock)).m_vPacket.Flush.written =
          Packet.fileBytes rs := by
  let recorder := (VPacket.create 1 true DEFBUFSIZE memory clock []).setFlushPacket flush
  have hstart : recorder.Recorded [] := ⟨rfl, Nat.zero_le _, rfl⟩
  have hfit : ∀ p ∈ cs.map Captured.chunk, 0 < p.data.length ∧
      p.data.length + headersize ≤ recorder.m_nBufSize := by
    intro p hp
    obtain ⟨c, hc, rfl⟩ := List.mem_map.mp hp
    exact ⟨(hcs c hc).data, (hcs c hc).size⟩
  obtain ⟨rs, hmap, hfits, hrecorded⟩ := VPacket.recordAll_spec hstart hfit
  refine ⟨rs, hmap, fun r hr => ⟨hfits r hr, ?_⟩, ?_⟩
  · have hmem : r.toChunk ∈ cs.map Captured.chunk := hmap ▸ List.mem_map_of_mem hr
    obtain ⟨c, -, hc⟩ := List.mem_map.mp hmem
    rw [← hc]
    rfl
  · rw [Recorder.run_recorded]
    exact hrecorded.flush

section
variable {cs : List Captured} {rs : List Rec} {m : Monitor} {r : Replay}

theorem Replay.Inv.le (h : r.Inv cs rs m inet z)
    (hrs : rs.map Rec.toChunk = cs.map Captured.chunk) :
    r.playback.dispatched.length ≤ cs.length := by
  have hlength := congrArg List.length h.playback.dispatched
  have hsame := congrArg List.length hrs
  simp only [List.length_map, List.length_take] at hlength hsame
  omega

/-- The playback of a recording, before its first call. -/
theorem replay_inv (inet : Inet) (z : Inflater)
    (hplayable : ∀ r ∈ rs, Packet.EQPacket.Playable r) (cs : List Captured)
    (host : Option UInt32) (device device' ip mac : QString) {speed : ℤ} (hspeed : 0 ≤ speed)
    (compressTime : ℤ) (memory : ByteMemory) :
    (Replay.start inet host device' ip mac speed compressTime memory
      (Packet.fileBytes rs)).Inv cs rs
        (.construct inet host device ip mac .PLAYBACK_OFF) inet z :=
  ⟨Packet.EQPacket.start_inv hspeed compressTime memory hplayable,
    construct_same inet host device device' ip mac, rfl⟩

/-- Everything was dispatched and the end of the file was seen. -/
structure Replay.Done (cs : List Captured) (r : Replay) : Prop where
  all : cs.length ≤ r.playback.dispatched.length
  eof : r.playback.m_vPacket.m_bEndofFile = true

theorem Replay.Done.timeout (h : r.Done cs) (hinv : r.Inv cs rs m inet z) (call : TimerCall) :
    (r.timeout inet z call).Done cs where
  all := Nat.le_trans h.all
    (Packet.EQPacket.timeout_dispatched hinv.playback call.clock).length_le
  eof := Packet.EQPacket.timeout_eof hinv.playback h.eof call.clock

theorem Replay.Inv.quick (h : r.Inv cs rs m inet z)
    (hrs : rs.map Rec.toChunk = cs.map Captured.chunk)
    (hspeed : r.playback.m_vPacket.m_nPlaybackSpeed = 0) {call : TimerCall}
    (hquick : ∀ i, call.clock i - call.clock 0 < 100) : (r.timeout inet z call).Done cs := by
  obtain ⟨hall, heof⟩ := Packet.EQPacket.timeout_quick h.playback hspeed hquick
  refine ⟨?_, heof⟩
  have hsame := congrArg List.length hrs
  simp only [List.length_map] at hsame
  show cs.length ≤ (r.playback.timeout call.clock).dispatched.length
  rw [hall, List.length_map, hsame]

end

/-- At any speed, and whatever the clock shows at the calls of the timer: what the playback has
    handed on so far are the first messages of the live session, and it is where the live session
    was behind as many frames. -/
theorem replay_follows (inet : Inet) (z : Inflater) (cs : List Captured)
    (hcs : ∀ c ∈ cs, c.Recordable) (host : Option UInt32) (device device' ip mac : QString)
    (flush : Bool) (memory memory' : ByteMemory) (clock : ℕ → ℤ) (speed : ℤ) (hspeed : 0 ≤ speed)
    (compressTime : ℤ) (calls : List TimerCall) :
    let live := Recorder.start inet host device ip mac flush memory clock
    let recording := cs.foldl (Recorder.step inet z) live
    let replay := calls.foldl (Replay.timeout inet z)
      (.start inet host device' ip mac speed compressTime memory' recording.m_vPacket.Flush.written)
    let n := replay.playback.dispatched.length
    let before := (cs.take n).foldl (Recorder.step inet z) live
    n ≤ cs.length ∧
      replay.messages =
        (outputs (Recorder.step inet z) (Recorder.message z) live cs).take n ∧
      replay.monitor.toEQPacket = before.monitor.toEQPacket ∧
      replay.monitor.m_ip = before.monitor.m_ip := by
  intro live recording replay n before
  obtain ⟨rs, hrs, hplayable, hfile⟩ := recorded_file inet z hcs host device ip mac
    flush memory clock
  have hinv : replay.Inv cs rs live.monitor inet z := by
    refine foldl_invariant _ (fun _ call h => h.timeout hrs hcs call) ?_ calls
    rw [hfile]
    exact replay_inv inet z hplayable cs host device device' ip mac hspeed compressTime memory'
  have hbefore : before.monitor = ((cs.take n).map Captured.event).foldl (Monitor.step inet z)
      live.monitor := Recorder.run_monitor inet z live (cs.take n)
  refine ⟨hinv.le hrs, ?_, ?_, ?_⟩
  · rw [← outputs_take, Recorder.outputs_message]
    exact hinv.messages
  · rw [hbefore]
    exact hinv.session.packets
  · rw [hbefore]
    exact hinv.session.ip

/-- As fast as possible, a first call that is over within its time hands on all messages of the
    live session, signals the end, and leaves nothing to the calls behind it. -/
theorem replay_at_once (inet : Inet) (z : Inflater) (cs : List Captured)
    (hcs : ∀ c ∈ cs, c.Recordable) (host : Option UInt32) (device device' ip mac : QString)
    (flush : Bool) (memory memory' : ByteMemory) (clock : ℕ → ℤ) (compressTime : ℤ)
    (call : TimerCall) (hcall : ∀ i, call.clock i - call.clock 0 < 100)
    (calls : List TimerCall) :
    let live := Recorder.start inet host device ip mac flush memory clock
    let recording := cs.foldl (Recorder.step inet z) live
    let replay := (call :: calls).foldl (Replay.timeout inet z)
      (.start inet host device' ip mac 0 compressTime memory' recording.m_vPacket.Flush.written)
    replay.messages = outputs (Recorder.step inet z) (Recorder.message z) live cs ∧
      replay.playback.playbackFinished = true ∧
      replay.monitor.toEQPacket = recording.monitor.toEQPacket ∧
      replay.monitor.m_ip = recording.monitor.m_ip := by
  intro live recording replay
  obtain ⟨rs, hrs, hplayable, hfile⟩ := recorded_file inet z hcs host device ip mac
    flush memory clock
  have hstart := replay_inv inet z hplayable cs host device device' ip mac (le_refl 0)
    compressTime memory'
  have hfirst := And.intro (hstart.timeout hrs hcs call) (hstart.quick hrs rfl hcall)
  rw [← hfile] at hfirst
  have hkeeps (r : Replay) (c : TimerCall)
      (h : r.Inv cs rs live.monitor inet z ∧ r.Done cs) :
      (r.timeout inet z c).Inv cs rs live.monitor inet z ∧ (r.timeout inet z c).Done cs :=
    ⟨h.1.timeout hrs hcs c, h.2.timeout h.1 c⟩
  have hdone : replay.Inv cs rs live.monitor inet z ∧ replay.Done cs :=
    foldl_invariant (Replay.timeout inet z) hkeeps hfirst calls
  obtain ⟨hinv, hall, heof⟩ := hdone
  have htake : cs.take replay.playback.dispatched.length = cs := List.take_of_length_le hall
  have hsession := hinv.session
  have hmessages := hinv.messages
  rw [htake] at hsession hmessages
  rw [← Recorder.run_monitor inet z live cs] at hsession
  refine ⟨?_, hinv.playback.finished.trans heof, hsession.packets, hsession.ip⟩
  rw [Recorder.outputs_message]
  exact hmessages

/-- A frame of 10.1.2.3:9000 to 10.0.0.5 with two bytes, and one of 10.0.0.7 to a zone server. -/
def twoFrames : List Captured :=
  [⟨List.replicate 14 0 ++ [0x45, 0, 0, 30, 0, 0, 0, 0, 64, 17, 0, 0, 10, 1, 2, 3, 10, 0, 0, 5,
      0x23, 0x28, 0x04, 0xd2, 0, 10, 0, 0, 0, 0], 5, fun _ => 0⟩,
    ⟨List.replicate 14 0 ++ [0x45, 0, 0, 30, 0, 0, 0, 0, 64, 17, 0, 0, 10, 0, 0, 7, 10, 1, 2, 3,
      0x04, 0xd2, 0x1b, 0x58, 0, 10, 0, 0, 0, 0], 6, fun _ => 1⟩]

theorem twoFrames_recordable : ∀ c ∈ twoFrames, c.Recordable := by
  intro c hc
  obtain rfl | hc := List.mem_cons.mp hc
  · exact ⟨by decide, by decide⟩
  · rw [List.mem_singleton.mp hc]
    exact ⟨by decide, by decide⟩

theorem twoFrames_client :
    (twoFrames.foldl (Recorder.step Inet.dotted idleInflater)
      (.start Inet.dotted none [] [] [] false (fun _ => 0) fun _ => 0)).monitor.m_client_addr =
        0x0500000a := by
  rw [Recorder.run_monitor]
  decide

/-- A playback at normal speed: it is where the live session was behind as many frames. -/
theorem replay_follows_two :
    let live := Recorder.start Inet.dotted none [] [] [] false (fun _ => 0) fun _ => 0
    let recording := twoFrames.foldl (Recorder.step Inet.dotted idleInflater) live
    let replay := [⟨fun _ => 5, fun _ _ => 7⟩].foldl (Replay.timeout Inet.dotted idleInflater)
      (.start Inet.dotted none [] [] [] 1 0 (fun _ => 0) recording.m_vPacket.Flush.written)
    replay.playback.dispatched.length ≤ 2 := by
  intro live recording replay
  exact (replay_follows Inet.dotted idleInflater twoFrames twoFrames_recordable none [] [] [] []
    false (fun _ => 0) (fun _ => 0) (fun _ => 0) 1 (by decide) 0 _).1

/-- The client of the live session is found again. -/
theorem replay_at_once_two :
    let live := Recorder.start Inet.dotted none [] [] [] false (fun _ => 0) fun _ => 0
    let recording := twoFrames.foldl (Recorder.step Inet.dotted idleInflater) live
    let replay := [⟨fun _ => 5, fun _ _ => 7⟩].foldl (Replay.timeout Inet.dotted idleInflater)
      (.start Inet.dotted none [] [] [] 0 0 (fun _ => 0) recording.m_vPacket.Flush.written)
    replay.monitor.m_client_addr = 0x0500000a := by
  intro live recording replay
  have h := replay_at_once Inet.dotted idleInflater twoFrames twoFrames_recordable none [] [] [] []
    false (fun _ => 0) (fun _ => 0) (fun _ => 0) 0 ⟨fun _ => 5, fun _ _ => 7⟩
    (fun _ => show (5 : ℤ) - 5 < 100 by decide) []
  exact (congrArg EQPacket.m_client_addr h.2.2.1).trans twoFrames_client

end ShoweqDaemon.Capture
