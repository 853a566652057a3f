/-
  Frames on their way from the capture thread to `dispatchPacket`.

  The capture thread copies a frame into a new node and links it in; the main thread takes the first
  node, copies it into its buffer and dispatches that. Each of these is atomic, and a run is any
  order of them. The length is the wire length of the frame: a `uint32_t` in the header, a
  `uint16_t` out of `getPacket`, a `short` in `processPackets`; its captured length is not looked at.
  `handOff_iff` is the exact condition on the frames of a run.
-/
import Mathlib.Data.UInt
import ShoweqDaemon.Lib.LinkedQueue
import ShoweqDaemon.Lib.Run

namespace ShoweqDaemon.Capture

open Machine

/-- `BUFSIZ` -/
def BUFSIZ : Nat := 8192

/-- `sizeof (struct ether_header)` -/
def etherHeader : Nat := 14

/-- The header that pcap passes to the callback, and the memory from the frame's first byte on. -/
structure Frame where
  len : UInt32
  caplen : UInt32
  caplen_le : caplen ≤ len
  data : Nat → UInt8

/-- `n` bytes of a memory. -/
def bytes (data : Nat → UInt8) (n : Nat) : List UInt8 := (List.range n).map data

/-- The bytes of the frame that libpcap captured. -/
def Frame.captured (f : Frame) : List UInt8 := bytes f.data f.caplen.toNat

/-- `packetCache`: a copy of a frame in the queue, with the length that it has on the wire. -/
structure PacketCache where
  len : Nat
  data : List UInt8

/-- A call of `dispatchPacket`: the size, and the bytes that it says are there. -/
structure Dispatch where
  size : Int
  bytes : List UInt8
  deriving DecidableEq, Repr

/-- A copy of bytes, with what it was made from or written into. -/
inductive Copy where
  /-- `n` bytes read from a frame of which `caplen` were captured. -/
  | fromCapture (n caplen : Nat)
  /-- `n` bytes written into the buffer of `processPackets`. -/
  | toBuffer (n : Nat)

/-- Both threads, with a log of what was captured and fetched, dispatched and copied. -/
structure HandOff where
  /-- `m_pcache_first`, `m_pcache_last` and the nodes. -/
  m_pcache : LinkedQueue PacketCache
  m_pcache_closed : Bool
  m_busy_decoding : Bool
  buffer : Nat → UInt8
  captured : List Frame
  fetched : Nat
  dispatched : List Dispatch
  copies : List Copy

namespace HandOff

/-- After `start`: an empty queue that is open, no decoding in progress, and a buffer of which
    nothing is known. -/
def start (buffer : Nat → UInt8) : HandOff where
  m_pcache := .empty
  m_pcache_closed := false
  m_busy_decoding := false
  buffer := buffer
  captured := []
  fetched := 0
  dispatched := []
  copies := []

/-- The node that the callback makes of a frame. -/
def cached (f : Frame) : PacketCache where
  len := f.len.toNat
  data := bytes f.data f.len.toNat

/-- `PacketCaptureThread::packetCallBack`: the frame is copied to the end of the queue, unless the
    queue was closed. -/
def packetCallBack (s : HandOff) (f : Frame) : HandOff :=
  let s := { s with copies := s.copies ++ [.fromCapture f.len.toNat f.caplen.toNat] }
  if s.m_pcache_closed then s
  else { s with m_pcache := s.m_pcache.push (cached f), captured := s.captured ++ [f] }

/-- `PacketCaptureThread::stop`: from here on nothing comes in. -/
def stop (s : HandOff) : HandOff := { s with m_pcache_closed := true }

/-- `PacketCaptureThread::getPacket`: the front of the queue is copied out, and its length is cut to
    16 bits. -/
def getPacket (s : HandOff) : UInt16 × HandOff :=
  match s.m_pcache.pop with
  | (none, m_pcache) => (0, { s with m_pcache })
  | (some pc, m_pcache) =>
      let ret := UInt16.ofNat pc.len
      (ret, { s with
        m_pcache
        buffer := fun i => if i < ret.toNat then pc.data.getD i 0 else s.buffer i
        fetched := s.fetched + 1
        copies := s.copies ++ [.toBuffer ret.toNat] })

/-- The timer calls `processPackets`. -/
def processPackets (s : HandOff) : HandOff :=
  if s.m_busy_decoding then s else { s with m_busy_decoding := true }

/-- One turn of the loop in `processPackets`: a packet is fetched into the buffer and dispatched
    without its Ethernet header; a size of 0 ends the loop. -/
def drain (s : HandOff) : HandOff :=
  if s.m_busy_decoding then
    let (ret, s) := s.getPacket
    let size : Int16 := ret.toInt16
    if size = 0 then { s with m_busy_decoding := false }
    else
      let size := size.toInt - etherHeader
      { s with dispatched := s.dispatched ++
          [{ size, bytes := bytes (fun i => s.buffer (etherHeader + i)) size.toNat }] }
  else s

/-- The steps of the two threads, in any order. -/
inductive Event where
  | packetCallBack (f : Frame)
  | stop
  | processPackets
  | drain

/-- The state after a step: a frame comes in, the capture is stopped, the timer starts a drain, or a
    drain takes one turn. -/
def step (s : HandOff) : Event → HandOff
  | .packetCallBack f => s.packetCallBack f
  | .stop => s.stop
  | .processPackets => s.processPackets
  | .drain => s.drain

end HandOff

/-! ## What is promised -/

/-- What the frame should be handed on as: all that was captured behind the Ethernet header. -/
def Frame.dispatch (f : Frame) : Dispatch where
  size := f.caplen.toNat - etherHeader
  bytes := f.captured.drop etherHeader

/-- The copy stays inside of what it reads and of what it writes. -/
def Copy.InBounds : Copy → Prop
  | fromCapture n caplen => n ≤ caplen
  | toBuffer n => n ≤ BUFSIZ

/-- Frames with a whole ethernet header. -/
def Frame.whole (f : Frame) : Bool := etherHeader ≤ f.caplen.toNat

/-- Their dispatches. A dispatch of less than no bytes belongs to a frame that is not whole. -/
def Dispatch.whole (d : Dispatch) : Bool := 0 ≤ d.size

namespace HandOff

/-- The queue holds the captured frames that were not fetched yet, in order. -/
structure Queued (s : HandOff) : Prop where
  fetched_le : s.fetched ≤ s.captured.length
  queue : s.m_pcache.Holds ((s.captured.drop s.fetched).map cached)
  copied : ∀ f ∈ s.captured, .fromCapture f.len.toNat f.caplen.toNat ∈ s.copies

/-- The frames that were fetched were dispatched, each once and in order, with their captured
    bytes. -/
structure Handed (s : HandOff) : Prop where
  queue : s.m_pcache.Holds ((s.captured.drop s.fetched).map cached)
  dispatched : s.dispatched.filter Dispatch.whole =
    ((s.captured.take s.fetched).filter Frame.whole).map Frame.dispatch
  copies : ∀ c ∈ s.copies, c.InBounds

/-- A drain that ends leaves nothing in the queue. -/
def EndsEmpty (s : HandOff) (e : Event) : Prop :=
  s.m_busy_decoding = true → (s.step e).m_busy_decoding = false →
    (s.step e).m_pcache.first = none

/-- Nothing was cut off the frame that is captured. The frame that is fetched fits the buffer, and
    if it is empty, it is the last one. -/
def Fits (s : HandOff) : Event → Prop
  | .packetCallBack f => f.len ≤ f.caplen
  | .drain => s.m_busy_decoding = true → ∀ f ∈ s.captured[s.fetched]?,
      f.len.toNat ≤ BUFSIZ ∧ (f.len = 0 → s.captured.length = s.fetched + 1)
  | _ => True

/-- Once the queue is empty, all frames were dispatched. -/
theorem Handed.drained {s : HandOff} (hq : s.Queued) (h : s.Handed)
    (hempty : s.m_pcache.first = none) :
    s.dispatched.filter Dispatch.whole = (s.captured.filter Frame.whole).map Frame.dispatch := by
  have hnil := List.map_eq_nil_iff.mp (hq.queue.first_eq_none_iff.mp hempty)
  have htake : s.captured.take s.fetched = s.captured :=
    List.take_of_length_le (List.drop_eq_nil_iff.mp hnil)
  rw [h.dispatched, htake]

/-! ## The queue -/

theorem start_queued (buffer : Nat → UInt8) : (start buffer).Queued :=
  ⟨Nat.le_refl 0, LinkedQueue.holds_empty, fun _ hf => nomatch hf⟩

theorem packetCallBack_queued {s : HandOff} (h : s.Queued) (f : Frame) :
    (s.packetCallBack f).Queued := by
  unfold packetCallBack
  dsimp only
  split
  · exact ⟨h.fetched_le, h.queue, fun g hg => List.mem_append_left _ (h.copied g hg)⟩
  · refine ⟨?_, ?_, fun g hg => ?_⟩
    · show s.fetched ≤ (s.captured ++ [f]).length
      rw [List.length_append]
      exact Nat.le_trans h.fetched_le (Nat.le_add_right _ _)
    · show (s.m_pcache.push (cached f)).Holds _
      rw [List.drop_append_of_le_length h.fetched_le, List.map_append]
      exact LinkedQueue.push_holds h.queue (cached f)
    · rcases List.mem_append.mp hg with hg | hg
      · exact List.mem_append_left _ (h.copied g hg)
      · rw [List.mem_singleton.mp hg]
        exact List.mem_append_right _ List.mem_cons_self

/-- `ret` of a frame. -/
def ret (f : Frame) : UInt16 := UInt16.ofNat f.len.toNat

/-- The shell of things after the node of `f` was fetched. -/
def took (s : HandOff) (f : Frame) (m_pcache : LinkedQueue PacketCache) : HandOff :=
  { s with
    m_pcache
    buffer := fun i => if i < (ret f).toNat then (cached f).data.getD i 0 else s.buffer i
    fetched := s.fetched + 1
    copies := s.copies ++ [.toBuffer (ret f).toNat] }

/-- What is dispatched of a buffer that holds `size` bytes. -/
def sent (buffer : Nat → UInt8) (size : Int16) : Dispatch where
  size := size.toInt - etherHeader
  bytes := bytes (fun i => buffer (etherHeader + i)) (size.toInt - etherHeader).toNat

/-- A turn of the loop takes the first frame that was not fetched, if there is one. -/
theorem drain_cases {s : HandOff} (h : s.Queued) (hbusy : s.m_busy_decoding = true) :
    (s.captured.length = s.fetched ∧ s.drain = { s with m_busy_decoding := false }) ∨
      ∃ f m_pcache, s.captured[s.fetched]? = some f ∧
        m_pcache.Holds ((s.captured.drop (s.fetched + 1)).map cached) ∧
        s.drain = if (ret f).toInt16 = 0 then { s.took f m_pcache with m_busy_decoding := false }
          else { s.took f m_pcache with
            dispatched := s.dispatched ++ [sent (s.took f m_pcache).buffer (ret f).toInt16] } := by
  have hq := h.queue
  unfold drain
  rw [if_pos hbusy]
  by_cases hlt : s.fetched < s.captured.length
  · right
    rw [List.drop_eq_getElem_cons hlt, List.map_cons] at hq
    obtain ⟨hvalue, hrest⟩ := LinkedQueue.pop_cons hq
    refine ⟨s.captured[s.fetched], s.m_pcache.pop.2, List.getElem?_eq_getElem hlt, hrest, ?_⟩
    have hpop : s.m_pcache.pop = (some (cached s.captured[s.fetched]), s.m_pcache.pop.2) :=
      Prod.ext hvalue rfl
    have hget : s.getPacket = (ret s.captured[s.fetched],
        s.took s.captured[s.fetched] s.m_pcache.pop.2) := by
      unfold getPacket
      rw [hpop]
      rfl
    rw [hget]
    rfl
  · left
    have hlen : s.captured.length = s.fetched := Nat.le_antisymm (Nat.not_lt.mp hlt) h.fetched_le
    rw [List.drop_of_length_le (Nat.le_of_eq hlen)] at hq
    have hget : s.getPacket = (0, s) := by
      unfold getPacket
      rw [LinkedQueue.pop_nil hq]
    rw [hget]
    exact ⟨hlen, rfl⟩

theorem drain_idle {s : HandOff} (hbusy : ¬ s.m_busy_decoding = true) : s.drain = s := by
  unfold drain
  rw [if_neg hbusy]

theorem drain_queued {s : HandOff} (h : s.Queued) : s.drain.Queued := by
  by_cases hbusy : s.m_busy_decoding = true
  · rcases drain_cases h hbusy with ⟨-, hdrain⟩ | ⟨f, m_pcache, hf, hrest, hdrain⟩
    · rw [hdrain]
      exact ⟨h.fetched_le, h.queue, h.copied⟩
    · have hlt : s.fetched < s.captured.length := (List.getElem?_eq_some_iff.mp hf).1
      have hcopied : ∀ g ∈ s.captured, Copy.fromCapture g.len.toNat g.caplen.toNat ∈
          s.copies ++ [.toBuffer (ret f).toNat] :=
        fun g hg => List.mem_append_left _ (h.copied g hg)
      rw [hdrain]
      split <;> exact ⟨hlt, hrest, hcopied⟩
  · rw [drain_idle hbusy]
    exact h

theorem step_queued (s : HandOff) (e : Event) (h : s.Queued) : (s.step e).Queued := by
  cases e with
  | packetCallBack f => exact packetCallBack_queued h f
  | stop => exact ⟨h.fetched_le, h.queue, h.copied⟩
  | processPackets =>
      show s.processPackets.Queued
      unfold processPackets
      split
      · exact h
      · exact ⟨h.fetched_le, h.queue, h.copied⟩
  | drain => exact drain_queued h

/-! ## One frame -/

theorem ret_toNat (f : Frame) : (ret f).toNat = f.len.toNat % 65536 := rfl

/-- A `short` of at most `BUFSIZ`. -/
theorem size_of_le {n : UInt16} (h : n.toNat ≤ BUFSIZ) : n.toInt16.toInt = n.toNat := by
  have hint : n.toInt16.toInt = if 2 * n.toNat < 2 ^ 16 then (n.toNat : Int)
      else (n.toNat : Int) - (2 ^ 16 : Nat) := BitVec.toInt_eq_toNat_cond n.toBitVec
  unfold BUFSIZ at h
  rw [hint, if_pos (by omega)]

theorem size_eq_zero_iff (n : UInt16) : n.toInt16 = 0 ↔ n.toNat = 0 := by
  constructor
  · intro h
    have hbits : n.toInt16.toUInt16 = 0 := congrArg Int16.toUInt16 h
    have hn : n = 0 := hbits
    rw [hn]
    rfl
  · intro h
    have hn : n = 0 := UInt16.toNat_inj.mp h
    rw [hn]
    rfl

theorem bytes_drop (data : Nat → UInt8) (n k : Nat) :
    bytes (fun i => data (k + i)) (n - k) = (bytes data n).drop k := by
  unfold bytes
  refine List.ext_getElem (by simp) fun i _ _ => ?_
  simp

theorem getD_bytes (data : Nat → UInt8) {i n : Nat} (h : i < n) : (bytes data n).getD i 0 = data i := by
  unfold bytes
  simp [List.getD_eq_getElem?_getD, h]

/-- A whole frame that fits arrives as it was captured. -/
theorem sent_eq {s : HandOff} {f : Frame} {m_pcache : LinkedQueue PacketCache}
    (hlen : f.len = f.caplen) (hfits : f.len.toNat ≤ BUFSIZ) (hwhole : etherHeader ≤ f.caplen.toNat) :
    sent (s.took f m_pcache).buffer (ret f).toInt16 = f.dispatch := by
  have hret : (ret f).toNat = f.caplen.toNat := by
    rw [ret_toNat, ← hlen]
    unfold BUFSIZ at hfits
    omega
  have hsize : (ret f).toInt16.toInt = f.caplen.toNat := by
    rw [size_of_le (by rw [hret, ← hlen]; exact hfits), hret]
  have hnat : ((f.caplen.toNat : Int) - (etherHeader : Nat)).toNat = f.caplen.toNat - etherHeader := by
    omega
  unfold sent Frame.dispatch Frame.captured
  rw [hsize, hnat, ← bytes_drop]
  refine congrArg (Dispatch.mk _) (List.map_congr_left fun i hi => ?_)
  have hi' : etherHeader + i < f.caplen.toNat := by
    have := List.mem_range.mp hi
    omega
  show (if etherHeader + i < (ret f).toNat then (bytes f.data f.len.toNat).getD (etherHeader + i) 0
    else s.buffer (etherHeader + i)) = f.data (etherHeader + i)
  rw [hret, if_pos hi', hlen, getD_bytes f.data hi']

/-- What a turn dispatches of the frame. -/
def turn (s : HandOff) (f : Frame) (m_pcache : LinkedQueue PacketCache) : List Dispatch :=
  if (ret f).toInt16 = 0 then [] else [sent (s.took f m_pcache).buffer (ret f).toInt16]

/-- A frame that does not fit is dispatched with another size, or not at all. -/
theorem not_mem_turn {s : HandOff} {f : Frame} {m_pcache : LinkedQueue PacketCache}
    (hlen : f.len = f.caplen) (hlarge : BUFSIZ < f.len.toNat) (hle : (ret f).toNat ≤ BUFSIZ) :
    f.dispatch ∉ s.turn f m_pcache := by
  intro hmem
  have hret := ret_toNat f
  unfold turn at hmem
  split at hmem
  · cases hmem
  · have hsize : f.dispatch.size = (ret f).toInt16.toInt - (etherHeader : Nat) :=
      congrArg Dispatch.size (List.mem_singleton.mp hmem)
    have hdispatch : f.dispatch.size = (f.len.toNat : Int) - (etherHeader : Nat) := by
      rw [hlen]
      rfl
    rw [size_of_le hle] at hsize
    unfold BUFSIZ at hle hlarge
    omega

theorem turn_of_fits (s : HandOff) {f : Frame} (m_pcache : LinkedQueue PacketCache)
    (hlen : f.len = f.caplen) (hfits : f.len.toNat ≤ BUFSIZ) :
    (s.turn f m_pcache).filter Dispatch.whole = ([f].filter Frame.whole).map Frame.dispatch := by
  have hsame : (ret f).toNat = f.len.toNat := by
    have hret := ret_toNat f
    unfold BUFSIZ at hfits
    omega
  by_cases hwhole : etherHeader ≤ f.caplen.toNat
  · have hwhole' : f.whole = true := decide_eq_true hwhole
    have hne : (ret f).toInt16 ≠ 0 := by
      intro hzero
      have hnat := (size_eq_zero_iff (ret f)).mp hzero
      rw [hsame, hlen] at hnat
      unfold etherHeader at hwhole
      omega
    have hsize : f.dispatch.whole = true := by
      refine decide_eq_true ?_
      show 0 ≤ (f.caplen.toNat : Int) - (etherHeader : Nat)
      omega
    unfold turn
    rw [if_neg hne, sent_eq hlen hfits hwhole, List.filter_cons_of_pos hsize,
      List.filter_cons_of_pos hwhole']
    rfl
  · have hwhole' : ¬ f.whole = true := fun h => hwhole (of_decide_eq_true h)
    rw [List.filter_cons_of_neg hwhole', List.filter_nil, List.map_nil]
    unfold turn
    split
    · rfl
    · have hsize : ¬ (sent (s.took f m_pcache).buffer (ret f).toInt16).whole = true := by
        intro h
        have hnonneg : 0 ≤ (ret f).toInt16.toInt - (etherHeader : Nat) := of_decide_eq_true h
        rw [size_of_le (hsame ▸ hfits), hsame, hlen] at hnonneg
        omega
      rw [List.filter_cons_of_neg hsize, List.filter_nil]

/-- The frame is dispatched as it should be, and into the buffer, exactly when it fits. -/
theorem turn_iff (s : HandOff) {f : Frame} (m_pcache : LinkedQueue PacketCache)
    (hlen : f.len = f.caplen) :
    (s.turn f m_pcache).filter Dispatch.whole = ([f].filter Frame.whole).map Frame.dispatch ∧
      (ret f).toNat ≤ BUFSIZ ↔ f.len.toNat ≤ BUFSIZ := by
  constructor
  · rintro ⟨hturn, hle⟩
    by_contra hbig
    have hlarge : BUFSIZ < f.len.toNat := Nat.lt_of_not_le hbig
    have hwhole : f.whole = true := by
      unfold Frame.whole etherHeader
      unfold BUFSIZ at hlarge
      rw [← hlen]
      exact decide_eq_true (by omega)
    rw [List.filter_cons_of_pos hwhole, List.filter_nil, List.map_singleton] at hturn
    have hfilter : f.dispatch ∈ (s.turn f m_pcache).filter Dispatch.whole := by
      rw [hturn]
      exact List.mem_singleton_self _
    exact not_mem_turn hlen hlarge hle (List.mem_filter.mp hfilter).1
  · intro hfits
    refine ⟨turn_of_fits s m_pcache hlen hfits, ?_⟩
    rw [ret_toNat]
    exact (Nat.mod_le _ _).trans hfits

theorem mem_captured_fits {s : HandOff} (hq : s.Queued) (h : s.Handed) {f : Frame}
    (hf : f ∈ s.captured) : f.len = f.caplen := by
  have hle : f.len.toNat ≤ f.caplen.toNat := h.copies _ (hq.copied f hf)
  exact UInt32.le_antisymm (UInt32.le_iff_toNat_le.mpr hle) f.caplen_le

/-! ## One step -/

/-- What a turn with frame `f` leaves behind. -/
theorem drain_fields {s : HandOff} (hbusy : s.m_busy_decoding = true) {f : Frame}
    {m_pcache : LinkedQueue PacketCache}
    (hdrain : s.drain =
      if (ret f).toInt16 = 0 then { s.took f m_pcache with m_busy_decoding := false }
      else { s.took f m_pcache with
        dispatched := s.dispatched ++ [sent (s.took f m_pcache).buffer (ret f).toInt16] }) :
    s.drain.m_pcache = m_pcache ∧ s.drain.captured = s.captured ∧
      s.drain.fetched = s.fetched + 1 ∧
      s.drain.dispatched = s.dispatched ++ s.turn f m_pcache ∧
      s.drain.copies = s.copies ++ [.toBuffer (ret f).toNat] ∧
      (s.drain.m_busy_decoding = false ↔ (ret f).toNat = 0) := by
  rw [hdrain, ← size_eq_zero_iff, turn]
  split
  · rename_i hzero
    exact ⟨rfl, rfl, rfl, (List.append_nil _).symm, rfl, iff_of_true rfl hzero⟩
  · rename_i hzero
    refine ⟨rfl, rfl, rfl, rfl, rfl, iff_of_false ?_ hzero⟩
    exact ne_false_of_eq_true hbusy

/-- The turn hands on the frame as it should exactly when the frame fits. -/
theorem handed_append_iff {s s' : HandOff} (h : s.Handed) {f : Frame}
    {m_pcache : LinkedQueue PacketCache} (hlen : f.len = f.caplen)
    (hf : s.captured[s.fetched]? = some f)
    (hqueue : s'.m_pcache.Holds ((s'.captured.drop s'.fetched).map cached))
    (hcaptured : s'.captured = s.captured) (hfetched : s'.fetched = s.fetched + 1)
    (hdispatched : s'.dispatched = s.dispatched ++ s.turn f m_pcache)
    (hcopies : s'.copies = s.copies ++ [.toBuffer (ret f).toNat]) :
    s'.Handed ↔ f.len.toNat ≤ BUFSIZ := by
  have htake : s.captured.take (s.fetched + 1) = s.captured.take s.fetched ++ [f] := by
    rw [List.take_add_one, hf]
    rfl
  have hdispatch : s'.dispatched.filter Dispatch.whole =
      ((s'.captured.take s'.fetched).filter Frame.whole).map Frame.dispatch ↔
      (s.turn f m_pcache).filter Dispatch.whole = ([f].filter Frame.whole).map Frame.dispatch := by
    rw [hdispatched, hcaptured, hfetched, htake, List.filter_append, List.filter_append,
      List.map_append, h.dispatched]
    exact List.append_right_inj _
  rw [← turn_iff s m_pcache hlen]
  constructor
  · intro hnew
    exact ⟨hdispatch.mp hnew.dispatched, hnew.copies (.toBuffer (ret f).toNat)
      (hcopies ▸ List.mem_append_right _ List.mem_cons_self)⟩
  · rintro ⟨hturn, hle⟩
    refine ⟨hqueue, hdispatch.mpr hturn, fun c hc => ?_⟩
    rw [hcopies] at hc
    rcases List.mem_append.mp hc with hc | hc
    · exact h.copies c hc
    · rw [List.mem_singleton.mp hc]
      exact hle

theorem drain_iff {s : HandOff} (hq : s.Queued) (h : s.Handed) :
    s.drain.Handed ∧ s.EndsEmpty .drain ↔ s.Fits .drain := by
  by_cases hbusy : s.m_busy_decoding = true
  · rcases drain_cases hq hbusy with ⟨hend, hdrain⟩ | ⟨f, m_pcache, hf, hrest, hdrain⟩
    · have hnone : s.captured[s.fetched]? = none := List.getElem?_eq_none (Nat.le_of_eq hend)
      have hempty : s.drain.m_pcache.first = none := by
        rw [hdrain]
        refine hq.queue.first_eq_none_iff.mpr ?_
        rw [List.drop_of_length_le (Nat.le_of_eq hend)]
        rfl
      refine iff_of_true ⟨?_, fun _ _ => hempty⟩ fun _ f hf => ?_
      · rw [hdrain]
        exact ⟨h.queue, h.dispatched, h.copies⟩
      · rw [hnone] at hf
        cases hf
    · have hlt : s.fetched < s.captured.length := (List.getElem?_eq_some_iff.mp hf).1
      have hlen := mem_captured_fits hq h (List.mem_of_getElem? hf)
      obtain ⟨hpcache, hcaptured, hfetched, hdispatched, hcopies, hends⟩ :=
        drain_fields hbusy hdrain
      have hqueue : s.drain.m_pcache.Holds ((s.drain.captured.drop s.drain.fetched).map cached) := by
        rw [hpcache, hcaptured, hfetched]
        exact hrest
      have hempty : s.drain.m_pcache.first = none ↔ s.captured.length = s.fetched + 1 := by
        rw [hpcache, hrest.first_eq_none_iff, List.map_eq_nil_iff, List.drop_eq_nil_iff]
        omega
      rw [handed_append_iff h hlen hf hqueue hcaptured hfetched hdispatched hcopies]
      constructor
      · rintro ⟨hfits, hend⟩ - g hg
        obtain rfl : f = g := Option.some.inj (hf.symm.trans hg)
        refine ⟨hfits, fun hzero => hempty.mp (hend hbusy (hends.mpr ?_))⟩
        rw [ret_toNat, hzero]
        rfl
      · intro hfits
        obtain ⟨hle, hlast⟩ := hfits hbusy f hf
        refine ⟨hle, fun _ hdone => hempty.mpr (hlast ?_)⟩
        have hzero := hends.mp hdone
        rw [ret_toNat] at hzero
        unfold BUFSIZ at hle
        exact UInt32.toNat_inj.mp (show f.len.toNat = 0 by omega)
  · rw [drain_idle hbusy]
    exact iff_of_true ⟨h, fun hb => absurd hb hbusy⟩ fun hb => absurd hb hbusy

/-- One event keeps what is promised exactly when its frame fits. -/
theorem step_iff (s : HandOff) (e : Event) (hq : s.Queued) (h : s.Handed) :
    (s.step e).Handed ∧ s.EndsEmpty e ↔ s.Fits e := by
  cases e with
  | drain => exact drain_iff hq h
  | stop =>
      exact iff_of_true ⟨⟨h.queue, h.dispatched, h.copies⟩,
        fun hbusy hdone => nomatch hbusy.symm.trans hdone⟩ trivial
  | processPackets =>
      refine iff_of_true ⟨?_, fun hbusy hdone => ?_⟩ trivial
      · show s.processPackets.Handed
        unfold processPackets
        split
        · exact h
        · exact ⟨h.queue, h.dispatched, h.copies⟩
      · have hsame : s.step .processPackets = s := if_pos hbusy
        rw [hsame, hbusy] at hdone
        cases hdone
  | packetCallBack f =>
      have hends : s.EndsEmpty (.packetCallBack f) := by
        intro hbusy hdone
        have hsame : (s.packetCallBack f).m_busy_decoding = s.m_busy_decoding := by
          unfold packetCallBack
          dsimp only
          split <;> rfl
        exact nomatch hbusy.symm.trans (hsame.symm.trans hdone)
      have hcopies : (s.packetCallBack f).copies =
          s.copies ++ [.fromCapture f.len.toNat f.caplen.toNat] := by
        unfold packetCallBack
        dsimp only
        split <;> rfl
      have hnew := (packetCallBack_queued hq f).queue
      have hdispatched : (s.packetCallBack f).dispatched.filter Dispatch.whole =
          (((s.packetCallBack f).captured.take (s.packetCallBack f).fetched).filter
            Frame.whole).map Frame.dispatch := by
        unfold packetCallBack
        dsimp only
        split
        · exact h.dispatched
        · show s.dispatched.filter Dispatch.whole =
            (((s.captured ++ [f]).take s.fetched).filter Frame.whole).map Frame.dispatch
          rw [List.take_append_of_le_length hq.fetched_le]
          exact h.dispatched
      refine (and_iff_left hends).trans ⟨fun hhanded => ?_, fun hfits => ⟨hnew, hdispatched, ?_⟩⟩
      · exact UInt32.le_iff_toNat_le.mpr (hhanded.copies (.fromCapture _ _)
          (hcopies ▸ List.mem_append_right _ List.mem_cons_self))
      · intro c hc
        have hc' : c ∈ s.copies ++ [.fromCapture f.len.toNat f.caplen.toNat] := hcopies ▸ hc
        rcases List.mem_append.mp hc' with hc | hc
        · exact h.copies c hc
        · rw [List.mem_singleton.mp hc]
          exact UInt32.le_iff_toNat_le.mp hfits

end HandOff

open HandOff

/-- In every order of captures and drains, the frames are handed on as captured, no copy goes out
    of bounds and every drain empties the queue, exactly when no frame is cut short, every frame
    fits the buffer, and an empty frame is fetched only as the last one. -/
theorem handOff_iff (buffer : Nat → UInt8) (es : List Event) :
    (∀ s ∈ trace step (start buffer) es, s.Handed) ∧ StepsMeet step EndsEmpty (start buffer) es ↔
      StepsMeet step Fits (start buffer) es :=
  trace_forall_and_iff_stepsMeet step step_queued step_iff (start_queued buffer)
    ⟨LinkedQueue.holds_empty, rfl, fun _ hc => nomatch hc⟩ es

/-- A frame of 100 bytes of which 60 were captured. -/
theorem cut_frame_overread :
    ¬ ∀ (buffer : Nat → UInt8) (es : List Event), (∀ s ∈ trace step (start buffer) es, s.Handed) ∧
      StepsMeet step EndsEmpty (start buffer) es := by
  intro h
  let f : Frame := { len := 100, caplen := 60, caplen_le := by decide, data := fun _ => 0 }
  let s := (start fun _ => 0).packetCallBack f
  have hhanded : s.Handed := (h (fun _ => 0) [.packetCallBack f]).1 s
    (List.mem_cons_of_mem _ List.mem_cons_self)
  have hread : 100 ≤ 60 := hhanded.copies (.fromCapture 100 60) List.mem_cons_self
  exact absurd hread (by decide)

end ShoweqDaemon.Capture
