/-
  `VPacket`: packets with their times, recorded to a file and played back from it.

  The internal buffer is a byte memory in which `packet_struct`s lie one behind the other, at any
  offset. Recording appends to it and writes it out when the next packet does not fit; playback
  moves what is left to its start and reads the file on behind it. A read of the buffer during
  playback is noted with the part that is filled at that moment. The file holds `written` when
  recording; `unread` is what lies behind the read position when playing back.
-/
import ShoweqDaemon.Lib.Audit
import ShoweqDaemon.Lib.ByteMemory

namespace ShoweqDaemon.Packet

open Audit

/-! ## `packet_struct` -/

/-- `sizeof (struct packet_struct)`. After `size` there are four bytes of padding. -/
def headersize : ℕ := 40

/-- Where the fields of a record's head lie. -/
def sizeOffset : ℕ := 0
def timeOffset : ℕ := 8
def versionOffset : ℕ := 16
def msOffset : ℕ := 24
def sequenceOffset : ℕ := 32

/-- An `int` as it lies in memory. -/
def intBytes (v : Int32) : List UInt8 := leBytes 4 v.toUInt32.toNat

/-- A `long` as it lies in memory. -/
def longBytes (v : Int64) : List UInt8 := leBytes 8 v.toUInt64.toNat

/-- The `int` that four bytes stand for. -/
def toInt32 (bs : List UInt8) : Int32 := (UInt32.ofNat (leValue bs)).toInt32

/-- The `long` that eight bytes stand for. -/
def toInt64 (bs : List UInt8) : Int64 := (UInt64.ofNat (leValue bs)).toInt64

/-- What a caller records, and what it gets back. -/
structure Chunk where
  data : List UInt8
  time : Int64
  version : Int64
  deriving DecidableEq, Repr

/-! ## Times -/

/-- The members that pace the playback, and the readings of `mTime` to come. -/
structure Timing where
  m_nPlaybackSpeed : ℤ
  m_lStartTime : ℤ := 0
  m_nLastPacketTime : ℤ := 0
  m_nFirstPacketTime : ℤ := 0
  m_nLastTime : ℤ := 0
  m_nCompressTime : ℤ := 0
  clock : ℕ → ℤ

namespace Timing

/-- The next reading of the clock. -/
def now (t : Timing) : ℤ := t.clock 0

/-- A reading is done. -/
def tick (t : Timing) : Timing := { t with clock := fun i => t.clock (i + 1) }

/-- A `long` assigned to an `int`. -/
def narrow (v : ℤ) : ℤ := v.bmod (2 ^ 32)

/-- The first packet starts the timers: those that are 0 are set, the start of the recording to the
    clock and the time of that packet. -/
def start (t : Timing) (ms : Int64) : Timing :=
  let t :=
    if t.m_nFirstPacketTime = 0 ∨ t.m_nLastPacketTime = 0 then
      { t with m_nLastPacketTime := narrow ms.toInt, m_nFirstPacketTime := narrow ms.toInt }
    else t
  let t :=
    if t.m_lStartTime = 0 then
      { t.tick with m_lStartTime := narrow (t.now + t.m_nLastPacketTime) }
    else t
  if t.m_nLastTime = 0 then { t.tick with m_nLastTime := t.now } else t

/-- With the timers started: the packet has to wait. -/
def early (t : Timing) (ms : Int64) : Bool :=
  let pktDelta := narrow (ms.toInt - t.m_nLastPacketTime)
  let delta := t.now - t.m_nLastTime
  t.m_nPlaybackSpeed ≠ 0 ∧ pktDelta.tdiv t.m_nPlaybackSpeed > delta ∧
    ¬ (t.m_nCompressTime ≠ 0 ∧ pktDelta > t.m_nCompressTime)

/-- The packet is handed out now. -/
def due (t : Timing) (ms : Int64) : Bool := !(t.start ms).early ms

/-- After a packet that has to wait. -/
def waited (t : Timing) (ms : Int64) : Timing := (t.start ms).tick

/-- After a packet that is handed out. -/
def played (t : Timing) (ms : Int64) : Timing :=
  { (t.waited ms).tick with
    m_nLastPacketTime := narrow ms.toInt
    m_nLastTime := (t.waited ms).now }

end Timing

/-! ## The class -/

/-- `VPacket`: the buffer, the place in it, how much of it is filled, the file, and what is known of
    the times of the playback. -/
structure VPacket extends Timing where
  m_cBuffer : ByteMemory
  m_nBufIndex : ℕ := 0
  m_nBufBytes : ℕ := 0
  m_nBufSize : ℕ
  m_nSequence : Int64 := 0
  m_bEndofFile : Bool := false
  m_lBytesIO : ℕ := 0
  m_bFlushPacket : Bool := false
  m_bRecord : Bool
  unread : List UInt8 := []
  written : List UInt8 := []

/-- A read of `count` bytes of the buffer from `first` on, where `bytes` bytes from `index` on are
    filled. -/
structure Access where
  first : ℕ
  count : ℕ
  index : ℕ
  bytes : ℕ

/-- The read stays in the filled part. -/
def Access.InFilled (a : Access) : Prop := a.index ≤ a.first ∧ a.first + a.count ≤ a.index + a.bytes

namespace VPacket

/-- A `VPacket` on a file that was opened: the memory that `malloc` returned may hold anything. -/
def create (nPBSpeed : ℤ) (bRecord : Bool) (nBufSize : ℕ) (memory : ByteMemory) (clock : ℕ → ℤ)
    (file : List UInt8) : VPacket :=
  { m_nPlaybackSpeed := nPBSpeed, clock, m_cBuffer := memory, m_nBufSize := nBufSize
    m_bRecord := bRecord, unread := file }

/-- `VPacket::setCompressTime` -/
def setCompressTime (v : VPacket) (ms : ℤ) : VPacket := { v with m_nCompressTime := ms }

/-- `VPacket::setPlaybackSpeed`: the times are set back, so that the next packet starts the clock
    anew. -/
def setPlaybackSpeed (v : VPacket) (speed : ℤ) : VPacket :=
  { v with
    m_nFirstPacketTime := if v.m_nPlaybackSpeed = -1 then 0 else v.m_nFirstPacketTime
    m_nPlaybackSpeed := speed
    m_nLastPacketTime := 0
    m_nLastTime := 0 }

/-- `VPacket::setFlushPacket` -/
def setFlushPacket (v : VPacket) (inset : Bool) : VPacket := { v with m_bFlushPacket := inset }

/-- `VPacket::endOfData` -/
def endOfData (v : VPacket) : Bool := v.m_bEndofFile

/-! ## Recording -/

/-- `writeBuffer`, where the write is complete. It returns the number of bytes written. -/
def writeBuffer (v : VPacket) : VPacket × ℕ :=
  if v.m_bRecord then
    ({ v with
      written := v.written ++ v.m_cBuffer.load 0 v.m_nBufIndex
      m_nBufIndex := 0
      m_lBytesIO := v.m_lBytesIO + v.m_nBufIndex }, v.m_nBufIndex)
  else (v, 0)

/-- `VPacket::Flush`: what a recording has in its buffer is written. -/
def Flush (v : VPacket) : VPacket := if v.m_bRecord then v.writeBuffer.1 else v

/-- A packet's header and data put into the buffer at `header`. -/
def putPacket (buffer : ByteMemory) (header : ℕ) (p : Chunk) (ms sequence : Int64) : ByteMemory :=
  (((((buffer.store (header + sizeOffset)
      (intBytes (Int32.ofNat (headersize + p.data.length)))).store
    (header + msOffset) (longBytes ms)).store
    (header + versionOffset) (longBytes p.version)).store
    (header + sequenceOffset) (longBytes sequence)).store
    (header + timeOffset) (longBytes p.time)).store
    (header + headersize) p.data

/-- The first packet starts the recording's clock. -/
def started (v : VPacket) : VPacket :=
  if v.m_lStartTime = 0 then { v with toTiming := { v.tick with m_lStartTime := v.now } } else v

/-- The packet put behind the others in the buffer, with its time since the start and its number,
    whether or not there is room. -/
def append (v : VPacket) (p : Chunk) : VPacket :=
  let v := v.started
  let ms := Int64.ofInt (v.now - v.m_lStartTime)
  { v with
    toTiming := v.tick
    m_cBuffer := putPacket v.m_cBuffer v.m_nBufIndex p ms v.m_nSequence
    m_nBufIndex := v.m_nBufIndex + headersize + p.data.length
    m_nSequence := v.m_nSequence + 1 }

/-- If we need to write the buffer to make space, do so. The second value is 0 when that fails. -/
def makeSpace (v : VPacket) (bufsize : ℕ) : VPacket × ℕ :=
  if v.m_nBufSize - v.m_nBufIndex < bufsize then v.writeBuffer else (v, 1)

/-- `Record` returns 0 when it fails, else the size of the packet. -/
def Record (v : VPacket) (p : Chunk) : VPacket × ℕ :=
  let bufsize := p.data.length + headersize
  if bufsize > v.m_nBufSize then (v, 0)
  else
    let (v, wrote) := v.makeSpace bufsize
    if wrote = 0 then (v, 0)
    else if v.m_nBufSize - v.m_nBufIndex < bufsize then (v, 0)
    else
      let v := v.append p
      (if v.m_bFlushPacket then v.writeBuffer.1 else v, p.data.length)

/-! ## Playback -/

/-- `count` bytes of the buffer. -/
def read (v : VPacket) (first count : ℕ) : Noted Access (List UInt8) := do
  note { first, count, index := v.m_nBufIndex, bytes := v.m_nBufBytes }
  pure (v.m_cBuffer.load first count)

/-- An `int` of the buffer, whose bytes are noted. -/
def readInt (v : VPacket) (first : ℕ) : Noted Access Int32 := do
  let bs ← v.read first 4
  pure (toInt32 bs)

/-- A `long` of the buffer, whose bytes are noted. -/
def readLong (v : VPacket) (first : ℕ) : Noted Access Int64 := do
  let bs ← v.read first 8
  pure (toInt64 bs)

/-- `fillBuffer`, on a file that can be read: the read is short only at its end. -/
def fillBuffer (v : VPacket) : Noted Access (VPacket × ℕ) :=
  if v.m_bEndofFile then pure (v, 0)
  else do
    -- Move current data to beginning of buffer
    note { first := v.m_nBufIndex, count := v.m_nBufBytes, index := v.m_nBufIndex,
           bytes := v.m_nBufBytes }
    let wanted := v.m_nBufSize - v.m_nBufBytes
    let bytes := v.unread.take wanted
    pure ({ v with
      m_cBuffer := (v.m_cBuffer.move 0 v.m_nBufIndex v.m_nBufBytes).store v.m_nBufBytes bytes
      m_nBufIndex := 0
      m_bEndofFile := bytes.length ≠ wanted
      m_nBufBytes := v.m_nBufBytes + bytes.length
      m_lBytesIO := v.m_lBytesIO + bytes.length
      unread := v.unread.drop wanted }, bytes.length)

/-- The first try: the buffer is filled when it does not have enough data. -/
def prime (v : VPacket) : Noted Access VPacket :=
  if v.m_nBufBytes ≤ headersize then do pure (← v.fillBuffer).1 else pure v

/-- The second try to get the packet at the index into the buffer: where it lies afterwards. The
    pointer is only set anew when something was read. -/
def complete (v : VPacket) : Noted Access (VPacket × ℕ) := do
  let size ← v.readInt (v.m_nBufIndex + sizeOffset)
  if size.toInt > v.m_nBufBytes then do
    let (v', filled) ← v.fillBuffer
    pure (v', if filled ≠ 0 then v'.m_nBufIndex else v.m_nBufIndex)
  else pure (v, v.m_nBufIndex)

/-- What `Playback` does first: the whole packet in the buffer, and where it lies. -/
def locate (v : VPacket) : Noted Access (VPacket × Option ℕ) := do
  let v ← v.prime
  if v.m_nBufBytes ≤ headersize then pure (v, none)
  else do
    let (v, packet) ← v.complete
    let size ← v.readInt (packet + sizeOffset)
    pure (v, if size.toInt > v.m_nBufBytes then none else some packet)

/-- What `Playback` does last: the packet copied out of the buffer. -/
def handOut (v : VPacket) (packet bufsize : ℕ) (ms : Int64) :
    Noted Access (VPacket × Option Chunk) := do
  let size ← v.readInt (packet + sizeOffset)
  if size.toInt < headersize then
    pure ({ v with toTiming := v.waited ms, m_bEndofFile := true }, none)
  else
    let n := (size.toInt - headersize).toNat
    let v := { v with toTiming := v.played ms }
    if bufsize < n then pure (v, none)
    else do
      let data ← v.read (packet + headersize) n
      let time ← v.readLong (packet + timeOffset)
      let version ← v.readLong (packet + versionOffset)
      pure ({ v with
        m_nBufIndex := v.m_nBufIndex + (n + headersize)
        m_nBufBytes := v.m_nBufBytes - (n + headersize)
        m_nSequence := v.m_nSequence + 1 }, some { data, time, version })

/-- `Playback` with an output buffer of `bufsize` bytes. It returns 0 when there is no packet. -/
def Playback (v : VPacket) (bufsize : ℕ) : Noted Access (VPacket × Option Chunk) :=
  if v.m_nPlaybackSpeed < 0 then pure (v, none)
  else do
    let (v, packet?) ← v.locate
    match packet? with
    | none => pure (v, none)
    | some packet => do
        let ms ← v.readLong (packet + msOffset)
        if v.due ms then v.handOut packet bufsize ms
        else pure ({ v with toTiming := v.waited ms }, none)

/-! ## What is left -/

/-- The bytes that are not played back yet. -/
def remaining (v : VPacket) : ℕ := v.m_nBufBytes + v.unread.length

/-- A fill moves bytes from the file into the buffer. -/
theorem fillBuffer_remaining (v : VPacket) : v.fillBuffer.val.1.remaining = v.remaining ∧
    v.m_nBufBytes ≤ v.fillBuffer.val.1.m_nBufBytes := by
  unfold fillBuffer remaining
  split
  · exact ⟨rfl, le_rfl⟩
  · simp
    omega

theorem prime_remaining (v : VPacket) : v.prime.val.remaining = v.remaining := by
  unfold prime
  split
  · exact (fillBuffer_remaining v).1
  · rfl

theorem complete_remaining (v : VPacket) : v.complete.val.1.remaining = v.remaining ∧
    v.m_nBufBytes ≤ v.complete.val.1.m_nBufBytes := by
  simp only [complete, Noted.val_bind, Noted.val_ite, Noted.val_pure]
  split
  · exact fillBuffer_remaining v
  · exact ⟨rfl, le_rfl⟩

/-- A packet is located only where more than a header is in the buffer. -/
theorem locate_remaining (v : VPacket) : v.locate.val.1.remaining = v.remaining ∧
    (v.locate.val.2 ≠ none → headersize < v.locate.val.1.m_nBufBytes) := by
  simp only [locate, Noted.val_bind, Noted.val_ite, Noted.val_pure]
  split
  · exact ⟨prime_remaining v, fun h => absurd rfl h⟩
  · rename_i hmore
    obtain ⟨hsame, hgrows⟩ := complete_remaining v.prime.val
    exact ⟨hsame.trans (prime_remaining v), fun _ => lt_of_lt_of_le (not_le.mp hmore) hgrows⟩

theorem handOut_remaining {v v' : VPacket} {packet bufsize : ℕ} {ms : Int64} {chunk : Chunk}
    (h : (v.handOut packet bufsize ms).val = (v', some chunk)) (hmore : headersize < v.m_nBufBytes) :
    v'.remaining < v.remaining := by
  simp only [handOut, Noted.val_bind, Noted.val_ite, Noted.val_pure] at h
  split at h
  · cases h
  · split at h
    · cases h
    · obtain ⟨rfl, -⟩ := Prod.mk.inj h
      unfold remaining
      dsimp only
      unfold headersize at *
      omega

/-- A packet that is handed out is behind us. -/
theorem playback_remaining {v v' : VPacket} {bufsize : ℕ} {chunk : Chunk}
    (h : (v.Playback bufsize).val = (v', some chunk)) : v'.remaining < v.remaining := by
  obtain ⟨hsame, hmore⟩ := locate_remaining v
  unfold Playback at h
  split at h
  · cases h
  · rw [Noted.val_bind] at h
    generalize v.locate.val = located at hsame hmore h
    obtain ⟨w, packet?⟩ := located
    cases packet? with
    | none => cases h
    | some packet =>
        simp only [Noted.val_bind, Noted.val_ite, Noted.val_pure] at h
        split at h
        · exact lt_of_lt_of_eq (handOut_remaining h (hmore (Option.some_ne_none packet))) hsame
        · cases h

end VPacket

end ShoweqDaemon.Packet
