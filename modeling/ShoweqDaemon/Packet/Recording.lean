/-
  What is recorded is played back.

  `record_spec` is one `Record`: what was written to the file and what still waits in the buffer are
  the bytes of the records so far. `playbacks_holds` is any number of calls of `Playback` at speed 0.
  `recording_round_trip` puts the two together through the file.

  A record is the chunk with its length, its time since the start and its number. The four bytes
  of padding in it are whatever the buffer held, so `Recorded` carries them along and says nothing
  of their values.

  Proved:
  * `Recorded.makeSpace`, `Recorded.append`, `Recorded.flush`: what one step of the recorder
    keeps.
  * `record_spec`, `recordAll_spec`: one packet and any number of them, also where the buffer has
    to be written in between.
  * `playbacks_holds`: `k` calls return the first `k` packets and read the filled part alone.
  * `recording_round_trip`: any packets that fit the buffer come back in order, once each.
-/
import ShoweqDaemon.Packet.Records

namespace ShoweqDaemon.Packet

open Audit ByteMemory

namespace VPacket

/-! ## Recording -/

/-- The records so far are in the file and in the buffer. -/
structure Recorded (v : VPacket) (rs : List Rec) : Prop where
  bytes : v.written ++ v.m_cBuffer.load 0 v.m_nBufIndex = fileBytes rs
  room : v.m_nBufIndex ≤ v.m_nBufSize
  recording : v.m_bRecord = true

variable {v : VPacket} {rs : List Rec} {p : Chunk}

@[simp] theorem writeBuffer_bufSize (v : VPacket) :
    v.writeBuffer.1.m_nBufSize = v.m_nBufSize := by
  unfold writeBuffer
  split <;> rfl

theorem Recorded.writeBuffer (h : v.Recorded rs) :
    v.writeBuffer.1.Recorded rs ∧ v.writeBuffer.1.m_nBufIndex = 0 ∧
      v.writeBuffer.2 = v.m_nBufIndex := by
  unfold VPacket.writeBuffer
  rw [if_pos h.recording]
  refine ⟨⟨?_, Nat.zero_le _, h.recording⟩, rfl, rfl⟩
  exact (List.append_nil _).trans h.bytes

/-- There is room for a packet that fits the buffer, if need be after a write. -/
theorem Recorded.makeSpace (h : v.Recorded rs) {bufsize : ℕ} (hsize : bufsize ≤ v.m_nBufSize) :
    (v.makeSpace bufsize).1.Recorded rs ∧ (v.makeSpace bufsize).2 ≠ 0 ∧
      (v.makeSpace bufsize).1.m_nBufSize = v.m_nBufSize ∧
      bufsize ≤ (v.makeSpace bufsize).1.m_nBufSize - (v.makeSpace bufsize).1.m_nBufIndex := by
  unfold VPacket.makeSpace
  split
  · obtain ⟨hrec, hindex, hwrote⟩ := h.writeBuffer
    refine ⟨hrec, ?_, writeBuffer_bufSize v, ?_⟩
    · rw [hwrote]
      omega
    · rw [hindex, writeBuffer_bufSize]
      exact hsize
  · refine ⟨h, Nat.one_ne_zero, rfl, ?_⟩
    dsimp only
    omega

theorem started_spec (v : VPacket) : v.started = { v with toTiming := v.started.toTiming } := by
  unfold started
  split <;> rfl

/-- The record that `Record` makes of a chunk. The padding is what the memory holds there. -/
def recordOf (v : VPacket) (p : Chunk) : Rec where
  toChunk := p
  padding := v.m_cBuffer.load (v.m_nBufIndex + 4) 4
  ms := Int64.ofInt (v.started.now - v.started.m_lStartTime)
  sequence := v.m_nSequence

theorem recordOf_fits (hdata : 0 < p.data.length)
    (hsize : p.data.length + headersize ≤ v.m_nBufSize) :
    (v.recordOf p).Fits v.m_nBufSize where
  padding := load_length _ _ _
  data := hdata
  size := by
    show headersize + p.data.length ≤ v.m_nBufSize
    omega

/-- The bytes of the packet that was put into the buffer. -/
theorem load_putPacket (buffer : ByteMemory) (header : ℕ) (r : Rec)
    (hpadding : r.padding = buffer.load (header + 4) 4) :
    (putPacket buffer header r.toChunk r.ms r.sequence).load header r.size = r.bytes := by
  have hcut : r.size = 4 + (4 + (8 + (8 + (8 + (8 + r.data.length))))) := by
    unfold Rec.size headersize
    omega
  rw [hcut]
  simp only [load_add, Nat.add_assoc, Nat.reduceAdd, putPacket, sizeOffset, timeOffset,
    versionOffset, msOffset, sequenceOffset, headersize, Nat.add_zero, Rec.bytes, hpadding]
  -- Each field is read behind the writes of the other fields.
  simp (disch := first | omega | (simp only [intBytes_length, longBytes_length]; done) |
    (simp only [intBytes_length, longBytes_length]; omega)) only
    [load_store_disjoint, load_store_self]
  rfl

theorem load_putPacket_before (buffer : ByteMemory) (header : ℕ) (p : Chunk) (ms sequence : Int64) :
    (putPacket buffer header p ms sequence).load 0 header = buffer.load 0 header := by
  unfold putPacket
  simp (disch := omega) only [load_store_disjoint]

/-- What `append` changes. -/
theorem append_eq (v : VPacket) (p : Chunk) :
    v.append p =
      { v with
        toTiming := (v.append p).toTiming
        m_cBuffer := putPacket v.m_cBuffer v.m_nBufIndex p (v.recordOf p).ms v.m_nSequence
        m_nBufIndex := v.m_nBufIndex + (v.recordOf p).size
        m_nSequence := v.m_nSequence + 1 } := by
  unfold append recordOf
  dsimp only
  rw [started_spec v]
  simp only [Rec.size, Nat.add_assoc]

theorem Recorded.append (h : v.Recorded rs)
    (hsize : p.data.length + headersize ≤ v.m_nBufSize - v.m_nBufIndex) :
    (v.append p).Recorded (rs ++ [v.recordOf p]) := by
  have hroom := h.room
  rw [append_eq]
  refine ⟨?_, ?_, h.recording⟩
  · show v.written ++ (putPacket v.m_cBuffer v.m_nBufIndex p (v.recordOf p).ms v.m_nSequence).load 0
      (v.m_nBufIndex + (v.recordOf p).size) = _
    have hnew := load_putPacket v.m_cBuffer v.m_nBufIndex (v.recordOf p) rfl
    rw [load_add, load_putPacket_before, Nat.zero_add, ← List.append_assoc, h.bytes]
    have happend : fileBytes (rs ++ [v.recordOf p]) = fileBytes rs ++ (v.recordOf p).bytes := by
      simp [fileBytes]
    rw [happend, ← hnew]
    rfl
  · show v.m_nBufIndex + (headersize + p.data.length) ≤ v.m_nBufSize
    omega

/-- One packet recorded. -/
theorem record_spec (h : v.Recorded rs) (hdata : 0 < p.data.length)
    (hsize : p.data.length + headersize ≤ v.m_nBufSize) :
    ∃ r, r.toChunk = p ∧ r.Fits v.m_nBufSize ∧ (v.Record p).1.Recorded (rs ++ [r]) ∧
      (v.Record p).1.m_nBufSize = v.m_nBufSize ∧ (v.Record p).2 = p.data.length := by
  obtain ⟨hspace, hwrote, hbufsize, hroom⟩ := h.makeSpace hsize
  have hrecord : v.Record p =
      (if ((v.makeSpace (p.data.length + headersize)).1.append p).m_bFlushPacket then
        ((v.makeSpace (p.data.length + headersize)).1.append p).writeBuffer.1
      else (v.makeSpace (p.data.length + headersize)).1.append p, p.data.length) := by
    unfold Record
    simp only [if_neg (not_lt.mpr hsize), if_neg hwrote, if_neg (not_lt.mpr hroom)]
  generalize (v.makeSpace (p.data.length + headersize)).1 = w at hspace hbufsize hroom hrecord
  have hfits : (w.recordOf p).Fits w.m_nBufSize := recordOf_fits hdata (by omega)
  have happend := hspace.append hroom
  have hsame : (w.append p).m_nBufSize = w.m_nBufSize := by rw [append_eq]
  rw [hrecord]
  refine ⟨w.recordOf p, rfl, hbufsize ▸ hfits, ?_, ?_, rfl⟩
  · dsimp only
    split
    · exact happend.writeBuffer.1
    · exact happend
  · dsimp only
    split
    · rw [writeBuffer_bufSize, hsame, hbufsize]
    · rw [hsame, hbufsize]

/-- All packets recorded, one after the other. -/
def recordAll (v : VPacket) (ps : List Chunk) : VPacket := ps.foldl (fun v p => (v.Record p).1) v

/-- The file of a recording is the bytes of one record for each packet. -/
theorem recordAll_spec {ps : List Chunk} (h : v.Recorded rs)
    (hps : ∀ p ∈ ps, 0 < p.data.length ∧ p.data.length + headersize ≤ v.m_nBufSize) :
    ∃ rs', rs'.map Rec.toChunk = ps ∧ (∀ r ∈ rs', r.Fits v.m_nBufSize) ∧
      (v.recordAll ps).Recorded (rs ++ rs') := by
  induction ps generalizing v rs with
  | nil =>
      refine ⟨[], rfl, ?_, ?_⟩
      · exact fun _ hr => nomatch hr
      · rwa [List.append_nil]
  | cons p ps ih =>
      obtain ⟨hdata, hsize⟩ := hps p List.mem_cons_self
      obtain ⟨r, rfl, hfits, hrec, hbufsize, -⟩ := record_spec h hdata hsize
      have hrest : ∀ q ∈ ps, 0 < q.data.length ∧
          q.data.length + headersize ≤ (v.Record r.toChunk).1.m_nBufSize := by
        rw [hbufsize]
        exact fun q hq => hps q (List.mem_cons_of_mem _ hq)
      obtain ⟨rs', hmap, hfits', hall⟩ := ih hrec hrest
      rw [hbufsize] at hfits'
      refine ⟨r :: rs', by rw [List.map_cons, hmap], List.forall_mem_cons.mpr ⟨hfits, hfits'⟩, ?_⟩
      rwa [List.append_assoc] at hall

theorem Recorded.flush (h : v.Recorded rs) : v.Flush.written = fileBytes rs := by
  have hwritten := h.writeBuffer.1.bytes
  unfold Flush
  rw [if_pos h.recording]
  rwa [h.writeBuffer.2.1, show ByteMemory.load _ 0 0 = [] from rfl, List.append_nil] at hwritten

/-! ## Playing back -/

/-- The results of `k` calls of `Playback` in a row. -/
def playbacks (bufsize : ℕ) : ℕ → VPacket → Noted Access (List (Option Chunk))
  | 0, _ => pure []
  | k + 1, v => do
      let (v, p) ← v.Playback bufsize
      let ps ← playbacks bufsize k v
      pure (p :: ps)

/-- At speed 0 the calls return the packets of the file one after the other, and then nothing. -/
theorem playbacks_holds {bufsize : ℕ} (h : v.Holds rs) (hspeed : v.m_nPlaybackSpeed = 0)
    (hout : ∀ r ∈ rs, r.data.length ≤ bufsize) (k : ℕ) :
    (playbacks bufsize k v).val =
        (rs.map fun r => some r.toChunk).take k ++ List.replicate (k - rs.length) none ∧
      Safe (playbacks bufsize k v) := by
  induction k generalizing v rs with
  | zero =>
      refine ⟨?_, Noted.allowed_pure _ _⟩
      simp [playbacks]
  | succ k ih =>
      cases rs with
      | nil =>
          obtain ⟨hval, hsafe⟩ := playback_nil h hspeed.ge bufsize
          have hspeed' : v.filled.m_nPlaybackSpeed = 0 := by rw [filled_toTiming, hspeed]
          obtain ⟨ihval, ihsafe⟩ := ih h.filled hspeed' hout
          constructor
          · simp only [playbacks, Noted.val_bind, hval, ihval, Noted.val_pure]
            simp [List.replicate_succ]
          · simp only [Safe, playbacks, Noted.allowed_bind, hval, Noted.allowed_pure, and_true]
            exact ⟨hsafe, ihsafe⟩
      | cons r rs =>
          have hdue : v.due r.ms = true := due_unpaced hspeed r.ms
          obtain ⟨hval, hsafe⟩ := playback_due h hspeed.ge hdue (hout r List.mem_cons_self)
          have hnext := (h.loaded r).advanced h.loaded_holds_first
          have hspeed' : ((v.loaded r).advanced r).m_nPlaybackSpeed = 0 := by
            rw [advanced_speed, loaded_toTiming, hspeed]
          obtain ⟨ihval, ihsafe⟩ := ih hnext hspeed' fun r' hr' => hout r' (List.mem_cons_of_mem r hr')
          constructor
          · simp only [playbacks, Noted.val_bind, hval, ihval, Noted.val_pure]
            simp
          · simp only [Safe, playbacks, Noted.allowed_bind, hval, Noted.allowed_pure, and_true]
            exact ⟨hsafe, ihsafe⟩

/-- Packets recorded through a buffer of `bufsize` bytes, flushed or not, and played back at speed 0
    through a buffer of that size: any number of calls returns the packets in order, once each, and
    nothing after them, and reads nothing of the buffer that is not filled. -/
theorem recording_round_trip (bufsize outsize : ℕ) (hint : bufsize < 2 ^ 31) (flush : Bool)
    (recordSpeed : ℤ) (memory memory' : ByteMemory) (clock clock' : ℕ → ℤ) (ps : List Chunk)
    (hps : ∀ p ∈ ps, 1 ≤ p.data.length ∧ p.data.length ≤ bufsize - headersize)
    (hout : ∀ p ∈ ps, p.data.length ≤ outsize) (k : ℕ) :
    let recorder := (create recordSpeed true bufsize memory clock []).setFlushPacket flush
    let player := create 0 false bufsize memory' clock' (recorder.recordAll ps).Flush.written
    (playbacks outsize k player).val =
        (ps.map some).take k ++ List.replicate (k - ps.length) none ∧
      Safe (playbacks outsize k player) := by
  intro recorder player
  have hstart : recorder.Recorded [] := ⟨rfl, Nat.zero_le _, rfl⟩
  have hfit : ∀ p ∈ ps, 0 < p.data.length ∧ p.data.length + headersize ≤ recorder.m_nBufSize := by
    intro p hp
    have hp' := hps p hp
    have hsize : recorder.m_nBufSize = bufsize := rfl
    omega
  obtain ⟨rs, rfl, hfits, hrecorded⟩ := recordAll_spec hstart hfit
  have hfile : (recorder.recordAll (rs.map Rec.toChunk)).Flush.written = fileBytes rs :=
    hrecorded.flush
  have hholds : player.Holds rs := by
    have hcreate := create_holds hint hfits 0 memory' clock'
    rwa [← hfile] at hcreate
  have hout' : ∀ r ∈ rs, r.data.length ≤ outsize :=
    fun r hr => hout r.toChunk (List.mem_map_of_mem hr)
  have hplay := playbacks_holds hholds rfl hout' k
  rw [List.map_map, List.length_map]
  exact hplay

/-- Two packets through a buffer that holds only one of them. -/
theorem recording_round_trip_two :
    let recorder := (create 1 true 64 (fun _ => 0) (fun _ => 0) []).setFlushPacket false
    let player := create 0 false 64 (fun _ => 0) (fun _ => 0)
      (recorder.recordAll [⟨[1, 2, 3], 5, 40101⟩, ⟨[4, 5], 6, 40101⟩]).Flush.written
    (playbacks 16 3 player).val =
        [some ⟨[1, 2, 3], 5, 40101⟩, some ⟨[4, 5], 6, 40101⟩, none] ∧
      Safe (playbacks 16 3 player) :=
  recording_round_trip 64 16 (by decide) false 1 (fun _ => 0) (fun _ => 0) (fun _ => 0) (fun _ => 0)
    [⟨[1, 2, 3], 5, 40101⟩, ⟨[4, 5], 6, 40101⟩] (by decide) (by decide) 3

end VPacket

end ShoweqDaemon.Packet
