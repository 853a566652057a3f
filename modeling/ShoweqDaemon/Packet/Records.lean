/-
  The records of a file, and how playback goes through them.

  `Holds v rs` is the invariant: the filled part of the buffer and what is unread of the file are
  the bytes of the records `rs` still to come. Records lie at any offset and may straddle the end of
  the buffer. `locate_cons` brings the first record into the buffer, `playback_due` hands it out,
  `playback_nil` is the end; every read of the buffer on the way is in its filled part.
-/
import Mathlib.Tactic.NormNum
import ShoweqDaemon.Packet.VPacket

namespace ShoweqDaemon.Packet

open Audit ByteMemory

/-! ## The fields of a record -/

theorem toInt32_intBytes (v : Int32) : toInt32 (intBytes v) = v := by
  have hlt : v.toUInt32.toNat < 256 ^ 4 := lt_of_lt_of_le v.toUInt32.toNat_lt (by norm_num)
  unfold toInt32 intBytes
  rw [leValue_leBytes_of_lt hlt, UInt32.ofNat_toNat, Int32.toInt32_toUInt32]

theorem toInt64_longBytes (v : Int64) : toInt64 (longBytes v) = v := by
  have hlt : v.toUInt64.toNat < 256 ^ 8 := lt_of_lt_of_le v.toUInt64.toNat_lt (by norm_num)
  unfold toInt64 longBytes
  rw [leValue_leBytes_of_lt hlt, UInt64.ofNat_toNat, Int64.toInt64_toUInt64]

@[simp] theorem intBytes_length (v : Int32) : (intBytes v).length = 4 := leBytes_length _ _

@[simp] theorem longBytes_length (v : Int64) : (longBytes v).length = 8 := leBytes_length _ _

/-- A record: the chunk, and what else `Record` puts into the header. -/
structure Rec extends Chunk where
  padding : List UInt8
  ms : Int64
  sequence : Int64

namespace Rec

/-- The length of a record. -/
def size (r : Rec) : ℕ := headersize + r.data.length

/-- The record as it lies in the file. -/
def bytes (r : Rec) : List UInt8 :=
  intBytes (Int32.ofNat r.size) ++ (r.padding ++ (longBytes r.time ++ (longBytes r.version ++
    (longBytes r.ms ++ (longBytes r.sequence ++ r.data)))))

/-- The record has data and fits a buffer of `bufsize` bytes. -/
structure Fits (r : Rec) (bufsize : ℕ) : Prop where
  padding : r.padding.length = 4
  data : 0 < r.data.length
  size : r.size ≤ bufsize

variable {r : Rec} {bufsize : ℕ}

theorem Fits.length (h : r.Fits bufsize) : r.bytes.length = r.size := by
  simp only [bytes, Rec.size, headersize, List.length_append, intBytes_length, longBytes_length,
    h.padding]
  omega

/-- What lies at an offset of the record. -/
theorem part_bytes (pre mid post : List UInt8) (hr : r.bytes = pre ++ (mid ++ post)) {off n : ℕ}
    (hoff : pre.length = off) (hn : mid.length = n) : (r.bytes.drop off).take n = mid := by
  rw [hr, List.drop_left' hoff, List.take_left' hn]

theorem part_size (r : Rec) :
    (r.bytes.drop sizeOffset).take 4 = intBytes (Int32.ofNat r.size) :=
  part_bytes [] _ _ rfl rfl (intBytes_length _)

theorem Fits.part_time (h : r.Fits bufsize) :
    (r.bytes.drop timeOffset).take 8 = longBytes r.time := by
  refine part_bytes (intBytes (Int32.ofNat r.size) ++ r.padding) (longBytes r.time)
    (longBytes r.version ++ (longBytes r.ms ++ (longBytes r.sequence ++ r.data))) ?_ ?_
    (longBytes_length _)
  · simp only [bytes, List.append_assoc]
  · simp only [List.length_append, intBytes_length, h.padding, timeOffset]

theorem Fits.part_version (h : r.Fits bufsize) :
    (r.bytes.drop versionOffset).take 8 = longBytes r.version := by
  refine part_bytes (intBytes (Int32.ofNat r.size) ++ (r.padding ++ longBytes r.time))
    (longBytes r.version) (longBytes r.ms ++ (longBytes r.sequence ++ r.data)) ?_ ?_
    (longBytes_length _)
  · simp only [bytes, List.append_assoc]
  · simp only [List.length_append, intBytes_length, longBytes_length, h.padding, versionOffset]

theorem Fits.part_ms (h : r.Fits bufsize) : (r.bytes.drop msOffset).take 8 = longBytes r.ms := by
  refine part_bytes (intBytes (Int32.ofNat r.size) ++ (r.padding ++ (longBytes r.time ++
    longBytes r.version))) (longBytes r.ms) (longBytes r.sequence ++ r.data) ?_ ?_
    (longBytes_length _)
  · simp only [bytes, List.append_assoc]
  · simp only [List.length_append, intBytes_length, longBytes_length, h.padding, msOffset]

theorem Fits.part_data (h : r.Fits bufsize) :
    (r.bytes.drop headersize).take r.data.length = r.data := by
  refine part_bytes (intBytes (Int32.ofNat r.size) ++ (r.padding ++ (longBytes r.time ++
    (longBytes r.version ++ (longBytes r.ms ++ longBytes r.sequence))))) r.data [] ?_ ?_ rfl
  · simp only [bytes, List.append_assoc, List.append_nil]
  · simp only [List.length_append, intBytes_length, longBytes_length, h.padding, headersize]

/-- The size that the header gives. -/
theorem Fits.toInt_size (h : r.Fits bufsize) (hint : bufsize < 2 ^ 31) :
    (Int32.ofNat r.size).toInt = r.size :=
  Int32.toInt_ofNat_of_lt (lt_of_le_of_lt h.size hint)

end Rec

/-- The bytes of a file of records. -/
def fileBytes (rs : List Rec) : List UInt8 := rs.flatMap Rec.bytes

theorem fileBytes_cons (r : Rec) (rs : List Rec) : fileBytes (r :: rs) = r.bytes ++ fileBytes rs :=
  List.flatMap_cons

namespace VPacket

/-- Every read of the buffer is in its filled part. -/
def Safe {α : Type} (x : Noted Access α) : Prop := x.Allowed Access.InFilled

/-- The records still to come are what is filled of the buffer and what is unread of the file. -/
structure Holds (v : VPacket) (rs : List Rec) : Prop where
  bytes : v.m_cBuffer.load v.m_nBufIndex v.m_nBufBytes ++ v.unread = fileBytes rs
  room : v.m_nBufIndex + v.m_nBufBytes ≤ v.m_nBufSize
  fits : ∀ r ∈ rs, r.Fits v.m_nBufSize
  atEnd : v.m_bEndofFile = true → v.unread = []
  int : v.m_nBufSize < 2 ^ 31

variable {v : VPacket} {r : Rec} {rs : List Rec}

theorem Holds.total (h : v.Holds rs) :
    v.m_nBufBytes + v.unread.length = (fileBytes rs).length := by
  rw [← h.bytes, List.length_append, load_length]

theorem Holds.total_cons (h : v.Holds (r :: rs)) :
    r.size + (fileBytes rs).length = v.m_nBufBytes + v.unread.length := by
  rw [h.total, fileBytes_cons, List.length_append, (h.fits r List.mem_cons_self).length]

/-- A part of the first record that is in the buffer. -/
theorem Holds.part (h : v.Holds (r :: rs)) {off n : ℕ} (hin : off + n ≤ v.m_nBufBytes)
    (hr : off + n ≤ r.size) :
    v.m_cBuffer.load (v.m_nBufIndex + off) n = (r.bytes.drop off).take n := by
  have hlen := (h.fits r List.mem_cons_self).length
  have hbytes := h.bytes
  obtain ⟨k, hk⟩ := Nat.le.dest hin
  rw [← hk, load_add, load_add, fileBytes_cons] at hbytes
  have hpart := congrArg (fun bs => (bs.drop off).take n) hbytes
  simp only [List.append_assoc] at hpart
  rw [List.drop_left' (load_length _ _ _), List.take_left' (load_length _ _ _),
    List.drop_append_of_le_length (by omega), List.take_append_of_le_length] at hpart
  · exact hpart
  · rw [List.length_drop]
    omega

/-- The size field of the first record, as soon as its header is in the buffer. -/
theorem Holds.readSize (h : v.Holds (r :: rs)) (hin : headersize ≤ v.m_nBufBytes) :
    (v.readInt (v.m_nBufIndex + sizeOffset)).val.toInt = r.size ∧
      Safe (v.readInt (v.m_nBufIndex + sizeOffset)) := by
  have hfits := h.fits r List.mem_cons_self
  have hheader : sizeOffset + 4 ≤ v.m_nBufBytes := by
    unfold headersize at hin
    unfold sizeOffset
    omega
  have hrecord : sizeOffset + 4 ≤ r.size := by
    unfold Rec.size headersize sizeOffset
    omega
  constructor
  · show (toInt32 (v.m_cBuffer.load _ 4)).toInt = _
    rw [h.part hheader hrecord, Rec.part_size, toInt32_intBytes, hfits.toInt_size h.int]
  · simp [Safe, readInt, read, Access.InFilled]
    omega

/-- A fresh `VPacket` has the records of its file before it. -/
theorem create_holds {bufsize : ℕ} (hint : bufsize < 2 ^ 31) (hfits : ∀ r ∈ rs, r.Fits bufsize)
    (speed : ℤ) (memory : ByteMemory) (clock : ℕ → ℤ) :
    (create speed false bufsize memory clock (fileBytes rs)).Holds rs where
  bytes := rfl
  room := Nat.zero_le _
  fits := hfits
  atEnd := fun hend => nomatch hend
  int := hint

/-! ## Filling the buffer -/

/-- The state after `fillBuffer`. -/
def filled (v : VPacket) : VPacket := v.fillBuffer.val.1

theorem fillBuffer_eof (h : v.m_bEndofFile = true) : v.fillBuffer = pure (v, 0) := if_pos h

theorem fillBuffer_safe (v : VPacket) : Safe v.fillBuffer := by
  unfold Safe fillBuffer
  split
  · exact Noted.allowed_pure _ _
  · simp [Access.InFilled]

@[simp] theorem filled_toTiming (v : VPacket) : v.filled.toTiming = v.toTiming := by
  unfold filled fillBuffer
  split <;> rfl

@[simp] theorem filled_bufSize (v : VPacket) : v.filled.m_nBufSize = v.m_nBufSize := by
  unfold filled fillBuffer
  split <;> rfl

theorem filled_bytes (h : v.m_bEndofFile = false) :
    v.filled.m_nBufBytes = v.m_nBufBytes + min (v.m_nBufSize - v.m_nBufBytes) v.unread.length := by
  simp [filled, fillBuffer, h]

theorem fillBuffer_count (h : v.m_bEndofFile = false) :
    v.fillBuffer.val.2 = min (v.m_nBufSize - v.m_nBufBytes) v.unread.length := by
  simp [fillBuffer, h]

theorem filled_index (h : v.m_bEndofFile = false) : v.filled.m_nBufIndex = 0 := by
  simp [filled, fillBuffer, h]

/-- The end of the file is seen when the read is short. -/
theorem filled_eof (h : v.m_bEndofFile = false) :
    v.filled.m_bEndofFile = true ↔ v.unread.length < v.m_nBufSize - v.m_nBufBytes := by
  simp [filled, fillBuffer, h]
  omega

theorem Holds.filled (h : v.Holds rs) : v.filled.Holds rs := by
  cases heof : v.m_bEndofFile with
  | true =>
      have hsame : v.filled = v := congrArg (fun x => x.val.1) (fillBuffer_eof heof)
      rwa [hsame]
  | false =>
      have hbytes := filled_bytes heof
      have hindex := filled_index heof
      have hroom := h.room
      have hunread : v.filled.unread = v.unread.drop (v.m_nBufSize - v.m_nBufBytes) := by
        simp [VPacket.filled, fillBuffer, heof]
      have hbuffer : v.filled.m_cBuffer = (v.m_cBuffer.move 0 v.m_nBufIndex v.m_nBufBytes).store
          v.m_nBufBytes (v.unread.take (v.m_nBufSize - v.m_nBufBytes)) := by
        simp [VPacket.filled, fillBuffer, heof]
      have htake : (v.unread.take (v.m_nBufSize - v.m_nBufBytes)).length =
          min (v.m_nBufSize - v.m_nBufBytes) v.unread.length := List.length_take
      have hload : v.filled.m_cBuffer.load v.filled.m_nBufIndex v.filled.m_nBufBytes =
          v.m_cBuffer.load v.m_nBufIndex v.m_nBufBytes ++
            v.unread.take (v.m_nBufSize - v.m_nBufBytes) := by
        rw [hindex, hbytes, ← htake, load_add, hbuffer, Nat.zero_add, load_store_self _ _ rfl,
          load_store_disjoint (Or.inl (by omega)), load_move]
      refine ⟨?_, ?_, ?_, fun hend => ?_, ?_⟩
      · rw [hload, hunread, List.append_assoc, List.take_append_drop]
        exact h.bytes
      · rw [hindex, hbytes, filled_bufSize]
        omega
      · rw [filled_bufSize]
        exact h.fits
      · have hshort := (filled_eof heof).mp hend
        rw [hunread]
        exact List.drop_eq_nil_of_le (by omega)
      · rw [filled_bufSize]
        exact h.int

/-- The buffer with the whole first record in it. -/
def loaded (v : VPacket) (r : Rec) : VPacket := if v.m_nBufBytes < r.size then v.filled else v

@[simp] theorem loaded_toTiming (v : VPacket) (r : Rec) : (v.loaded r).toTiming = v.toTiming := by
  unfold loaded
  split
  · exact filled_toTiming v
  · rfl

theorem Holds.loaded (h : v.Holds rs) (r : Rec) : (v.loaded r).Holds rs := by
  unfold VPacket.loaded
  split
  · exact h.filled
  · exact h

/-- A record that is not wholly in the buffer has a part in the file. -/
theorem Holds.not_eof (h : v.Holds (r :: rs)) (hpart : v.m_nBufBytes < r.size) :
    v.m_bEndofFile = false := by
  refine eq_false_of_ne_true fun hend => ?_
  have htotal := h.total_cons
  rw [h.atEnd hend, List.length_nil] at htotal
  omega

theorem Holds.filled_holds_first (h : v.Holds (r :: rs)) (hpart : v.m_nBufBytes < r.size) :
    r.size ≤ v.filled.m_nBufBytes := by
  have htotal := h.total_cons
  have hfits := (h.fits r List.mem_cons_self).size
  rw [filled_bytes (h.not_eof hpart)]
  omega

theorem Holds.loaded_holds_first (h : v.Holds (r :: rs)) : r.size ≤ (v.loaded r).m_nBufBytes := by
  unfold VPacket.loaded
  split
  · rename_i hpart
    exact h.filled_holds_first hpart
  · omega

theorem complete_cons (h : v.Holds (r :: rs)) (hin : headersize ≤ v.m_nBufBytes) :
    v.complete.val = (v.loaded r, (v.loaded r).m_nBufIndex) ∧ Safe v.complete := by
  obtain ⟨hsize, hsafe⟩ := h.readSize hin
  have hmore : ((v.readInt (v.m_nBufIndex + sizeOffset)).val.toInt > v.m_nBufBytes) ↔
      v.m_nBufBytes < r.size := by
    rw [hsize]
    exact Int.ofNat_lt
  by_cases hpart : v.m_nBufBytes < r.size
  · have hloaded : v.loaded r = v.filled := if_pos hpart
    have hcount : v.fillBuffer.val.2 ≠ 0 := by
      have htotal := h.total_cons
      have hfits := (h.fits r List.mem_cons_self).size
      rw [fillBuffer_count (h.not_eof hpart)]
      omega
    constructor
    · simp only [complete, Noted.val_bind, if_pos (hmore.mpr hpart), Noted.val_pure, if_pos hcount]
      rw [hloaded]
      rfl
    · simp only [Safe, complete, Noted.allowed_bind, if_pos (hmore.mpr hpart)]
      exact ⟨hsafe, fillBuffer_safe v, Noted.allowed_pure _ _⟩
  · have hloaded : v.loaded r = v := if_neg hpart
    constructor
    · simp only [complete, Noted.val_bind, if_neg (mt hmore.mp hpart), Noted.val_pure]
      rw [hloaded]
    · simp only [Safe, complete, Noted.allowed_bind, if_neg (mt hmore.mp hpart)]
      exact ⟨hsafe, Noted.allowed_pure _ _⟩

/-- The first fill of `Playback`, when there is no more than a header in the buffer. -/
def primed (v : VPacket) : VPacket := if v.m_nBufBytes ≤ headersize then v.filled else v

theorem prime_spec (v : VPacket) : v.prime.val = v.primed ∧ Safe v.prime := by
  unfold prime primed
  split
  · refine ⟨rfl, ?_⟩
    simp only [Safe, Noted.allowed_bind, Noted.allowed_pure, and_true]
    exact fillBuffer_safe v
  · exact ⟨rfl, Noted.allowed_pure _ _⟩

theorem Holds.primed (h : v.Holds rs) : v.primed.Holds rs := by
  unfold VPacket.primed
  split
  · exact h.filled
  · exact h

theorem Holds.header_lt (h : v.Holds (r :: rs)) : headersize < r.size := by
  have hdata := (h.fits r List.mem_cons_self).data
  unfold Rec.size
  omega

theorem Holds.primed_header (h : v.Holds (r :: rs)) : headersize < v.primed.m_nBufBytes := by
  have hheader := h.header_lt
  unfold VPacket.primed
  split
  · exact lt_of_lt_of_le hheader (h.filled_holds_first (by omega))
  · omega

theorem Holds.primed_loaded (h : v.Holds (r :: rs)) : v.primed.loaded r = v.loaded r := by
  have hheader := h.header_lt
  unfold VPacket.primed
  split
  · have hpart : v.m_nBufBytes < r.size := by omega
    have hwhole : ¬ v.filled.m_nBufBytes < r.size := not_lt.mpr (h.filled_holds_first hpart)
    unfold VPacket.loaded
    rw [if_neg hwhole, if_pos hpart]
  · rfl

/-- The first record is brought into the buffer and found at the index. -/
theorem locate_cons (h : v.Holds (r :: rs)) :
    v.locate.val = (v.loaded r, some (v.loaded r).m_nBufIndex) ∧ Safe v.locate := by
  obtain ⟨hprime, hprimeSafe⟩ := prime_spec v
  have hheader := h.primed_header
  obtain ⟨hcomplete, hcompleteSafe⟩ := complete_cons h.primed hheader.le
  have hwhole := h.loaded_holds_first
  obtain ⟨hsize, hsizeSafe⟩ := (h.loaded r).readSize (h.header_lt.le.trans hwhole)
  rw [h.primed_loaded] at hcomplete
  have hthere : ¬ ((v.loaded r).readInt ((v.loaded r).m_nBufIndex + sizeOffset)).val.toInt >
      (v.loaded r).m_nBufBytes := by
    rw [hsize]
    omega
  constructor
  · simp only [locate, Noted.val_bind, hprime, if_neg (not_le.mpr hheader), hcomplete,
      Noted.val_pure, if_neg hthere]
  · simp only [Safe, locate, Noted.allowed_bind, hprime, if_neg (not_le.mpr hheader), hcomplete,
      Noted.allowed_pure, and_true]
    exact ⟨hprimeSafe, hcompleteSafe, hsizeSafe⟩

/-- At the end there is nothing to locate. -/
theorem locate_nil (h : v.Holds []) : v.locate.val = (v.filled, none) ∧ Safe v.locate := by
  obtain ⟨hprime, hprimeSafe⟩ := prime_spec v
  have hempty : v.m_nBufBytes = 0 := by
    have htotal := h.total
    simp only [fileBytes, List.flatMap_nil, List.length_nil] at htotal
    omega
  have hprimed : v.primed = v.filled := if_pos (by rw [hempty]; exact Nat.zero_le _)
  have hnone : v.filled.m_nBufBytes ≤ headersize := by
    have htotal := h.filled.total
    simp only [fileBytes, List.flatMap_nil, List.length_nil] at htotal
    unfold headersize
    omega
  rw [hprimed] at hprime
  constructor
  · simp only [locate, Noted.val_bind, hprime, if_pos hnone, Noted.val_pure]
  · simp only [Safe, locate, Noted.allowed_bind, hprime, if_pos hnone, Noted.allowed_pure, and_true]
    exact hprimeSafe

/-! ## One call of `Playback` -/

/-- The header field of eight bytes at an offset. -/
theorem Holds.readLong (h : v.Holds (r :: rs)) (hin : r.size ≤ v.m_nBufBytes) {off : ℕ}
    (hoff : off + 8 ≤ headersize) {x : Int64} (hx : (r.bytes.drop off).take 8 = longBytes x) :
    (v.readLong (v.m_nBufIndex + off)).val = x ∧ Safe (v.readLong (v.m_nBufIndex + off)) := by
  have hheader := h.header_lt
  constructor
  · show toInt64 (v.m_cBuffer.load _ 8) = _
    rw [h.part (by omega) (by omega), hx, toInt64_longBytes]
  · simp [Safe, VPacket.readLong, read, Access.InFilled]
    omega

theorem start_speed (t : Timing) (ms : Int64) :
    (t.start ms).m_nPlaybackSpeed = t.m_nPlaybackSpeed := by
  unfold Timing.start
  dsimp only
  split <;> split <;> split <;> rfl

/-- At speed 0 no packet has to wait. -/
theorem due_unpaced {t : Timing} (h : t.m_nPlaybackSpeed = 0) (ms : Int64) : t.due ms = true := by
  simp [Timing.due, Timing.early, start_speed, h]

/-- The state behind the first record of the buffer, after it was played: the clocks as `played` has
    them, and the index behind it. -/
def advanced (v : VPacket) (r : Rec) : VPacket :=
  { v with
    toTiming := v.played r.ms
    m_nBufIndex := v.m_nBufIndex + r.size
    m_nBufBytes := v.m_nBufBytes - r.size
    m_nSequence := v.m_nSequence + 1 }

theorem advanced_speed (v : VPacket) (r : Rec) :
    (v.advanced r).m_nPlaybackSpeed = v.m_nPlaybackSpeed := start_speed v.toTiming r.ms

theorem Holds.advanced (h : v.Holds (r :: rs)) (hin : r.size ≤ v.m_nBufBytes) :
    (v.advanced r).Holds rs := by
  have hfits := h.fits r List.mem_cons_self
  have hroom := h.room
  obtain ⟨k, hk⟩ := Nat.le.dest hin
  refine ⟨?_, ?_, fun r' hr' => h.fits r' (List.mem_cons_of_mem r hr'), h.atEnd, h.int⟩
  · have hbytes := h.bytes
    rw [← hk, load_add, fileBytes_cons, List.append_assoc] at hbytes
    have hrest := List.append_inj_right hbytes (by rw [load_length, hfits.length])
    have hleft : v.m_nBufBytes - r.size = k := by omega
    show v.m_cBuffer.load (v.m_nBufIndex + r.size) (v.m_nBufBytes - r.size) ++ v.unread = _
    rw [hleft]
    exact hrest
  · show v.m_nBufIndex + r.size + (v.m_nBufBytes - r.size) ≤ v.m_nBufSize
    omega

theorem handOut_cons (h : v.Holds (r :: rs)) (hin : r.size ≤ v.m_nBufBytes) {bufsize : ℕ}
    (hout : r.data.length ≤ bufsize) :
    (v.handOut v.m_nBufIndex bufsize r.ms).val = (v.advanced r, some r.toChunk) ∧
      Safe (v.handOut v.m_nBufIndex bufsize r.ms) := by
  have hfits := h.fits r List.mem_cons_self
  have hplayed : ({ v with toTiming := v.played r.ms } : VPacket).Holds (r :: rs) :=
    ⟨h.bytes, h.room, h.fits, h.atEnd, h.int⟩
  obtain ⟨hsize, hsizeSafe⟩ := h.readSize (h.header_lt.le.trans hin)
  obtain ⟨htime, htimeSafe⟩ := hplayed.readLong hin (by decide) hfits.part_time
  obtain ⟨hversion, hversionSafe⟩ := hplayed.readLong hin (by decide) hfits.part_version
  have hn : ((r.size : ℤ) - headersize).toNat = r.data.length := by
    unfold Rec.size
    omega
  have hwhole : ¬ (r.size : ℤ) < headersize := by
    have hheader := h.header_lt
    omega
  have hdata : v.m_cBuffer.load (v.m_nBufIndex + headersize) r.data.length = r.data := by
    have hlen : headersize + r.data.length = r.size := rfl
    rw [h.part (by omega) (by omega), hfits.part_data]
  have hadvance : r.data.length + headersize = r.size := Nat.add_comm _ _
  constructor
  · simp only [handOut, Noted.val_bind, hsize, if_neg hwhole, hn, if_neg (not_lt.mpr hout), read,
      htime, hversion, hdata, Noted.val_pure, hadvance]
    rfl
  · simp only [Safe, handOut, Noted.allowed_bind, hsize, if_neg hwhole, hn,
      if_neg (not_lt.mpr hout), read, Noted.allowed_note, Noted.allowed_pure, and_true]
    refine ⟨hsizeSafe, ?_, htimeSafe, hversionSafe⟩
    show v.m_nBufIndex ≤ v.m_nBufIndex + headersize ∧
      v.m_nBufIndex + headersize + r.data.length ≤ v.m_nBufIndex + v.m_nBufBytes
    omega

/-- A packet that is due is handed out. -/
theorem playback_due (h : v.Holds (r :: rs)) (hspeed : 0 ≤ v.m_nPlaybackSpeed)
    (hdue : v.due r.ms = true) {bufsize : ℕ} (hout : r.data.length ≤ bufsize) :
    (v.Playback bufsize).val = ((v.loaded r).advanced r, some r.toChunk) ∧
      Safe (v.Playback bufsize) := by
  obtain ⟨hlocate, hlocateSafe⟩ := locate_cons h
  have hwhole := h.loaded_holds_first
  have hfits := h.fits r List.mem_cons_self
  obtain ⟨hms, hmsSafe⟩ := (h.loaded r).readLong hwhole (by decide) hfits.part_ms
  obtain ⟨hhand, hhandSafe⟩ := handOut_cons (h.loaded r) hwhole hout
  have hdue' : (v.loaded r).due r.ms = true := by rw [loaded_toTiming, hdue]
  constructor
  · simp only [Playback, if_neg (not_lt.mpr hspeed), Noted.val_bind, hlocate, hms, if_pos hdue', hhand]
  · simp only [Safe, Playback, if_neg (not_lt.mpr hspeed), Noted.allowed_bind, hlocate, hms,
      if_pos hdue']
    exact ⟨hlocateSafe, hmsSafe, hhandSafe⟩

/-- A packet that has to wait stays in the buffer. -/
theorem playback_early (h : v.Holds (r :: rs)) (hspeed : 0 ≤ v.m_nPlaybackSpeed)
    (hdue : v.due r.ms = false) (bufsize : ℕ) :
    (v.Playback bufsize).val = ({ v.loaded r with toTiming := v.waited r.ms }, none) ∧
      Safe (v.Playback bufsize) := by
  obtain ⟨hlocate, hlocateSafe⟩ := locate_cons h
  have hfits := h.fits r List.mem_cons_self
  obtain ⟨hms, hmsSafe⟩ := (h.loaded r).readLong h.loaded_holds_first (by decide) hfits.part_ms
  have hearly : ¬ v.due r.ms = true := by simp [hdue]
  constructor
  · simp only [Playback, if_neg (not_lt.mpr hspeed), Noted.val_bind, hlocate, hms, loaded_toTiming,
      if_neg hearly, Noted.val_pure]
  · simp only [Safe, Playback, if_neg (not_lt.mpr hspeed), Noted.allowed_bind, hlocate, hms,
      loaded_toTiming, if_neg hearly, Noted.allowed_pure, and_true]
    exact ⟨hlocateSafe, hmsSafe⟩

/-- At the end `Playback` returns 0. -/
theorem playback_nil (h : v.Holds []) (hspeed : 0 ≤ v.m_nPlaybackSpeed) (bufsize : ℕ) :
    (v.Playback bufsize).val = (v.filled, none) ∧ Safe (v.Playback bufsize) := by
  obtain ⟨hlocate, hlocateSafe⟩ := locate_nil h
  constructor
  · simp only [Playback, if_neg (not_lt.mpr hspeed), Noted.val_bind, hlocate, Noted.val_pure]
  · simp only [Safe, Playback, if_neg (not_lt.mpr hspeed), Noted.allowed_bind, hlocate,
      Noted.allowed_pure, and_true]
    exact hlocateSafe

end VPacket

end ShoweqDaemon.Packet
