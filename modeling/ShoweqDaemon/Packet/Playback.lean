/-
  `EQPacket::processPlaybackPackets`, the timer's slot that plays a recording back.

  A call dispatches packets until one has to wait, its 100 ms are over or there is no data; then it
  asks `endOfData`. `VPacket` sees the end of the file when it fills its buffer for the last time,
  with the packets of that fill still in the buffer. `Drains` says that a call gets through all the
  packets left, `Timely` that it does when it reads the last fill; `playback_complete_iff` is the
  exact condition for a run.
-/
import ShoweqDaemon.Lib.Run
import ShoweqDaemon.Packet.Records

namespace ShoweqDaemon.Packet

open VPacket

/-- The version that a record must have. -/
def PACKETVERSION : Int64 := 40101

/-- `DEFBUFSIZE`, and the size of the array that packets are copied into. -/
def DEFBUFSIZE : ℕ := 8192

/-- The arguments of `dispatchPacket`. -/
structure Frame where
  size : ℤ
  buffer : List UInt8
  deriving DecidableEq, Repr

/-- A packet behind its `ether_header`. -/
def frame (data : List UInt8) : Frame where
  size := data.length - 14
  buffer := data.drop 14

/-- The members that the playback uses, what it dispatched and whether it signalled its end. The
    clock of `mTime` and the one of `VPacket` differ by a constant, which cancels out. -/
structure EQPacket where
  m_vPacket : VPacket
  m_busy_decoding : Bool := false
  m_timerActive : Bool := true
  dispatched : List Frame := []
  playbackFinished : Bool := false

namespace EQPacket

/-- The timer is stopped. -/
def stop (p : EQPacket) : EQPacket := { p with m_timerActive := false }

/-- The frame is handed on. -/
def dispatchPacket (p : EQPacket) (data : List UInt8) : EQPacket :=
  { p with dispatched := p.dispatched ++ [frame data] }

/-- A reading of `mTime`. -/
def tick (p : EQPacket) : EQPacket :=
  { p with m_vPacket := { p.m_vPacket with toTiming := p.m_vPacket.tick } }

/-- The loop that decodes packets from the playback buffer. -/
def playbackLoop (p : EQPacket) (timein : ℤ) : EQPacket :=
  match _hplay : (p.m_vPacket.Playback DEFBUFSIZE).val with
  | (v, none) => { p with m_vPacket := v }
  | (v, some chunk) =>
      if chunk.data = [] then { p with m_vPacket := v }
      else if chunk.version = PACKETVERSION then
        if v.now - timein < 100 then
          (({ p with m_vPacket := v }.dispatchPacket chunk.data).tick).playbackLoop timein
        else ({ p with m_vPacket := v }.dispatchPacket chunk.data).tick
      else { p with m_vPacket := v }.stop
termination_by p.m_vPacket.remaining
decreasing_by
  have hless := playback_remaining _hplay
  exact hless

/-- `EQPacket::processPlaybackPackets`, unless it is in progress already. -/
def processPlaybackPackets (p : EQPacket) : EQPacket :=
  if p.m_busy_decoding then p
  else
    let timein := p.m_vPacket.now
    let p := ({ p with m_busy_decoding := true }.tick).playbackLoop timein
    -- check if we've reached the end of the recording
    let p := if p.m_vPacket.endOfData then { p.stop with playbackFinished := true } else p
    { p with m_busy_decoding := false }

/-- A call of the timer's slot that finds the readings `clock` of the clock. -/
def timeout (p : EQPacket) (clock : ℕ → ℤ) : EQPacket :=
  { p with m_vPacket := { p.m_vPacket with clock := clock } }.processPlaybackPackets

/-- A playback of the file that has not been called yet. -/
def start (speed compressTime : ℤ) (memory : ByteMemory) (file : List UInt8) : EQPacket where
  m_vPacket :=
    ((create 1 false DEFBUFSIZE memory (fun _ => 0) file).setCompressTime compressTime).setPlaybackSpeed
      speed

/-- The end is signalled, or the timer stopped, only after all packets were dispatched. -/
def Complete (rs : List Rec) (p : EQPacket) : Prop :=
  p.playbackFinished = true ∨ p.m_timerActive = false → p.dispatched = rs.map fun r => frame r.data

/-! ## The condition -/

/-- Every packet is due at its turn, and the call's time is not over in front of one. -/
def Drains (timein : ℤ) (t : Timing) : List Rec → Prop
  | [] => True
  | r :: rs =>
      t.due r.ms = true ∧ (rs = [] ∨ (t.played r.ms).now - timein < 100) ∧
        Drains timein (t.played r.ms).tick rs

/-- A call with `held` bytes in the buffer: if it gets to the read that comes back short, it drains
    what is left. -/
def Timely (timein : ℤ) (t : Timing) (held : ℕ) : List Rec → Prop
  | [] => True
  | r :: rs =>
      if held < r.size ∧ (fileBytes (r :: rs)).length < DEFBUFSIZE then Drains timein t (r :: rs)
      else
        t.due r.ms = true → (t.played r.ms).now - timein < 100 →
          Timely timein (t.played r.ms).tick ((if held < r.size then DEFBUFSIZE else held) - r.size) rs

instance decDrains (timein : ℤ) : (t : Timing) → (rs : List Rec) → Decidable (Drains timein t rs)
  | _, [] => isTrue trivial
  | t, r :: rs =>
      have := decDrains timein (t.played r.ms).tick rs
      inferInstanceAs (Decidable (t.due r.ms = true ∧
        (rs = [] ∨ (t.played r.ms).now - timein < 100) ∧ _))

instance decTimely (timein : ℤ) : (t : Timing) → (held : ℕ) → (rs : List Rec) →
    Decidable (Timely timein t held rs)
  | _, _, [] => isTrue trivial
  | t, held, r :: rs =>
      have := decTimely timein (t.played r.ms).tick
        ((if held < r.size then DEFBUFSIZE else held) - r.size) rs
      inferInstanceAs (Decidable (if held < r.size ∧ (fileBytes (r :: rs)).length < DEFBUFSIZE then
        Drains timein t (r :: rs) else t.due r.ms = true → (t.played r.ms).now - timein < 100 →
          Timely timein (t.played r.ms).tick _ rs))

/-! ## The loop -/

variable {p : EQPacket} {timein : ℤ} {v : VPacket} {r : Rec} {rs : List Rec}

theorem playbackLoop_none (h : (p.m_vPacket.Playback DEFBUFSIZE).val = (v, none)) :
    p.playbackLoop timein = { p with m_vPacket := v } := by
  rw [playbackLoop]
  split
  · rename_i w hw
    rw [h] at hw
    cases hw
    rfl
  · rename_i w chunk hw
    rw [h] at hw
    cases hw

theorem playbackLoop_some {chunk : Chunk}
    (h : (p.m_vPacket.Playback DEFBUFSIZE).val = (v, some chunk)) (hdata : chunk.data ≠ [])
    (hversion : chunk.version = PACKETVERSION) :
    p.playbackLoop timein =
      if v.now - timein < 100 then
        (({ p with m_vPacket := v }.dispatchPacket chunk.data).tick).playbackLoop timein
      else ({ p with m_vPacket := v }.dispatchPacket chunk.data).tick := by
  rw [playbackLoop]
  split
  · rename_i w hw
    rw [h] at hw
    cases hw
  · rename_i w chunk' hw
    rw [h] at hw
    cases hw
    rw [if_neg hdata, if_pos hversion]

/-- A record that `EQPacket` dispatches. -/
structure Playable (r : Rec) : Prop extends r.Fits DEFBUFSIZE where
  version : r.version = PACKETVERSION

/-- The playback has the packets `rs` still to come. -/
structure Playing (p : EQPacket) (rs : List Rec) : Prop where
  holds : p.m_vPacket.Holds rs
  bufsize : p.m_vPacket.m_nBufSize = DEFBUFSIZE
  speed : 0 ≤ p.m_vPacket.m_nPlaybackSpeed
  playable : ∀ r ∈ rs, Playable r

/-- After a packet that is dispatched. -/
def playedFirst (p : EQPacket) (r : Rec) : EQPacket :=
  ({ p with m_vPacket := (p.m_vPacket.loaded r).advanced r }.dispatchPacket r.data).tick

theorem loaded_bufSize (v : VPacket) (r : Rec) : (v.loaded r).m_nBufSize = v.m_nBufSize := by
  unfold loaded
  split
  · exact filled_bufSize v
  · rfl

theorem Playing.next (h : p.Playing (r :: rs)) : (p.playedFirst r).Playing rs := by
  have hholds := (h.holds.loaded r).advanced h.holds.loaded_holds_first
  refine ⟨⟨hholds.bytes, hholds.room, hholds.fits, hholds.atEnd, hholds.int⟩, ?_, ?_, ?_⟩
  · exact (loaded_bufSize p.m_vPacket r).trans h.bufsize
  · have hspeed := advanced_speed (p.m_vPacket.loaded r) r
    rw [loaded_toTiming] at hspeed
    exact hspeed.symm ▸ h.speed
  · exact fun r' hr' => h.playable r' (List.mem_cons_of_mem r hr')

/-- The loop with a packet that is due. -/
theorem playbackLoop_due (h : p.Playing (r :: rs)) (hdue : p.m_vPacket.due r.ms = true) :
    p.playbackLoop timein =
      if (p.m_vPacket.played r.ms).now - timein < 100 then (p.playedFirst r).playbackLoop timein
      else p.playedFirst r := by
  have hr := h.playable r List.mem_cons_self
  have hout : r.data.length ≤ DEFBUFSIZE := by
    have hsize := hr.size
    unfold Rec.size at hsize
    omega
  have hdata : r.toChunk.data ≠ [] := List.ne_nil_of_length_pos hr.data
  have hval := (playback_due h.holds h.speed hdue hout).1
  have hnow : ((p.m_vPacket.loaded r).advanced r).now = (p.m_vPacket.played r.ms).now := by
    show ((p.m_vPacket.loaded r).toTiming.played r.ms).now = _
    rw [loaded_toTiming]
  rw [playbackLoop_some hval hdata hr.version, hnow]
  rfl

/-- The loop with a packet that has to wait. -/
theorem playbackLoop_early (h : p.Playing (r :: rs)) (hdue : p.m_vPacket.due r.ms = false) :
    p.playbackLoop timein =
      { p with m_vPacket :=
          { p.m_vPacket.loaded r with toTiming := p.m_vPacket.waited r.ms } } :=
  playbackLoop_none (playback_early h.holds h.speed hdue DEFBUFSIZE).1

theorem playbackLoop_nil (h : p.Playing []) :
    p.playbackLoop timein = { p with m_vPacket := p.m_vPacket.filled } :=
  playbackLoop_none (playback_nil h.holds h.speed DEFBUFSIZE).1

/-! ## The end of the file -/

/-- When the first record is brought into the buffer, the end of the file is seen if the record is
    not wholly there and less than a buffer is left. -/
theorem loaded_eof (h : v.Holds (r :: rs)) (heof : v.m_bEndofFile = false) :
    (v.loaded r).m_bEndofFile = true ↔
      v.m_nBufBytes < r.size ∧ (fileBytes (r :: rs)).length < v.m_nBufSize := by
  have htotal := h.total
  have hroom := h.room
  unfold loaded
  split
  · rename_i hpart
    rw [filled_eof heof, and_iff_right hpart]
    omega
  · rename_i hwhole
    rw [heof]
    exact iff_of_false Bool.false_ne_true fun hpart => hwhole hpart.1

/-- Else the buffer is full behind the first record. -/
theorem loaded_bytes (h : v.Holds (r :: rs)) (heof : v.m_bEndofFile = false)
    (hmore : (v.loaded r).m_bEndofFile = false) :
    (v.loaded r).m_nBufBytes = if v.m_nBufBytes < r.size then v.m_nBufSize else v.m_nBufBytes := by
  have htotal := h.total
  have hroom := h.room
  have hlong : ¬ (v.m_nBufBytes < r.size ∧ (fileBytes (r :: rs)).length < v.m_nBufSize) := by
    rw [← loaded_eof h heof, hmore]
    decide
  unfold loaded
  split
  · rename_i hpart
    rw [filled_bytes heof]
    omega
  · rfl

/-- Once the end was seen the whole rest is in the buffer. -/
theorem loaded_of_eof (h : v.Holds (r :: rs)) (heof : v.m_bEndofFile = true) : v.loaded r = v := by
  refine if_neg fun hpart => ?_
  rw [h.not_eof hpart] at heof
  cases heof

/-- What the loop leaves: the packets `left` behind those it took. -/
structure Leaves (p q : EQPacket) (timein : ℤ) (rs left : List Rec) : Prop where
  playing : q.Playing left
  took : ∃ taken, rs = taken ++ left ∧
    q.dispatched = p.dispatched ++ taken.map fun r => frame r.data
  timer : q.m_timerActive = p.m_timerActive
  finished : q.playbackFinished = p.playbackFinished
  afterEnd : p.m_vPacket.m_bEndofFile = true → q.m_vPacket.m_bEndofFile = true ∧
    (left = [] ↔ Drains timein p.m_vPacket.toTiming rs)
  beforeEnd : p.m_vPacket.m_bEndofFile = false → ((q.m_vPacket.m_bEndofFile = true → left = []) ↔
    Timely timein p.m_vPacket.toTiming p.m_vPacket.m_nBufBytes rs)

theorem leaves_nil (h : p.Playing []) : Leaves p (p.playbackLoop timein) timein [] [] := by
  rw [playbackLoop_nil h]
  have hsame : p.m_vPacket.m_bEndofFile = true → p.m_vPacket.filled = p.m_vPacket := fun heof =>
    congrArg (fun x => x.val.1) (fillBuffer_eof heof)
  refine ⟨⟨h.holds.filled, ?_, ?_, h.playable⟩, ⟨[], rfl, (List.append_nil _).symm⟩, rfl, rfl,
    fun heof => ⟨?_, ?_⟩, fun _ => ?_⟩
  · exact (filled_bufSize p.m_vPacket).trans h.bufsize
  · show 0 ≤ p.m_vPacket.filled.toTiming.m_nPlaybackSpeed
    rw [filled_toTiming]
    exact h.speed
  · show p.m_vPacket.filled.m_bEndofFile = true
    rw [hsame heof]
    exact heof
  · exact iff_of_true rfl trivial
  · exact iff_of_true (fun _ => rfl) trivial

theorem leaves_early (h : p.Playing (r :: rs)) (hdue : p.m_vPacket.due r.ms = false) :
    Leaves p (p.playbackLoop timein) timein (r :: rs) (r :: rs) := by
  rw [playbackLoop_early h hdue]
  have hearly : ¬ p.m_vPacket.due r.ms = true := by simp [hdue]
  have hholds := h.holds.loaded r
  refine ⟨⟨⟨hholds.bytes, hholds.room, hholds.fits, hholds.atEnd, hholds.int⟩, ?_, ?_, h.playable⟩,
    ⟨[], rfl, (List.append_nil _).symm⟩, rfl, rfl, fun heof => ⟨?_, ?_⟩, fun heof => ?_⟩
  · exact (loaded_bufSize p.m_vPacket r).trans h.bufsize
  · exact (start_speed p.m_vPacket.toTiming r.ms).symm ▸ h.speed
  · show (p.m_vPacket.loaded r).m_bEndofFile = true
    rw [loaded_of_eof h.holds heof]
    exact heof
  · exact iff_of_false (List.cons_ne_nil r rs) fun hdrains => hearly hdrains.1
  · show ((p.m_vPacket.loaded r).m_bEndofFile = true → r :: rs = []) ↔ _
    rw [loaded_eof h.holds heof, h.bufsize, Timely]
    split
    · rename_i hend
      exact iff_of_false (fun himp => List.cons_ne_nil r rs (himp hend)) fun hdrains => hearly hdrains.1
    · rename_i hend
      exact iff_of_true (fun hend' => absurd hend' hend) fun hdue' => absurd hdue' hearly

theorem playedFirst_toTiming (p : EQPacket) (r : Rec) :
    (p.playedFirst r).m_vPacket.toTiming = (p.m_vPacket.played r.ms).tick := by
  show ((p.m_vPacket.loaded r).toTiming.played r.ms).tick = _
  rw [loaded_toTiming]

/-- The call's time is over behind the first packet. -/
theorem leaves_late (h : p.Playing (r :: rs)) (hdue : p.m_vPacket.due r.ms = true)
    (hlate : ¬ (p.m_vPacket.played r.ms).now - timein < 100) :
    Leaves p (p.playbackLoop timein) timein (r :: rs) rs := by
  rw [playbackLoop_due h hdue, if_neg hlate]
  have hlast : Drains timein p.m_vPacket.toTiming (r :: rs) ↔ rs = [] := by
    rw [Drains, and_iff_right hdue, or_iff_left hlate]
    refine and_iff_left_of_imp fun hnil => ?_
    rw [hnil]
    trivial
  refine ⟨h.next, ⟨[r], rfl, rfl⟩, rfl, rfl, fun heof => ⟨?_, hlast.symm⟩, fun heof => ?_⟩
  · show (p.m_vPacket.loaded r).m_bEndofFile = true
    rw [loaded_of_eof h.holds heof]
    exact heof
  · show ((p.m_vPacket.loaded r).m_bEndofFile = true → rs = []) ↔ _
    rw [loaded_eof h.holds heof, h.bufsize, Timely]
    split
    · rename_i hend
      rw [hlast]
      exact ⟨fun himp => himp hend, fun hnil _ => hnil⟩
    · rename_i hend
      exact iff_of_true (fun hend' => absurd hend' hend) fun _ hbudget => absurd hbudget hlate

/-- The loop goes on behind the first packet. -/
theorem leaves_next (h : p.Playing (r :: rs)) (hdue : p.m_vPacket.due r.ms = true)
    (hbudget : (p.m_vPacket.played r.ms).now - timein < 100) {left : List Rec}
    (hleaves : Leaves (p.playedFirst r) ((p.playedFirst r).playbackLoop timein) timein rs left) :
    Leaves p (p.playbackLoop timein) timein (r :: rs) left := by
  rw [playbackLoop_due h hdue, if_pos hbudget]
  have hafter := hleaves.afterEnd
  have hbefore := hleaves.beforeEnd
  rw [playedFirst_toTiming] at hafter hbefore
  have hdrains : Drains timein p.m_vPacket.toTiming (r :: rs) ↔
      Drains timein (p.m_vPacket.played r.ms).tick rs := by
    rw [Drains, and_iff_right hdue]
    exact and_iff_right (Or.inr hbudget)
  obtain ⟨taken, htaken, hdispatched⟩ := hleaves.took
  refine ⟨hleaves.playing, ⟨r :: taken, ?_, ?_⟩, hleaves.timer, hleaves.finished,
    fun heof => ?_, fun heof => ?_⟩
  · rw [htaken, List.cons_append]
  · rw [hdispatched]
    show (p.dispatched ++ [frame r.data]) ++ _ = _
    rw [List.append_assoc]
    rfl
  · have heof' : (p.playedFirst r).m_vPacket.m_bEndofFile = true := by
      show (p.m_vPacket.loaded r).m_bEndofFile = true
      rw [loaded_of_eof h.holds heof]
      exact heof
    rw [hdrains]
    exact hafter heof'
  · rw [Timely]
    cases hend : (p.m_vPacket.loaded r).m_bEndofFile with
    | true =>
        have hshort := (loaded_eof h.holds heof).mp hend
        rw [h.bufsize] at hshort
        rw [if_pos hshort, hdrains, ← (hafter hend).2]
        exact forall_prop_of_true (hafter hend).1
    | false =>
        have hlong : ¬ (p.m_vPacket.m_nBufBytes < r.size ∧
            (fileBytes (r :: rs)).length < DEFBUFSIZE) := by
          rw [← h.bufsize, ← loaded_eof h.holds heof, hend]
          decide
        have hheld : (p.playedFirst r).m_vPacket.m_nBufBytes =
            (if p.m_vPacket.m_nBufBytes < r.size then DEFBUFSIZE else p.m_vPacket.m_nBufBytes) -
              r.size := by
          show (p.m_vPacket.loaded r).m_nBufBytes - r.size = _
          rw [loaded_bytes h.holds heof hend, h.bufsize]
        rw [if_neg hlong, hbefore hend, hheld]
        exact ⟨fun htimely _ _ => htimely, fun htimely => htimely hdue hbudget⟩

theorem playbackLoop_leaves (h : p.Playing rs) :
    ∃ left, Leaves p (p.playbackLoop timein) timein rs left := by
  induction rs generalizing p with
  | nil => exact ⟨[], leaves_nil h⟩
  | cons r rs ih =>
      cases hdue : p.m_vPacket.due r.ms with
      | false => exact ⟨r :: rs, leaves_early h hdue⟩
      | true =>
          by_cases hbudget : (p.m_vPacket.played r.ms).now - timein < 100
          · obtain ⟨left, hleaves⟩ := ih h.next
            exact ⟨left, leaves_next h hdue hbudget hleaves⟩
          · exact ⟨rs, leaves_late h hdue hbudget⟩

/-! ## A call -/

/-- Between two calls: what was dispatched is a first part of the recording, the rest is still to
    come, and the end was signalled if it was seen. -/
structure Inv (rs : List Rec) (p : EQPacket) : Prop where
  dispatched : p.dispatched = (rs.take p.dispatched.length).map fun r => frame r.data
  playing : p.Playing (rs.drop p.dispatched.length)
  busy : p.m_busy_decoding = false
  finished : p.playbackFinished = p.m_vPacket.m_bEndofFile
  timer : p.m_timerActive = !p.m_vPacket.m_bEndofFile

/-- The playback when the loop of a call with the readings `clock` starts. -/
def entered (p : EQPacket) (clock : ℕ → ℤ) : EQPacket :=
  { p with
    m_vPacket := { p.m_vPacket with clock := fun i => clock (i + 1) }
    m_busy_decoding := true }

/-- The call finds every packet due that is left after the last read of the file, if it makes that
    read. -/
def CallTimely (rs : List Rec) (p : EQPacket) (clock : ℕ → ℤ) : Prop :=
  Timely (clock 0) { p.m_vPacket.toTiming with clock := fun i => clock (i + 1) }
    p.m_vPacket.m_nBufBytes (rs.drop p.dispatched.length)

instance (rs : List Rec) (p : EQPacket) (clock : ℕ → ℤ) : Decidable (CallTimely rs p clock) :=
  decTimely _ _ _ _

theorem Inv.entered (h : Inv rs p) (clock : ℕ → ℤ) :
    (p.entered clock).Playing (rs.drop p.dispatched.length) := by
  have hholds := h.playing.holds
  exact ⟨⟨hholds.bytes, hholds.room, hholds.fits, hholds.atEnd, hholds.int⟩, h.playing.bufsize,
    h.playing.speed, h.playing.playable⟩

/-- The end of a call whose loop left `q`. -/
def ended (q : EQPacket) : EQPacket :=
  { q with
    m_busy_decoding := false
    m_timerActive := q.m_timerActive && !q.m_vPacket.m_bEndofFile
    playbackFinished := q.playbackFinished || q.m_vPacket.m_bEndofFile }

theorem timeout_eq (hbusy : p.m_busy_decoding = false) (clock : ℕ → ℤ) :
    p.timeout clock = ((p.entered clock).playbackLoop (clock 0)).ended := by
  have hidle : ¬ p.m_busy_decoding = true := by simp [hbusy]
  unfold timeout processPlaybackPackets
  rw [if_neg hidle]
  show (fun q : EQPacket => ({ (if q.m_vPacket.endOfData then
    { q.stop with playbackFinished := true } else q) with m_busy_decoding := false } : EQPacket))
      ((p.entered clock).playbackLoop (clock 0)) = _
  generalize (p.entered clock).playbackLoop (clock 0) = q
  cases hend : q.m_vPacket.m_bEndofFile <;> simp [ended, endOfData, stop, hend]

/-- A call keeps the invariant, and has dispatched everything if its loop left nothing. -/
theorem timeout_inv (h : Inv rs p) {clock : ℕ → ℤ} {left : List Rec}
    (hleaves : Leaves (p.entered clock) ((p.entered clock).playbackLoop (clock 0)) (clock 0)
      (rs.drop p.dispatched.length) left) :
    Inv rs (p.timeout clock) ∧
      ((p.timeout clock).dispatched = rs.map (fun r => frame r.data) ↔ left = []) := by
  rw [timeout_eq h.busy clock]
  generalize (p.entered clock).playbackLoop (clock 0) = q at hleaves ⊢
  obtain ⟨taken, hrest, hdispatched⟩ := hleaves.took
  have hdone : q.dispatched = p.dispatched ++ taken.map fun r => frame r.data := hdispatched
  have hlength : q.dispatched.length = p.dispatched.length + taken.length := by
    rw [hdone, List.length_append, List.length_map]
  have htake : rs.take q.dispatched.length = rs.take p.dispatched.length ++ taken := by
    rw [hlength, List.take_add, hrest, List.take_left' rfl]
  have hdrop : rs.drop q.dispatched.length = left := by
    rw [hlength, ← List.drop_drop, hrest, List.drop_left' rfl]
  have hhead : q.dispatched = (rs.take q.dispatched.length).map fun r => frame r.data := by
    rw [htake, List.map_append, ← h.dispatched]
    exact hdone
  constructor
  · refine ⟨hhead, ?_, rfl, ?_, ?_⟩
    · show Playing q.ended (rs.drop q.dispatched.length)
      rw [hdrop]
      have hplaying := hleaves.playing
      exact ⟨hplaying.holds, hplaying.bufsize, hplaying.speed, hplaying.playable⟩
    · show (q.playbackFinished || q.m_vPacket.m_bEndofFile) = q.m_vPacket.m_bEndofFile
      have hkept : q.playbackFinished = p.m_vPacket.m_bEndofFile :=
        hleaves.finished.trans h.finished
      cases hend : p.m_vPacket.m_bEndofFile with
      | false => rw [hkept, hend, Bool.false_or]
      | true => rw [(hleaves.afterEnd hend).1, Bool.or_true]
    · show (q.m_timerActive && !q.m_vPacket.m_bEndofFile) = !q.m_vPacket.m_bEndofFile
      have hkept : q.m_timerActive = !p.m_vPacket.m_bEndofFile := hleaves.timer.trans h.timer
      cases hend : p.m_vPacket.m_bEndofFile with
      | false => rw [hkept, hend, Bool.not_false, Bool.true_and]
      | true => rw [(hleaves.afterEnd hend).1, Bool.not_true, Bool.and_false]
  · show q.dispatched = _ ↔ _
    rw [← hdrop, List.drop_eq_nil_iff]
    constructor
    · intro hall
      rw [hall, List.length_map]
    · intro hlong
      rw [hhead, List.take_of_length_le hlong]

theorem complete_iff (h : Inv rs p) : Complete rs p ↔
    (p.m_vPacket.m_bEndofFile = true → p.dispatched = rs.map fun r => frame r.data) := by
  unfold Complete
  rw [h.finished, h.timer, Bool.not_eq_false', or_self]

/-- From a state in which the end was not signalled too early a call leads to one exactly when it
    is timely. -/
theorem timeout_complete_iff (h : Inv rs p) (hcomplete : Complete rs p) (clock : ℕ → ℤ) :
    Complete rs (p.timeout clock) ↔ CallTimely rs p clock := by
  obtain ⟨left, hleaves⟩ := playbackLoop_leaves (h.entered clock)
  obtain ⟨hinv, hall⟩ := timeout_inv h hleaves
  have hend : (p.timeout clock).m_vPacket.m_bEndofFile =
      ((p.entered clock).playbackLoop (clock 0)).m_vPacket.m_bEndofFile := by
    rw [timeout_eq h.busy clock]
    rfl
  rw [complete_iff hinv, hall, hend]
  cases heof : p.m_vPacket.m_bEndofFile with
  | false => exact hleaves.beforeEnd heof
  | true =>
      -- The end was seen before: everything was dispatched.
      have hdone := (complete_iff h).mp hcomplete heof
      have hnone : rs.drop p.dispatched.length = [] := by
        rw [hdone, List.length_map, List.drop_length]
      obtain ⟨taken, hrest, -⟩ := hleaves.took
      rw [hnone] at hrest
      unfold CallTimely
      rw [hnone]
      exact iff_of_true (fun _ => (List.append_eq_nil_iff.mp hrest.symm).2) trivial

/-- A call only adds to what was dispatched. -/
theorem timeout_dispatched (h : Inv rs p) (clock : ℕ → ℤ) :
    p.dispatched <+: (p.timeout clock).dispatched := by
  obtain ⟨left, hleaves⟩ := playbackLoop_leaves (h.entered clock)
  obtain ⟨taken, -, hdispatched⟩ := hleaves.took
  rw [timeout_eq h.busy clock]
  exact ⟨_, hdispatched.symm⟩

/-- The readings to come are inside the time of a call. -/
def Quick (timein : ℤ) (t : Timing) : Prop := ∀ i, t.clock i - timein < 100

theorem Quick.tick {t : Timing} (h : Quick timein t) : Quick timein t.tick := fun i => h (i + 1)

theorem Quick.played {t : Timing} (h : Quick timein t) (ms : Int64) :
    Quick timein (t.played ms) := by
  have hstart : Quick timein (t.start ms) := by
    unfold Timing.start
    dsimp only
    split_ifs
    · exact h.tick.tick
    · exact h.tick
    · exact h.tick
    · exact h
    · exact h.tick.tick
    · exact h.tick
    · exact h.tick
    · exact h
  exact hstart.tick.tick

/-- As fast as possible and inside its time, the loop dispatches everything and sees the end. -/
theorem playbackLoop_quick (h : p.Playing rs) (hspeed : p.m_vPacket.m_nPlaybackSpeed = 0)
    (hquick : Quick timein p.m_vPacket.toTiming) :
    (p.playbackLoop timein).dispatched = p.dispatched ++ rs.map (fun r => frame r.data) ∧
      (p.playbackLoop timein).m_vPacket.m_bEndofFile = true := by
  induction rs generalizing p with
  | nil =>
      rw [playbackLoop_nil h]
      refine ⟨(List.append_nil _).symm, ?_⟩
      show p.m_vPacket.filled.m_bEndofFile = true
      cases heof : p.m_vPacket.m_bEndofFile with
      | true => rw [show p.m_vPacket.filled = p.m_vPacket from
          congrArg (fun x => x.val.1) (fillBuffer_eof heof), heof]
      | false =>
          have htotal := h.holds.total
          have hsize := h.bufsize
          rw [filled_eof heof]
          simp only [fileBytes, List.flatMap_nil, List.length_nil, DEFBUFSIZE] at htotal hsize
          omega
  | cons r rs ih =>
      have hplayed : Quick timein (p.m_vPacket.played r.ms) := hquick.played r.ms
      have hbudget : (p.m_vPacket.played r.ms).now - timein < 100 := hplayed 0
      rw [playbackLoop_due h (due_unpaced hspeed r.ms), if_pos hbudget]
      have hspeed' : (p.playedFirst r).m_vPacket.m_nPlaybackSpeed = 0 := by
        have hsame := advanced_speed (p.m_vPacket.loaded r) r
        rw [loaded_toTiming] at hsame
        exact hsame.trans hspeed
      have hquick' : Quick timein (p.playedFirst r).m_vPacket.toTiming := by
        rw [playedFirst_toTiming]
        exact hplayed.tick
      obtain ⟨hall, hend⟩ := ih h.next hspeed' hquick'
      refine ⟨?_, hend⟩
      rw [hall, List.map_cons, ← List.singleton_append, ← List.append_assoc]
      rfl

/-- Then nothing is left of the recording behind the call. -/
theorem timeout_quick (h : Inv rs p) (hspeed : p.m_vPacket.m_nPlaybackSpeed = 0) {clock : ℕ → ℤ}
    (hquick : ∀ i, clock i - clock 0 < 100) :
    (p.timeout clock).dispatched = rs.map (fun r => frame r.data) ∧
      (p.timeout clock).m_vPacket.m_bEndofFile = true := by
  have hentered : Quick (clock 0) (p.entered clock).m_vPacket.toTiming :=
    fun i => hquick (i + 1)
  obtain ⟨hall, hend⟩ := playbackLoop_quick (h.entered clock) hspeed hentered
  rw [timeout_eq h.busy clock]
  refine ⟨hall.trans ?_, hend⟩
  show p.dispatched ++ (rs.drop p.dispatched.length).map (fun r => frame r.data) = _
  conv => lhs; arg 1; rw [h.dispatched]
  rw [← List.map_append, List.take_append_drop]

theorem timeout_eof (h : Inv rs p) (heof : p.m_vPacket.m_bEndofFile = true) (clock : ℕ → ℤ) :
    (p.timeout clock).m_vPacket.m_bEndofFile = true := by
  obtain ⟨left, hleaves⟩ := playbackLoop_leaves (h.entered clock)
  rw [timeout_eq h.busy clock]
  exact (hleaves.afterEnd heof).1

/-! ## Runs -/

theorem start_inv {speed : ℤ} (hspeed : 0 ≤ speed) (compressTime : ℤ) (memory : ByteMemory)
    (hrs : ∀ r ∈ rs, Playable r) : Inv rs (start speed compressTime memory (fileBytes rs)) := by
  have hholds := create_holds (by decide : DEFBUFSIZE < 2 ^ 31) (fun r hr => (hrs r hr).toFits) 1
    memory fun _ => 0
  refine ⟨rfl, ⟨⟨hholds.bytes, hholds.room, hholds.fits, hholds.atEnd, hholds.int⟩, rfl, hspeed,
    hrs⟩, rfl, rfl, rfl⟩

theorem start_complete (rs : List Rec) (speed compressTime : ℤ) (memory : ByteMemory)
    (file : List UInt8) : Complete rs (start speed compressTime memory file) := by
  rintro (hfinished | hstopped)
  · cases hfinished
  · cases hstopped

/-- For a recording of packets that fit the buffers: in a run of timer calls the end is signalled,
    and the timer stopped, only after all packets were dispatched, exactly when every call finds
    each packet due that is left after the last read of the file, if it makes that read. -/
theorem playback_complete_iff (rs : List Rec) (hrs : ∀ r ∈ rs, Playable r) (speed : ℤ)
    (hspeed : 0 ≤ speed) (compressTime : ℤ) (memory : ByteMemory) (calls : List (ℕ → ℤ)) :
    (∀ p ∈ Machine.trace timeout (start speed compressTime memory (fileBytes rs)) calls,
        Complete rs p) ↔
      Machine.StepsMeet timeout (CallTimely rs)
        (start speed compressTime memory (fileBytes rs)) calls := by
  have hinv : ∀ p clock, Inv rs p → Inv rs (timeout p clock) := by
    intro p clock h
    obtain ⟨left, hleaves⟩ := playbackLoop_leaves (h.entered clock)
    exact (timeout_inv h hleaves).1
  have hstart := start_inv hspeed compressTime memory hrs
  exact Machine.trace_forall_iff_stepsMeet timeout hinv
    (fun p clock h hcomplete => timeout_complete_iff h hcomplete clock) hstart
    (start_complete rs speed compressTime memory (fileBytes rs)) calls

/-- A packet of one byte, recorded `ms` milliseconds after the recording began. -/
def oneByte (ms : Int64) : Rec where
  data := [0]
  time := 0
  version := PACKETVERSION
  padding := [0, 0, 0, 0]
  ms := ms
  sequence := 0

theorem oneByte_playable (ms : Int64) : Playable (oneByte ms) :=
  ⟨⟨rfl, Nat.one_pos, show headersize + 1 ≤ DEFBUFSIZE by decide⟩, rfl⟩

theorem two_playable (ms ms' : Int64) : ∀ r ∈ [oneByte ms, oneByte ms'], Playable r := by
  intro r hr
  obtain rfl | hr := List.mem_cons.mp hr
  · exact oneByte_playable ms
  · rw [List.mem_singleton.mp hr]
    exact oneByte_playable ms'

/-- At speed 0, as fast as possible, both packets are dispatched in the one call. -/
theorem playback_complete_iff_two :
    Complete [oneByte 1, oneByte 1001]
      ((start 0 0 (fun _ => 0) (fileBytes [oneByte 1, oneByte 1001])).timeout fun _ => 5) :=
  (playback_complete_iff [oneByte 1, oneByte 1001] (two_playable 1 1001) 0 le_rfl 0 (fun _ => 0)
    [fun _ => 5]).mpr ⟨by decide, trivial⟩ _ (List.mem_cons_of_mem _ List.mem_cons_self)

/-- Not every run is complete: the first call reads the whole file, finds the second packet a
    second early and signals the end. -/
theorem early_packet_lost :
    ¬ ∀ (rs : List Rec), (∀ r ∈ rs, Playable r) → ∀ speed : ℤ, 0 ≤ speed →
      ∀ (compressTime : ℤ) (memory : ByteMemory) (calls : List (ℕ → ℤ)),
        (∀ clock ∈ calls, ∀ i j, i ≤ j → clock i ≤ clock j) → calls.Pairwise (fun c c' => ∀ i j, c i ≤ c' j) →
          ∀ p ∈ Machine.trace timeout (start speed compressTime memory (fileBytes rs)) calls,
            Complete rs p := by
  intro h
  let rs := [oneByte 1, oneByte 1001]
  let first := start 1 0 (fun _ => 0) (fileBytes rs)
  have hmono : ∀ clock ∈ [fun _ : ℕ => (5 : ℤ)], ∀ i j, i ≤ j → clock i ≤ clock j := by
    intro clock hclock i j _
    rw [List.mem_singleton.mp hclock]
  have hlast : first.timeout (fun _ => 5) ∈ Machine.trace timeout first [fun _ => 5] :=
    List.mem_cons_of_mem _ List.mem_cons_self
  have hcomplete : Complete rs (first.timeout fun _ => 5) :=
    h rs (two_playable 1 1001) 1 (by decide) 0 (fun _ => 0) [fun _ => 5] hmono
      (List.pairwise_singleton _ _) _ hlast
  have hinv : Inv rs first := start_inv (by decide) 0 (fun _ => 0) (two_playable 1 1001)
  have htimely : CallTimely rs first fun _ => 5 :=
    (timeout_complete_iff hinv (start_complete rs 1 0 (fun _ => 0) _) _).mp hcomplete
  exact absurd htimely (by decide)

end EQPacket

end ShoweqDaemon.Packet
