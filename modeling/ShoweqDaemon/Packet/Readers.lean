/-
  All readers of `NetStream`, in any order.

  The readers of numbers are one, `readNumber`, with a width and a byte order. `Moves` says what a
  call does to the position: it goes forward and not over the end. `netStream_inside_iff`: a run of
  calls looks outside the payload just where a text is read that has no NUL behind it.

  `Call` is a call of any reader; the numbers of one, two and four bytes come signed and unsigned,
  and a text with its length in front is read by `readLPText`, which stops at the end of the
  payload.

  Proved:
  * `allowed_call`: which elements of the payload a call looks at.
  * `step_moves`: a call leaves the payload, and the position goes forward, at most to the end.
  * `netStream_inside_iff`: the same over every run, with the text that `readText` returns.
  * `readText_outside`: one letter without a NUL behind it.
-/
import ShoweqDaemon.Lib.Run
import ShoweqDaemon.Packet.NetStream

namespace ShoweqDaemon.Packet

open Audit CString
open Spawns (Env QString)

/-! ## Byte order -/

/-- The readers of netstream.h: numbers with the high byte first, 16 bits here. -/
def eqntohuint16 (data : List UInt8) : UInt16 := data.foldl (fun val b => val <<< 8 ||| b.toUInt16) 0

/-- The same bytes as a signed number. -/
def eqntohint16 (data : List UInt8) : Int16 := (eqntohuint16 data).toInt16

/-- Four bytes, the high one first. -/
def eqntohuint32 (data : List UInt8) : UInt32 := data.foldl (fun val b => val <<< 8 ||| b.toUInt32) 0

/-- The same bytes as a signed number. -/
def eqntohint32 (data : List UInt8) : Int32 := (eqntohuint32 data).toInt32

/-- Two bytes, the low one first. -/
def eqtohuint16 (data : List UInt8) : UInt16 := UInt16.ofNat (leValue data)

namespace NetStream

/-! ## The readers -/

/-- `n` bytes from element `i` on, each asked for by itself. -/
def elements (bytes : List UInt8) : ℕ → ℕ → Noted Element (List UInt8)
  | 0, _ => pure []
  | n + 1, i => do
      let b ← element bytes i
      let bs ← elements bytes n (i + 1)
      pure (b :: bs)

section
variable {α : Type}

/-- The next `n` bytes as a number; 0 if there are less. -/
def readNumber (n : ℕ) (decode : List UInt8 → α) (zero : α) (stream : NetStream) :
    Noted Element (α × NetStream) :=
  if n ≤ stream.left then do
    let bytes ← elements stream.m_data n stream.m_pos
    pure (decode bytes, { stream with m_pos := stream.m_pos + n })
  else pure (zero, stream)

end

/-- `NetStream::readUInt8`, 0 at the end of the payload. -/
def readUInt8 : NetStream → Noted Element (UInt8 × NetStream) :=
  readNumber 1 (fun bytes => bytes.headD 0) 0

/-- `NetStream::readInt8`, the same byte as a signed number. -/
def readInt8 : NetStream → Noted Element (Int8 × NetStream) :=
  readNumber 1 (fun bytes => (bytes.headD 0).toInt8) 0

/-- `NetStream::readUInt16`, the high byte first. -/
def readUInt16 : NetStream → Noted Element (UInt16 × NetStream) := readNumber 2 eqntohuint16 0

/-- `NetStream::readInt16` -/
def readInt16 : NetStream → Noted Element (Int16 × NetStream) := readNumber 2 eqntohint16 0

/-- `NetStream::readUInt32`, the high byte first. -/
def readUInt32 : NetStream → Noted Element (UInt32 × NetStream) := readNumber 4 eqntohuint32 0

/-- `NetStream::readInt32` -/
def readInt32 : NetStream → Noted Element (Int32 × NetStream) := readNumber 4 eqntohint32 0

/-- `NetStream::readUInt16NC`: no change of the byte order, so the low byte first. -/
def readUInt16NC : NetStream → Noted Element (UInt16 × NetStream) := readNumber 2 eqtohuint16 0

/-- The loop of `readLPText`: it ends with the payload. -/
def appendChars (stream : NetStream) : ℕ → QString → Noted Element (QString × NetStream)
  | 0, r => pure (r, stream)
  | n + 1, r =>
      if stream.m_pos < stream.m_data.length then do
        let b ← element stream.m_data stream.m_pos
        appendChars { stream with m_pos := stream.m_pos + 1 } n (r ++ [Char.ofNat b.toNat])
      else pure (r, stream)

/-- `NetStream::readLPText`: a text behind its length. -/
def readLPText (stream : NetStream) : Noted Element (QString × NetStream) := do
  let (len, stream) ← stream.readUInt32NC
  stream.appendChars len.toNat []

/-- A call of one of the readers, with its argument if it has one. -/
inductive Call
  | readUInt8
  | readInt8
  | readUInt16
  | readInt16
  | readUInt32
  | readInt32
  | readUInt16NC
  | readUInt32NC
  | readText
  | readLPText
  | skipBytes (byteCount : ℕ)

/-- The stream that a reader leaves. -/
def behind {α : Type} (read : Noted Element (α × NetStream)) : Noted Element NetStream := do
  let (_, stream) ← read
  pure stream

/-- What a call leaves of the stream. -/
def call (env : Env) (stream : NetStream) : Call → Noted Element NetStream
  | .readUInt8 => behind stream.readUInt8
  | .readInt8 => behind stream.readInt8
  | .readUInt16 => behind stream.readUInt16
  | .readInt16 => behind stream.readInt16
  | .readUInt32 => behind stream.readUInt32
  | .readInt32 => behind stream.readInt32
  | .readUInt16NC => behind stream.readUInt16NC
  | .readUInt32NC => behind stream.readUInt32NC
  | .readText => behind (stream.readText env)
  | .readLPText => behind stream.readLPText
  | .skipBytes byteCount => pure (stream.skipBytes byteCount)

/-- A stream at the beginning of a payload. -/
def start (data : List UInt8) : NetStream := { m_data := data }

/-- The stream after a call. -/
def step (env : Env) (stream : NetStream) (c : Call) : NetStream := (stream.call env c).val

/-- A text that begins has a NUL. -/
def Terminated (stream : NetStream) (c : Call) : Prop :=
  c = .readText → stream.rest ≠ [] → 0 ∈ stream.rest

/-! ## Inside the payload -/

theorem allowed_elements (bytes : List UInt8) (n i : ℕ) :
    (elements bytes n i).Allowed Element.Inside ↔ n = 0 ∨ i + n ≤ bytes.length := by
  induction n generalizing i with
  | zero => simp [elements]
  | succ n ih =>
      simp only [elements, Noted.allowed_bind, allowed_element, Noted.allowed_pure, ih, and_true]
      omega

theorem allowed_behind {α : Type} (read : Noted Element (α × NetStream)) :
    (behind read).Allowed Element.Inside ↔ read.Allowed Element.Inside := by
  simp [behind]

variable (env : Env) (stream : NetStream)

theorem allowed_readNumber {α : Type} (n : ℕ) (decode : List UInt8 → α) (zero : α) :
    (stream.readNumber n decode zero).Allowed Element.Inside := by
  unfold readNumber left
  split
  · simp only [Noted.allowed_bind, allowed_elements, Noted.allowed_pure, and_true]
    omega
  · exact Noted.allowed_pure _ _

theorem allowed_appendChars (n : ℕ) (r : QString) :
    (stream.appendChars n r).Allowed Element.Inside := by
  induction n generalizing stream r with
  | zero => exact Noted.allowed_pure _ _
  | succ n ih =>
      unfold appendChars
      split
      · simp only [Noted.allowed_bind, allowed_element]
        exact ⟨by assumption, ih _ _⟩
      · exact Noted.allowed_pure _ _

theorem allowed_readLPText : stream.readLPText.Allowed Element.Inside :=
  (Noted.allowed_bind _ _ _).mpr ⟨stream.allowed_readUInt32NC, allowed_appendChars _ _ _⟩

/-- Only the text reader looks outside. -/
theorem allowed_call (c : Call) :
    (stream.call env c).Allowed Element.Inside ↔ stream.Terminated c := by
  cases c with
  | readText => simp [call, allowed_behind, Terminated]
  | readUInt32NC => simp [call, allowed_behind, Terminated]
  | readLPText => simp [call, allowed_behind, Terminated, allowed_readLPText]
  | skipBytes byteCount => simp [call, Terminated]
  | _ =>
      simp only [call, allowed_behind, Terminated, reduceCtorEq, false_imp_iff, iff_true]
      exact stream.allowed_readNumber _ _ _

/-! ## The position -/

/-- The payload stays, the position goes forward and not over the end. -/
structure Moves (stream stream' : NetStream) : Prop where
  data : stream'.m_data = stream.m_data
  forward : stream.m_pos ≤ stream'.m_pos
  within : stream.m_pos ≤ stream.m_data.length → stream'.m_pos ≤ stream.m_data.length

variable {stream} {stream' stream'' : NetStream}

theorem Moves.refl : stream.Moves stream := ⟨rfl, le_rfl, id⟩

theorem Moves.trans (h : stream.Moves stream') (h' : stream'.Moves stream'') :
    stream.Moves stream'' := by
  refine ⟨h'.data.trans h.data, h.forward.trans h'.forward, fun hpos => ?_⟩
  have hpos' : stream'.m_pos ≤ stream'.m_data.length := by
    rw [h.data]
    exact h.within hpos
  have hwithin := h'.within hpos'
  rwa [h.data] at hwithin

variable (stream)

theorem moves_advance {n : ℕ} (h : n ≤ stream.left) :
    stream.Moves { stream with m_pos := stream.m_pos + n } := by
  unfold left at h
  exact ⟨rfl, Nat.le_add_right _ _, fun hpos => by dsimp only; omega⟩

theorem readNumber_moves {α : Type} (n : ℕ) (decode : List UInt8 → α) (zero : α) :
    stream.Moves (behind (stream.readNumber n decode zero)).val := by
  unfold readNumber
  split
  · exact moves_advance stream (by assumption)
  · exact Moves.refl

theorem readUInt32NC_moves : stream.Moves (behind stream.readUInt32NC).val := by
  unfold readUInt32NC
  split
  · exact moves_advance stream (by assumption)
  · exact Moves.refl

theorem skipBytes_moves (byteCount : ℕ) : stream.Moves (stream.skipBytes byteCount) := by
  unfold skipBytes
  split
  · rename_i h
    exact moves_advance stream (h.trans (Nat.mod_le _ _))
  · exact Moves.refl

theorem appendChars_moves (n : ℕ) (r : QString) :
    stream.Moves (behind (stream.appendChars n r)).val := by
  induction n generalizing stream r with
  | zero => exact Moves.refl
  | succ n ih =>
      unfold appendChars
      split
      · rename_i hpos
        have hnext := moves_advance stream (n := 1) (by unfold left; omega)
        exact hnext.trans (ih _ _)
      · exact Moves.refl

theorem readLPText_moves : stream.Moves (behind stream.readLPText).val :=
  (readUInt32NC_moves stream).trans (appendChars_moves _ _ _)

theorem readText_moves : stream.Moves (behind (stream.readText env)).val := by
  unfold readText
  split
  · rename_i hpos
    have hlength : (text stream.rest).length ≤ stream.left := by
      rw [left_eq]
      exact (List.takeWhile_sublist _).length_le
    simp only [behind, Noted.val_bind, val_upToNul, Noted.val_pure]
    split
    · rename_i hnul
      exact moves_advance stream (n := (text stream.rest).length + 1) (by unfold left; omega)
    · exact moves_advance stream hlength
  · exact Moves.refl

theorem step_moves (c : Call) : stream.Moves (stream.step env c) := by
  cases c with
  | readText => exact readText_moves env stream
  | readUInt32NC => exact readUInt32NC_moves stream
  | readLPText => exact readLPText_moves stream
  | skipBytes byteCount => exact skipBytes_moves stream byteCount
  | _ => exact readNumber_moves stream _ _ _

/-! ## Runs -/

/-- The position is inside the payload or at its end. -/
def InPayload (data : List UInt8) (stream : NetStream) : Prop :=
  stream.m_data = data ∧ stream.m_pos ≤ data.length

theorem step_inPayload {data : List UInt8} (c : Call) (h : stream.InPayload data) :
    (stream.step env c).InPayload data := by
  obtain ⟨rfl, hpos⟩ := h
  have hmoves := stream.step_moves env c
  exact ⟨hmoves.data, hmoves.within hpos⟩

/-- Every payload, every sequence of calls. The position is right and a text is what is in front of
    the first NUL, or all that is left, whatever was read before. The calls look at nothing outside
    the payload if and only if no text is read that begins and has no NUL. -/
theorem netStream_inside_iff (data : List UInt8) (calls : List Call) :
    (Machine.StepsMeet (step env) (fun s c => (s.call env c).Allowed Element.Inside) (start data)
        calls ↔
      Machine.StepsMeet (step env) Terminated (start data) calls) ∧
    ∀ s ∈ Machine.trace (step env) (start data) calls,
      s.InPayload data ∧ (∀ c, s.m_pos ≤ (s.step env c).m_pos) ∧
        (s.readText env).val.1 = textOf env s.rest := by
  refine ⟨Machine.stepsMeet_congr (step env) (allowed_call env) _ _, fun s hs => ?_⟩
  have hstart : (start data).InPayload data := ⟨rfl, Nat.zero_le _⟩
  have hstep : ∀ (s : NetStream) (c : Call), s.InPayload data → (s.step env c).InPayload data :=
    fun s c h => step_inPayload env s c h
  have hin := Machine.trace_invariant (step env) hstep hstart calls s hs
  exact ⟨hin, fun c => (s.step_moves env c).forward, s.text_readText env⟩

/-- One letter and no NUL. -/
theorem readText_outside :
    ¬ ∀ (env : Env) (data : List UInt8) (calls : List Call),
      Machine.StepsMeet (step env) (fun s c => (s.call env c).Allowed Element.Inside) (start data)
        calls := by
  intro h
  have hcall := (h Env.ascii [65] [.readText]).1
  revert hcall
  decide

end NetStream

end ShoweqDaemon.Packet
