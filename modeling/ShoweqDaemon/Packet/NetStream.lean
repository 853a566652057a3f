/-
  `NetStream`: numbers and texts off a payload.

  Every operation is described by `rest`, the bytes that are still to come: `afterNumber`,
  `afterSkip` and `afterText` say what is left of them, `allowed_readText` when a text is read
  inside the payload. The scan for its NUL looks at a byte before it looks for the end.

  Proved:
  * `allowed_readUInt32NC`, `allowed_readText`: a number is read where four bytes are left, and
    not at all otherwise; a text is read inside the payload when it has a NUL, or when there is
    nothing left to read.
  * `rest_readUInt32NC`, `rest_skipBytes`, `rest_readText`: what is left, in terms of what was.
  * `text_readText`: the text is the bytes in front of the NUL.
-/
import ShoweqDaemon.Lib.ByteMemory
import ShoweqDaemon.Lib.CString
import ShoweqDaemon.Spawn.Item

namespace ShoweqDaemon.Packet

open Audit CString
open Spawns (Env QString)

/-- `NetStream`: the payload and the place in it. -/
structure NetStream where
  m_data : List UInt8
  m_pos : ℕ := 0

namespace NetStream

/-- What is still to come. -/
def rest (stream : NetStream) : List UInt8 := stream.m_data.drop stream.m_pos

/-- `m_lastPos - m_pos` -/
def left (stream : NetStream) : ℕ := stream.m_data.length - stream.m_pos

/-- `NetStream::readUInt32NC`: no change of the byte order, and 0 without four bytes left. -/
def readUInt32NC (stream : NetStream) : Noted Element (UInt32 × NetStream) :=
  if 4 ≤ stream.left then do
    let b0 ← element stream.m_data stream.m_pos
    let b1 ← element stream.m_data (stream.m_pos + 1)
    let b2 ← element stream.m_data (stream.m_pos + 2)
    let b3 ← element stream.m_data (stream.m_pos + 3)
    pure (UInt32.ofNat (leValue [b0, b1, b2, b3]), { stream with m_pos := stream.m_pos + 4 })
  else pure (0, stream)

/-- The number of bytes left is cut to 32 bits. -/
def skipBytes (stream : NetStream) (byteCount : ℕ) : NetStream :=
  if byteCount ≤ stream.left % 2 ^ 32 then { stream with m_pos := stream.m_pos + byteCount }
  else stream

/-- `NetStream::readText`: up to a NUL or the end. -/
def readText (env : Env) (stream : NetStream) : Noted Element (QString × NetStream) :=
  if stream.m_pos < stream.m_data.length then do
    let text ← upToNul stream.m_data.length stream.m_pos stream.rest
    let pos := stream.m_pos + text.length
    -- over the NUL, if the scan ended with one
    pure (env.fromUtf8 text,
      { stream with m_pos := if pos < stream.m_data.length then pos + 1 else pos })
  else pure ([], stream)

/-! ## What is left of the bytes -/

/-- What a read of four bytes leaves of the payload. -/
def afterNumber (bytes : List UInt8) : List UInt8 :=
  if 4 ≤ bytes.length then bytes.drop 4 else bytes

/-- What `skipBytes` leaves of the payload. -/
def afterSkip (byteCount : ℕ) (bytes : List UInt8) : List UInt8 :=
  if byteCount ≤ bytes.length % 2 ^ 32 then bytes.drop byteCount else bytes

/-- What a read of a text leaves of the payload. -/
def afterText (bytes : List UInt8) : List UInt8 := bytes.drop ((text bytes).length + 1)

/-- The text in front of the first NUL; without a byte there is none. -/
def textOf (env : Env) (bytes : List UInt8) : QString :=
  if bytes = [] then [] else env.fromUtf8 (text bytes)

variable (env : Env) (stream : NetStream)

theorem left_eq : stream.left = stream.rest.length := by
  unfold left rest
  rw [List.length_drop]

theorem rest_eq_nil_iff : stream.rest = [] ↔ stream.m_data.length ≤ stream.m_pos :=
  List.drop_eq_nil_iff

theorem rest_ne_nil_iff : stream.rest ≠ [] ↔ stream.m_pos < stream.m_data.length :=
  stream.rest_eq_nil_iff.not.trans Nat.not_le

@[simp] theorem allowed_readUInt32NC : stream.readUInt32NC.Allowed Element.Inside := by
  unfold readUInt32NC left
  split
  · simp only [Noted.allowed_bind, allowed_element, Noted.allowed_pure, and_true]
    omega
  · exact Noted.allowed_pure _ _

@[simp] theorem rest_readUInt32NC : stream.readUInt32NC.val.2.rest = afterNumber stream.rest := by
  unfold readUInt32NC afterNumber
  rw [← left_eq]
  split
  · simp only [Noted.val_bind, Noted.val_pure, rest, List.drop_drop]
  · rfl

@[simp] theorem rest_skipBytes (byteCount : ℕ) :
    (stream.skipBytes byteCount).rest = afterSkip byteCount stream.rest := by
  unfold skipBytes afterSkip
  rw [← left_eq]
  split
  · simp only [rest, List.drop_drop]
  · rfl

/-- A text is read inside the payload just when there is a NUL behind it. -/
@[simp] theorem allowed_readText :
    (stream.readText env).Allowed Element.Inside ↔ (stream.rest ≠ [] → 0 ∈ stream.rest) := by
  unfold readText
  by_cases hpos : stream.m_pos < stream.m_data.length
  · have hrest : stream.rest ≠ [] := stream.rest_ne_nil_iff.mpr hpos
    have hlength : stream.rest.length = stream.m_data.length - stream.m_pos := List.length_drop
    rw [if_pos hpos, ← text_length_lt_iff]
    simp only [Noted.allowed_bind, allowed_upToNul, Noted.allowed_pure, and_true, ne_eq, hrest,
      not_false_eq_true, forall_const]
    omega
  · have hrest : stream.rest = [] := stream.rest_eq_nil_iff.mpr (Nat.le_of_not_lt hpos)
    rw [if_neg hpos]
    simp [hrest]

@[simp] theorem text_readText : (stream.readText env).val.1 = textOf env stream.rest := by
  unfold readText textOf
  by_cases hpos : stream.m_pos < stream.m_data.length
  · have hrest : stream.rest ≠ [] := stream.rest_ne_nil_iff.mpr hpos
    rw [if_pos hpos, if_neg hrest]
    simp
  · have hrest : stream.rest = [] := stream.rest_eq_nil_iff.mpr (Nat.le_of_not_lt hpos)
    rw [if_neg hpos, if_pos hrest]
    rfl

@[simp] theorem rest_readText : (stream.readText env).val.2.rest = afterText stream.rest := by
  unfold readText
  by_cases hpos : stream.m_pos < stream.m_data.length
  · have hafter : afterText stream.rest =
        stream.m_data.drop (stream.m_pos + ((text stream.rest).length + 1)) := List.drop_drop
    rw [if_pos hpos, hafter]
    simp only [Noted.val_bind, val_upToNul, Noted.val_pure]
    by_cases hnul : stream.m_pos + (text stream.rest).length < stream.m_data.length
    · rw [if_pos hnul]
      rfl
    · -- the payload ends with the text
      rw [if_neg hnul, List.drop_eq_nil_of_le (by omega)]
      exact List.drop_eq_nil_of_le (Nat.le_of_not_lt hnul)
  · have hrest : stream.rest = [] := stream.rest_eq_nil_iff.mpr (Nat.le_of_not_lt hpos)
    rw [if_neg hpos, hrest]
    exact hrest

end NetStream

end ShoweqDaemon.Packet
