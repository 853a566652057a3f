/-
  `emitWithDecode`: what the callback of `EQMacDecoder::process` gets to see of an
  application message.

  OP_ZoneSpawns, OP_NewSpawn and OP_PlayerProfile arrive obfuscated and deflated. They are
  decrypted as little-endian 64-bit words, the bytes behind the last whole word left alone,
  then inflated. A message that does not inflate, or inflates to nothing, is not delivered.
  Every other opcode passes through.

  zlib is not part of the repository. `Zlib` is what `inflateBuffer` relies on: a whole
  stream inflates to some bytes, never more than the room it was given.
-/
import Mathlib.Data.List.Basic

namespace ShoweqDaemon.Decoder

/-! ## Obfuscation -/

/-- `rol64`, a rotation to the left. -/
def rol64 (x : UInt64) (n : UInt64) : UInt64 := x <<< n ||| x >>> (64 - n)

/-- `ror64`, a rotation to the right. -/
def ror64 (x : UInt64) (n : UInt64) : UInt64 := x >>> n ||| x <<< (64 - n)

/-- The little-endian value of up to eight bytes. -/
def le64 (bs : List UInt8) : UInt64 := bs.foldr (fun b acc => acc <<< 8 ||| b.toUInt64) 0

/-- The eight bytes of `w`, low byte first. -/
def toLE64 (w : UInt64) : List UInt8 :=
  [w.toUInt8, (w >>> 8).toUInt8, (w >>> 16).toUInt8, (w >>> 24).toUInt8,
    (w >>> 32).toUInt8, (w >>> 40).toUInt8, (w >>> 48).toUInt8, (w >>> 56).toUInt8]

@[simp] theorem toLE64_length (w : UInt64) : (toLE64 w).length = 8 := rfl

/-- The first `n` words of the buffer. -/
def words : Nat → List UInt8 → List UInt64
  | 0, _ => []
  | n + 1, buf => le64 (buf.take 8) :: words n (buf.drop 8)

/-- The loop of both decryptors: each word is undone with the running `crypt`, and its plain
    value goes into the next `crypt`. -/
def unchain (undo : UInt64 → UInt64) (step : UInt64) : UInt64 → List UInt64 → List UInt64
  | _, [] => []
  | crypt, e :: es =>
      let p := undo (e + crypt)
      p :: unchain undo step (crypt + p - step) es

/-- Words 0 and `n / 2` change places, if there are two words. -/
def unswap (data : List UInt64) : List UInt64 :=
  if 2 ≤ data.length then
    let m := data.length / 2
    (data.set 0 (data.getD m 0)).set m (data.getD 0 0)
  else data

/-- Both decryptors, on the whole words of the buffer. -/
def decryptWords (undo : UInt64 → UInt64) (step crypt : UInt64) (buf : List UInt8) : List UInt8 :=
  let n := buf.length >>> 3
  (unswap (unchain undo step crypt (words n buf))).flatMap toLE64 ++ buf.drop (8 * n)

/-- `decryptZoneSpawn`, the words of the payload in order. -/
def decryptZoneSpawn (buf : List UInt8) : List UInt8 :=
  decryptWords (fun e => ror64 (ror64 e 14 - 0x659365E7) 29) 0x659365E7 0 buf

/-- `decryptProfile`, with the constant of the first word as its own. -/
def decryptProfile (buf : List UInt8) : List UInt8 :=
  decryptWords (fun e => rol64 (ror64 e 7 - 0x422437A9) 25) 0x422437A9 0x659365E7 buf

@[simp] theorem words_length (n : Nat) (buf : List UInt8) : (words n buf).length = n := by
  induction n generalizing buf with
  | zero => rfl
  | succ n ih => simp [words, ih]

@[simp] theorem unchain_length (undo : UInt64 → UInt64) (step crypt : UInt64)
    (data : List UInt64) : (unchain undo step crypt data).length = data.length := by
  induction data generalizing crypt with
  | nil => rfl
  | cons e es ih => simp [unchain, ih]

@[simp] theorem unswap_length (data : List UInt64) : (unswap data).length = data.length := by
  unfold unswap
  split <;> simp

theorem flatMap_toLE64_length (data : List UInt64) :
    (data.flatMap toLE64).length = 8 * data.length := by
  induction data with
  | nil => rfl
  | cons w data ih =>
      rw [List.flatMap_cons, List.length_append, ih, List.length_cons, toLE64_length]
      omega

/-- Decryption works in place. -/
theorem decryptWords_length (undo : UInt64 → UInt64) (step crypt : UInt64) (buf : List UInt8) :
    (decryptWords undo step crypt buf).length = buf.length := by
  have hn : 8 * (buf.length >>> 3) ≤ buf.length := by
    rw [Nat.shiftRight_eq_div_pow]
    omega
  simp only [decryptWords, List.length_append, flatMap_toLE64_length, unswap_length,
    unchain_length, words_length, List.length_drop]
  omega

/-! ## Inflating and delivering -/

/-- `inflate` of zlib on a fresh stream with Z_FINISH: `none` unless it ends in Z_STREAM_END. -/
structure Zlib where
  inflate : List UInt8 → Nat → Option (List UInt8)
  inflate_length_le : ∀ inp cap out, inflate inp cap = some out → out.length ≤ cap

/-- The room for the inflated payload. -/
def kInflateOutCap : Nat := 96 * 1024

/-- The opcodes whose payloads are obfuscated. -/
def kAppOpZoneSpawns : UInt16 := 0x5f41
def kAppOpNewSpawn : UInt16 := 0x6b42
def kAppOpPlayerProfile : UInt16 := 0x3640

/-- The inflated bytes, none on failure. -/
def inflateBuffer (z : Zlib) (inp : List UInt8) (outCap : Nat) : List UInt8 :=
  (z.inflate inp outCap).getD []

/-- An opcode and its data, as handed to `emitWithDecode` or to the callback. -/
abbrev AppPacket := UInt16 × List UInt8

/-- The payload is deciphered and inflated before it is handed on. -/
def isObfuscated (opcode : UInt16) : Bool :=
  opcode == kAppOpZoneSpawns || opcode == kAppOpNewSpawn || opcode == kAppOpPlayerProfile

/-- The decrypted copy of the data. -/
def decrypt (opcode : UInt16) (data : List UInt8) : List UInt8 :=
  if opcode == kAppOpPlayerProfile then decryptProfile data else decryptZoneSpawn data

/-- The callback's argument, `none` when there is no callback. -/
def emitWithDecode (z : Zlib) (msg : AppPacket) : Option AppPacket :=
  let (opcode, data) := msg
  if isObfuscated opcode then
    if data = [] then some (opcode, data)
    else
      let inflated := inflateBuffer z (decrypt opcode data) kInflateOutCap
      if inflated = [] then none else some (opcode, inflated)
  else some (opcode, data)

/-- The callback keeps the opcode, and what it gets fits the client's buffer or is the
    message as it arrived. -/
theorem emitWithDecode_bound (z : Zlib) {opcode : UInt16} {data : List UInt8} {out : AppPacket}
    (h : emitWithDecode z (opcode, data) = some out) :
    out.1 = opcode ∧ (out.2 = data ∨ out.2.length ≤ kInflateOutCap) := by
  have hcap (inp : List UInt8) : (inflateBuffer z inp kInflateOutCap).length ≤ kInflateOutCap := by
    unfold inflateBuffer
    cases hz : z.inflate inp kInflateOutCap with
    | none => exact Nat.zero_le _
    | some bytes => exact z.inflate_length_le inp _ bytes hz
  simp only [emitWithDecode] at h
  split at h
  · split at h
    · obtain rfl := Option.some.inj h
      exact ⟨rfl, Or.inl rfl⟩
    · split at h
      · cases h
      · obtain rfl := Option.some.inj h
        exact ⟨rfl, Or.inr (hcap _)⟩
  · obtain rfl := Option.some.inj h
    exact ⟨rfl, Or.inl rfl⟩

end ShoweqDaemon.Decoder
