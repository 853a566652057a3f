/-
  `BitStream`: numbers of any width off a payload.

  `readUInt` puts a number together from a part of a byte, whole bytes and a part of another one.
  `Holds` says which bits of the payload a word has; each of the parts has its own lemma, and
  `holds_append` puts two of them together. `bitStream_spec`: the calls read the string of bits from
  its front to its end.

  Proved:
  * `readLead_spec`, `readMiddle_spec`, `readTail_spec`: what each of the three parts puts in.
  * `readUInt_spec`: a number of at most 32 bits is the next bits of the payload, the highest
    first; without enough of them it is 0 and the stream stays as it is (`readUInt_short`).
  * `reads_eq_nexts`, `bitStream_spec`: any calls in a row, and numbers read in two parts.
-/
import ShoweqDaemon.Lib.Audit
import ShoweqDaemon.Lib.BitString
import ShoweqDaemon.Lib.Run

namespace ShoweqDaemon.Packet

open Audit BitString

/-- The position never leaves the payload. `m_totalBits` does not wrap around: no address space has
    room for 2^61 bytes. -/
structure BitStream where
  m_data : List UInt8
  m_currentBit : ℕ := 0
  within : m_currentBit ≤ m_data.length * 8 := by
    exact Nat.zero_le _

namespace BitStream

/-- The bits of the payload. -/
def m_totalBits (stream : BitStream) : ℕ := stream.m_data.length * 8

/-- The stream some bits further on. -/
def advance (stream : BitStream) (bitCount : ℕ)
    (h : ¬ stream.m_totalBits < stream.m_currentBit + bitCount) : BitStream where
  m_data := stream.m_data
  m_currentBit := stream.m_currentBit + bitCount
  within := Nat.not_lt.mp h

/-- The bits of the first byte that are still to come; a whole byte counts with those in the
    middle. -/
def leadPartialBitCount (stream : BitStream) : ℕ :=
  let count := 8 - stream.m_currentBit % 8
  if count = 8 then 0 else count

/-- The low bits of a byte. -/
def lowBits (byte : UInt8) (count : ℕ) : UInt32 :=
  byte.toUInt32 &&& ((1 <<< UInt32.ofNat count) - 1)

/-- The part in front of the first whole byte, and where that one is. -/
def readLead (bytes : List UInt8) (lead currentByte : ℕ) : Noted Element (UInt32 × ℕ) :=
  if 0 < lead then do
    let byte ← element bytes currentByte
    pure (lowBits byte lead, currentByte + 1)
  else pure (0, currentByte)

/-- The whole bytes, and where the one behind them is. -/
def readMiddle (bytes : List UInt8) : ℕ → ℕ → UInt32 → Noted Element (UInt32 × ℕ)
  | 0, currentByte, out => pure (out, currentByte)
  | n + 1, currentByte, out => do
      let byte ← element bytes currentByte
      readMiddle bytes n (currentByte + 1) (out <<< 8 ||| byte.toUInt32)

/-- The part behind the last whole byte: the upper bits of one more byte, behind what was read so
    far. -/
def readTail (bytes : List UInt8) (tail currentByte : ℕ) (out : UInt32) : Noted Element UInt32 :=
  if 0 < tail then do
    let byte ← element bytes currentByte
    pure (out <<< UInt32.ofNat tail ||| byte.toUInt32 >>> UInt32.ofNat (8 - tail))
  else pure out

/-- `BitStream::readUInt`: the rest of a byte, whole bytes, and the front of another one. -/
def readUInt (stream : BitStream) (bitCount : ℕ) : Noted Element (UInt32 × BitStream) :=
  if h : stream.m_totalBits < stream.m_currentBit + bitCount then pure (0, stream)
  else do
    let currentByte := stream.m_currentBit >>> 3
    let lead := stream.leadPartialBitCount
    if bitCount < lead then
      let byte ← element stream.m_data currentByte
      pure (lowBits byte lead >>> UInt32.ofNat (lead - bitCount), stream.advance bitCount h)
    else
      let middle := (bitCount - lead) / 8
      let tail := bitCount - (lead + middle * 8)
      let (out, currentByte) ← readLead stream.m_data lead currentByte
      let (out, currentByte) ← readMiddle stream.m_data middle currentByte out
      let out ← readTail stream.m_data tail currentByte out
      pure (out, stream.advance bitCount h)

/-- The bits that are still to come. -/
def rest (stream : BitStream) : List Bool := (bits stream.m_data).drop stream.m_currentBit

/-! ## Parts of a number -/

/-- The word has the `n` bits of the payload behind the first `p`. -/
def Holds (bytes : List UInt8) (p n : ℕ) (out : UInt32) : Prop :=
  out.toNat = value (field bytes p n)

theorem shiftLeft_or {out low : UInt32} {n k : ℕ} (hout : out.toNat < 2 ^ n)
    (hlow : low.toNat < 2 ^ k) (hk : k < 32) (hfits : n + k ≤ 32) :
    (out <<< UInt32.ofNat k ||| low).toNat = out.toNat * 2 ^ k + low.toNat := by
  have hcount : (UInt32.ofNat k).toNat % 32 = k := by
    rw [UInt32.toNat_ofNat']
    omega
  have hroom : out.toNat * 2 ^ k < 2 ^ 32 :=
    calc out.toNat * 2 ^ k < 2 ^ n * 2 ^ k := Nat.mul_lt_mul_of_pos_right hout (Nat.two_pow_pos k)
      _ = 2 ^ (n + k) := (pow_add 2 n k).symm
      _ ≤ 2 ^ 32 := Nat.pow_le_pow_right Nat.two_pos hfits
  rw [UInt32.toNat_or, UInt32.toNat_shiftLeft, hcount, Nat.shiftLeft_eq, Nat.mod_eq_of_lt hroom,
    ← Nat.shiftLeft_eq, ← Nat.shiftLeft_add_eq_or_of_lt hlow]

variable {bytes : List UInt8}

theorem Holds.lt {p n : ℕ} {out : UInt32} (h : Holds bytes p n out) : out.toNat < 2 ^ n := by
  rw [h]
  refine (value_lt _).trans_le (Nat.pow_le_pow_right Nat.two_pos ?_)
  rw [field, List.length_take]
  exact Nat.min_le_left _ _

theorem holds_zero (p : ℕ) : Holds bytes p 0 0 := rfl

/-- Two fields, one behind the other. -/
theorem holds_append {p n k : ℕ} {out low : UInt32} (hout : Holds bytes p n out)
    (hlow : Holds bytes (p + n) k low) (hk : k < 32) (hfits : n + k ≤ 32)
    (hend : p + n + k ≤ 8 * bytes.length) :
    Holds bytes p (n + k) (out <<< UInt32.ofNat k ||| low) := by
  unfold Holds
  rw [shiftLeft_or hout.lt hlow.lt hk hfits, field_add, value_append, field_length bytes hend,
    hout, hlow]

theorem lowBits_toNat (byte : UInt8) {count : ℕ} (h : count < 8) :
    (lowBits byte count).toNat = byte.toNat % 2 ^ count := by
  have hmask : ∀ count < 8, ((1 <<< UInt32.ofNat count) - 1 : UInt32).toNat = 2 ^ count - 1 := by
    decide
  rw [lowBits, UInt32.toNat_and, hmask count h, Nat.and_two_pow_sub_one_eq_mod,
    UInt8.toNat_toUInt32]

theorem shiftRight_toNat (x : UInt32) {k : ℕ} (h : k < 32) :
    (x >>> UInt32.ofNat k).toNat = x.toNat / 2 ^ k := by
  have hcount : (UInt32.ofNat k).toNat % 32 = k := by
    rw [UInt32.toNat_ofNat']
    omega
  rw [UInt32.toNat_shiftRight, hcount, Nat.shiftRight_eq_div_pow]

/-- Bits inside the first byte. -/
theorem holds_inside {q lead n : ℕ} (hq : q < bytes.length) (hlead : lead < 8) (hn : n ≤ lead) :
    Holds bytes (8 * q + (8 - lead)) n
      (lowBits (bytes.getD q default) lead >>> UInt32.ofNat (lead - n)) := by
  have hback : 8 - (8 - lead) = lead := by omega
  unfold Holds
  rw [value_field_byte bytes hq (by omega), shiftRight_toNat _ (by omega), lowBits_toNat _ hlead,
    hback]
  rfl

/-- The rest of the first byte. -/
theorem holds_lead {q lead : ℕ} (hq : q < bytes.length) (hlead : lead < 8) :
    Holds bytes (8 * q + (8 - lead)) lead (lowBits (bytes.getD q default) lead) := by
  have hinside := holds_inside hq hlead le_rfl
  rw [Nat.sub_self] at hinside
  unfold Holds at hinside ⊢
  rw [← hinside, shiftRight_toNat _ (by decide), pow_zero, Nat.div_one]

/-- The front of a byte. -/
theorem holds_tail {q tail : ℕ} (hq : q < bytes.length) (htail : tail ≤ 8) :
    Holds bytes (8 * q) tail ((bytes.getD q default).toUInt32 >>> UInt32.ofNat (8 - tail)) := by
  have hbyte : (bytes.getD q 0).toNat < 2 ^ 8 := (bytes.getD q 0).toNat_lt
  have hvalue := value_field_byte bytes (r := 0) hq (by omega : 0 + tail ≤ 8)
  rw [Nat.add_zero, Nat.sub_zero, Nat.mod_eq_of_lt hbyte] at hvalue
  unfold Holds
  rw [hvalue, shiftRight_toNat _ (by omega), UInt8.toNat_toUInt32]
  rfl

theorem holds_byte {q : ℕ} (hq : q < bytes.length) :
    Holds bytes (8 * q) 8 (bytes.getD q default).toUInt32 := by
  have htail := holds_tail hq le_rfl
  unfold Holds at htail ⊢
  rw [← htail, shiftRight_toNat _ (by decide), Nat.sub_self, pow_zero, Nat.div_one]

/-! ## The reads -/

theorem readLead_spec (bytes : List UInt8) {cur lead q : ℕ} (hlead : lead < 8)
    (hcur : lead = 0 ∧ cur = 8 * q ∨ 0 < lead ∧ cur = 8 * q + (8 - lead))
    (hend : cur + lead ≤ 8 * bytes.length) :
    (readLead bytes lead q).Allowed Element.Inside ∧
      ∃ out q', (readLead bytes lead q).val = (out, q') ∧ Holds bytes cur lead out ∧
        cur + lead = 8 * q' := by
  unfold readLead
  rcases hcur with ⟨rfl, rfl⟩ | ⟨hpos, rfl⟩
  · exact ⟨Noted.allowed_pure _ _, 0, q, rfl, holds_zero _, rfl⟩
  · rw [if_pos hpos]
    refine ⟨?_, _, q + 1, rfl, holds_lead (by omega) hlead, by omega⟩
    simp only [Noted.allowed_bind, allowed_element, Noted.allowed_pure, and_true]
    omega

/-- Whole bytes behind `n` bits. -/
theorem readMiddle_spec (middle : ℕ) {p n q : ℕ} {out : UInt32} (hout : Holds bytes p n out)
    (hbyte : p + n = 8 * q) (hfits : n + 8 * middle ≤ 32) (hend : q + middle ≤ bytes.length) :
    (readMiddle bytes middle q out).Allowed Element.Inside ∧
      ∃ out', (readMiddle bytes middle q out).val = (out', q + middle) ∧
        Holds bytes p (n + 8 * middle) out' := by
  induction middle generalizing n q out with
  | zero => exact ⟨Noted.allowed_pure _ _, out, rfl, hout⟩
  | succ middle ih =>
      have hnext := holds_append hout (k := 8) (by rw [hbyte]; exact holds_byte (by omega))
        (by decide) (by omega) (by omega)
      obtain ⟨hallowed, out', hval, hrest⟩ := ih hnext (q := q + 1) (by omega) (by omega) (by omega)
      have hcount : n + 8 * (middle + 1) = n + 8 + 8 * middle := by omega
      have hbehind : q + (middle + 1) = q + 1 + middle := by omega
      rw [hcount, hbehind]
      refine ⟨(Noted.allowed_bind _ _ _).mpr ⟨(allowed_element _ _).mpr (by omega), hallowed⟩, ?_⟩
      exact ⟨out', hval, hrest⟩

theorem readTail_spec (tail : ℕ) {p n q : ℕ} {out : UInt32} (hout : Holds bytes p n out)
    (hbyte : p + n = 8 * q) (htail : tail < 8) (hfits : n + tail ≤ 32)
    (hend : p + n + tail ≤ 8 * bytes.length) :
    (readTail bytes tail q out).Allowed Element.Inside ∧
      Holds bytes p (n + tail) (readTail bytes tail q out).val := by
  unfold readTail
  by_cases hpos : 0 < tail
  · rw [if_pos hpos]
    simp only [Noted.allowed_bind, allowed_element, Noted.allowed_pure, and_true]
    refine ⟨by omega, ?_⟩
    have hq : q < bytes.length := by omega
    exact holds_append hout (by rw [hbyte]; exact holds_tail hq htail.le) (by omega) hfits hend
  · obtain rfl : tail = 0 := by omega
    exact ⟨Noted.allowed_pure _ _, hout⟩

theorem leadPartialBitCount_spec (stream : BitStream) :
    stream.leadPartialBitCount < 8 ∧
      (stream.leadPartialBitCount = 0 ∧ stream.m_currentBit = 8 * (stream.m_currentBit >>> 3) ∨
        0 < stream.leadPartialBitCount ∧ stream.m_currentBit =
          8 * (stream.m_currentBit >>> 3) + (8 - stream.leadPartialBitCount)) := by
  unfold leadPartialBitCount
  rw [Nat.shiftRight_eq_div_pow]
  dsimp only
  split <;> omega

/-- A call with enough bits left. -/
theorem readUInt_spec (stream : BitStream) {bitCount : ℕ} (hcount : bitCount ≤ 32)
    (h : ¬ stream.m_totalBits < stream.m_currentBit + bitCount) :
    (stream.readUInt bitCount).Allowed Element.Inside ∧
      ∃ out, (stream.readUInt bitCount).val = (out, stream.advance bitCount h) ∧
        Holds stream.m_data stream.m_currentBit bitCount out := by
  have hend : stream.m_currentBit + bitCount ≤ 8 * stream.m_data.length := by
    unfold m_totalBits at h
    omega
  obtain ⟨hlead, hcur⟩ := stream.leadPartialBitCount_spec
  unfold readUInt
  rw [dif_neg h]
  dsimp only
  generalize stream.leadPartialBitCount = lead at hlead hcur
  generalize stream.m_currentBit >>> 3 = q at hcur
  by_cases hinside : bitCount < lead
  · rw [if_pos hinside]
    obtain ⟨hlead0, -⟩ | ⟨-, hcur⟩ := hcur
    · omega
    · have hq : q < stream.m_data.length := by
        have hwithin := stream.within
        omega
      simp only [Noted.allowed_bind, allowed_element, Noted.allowed_pure, and_true]
      refine ⟨hq, _, rfl, ?_⟩
      rw [hcur]
      exact holds_inside hq hlead hinside.le
  · rw [if_neg hinside]
    obtain ⟨hallowed, out, q', hval, hout, hq'⟩ := readLead_spec stream.m_data hlead hcur (by omega)
    obtain ⟨hallowed', out', hval', hout'⟩ :=
      readMiddle_spec ((bitCount - lead) / 8) hout hq' (by omega) (by omega)
    have htail := readTail_spec (bitCount - (lead + (bitCount - lead) / 8 * 8)) hout'
      (q := q' + (bitCount - lead) / 8) (by omega) (by omega) (by omega) (by omega)
    have hsum : lead + 8 * ((bitCount - lead) / 8) +
        (bitCount - (lead + (bitCount - lead) / 8 * 8)) = bitCount := by omega
    rw [hsum] at htail
    simp only [Noted.allowed_bind, Noted.val_bind, Noted.allowed_pure, Noted.val_pure, and_true,
      hval, hval']
    exact ⟨⟨hallowed, hallowed', htail.1⟩, _, rfl, htail.2⟩

/-! ## Runs -/

/-- A stream at the beginning of a payload. -/
def start (data : List UInt8) : BitStream := { m_data := data }

/-- The stream behind a call. -/
def step (stream : BitStream) (bitCount : ℕ) : BitStream := (stream.readUInt bitCount).val.2

/-- What the calls return. -/
def reads (stream : BitStream) (bitCounts : List ℕ) : List UInt32 :=
  Machine.outputs step (fun s n => (s.readUInt n).val.1) stream bitCounts

/-- A call on the string of bits itself: the number that it starts with and what is behind it, or
    nothing at all. -/
def next (bits : List Bool) (bitCount : ℕ) : ℕ × List Bool :=
  if bitCount ≤ bits.length then (value (bits.take bitCount), bits.drop bitCount) else (0, bits)

/-- What the calls on the string of bits return. -/
def nexts (bits : List Bool) (bitCounts : List ℕ) : List ℕ :=
  Machine.outputs (fun bits n => (next bits n).2) (fun bits n => (next bits n).1) bits bitCounts

theorem rest_length (stream : BitStream) :
    stream.rest.length = stream.m_totalBits - stream.m_currentBit := by
  rw [rest, List.length_drop, bits_length, m_totalBits, Nat.mul_comm]

/-- The guard of a call: are there enough bits? -/
theorem fits_iff (stream : BitStream) (bitCount : ℕ) :
    ¬ stream.m_totalBits < stream.m_currentBit + bitCount ↔ bitCount ≤ stream.rest.length := by
  have hwithin : stream.m_currentBit ≤ stream.m_totalBits := stream.within
  rw [rest_length]
  omega

theorem readUInt_short {stream : BitStream} {bitCount : ℕ} (h : stream.rest.length < bitCount) :
    stream.readUInt bitCount = pure (0, stream) :=
  dif_pos (not_not.mp (mt (stream.fits_iff bitCount).mp (Nat.not_le.mpr h)))

/-- What a call is to do: look at nothing outside the payload, return the number of the next bits
    and go behind them, and with too few bits return 0 and stay. -/
structure ReadsNext (stream : BitStream) (bitCount : ℕ) : Prop where
  inside : (stream.readUInt bitCount).Allowed Element.Inside
  long : bitCount ≤ stream.rest.length →
    (stream.readUInt bitCount).val.1.toNat = value (stream.rest.take bitCount) ∧
      (stream.step bitCount).m_data = stream.m_data ∧
      (stream.step bitCount).m_currentBit = stream.m_currentBit + bitCount
  short : stream.rest.length < bitCount → (stream.readUInt bitCount).val = (0, stream)

theorem readsNext (stream : BitStream) {bitCount : ℕ} (hcount : bitCount ≤ 32) :
    stream.ReadsNext bitCount := by
  by_cases hlong : bitCount ≤ stream.rest.length
  · obtain ⟨hallowed, out, hval, hout⟩ :=
      stream.readUInt_spec hcount ((stream.fits_iff bitCount).mpr hlong)
    refine ⟨hallowed, fun _ => ?_, fun hshort => absurd hlong (Nat.not_le.mpr hshort)⟩
    rw [step, hval]
    exact ⟨hout, rfl, rfl⟩
  · have hshort : stream.rest.length < bitCount := Nat.not_le.mp hlong
    have hread := readUInt_short hshort
    refine ⟨?_, fun h => absurd h hlong, fun _ => congrArg Noted.val hread⟩
    rw [hread]
    exact Noted.allowed_pure _ _

/-- On the string of bits it is `next`. -/
theorem readUInt_next (stream : BitStream) {bitCount : ℕ} (hcount : bitCount ≤ 32) :
    next stream.rest bitCount =
      ((stream.readUInt bitCount).val.1.toNat, (stream.step bitCount).rest) := by
  have hcall := stream.readsNext hcount
  unfold next
  by_cases hlong : bitCount ≤ stream.rest.length
  · obtain ⟨hval, hdata, hpos⟩ := hcall.long hlong
    rw [if_pos hlong, hval, rest, rest, hdata, hpos, List.drop_drop]
  · have hshort := hcall.short (Nat.not_le.mp hlong)
    rw [if_neg hlong, step, hshort]
    rfl

/-- Two calls read the two parts of what one call would read. -/
structure SplitsAt (stream : BitStream) (a b : ℕ) : Prop where
  front : (stream.readUInt a).val.1.toNat = (stream.readUInt (a + b)).val.1.toNat / 2 ^ b
  back : ((stream.step a).readUInt b).val.1.toNat = (stream.readUInt (a + b)).val.1.toNat % 2 ^ b
  behind : ((stream.step a).step b).m_currentBit = (stream.step (a + b)).m_currentBit

theorem splitsAt (stream : BitStream) {a b : ℕ} (hcount : a + b ≤ 32)
    (hlong : a + b ≤ stream.rest.length) : stream.SplitsAt a b := by
  obtain ⟨hval, -, hpos⟩ := (stream.readsNext hcount).long hlong
  obtain ⟨hvala, hdataa, hposa⟩ :=
    (stream.readsNext (by omega : a ≤ 32)).long (by omega)
  have hresta : (stream.step a).rest = stream.rest.drop a := by
    rw [rest, rest, hdataa, hposa, List.drop_drop]
  have hlongb : b ≤ (stream.step a).rest.length := by
    rw [hresta, List.length_drop]
    omega
  obtain ⟨hvalb, -, hposb⟩ := ((stream.step a).readsNext (by omega : b ≤ 32)).long hlongb
  have hlength : ((stream.rest.drop a).take b).length = b := by
    rw [List.length_take, ← hresta, Nat.min_eq_left hlongb]
  have hsplit : stream.rest.take (a + b) = stream.rest.take a ++ (stream.rest.drop a).take b :=
    List.take_add
  have hfront := value_front (stream.rest.take a) ((stream.rest.drop a).take b)
  have hback := value_back (stream.rest.take a) ((stream.rest.drop a).take b)
  rw [← hsplit, hlength] at hfront hback
  refine ⟨?_, ?_, ?_⟩
  · rw [hvala, hval, hfront]
  · rw [hvalb, hval, hresta, hback]
  · rw [hposb, hposa, hpos, Nat.add_assoc]

/-- A run of calls is the run on the string of bits. -/
theorem reads_eq_nexts (bitCounts : List ℕ) (hcounts : ∀ n ∈ bitCounts, n ≤ 32)
    (stream : BitStream) :
    (stream.reads bitCounts).map UInt32.toNat = nexts stream.rest bitCounts := by
  induction bitCounts generalizing stream with
  | nil => rfl
  | cons n ns ih =>
      obtain ⟨hn, hns⟩ := List.forall_mem_cons.mp hcounts
      have hrest := ih hns (stream.step n)
      unfold reads nexts at hrest ⊢
      rw [Machine.outputs, Machine.outputs, List.map_cons, stream.readUInt_next hn, hrest]

/-- Every payload, every sequence of calls: the calls return the numbers that the bits stand for one
    after the other, and none of them looks outside the payload. -/
theorem bitStream_spec (data : List UInt8) (bitCounts : List ℕ) (hcounts : ∀ n ∈ bitCounts, n ≤ 32) :
    (reads (start data) bitCounts).map UInt32.toNat = nexts (bits data) bitCounts ∧
      ∀ stream ∈ Machine.trace step (start data) bitCounts,
        (∀ n ≤ 32, stream.ReadsNext n) ∧
          ∀ a b, a + b ≤ 32 → a + b ≤ stream.rest.length → stream.SplitsAt a b := by
  refine ⟨reads_eq_nexts bitCounts hcounts (start data), fun stream _ => ⟨fun n hn => ?_, ?_⟩⟩
  · exact stream.readsNext hn
  · intro a b hcount hlong
    exact stream.splitsAt hcount hlong

/-- Three bits, nine more, and four too many. -/
theorem bitStream_spec_example :
    (reads (start [0xB5, 0x3C]) [3, 9, 8]).map UInt32.toNat = [5, 339, 0] :=
  (bitStream_spec [0xB5, 0x3C] [3, 9, 8] (by decide)).1.trans (by decide)

end BitStream

end ShoweqDaemon.Packet
