/-
  How long a protocol packet has to be for `EQProtocolPacket::init`.

  `init` reads the opcode, the flags and the sequence number, and takes the opcode, the
  flags, the checksum and the sequence number off the length it was given. It never looks
  at that length first, so `initOverhead` bytes have to be there. The payload of a packet
  shorter than that gets a length near 2^32.

  Every read, subtraction and region handed on is noted with its address and length, and `Fine`
  says which of them a packet of that length allows.

  Proved:
  * `init_allowed`: what `init` needs, from the case of a packet without flags, of one whose
    opcode is split by them, and of one whose opcode stands in front.
  * `init_behind`, `init_inPayload`, `init_lengths`: nothing in front of the packet is read, and
    what is handed on lies inside it.
  * `EQProtocolPacket.inside_iff`: the same for the constructor, for any memory, offset and
    length.
-/
import ShoweqDaemon.Capture.PacketFormat

namespace ShoweqDaemon.Capture

open Audit Decoder

/-! ## What is fine -/

/-- Reads inside the `n` bytes, no underflow, nothing handed on beyond them. Lengths of the
    protocol layer count when `strict`. -/
def Fine (strict : Bool) (n : Nat) : Access → Prop
  | .read address => address < n
  | .minus a b => b ≤ a
  | .payloadMinus a b => strict = true → b ≤ a
  | .region address length => address + length.toNat ≤ n

section
variable {strict : Bool} {n : Nat} (mem : Memory)

@[simp] theorem val_byte (i : Nat) : (byte mem i).val = mem i := rfl

@[simp] theorem val_be16 (i : Nat) : (be16 mem i).val = ByteReader.be16 (mem i) (mem (i + 1)) := rfl

@[simp] theorem val_le16 (i : Nat) : (le16 mem i).val = ByteReader.be16 (mem (i + 1)) (mem i) := rfl

@[simp] theorem val_minus (a b : UInt32) : (minus a b).val = a - b := rfl

@[simp] theorem val_payloadMinus (a b : UInt32) : (payloadMinus a b).val = a - b := rfl

@[simp] theorem allowed_byte (i : Nat) : (byte mem i).Allowed (Fine strict n) ↔ i < n := by
  simp [byte, Fine]

@[simp] theorem allowed_be16 (i : Nat) : (be16 mem i).Allowed (Fine strict n) ↔ i + 2 ≤ n := by
  simp [be16]
  omega

@[simp] theorem allowed_le16 (i : Nat) : (le16 mem i).Allowed (Fine strict n) ↔ i + 2 ≤ n := by
  simp [le16]
  omega

@[simp] theorem allowed_le32 (i : Nat) : (le32 mem i).Allowed (Fine strict n) ↔ i + 4 ≤ n := by
  simp [le32]
  omega

@[simp] theorem allowed_minus (a b : UInt32) :
    (minus a b).Allowed (Fine strict n) ↔ b.toNat ≤ a.toNat := by
  simp [minus, Fine, UInt32.le_iff_toNat_le]

@[simp] theorem allowed_payloadMinus (a b : UInt32) :
    (payloadMinus a b).Allowed (Fine strict n) ↔ (strict = true → b.toNat ≤ a.toNat) := by
  simp [payloadMinus, Fine, UInt32.le_iff_toNat_le]

end

/-- A subtraction and what is asked of the difference. -/
theorem le_minus_iff (a b : UInt32) (k : Nat) :
    b.toNat ≤ a.toNat ∧ k ≤ (a - b).toNat ↔ b.toNat + k ≤ a.toNat := by
  constructor
  · rintro ⟨hb, hk⟩
    rw [UInt32.toNat_sub_of_le _ _ (UInt32.le_iff_toNat_le.mpr hb)] at hk
    omega
  · intro h
    have hb : b.toNat ≤ a.toNat := by omega
    rw [UInt32.toNat_sub_of_le _ _ (UInt32.le_iff_toNat_le.mpr hb)]
    omega

/-- Opcode, flags and checksum come off one after the other. -/
theorem overhead_iff (len : UInt32) (k : Nat) :
    2 ≤ len.toNat ∧ 1 ≤ (len - 2).toNat ∧ 2 ≤ (len - 2 - 1).toNat ∧
      k ≤ (len - 2 - 1 - 2).toNat ↔ 5 + k ≤ len.toNat := by
  have h3 := le_minus_iff (len - 2 - 1) 2 k
  have h2 := le_minus_iff (len - 2) 1 (2 + k)
  have h1 := le_minus_iff len 2 (1 + (2 + k))
  simp only [UInt32.toNat_ofNat, Nat.reducePow, Nat.reduceMod] at h1 h2 h3
  omega

/-! ## The protocol packet -/

/-- An app opcode is one whose low byte is not zero. -/
theorem isAppOpcode_be16 (hi lo : UInt8) :
    IS_APP_OPCODE (ByteReader.be16 hi lo) = (lo != 0) := by
  have hlow : ByteReader.be16 hi lo &&& 0x00ff = lo.toUInt16 := by
    apply UInt16.toNat_inj.mp
    have hlo := lo.toNat_lt
    rw [UInt16.toNat_and, ByteReader.be16_toNat, UInt8.toNat_toUInt16]
    show (hi.toNat * 256 + lo.toNat) &&& (2 ^ 8 - 1) = lo.toNat
    rw [Nat.and_two_pow_sub_one_eq_mod]
    omega
  have hzero : lo.toUInt16 = 0 ↔ lo = 0 := by
    rw [← UInt16.toNat_inj, ← UInt8.toNat_inj]
    simp
  unfold IS_APP_OPCODE
  rw [hlow, Bool.eq_iff_iff]
  simp [hzero]

theorem hasArqSeq_not_app {op : UInt16} (h : hasArqSeq op = true) : IS_APP_OPCODE op = false := by
  simp only [hasArqSeq, Bool.or_eq_true, beq_iff_eq] at h
  rcases h with rfl | rfl <;> decide

theorem app_not_hasArqSeq {op : UInt16} (h : IS_APP_OPCODE op = true) : hasArqSeq op = false := by
  cases hs : hasArqSeq op with
  | false => rfl
  | true =>
      rw [hasArqSeq_not_app hs] at h
      cases h

theorem hasFlags_of_app {op : UInt16} (h : IS_APP_OPCODE op = true) : hasFlags false op = true := by
  simp [hasFlags, h]

theorem hasFlags_of_arqSeq {op : UInt16} (h : hasArqSeq op = true) : hasFlags false op = true := by
  simp only [hasArqSeq, Bool.or_eq_true, beq_iff_eq] at h
  rcases h with rfl | rfl <;> decide

section
variable (mem : Memory) (packet : Nat)

/-- The opcode in the first two bytes of a packet. -/
def opAt : UInt16 := ByteReader.be16 (mem (packet + 1)) (mem packet)

/-- The packet begins with a sequence number that `init` takes off: that of a subpacket, or
    one that is not compressed. -/
def arqSeqAt (subpacket : Bool) : Bool :=
  hasArqSeq (opAt mem packet) &&
    (subpacket || mem (packet + 2) &&& PROTOCOL_FLAG_COMPRESSED == 0)

/-- How many bytes `init` reads. -/
def initBytes (subpacket : Bool) : Nat :=
  (if hasFlags subpacket (opAt mem packet) then 3 else 2) +
    if arqSeqAt mem packet subpacket then 2 else 0

/-- How much `init` takes off the length: the opcode, with flags also these and the checksum,
    and the sequence number. -/
def initOverhead (subpacket : Bool) : Nat :=
  (if hasFlags subpacket (opAt mem packet) then 5 else 2) +
    if arqSeqAt mem packet subpacket then 2 else 0

end

/-! ## What `init` needs -/

section
variable (strict : Bool) {n : Nat} (mem : Memory) (packet : Nat)

/-- Without flags the opcode alone tells. -/
theorem arqSeqAt_plain {subpacket : Bool} (h : hasFlags subpacket (opAt mem packet) = false) :
    arqSeqAt mem packet subpacket = hasArqSeq (opAt mem packet) := by
  cases subpacket with
  | true => simp [arqSeqAt]
  | false =>
      cases hs : hasArqSeq (opAt mem packet) with
      | false => simp [arqSeqAt, hs]
      | true => rw [hasFlags_of_arqSeq hs] at h; cases h

/-- A packet without flags, which a subpacket never has. -/
theorem init_allowed_plain (len : UInt32) (subpacket : Bool)
    (h : hasFlags subpacket (opAt mem packet) = false) :
    (EQProtocolPacket.init mem packet len subpacket).Allowed (Fine strict n) ↔
      packet + initBytes mem packet subpacket ≤ n ∧
        (strict = true → initOverhead mem packet subpacket ≤ len.toNat) := by
  have hseq := arqSeqAt_plain mem packet h
  have hminus := le_minus_iff len 2 2
  simp only [UInt32.toNat_ofNat, Nat.reducePow, Nat.reduceMod] at hminus
  unfold initBytes initOverhead
  rw [hseq]
  unfold opAt at h ⊢
  cases hs : hasArqSeq (ByteReader.be16 (mem (packet + 1)) (mem packet)) with
  | false => simp [EQProtocolPacket.init, EQProtocolPacket.lineUp, h, hs, hasCRC]
  | true =>
      simp [EQProtocolPacket.init, EQProtocolPacket.lineUp, h, hs, hasCRC]
      cases strict
      · simp
        omega
      · simp
        omega

/-- A packet whose opcode is split by its flags. -/
theorem init_allowed_app (len : UInt32) (h : IS_APP_OPCODE (opAt mem packet) = true) :
    (EQProtocolPacket.init mem packet len false).Allowed (Fine strict n) ↔
      packet + 3 ≤ n ∧ (strict = true → 5 ≤ len.toNat) := by
  have hflags := hasFlags_of_app h
  have hsplit : IS_APP_OPCODE (ByteReader.be16 (mem (packet + 2)) (mem packet)) = true := by
    rw [isAppOpcode_be16, ← isAppOpcode_be16 (mem (packet + 1))]
    exact h
  have hseq := app_not_hasArqSeq hsplit
  unfold opAt at h hflags
  simp [EQProtocolPacket.init, EQProtocolPacket.lineUp, flagsAndOp, h, hflags, hseq, hasCRC,
    hasFlags_of_app hsplit]
  have hlen := overhead_iff len 0
  cases strict
  · simp
    omega
  · simp at hlen ⊢
    omega

/-- A packet with flags whose opcode stands in front of them. -/
theorem init_allowed_net (len : UInt32) (hflags : hasFlags false (opAt mem packet) = true)
    (h : IS_APP_OPCODE (opAt mem packet) = false) :
    (EQProtocolPacket.init mem packet len false).Allowed (Fine strict n) ↔
      packet + (3 + if arqSeqAt mem packet false then 2 else 0) ≤ n ∧
        (strict = true → (5 + if arqSeqAt mem packet false then 2 else 0) ≤ len.toNat) := by
  have htakes : arqSeqAt mem packet false = true ↔ hasArqSeq (opAt mem packet) = true ∧
      mem (packet + 2) &&& PROTOCOL_FLAG_COMPRESSED = 0 := by
    simp [arqSeqAt]
  have hplain := overhead_iff len 0
  have hseq := overhead_iff len 2
  unfold opAt at h hflags htakes
  by_cases ht : arqSeqAt mem packet false = true
  · -- the sequence number is read and comes off as well
    obtain ⟨harq, hcompressed⟩ := htakes.mp ht
    simp [EQProtocolPacket.init, EQProtocolPacket.lineUp, flagsAndOp, h, hflags, hasCRC, harq,
      hcompressed, ht]
    cases strict
    · simp
      omega
    · simp at hseq ⊢
      omega
  · have hnot := mt htakes.mpr ht
    simp [EQProtocolPacket.init, EQProtocolPacket.lineUp, flagsAndOp, h, hflags, hasCRC, hnot, ht]
    cases strict
    · simp
      omega
    · simp at hplain ⊢
      omega

/-- What `init` reads of a packet, and what it takes off its length. -/
theorem init_allowed (len : UInt32) (subpacket : Bool) :
    (EQProtocolPacket.init mem packet len subpacket).Allowed (Fine strict n) ↔
      packet + initBytes mem packet subpacket ≤ n ∧
        (strict = true → initOverhead mem packet subpacket ≤ len.toNat) := by
  cases hflags : hasFlags subpacket (opAt mem packet) with
  | false => exact init_allowed_plain strict mem packet len subpacket hflags
  | true =>
      have hsub : subpacket = false := by
        cases subpacket with
        | false => rfl
        | true => cases hflags
      subst hsub
      unfold initBytes initOverhead
      simp only [hflags, if_true]
      cases happ : IS_APP_OPCODE (opAt mem packet) with
      | false => exact init_allowed_net strict mem packet len hflags happ
      | true =>
          have hseq : arqSeqAt mem packet false = false := by
            simp [arqSeqAt, app_not_hasArqSeq happ]
          simp only [hseq, Bool.false_eq_true, if_false]
          exact init_allowed_app strict mem packet len happ

/-- No byte in front of the packet is read. -/
def Behind (packet : Nat) : Access → Prop
  | .read address => packet ≤ address
  | .payloadMinus _ _ => True
  | _ => False

theorem lineUp_behind (len : UInt32) (subpacket : Bool) (netOp : UInt16) :
    (EQProtocolPacket.lineUp mem packet len subpacket netOp).Allowed (Behind packet) := by
  cases hflags : hasFlags subpacket netOp <;> cases happ : IS_APP_OPCODE netOp <;>
    simp [EQProtocolPacket.lineUp, flagsAndOp, hflags, happ, payloadMinus, byte, Behind]

/-- A packet that needs no `decode` has its payload at once, as long as the raw one. -/
theorem lineUp_decoded (len : UInt32) (subpacket : Bool) (netOp : UInt16)
    (h : (EQProtocolPacket.lineUp mem packet len subpacket netOp).val.m_bDecoded = true) :
    let p := (EQProtocolPacket.lineUp mem packet len subpacket netOp).val
    packet ≤ p.m_payload ∧ p.m_payloadLength = p.m_rawPayloadLength := by
  cases hflags : hasFlags subpacket netOp <;>
    simp_all [EQProtocolPacket.lineUp]

theorem init_behind (len : UInt32) (subpacket : Bool) :
    (EQProtocolPacket.init mem packet len subpacket).Allowed (Behind packet) := by
  have hop : (le16 mem packet).Allowed (Behind packet) := by
    simp [le16, byte, Behind]
  have hline := lineUp_behind mem packet len subpacket (le16 mem packet).val
  have hdec := lineUp_decoded mem packet len subpacket (le16 mem packet).val
  unfold EQProtocolPacket.init
  rw [Noted.allowed_bind, Noted.allowed_bind]
  refine ⟨hop, hline, ?_⟩
  split
  · rename_i hseq
    have hat := (hdec (by simpa using (Bool.and_eq_true_iff.mp hseq).2)).1
    simp only [be16, byte, payloadMinus, Behind, Noted.allowed_bind, Noted.allowed_note,
      Noted.allowed_pure, and_true]
    omega
  · exact Noted.allowed_pure _ _

end

/-! ## The constructor -/

/-- Memory with a copy of the packet at `own`. -/
def copyTo (mem : Memory) (own packet : Nat) (length : UInt32) : Memory := fun address =>
  if own ≤ address ∧ address < own + length.toNat then mem (packet + (address - own))
  else mem address

/-- The constructor. With `copy` the packet is copied to the address `new` returned, which is
    `own` here. -/
def EQProtocolPacket.ofData (mem : Memory) (packet : Nat) (length : UInt32) (own : Option Nat)
    (subpacket : Bool) : Noted Access EQProtocolPacket :=
  match own with
  | none => init mem packet length subpacket
  | some own => do
      -- `memcpy`
      note (.region packet length)
      init (copyTo mem own packet length) own length subpacket

/-- Reads of the `n` bytes of the packet, which `init` has at `base`, and no length below
    zero. -/
def InPayload (packet base : Nat) (n : UInt32) : Access → Prop
  | .read address => base ≤ address ∧ address < base + n.toNat
  | .minus a b => b ≤ a
  | .payloadMinus a b => b ≤ a
  | .region address length => packet ≤ address ∧ address + length.toNat ≤ packet + n.toNat

/-- The lengths of the payload that `init` computed. That of a compressed packet waits for
    `decode`. -/
def EQProtocolPacket.LengthsWithin (p : EQProtocolPacket) (n : UInt32) : Prop :=
  p.m_rawPayloadLength ≤ n ∧ (p.m_bDecoded = true → p.m_payloadLength ≤ n)

section
variable (mem : Memory) (packet : Nat) (n : UInt32) (subpacket : Bool) (base : Nat)

theorem init_inPayload :
    (EQProtocolPacket.init mem base n subpacket).Allowed (InPayload packet base n) ↔
      initOverhead mem base subpacket ≤ n.toNat := by
  have hfine := init_allowed true (n := base + n.toNat) mem base n subpacket
  have hbehind := init_behind mem base n subpacket
  have hbytes : initBytes mem base subpacket ≤ initOverhead mem base subpacket := by
    unfold initBytes initOverhead
    split <;> omega
  have heq : (EQProtocolPacket.init mem base n subpacket).Allowed (InPayload packet base n) ↔
      (EQProtocolPacket.init mem base n subpacket).Allowed (Fine true (base + n.toNat)) := by
    constructor
    · intro h e he
      have hin := h e he
      have hb := hbehind e he
      cases e with
      | read address => exact hin.2
      | payloadMinus a b => exact fun _ => hin
      | minus a b => exact hb.elim
      | region address length => exact hb.elim
    · intro h e he
      have hin := h e he
      have hb := hbehind e he
      cases e with
      | read address => exact ⟨hb, hin⟩
      | payloadMinus a b => exact hin rfl
      | minus a b => exact hb.elim
      | region address length => exact hb.elim
  rw [heq, hfine]
  constructor
  · rintro ⟨-, h⟩
    exact h rfl
  · intro h
    exact ⟨by omega, fun _ => h⟩

/-- Without an underflow the lengths are right. -/
theorem lineUp_length (netOp : UInt16)
    (h : (EQProtocolPacket.lineUp mem packet n subpacket netOp).Allowed (InPayload base packet n)) :
    (EQProtocolPacket.lineUp mem packet n subpacket netOp).val.m_rawPayloadLength ≤ n := by
  have hminus (a b : UInt32) : (payloadMinus a b).Allowed (InPayload base packet n) ↔ b ≤ a := by
    simp [payloadMinus, InPayload]
  have hsub {a b : UInt32} (ha : a ≤ n) (hb : b ≤ a) : a - b ≤ n :=
    UInt32.le_trans (UInt32.sub_le hb) ha
  cases hflags : hasFlags subpacket netOp with
  | true =>
      simp only [EQProtocolPacket.lineUp, hflags, if_true, Noted.allowed_bind, hminus,
        val_payloadMinus] at h ⊢
      obtain ⟨-, h2, h1, hcrc, -⟩ := h
      exact hsub (hsub (hsub (UInt32.le_refl n) h2) h1) hcrc
  | false =>
      simp only [EQProtocolPacket.lineUp, hflags, Bool.false_eq_true, if_false,
        Noted.allowed_bind, hminus, val_payloadMinus] at h ⊢
      obtain ⟨h2, hcrc, -⟩ := h
      exact hsub (hsub (UInt32.le_refl n) h2) hcrc

theorem init_lengths
    (h : (EQProtocolPacket.init mem packet n subpacket).Allowed (InPayload base packet n)) :
    (EQProtocolPacket.init mem packet n subpacket).val.LengthsWithin n := by
  have hdec := lineUp_decoded mem packet n subpacket (le16 mem packet).val
  unfold EQProtocolPacket.init at h ⊢
  rw [Noted.allowed_bind, Noted.allowed_bind] at h
  rw [Noted.val_bind, Noted.val_bind]
  obtain ⟨-, hline, hrest⟩ := h
  have hraw := lineUp_length mem packet n subpacket base _ hline
  split at hrest
  · rename_i hseq
    have hlen := (hdec (by simpa using (Bool.and_eq_true_iff.mp hseq).2)).2
    simp only [Noted.allowed_bind, payloadMinus, Noted.allowed_note] at hrest
    rw [if_pos hseq]
    refine ⟨hraw, fun _ => ?_⟩
    show _ - 2 ≤ n
    refine UInt32.le_trans (UInt32.sub_le hrest.2.1.1) ?_
    rw [hlen]
    exact hraw
  · rename_i hseq
    rw [if_neg hseq]
    refine ⟨hraw, fun hd => ?_⟩
    rw [Noted.val_pure, (hdec hd).2]
    exact hraw

/-- `initOverhead` asks for bytes that are there, or for more than are. -/
theorem initOverhead_congr (mem' : Memory)
    (h : ∀ i < n.toNat, mem' (base + i) = mem (packet + i)) :
    initOverhead mem' base subpacket ≤ n.toNat ↔ initOverhead mem packet subpacket ≤ n.toNat := by
  by_cases h2 : 2 ≤ n.toNat
  · have h0 := h 0 (by omega)
    have h1 := h 1 (by omega)
    have hop : opAt mem' base = opAt mem packet := by
      unfold opAt
      rw [h1]
      simpa using congrArg _ h0
    unfold initOverhead
    rw [hop]
    cases hflags : hasFlags subpacket (opAt mem packet) with
    | true =>
        by_cases h3 : 3 ≤ n.toNat
        · have hseq : arqSeqAt mem' base subpacket = arqSeqAt mem packet subpacket := by
            unfold arqSeqAt
            rw [hop, h 2 (by omega)]
          rw [hseq]
        · simp
          omega
    | false =>
        have hseq : arqSeqAt mem' base subpacket = arqSeqAt mem packet subpacket := by
          rw [arqSeqAt_plain mem packet hflags,
            arqSeqAt_plain mem' base (by rw [hop]; exact hflags), hop]
        rw [hseq]
  · unfold initOverhead
    constructor <;> intro hle <;> split at hle <;> omega

/-- The constructor reads inside the packet and its lengths stay below the packet's exactly
    when the packet is as long as what `init` takes off. -/
theorem EQProtocolPacket.inside_iff (own : Option Nat) :
    (ofData mem packet n own subpacket).Allowed (InPayload packet (own.getD packet) n) ∧
        (ofData mem packet n own subpacket).val.LengthsWithin n ↔
      initOverhead mem packet subpacket ≤ n.toNat := by
  have hinit (mem' : Memory) (base : Nat) :
      (init mem' base n subpacket).Allowed (InPayload packet base n) ∧
          (init mem' base n subpacket).val.LengthsWithin n ↔
        initOverhead mem' base subpacket ≤ n.toNat := by
    rw [← init_inPayload mem' packet n subpacket base]
    exact and_iff_left_of_imp (init_lengths mem' base n subpacket packet)
  cases own with
  | none => exact hinit mem packet
  | some own =>
      have hcopy : ∀ i < n.toNat, copyTo mem own packet n (own + i) = mem (packet + i) := by
        intro i hi
        have hat : own ≤ own + i ∧ own + i < own + n.toNat := by omega
        rw [copyTo, if_pos hat, Nat.add_sub_cancel_left]
      have hmemcpy : InPayload packet own n (.region packet n) := ⟨Nat.le_refl _, Nat.le_refl _⟩
      rw [← initOverhead_congr mem packet n subpacket own _ hcopy, ← hinit]
      simp [ofData, hmemcpy]

end

/-! ## A packet that is too short -/

/-- `OP_Combined` and its flags. -/
def shortCombined : Memory := fun address => if address = 1 then 3 else 0

example : (EQProtocolPacket.init shortCombined 0 3 false).val.m_payloadLength = 4294967294 := by
  decide

/-- There are packets that are too short. -/
theorem EQProtocolPacket.combined_outside :
    ¬ ((ofData shortCombined 0 3 none false).Allowed (InPayload 0 0 3) ∧
        (ofData shortCombined 0 3 none false).val.LengthsWithin 3) := by
  intro h
  have hle : (4294967294 : UInt32) ≤ 3 := h.2.2 (by decide)
  exact absurd hle (by decide)

end ShoweqDaemon.Capture
