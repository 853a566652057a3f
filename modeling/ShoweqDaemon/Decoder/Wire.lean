/-
  The wire format of an EQMac OldStream packet, as `EQMacDecoder::process` reads it.

  `arqFields` is the part of `process` up to the retransmit filter: the header bits, the
  optional fields in front of `dwARQ`, and `dwARQ`. `bodyFields` is the part after the
  filter: fragment info, ASQ, closing pair, opcode, payload. Each early return of the source is an
  `Exit` of its own. `overread` is the exit of a read past the end of the buffer, which the
  source has no check for.

  `Framing` and `encode` lay a packet out in the order of the wire-shape comment of
  eqmac_decoder.h. `arqFields_encode` and `bodyFields_encode`: what was laid out is what is
  read back.
-/
import ShoweqDaemon.Lib.ByteReader

namespace ShoweqDaemon.Decoder

open ByteReader

/-! ## Header bits -/

/-- How one call of `process` ends: at one of its early returns, named by what is missing or wrong
    there, or with a piece or a message accepted. -/
inductive Exit where
  | tooShort
  | shortARSP
  | shortUnknown
  | shortAck
  | shortARQ
  | retransmit
  | shortFragInfo
  | shortASQ
  | closing
  | noRoom
  | shortOpcode
  | shortCRC
  | zeroTotal
  | pastTotal
  | duplicate
  | pending
  | complete
  | noOpcode
  | single
  | overread
  deriving DecidableEq, Repr

/-- `(x >> k) & 1`. -/
def bit (x : UInt8) (k : Nat) : Bool := x.toNat.testBit k

/-- `HDR_INFO`, the first two bytes of a packet, as LSB-first bit fields. The bits that the decoder
    does not look at are left out. -/
structure HdrInfo where
  a1_ARQ : Bool
  a2_Closing : Bool
  a3_Fragment : Bool
  a4_ASQ : Bool
  a6_Closing : Bool
  b2_ARSP : Bool
  b3_Unknown : Bool
  b4_size : Nat
  deriving DecidableEq, Repr

/-- The flags in the first two bytes, the lowest bit first. The size of the acknowledgements is the
    upper half of the second byte. -/
def hdrInfo (a b : UInt8) : HdrInfo where
  a1_ARQ := bit a 1
  a2_Closing := bit a 2
  a3_Fragment := bit a 3
  a4_ASQ := bit a 4
  a6_Closing := bit a 6
  b2_ARSP := bit b 2
  b3_Unknown := bit b 3
  b4_size := (bit b 4).toNat ||| (bit b 5).toNat <<< 1 ||| (bit b 6).toNat <<< 2 |||
    (bit b 7).toNat <<< 3

/-- The length of the checksum at the end. -/
def kCrcTrailerLen : Nat := 4

/-- Length of the ASQ field: two bytes along with `dwARQ`, one byte without. -/
def HdrInfo.asqLen (hdr : HdrInfo) : Nat :=
  if hdr.a4_ASQ && hdr.a1_ARQ then 2 else if hdr.a4_ASQ then 1 else 0

/-! ## Reading -/

/-- What `process` knows when it reaches the retransmit filter. -/
structure ArqFields where
  hdr : HdrInfo
  off : Nat
  /-- `none` is `haveARQ == false`. -/
  dwARQ : Option UInt16
  deriving DecidableEq, Repr

/-- `process` up to and including `dwARQ`: the optional fields in front of it are skipped one after
    the other, and each has its own return where the packet is too short for it. -/
def arqFields (buf : List UInt8) : Except Exit ArqFields := do
  let len := buf.length
  if len < 10 then throw .tooShort
  let a ← readU8 .overread buf 0
  let b ← readU8 .overread buf 1
  let hdr := hdrInfo a b
  -- past HDR (2) + dwSEQ (2)
  let off ← skip .shortARSP hdr.b2_ARSP 2 len 4
  let off ← skip .shortUnknown hdr.b3_Unknown 2 len off
  let off ← skip .shortAck (hdr.b4_size != 0) hdr.b4_size len off
  let end_ ← skip .shortARQ hdr.a1_ARQ 2 len off
  if hdr.a1_ARQ then
    let dwARQ ← readBE16 .overread buf off
    pure { hdr, off := end_, dwARQ := some dwARQ }
  else pure { hdr, off := end_, dwARQ := none }

/-- The fragment header: the sequence number of the message, the place of the piece, and how many
    there are. -/
structure FragInfo where
  fragSeq : UInt16
  fragCurr : UInt16
  fragTotal : UInt16
  deriving DecidableEq, Repr

/-- What `process` hands to the fragment table or to the callback. -/
structure Body where
  /-- `none` for a packet without `a3_Fragment`. -/
  frag : Option FragInfo
  opcode : UInt16
  payload : List UInt8
  deriving DecidableEq, Repr

/-- The fraginfo fields, with the offset behind them. -/
def fragFields (buf : List UInt8) (p : ArqFields) : Except Exit (Option FragInfo × Nat) := do
  let off ← skip .shortFragInfo p.hdr.a3_Fragment 6 buf.length p.off
  if p.hdr.a3_Fragment then
    let fragSeq ← readBE16 .overread buf p.off
    let fragCurr ← readBE16 .overread buf (p.off + 2)
    let fragTotal ← readBE16 .overread buf (p.off + 4)
    pure (some { fragSeq, fragCurr, fragTotal }, off)
  else pure (none, off)

/-- The opcode travels on the first fragment and on unfragmented packets only. -/
def hasOpcode (frag : Option FragInfo) : Bool :=
  match frag with
  | some f => f.fragCurr == 0
  | none => true

/-- `process` behind the retransmit filter, up to the payload. -/
def bodyFields (buf : List UInt8) (p : ArqFields) : Except Exit Body := do
  let len := buf.length
  let (frag, off) ← fragFields buf p
  let off ← skip .shortASQ p.hdr.a4_ASQ p.hdr.asqLen len off
  if p.hdr.a2_Closing && p.hdr.a6_Closing then throw .closing
  if len ≤ off + kCrcTrailerLen then throw .noRoom
  let body ← skip .shortOpcode (hasOpcode frag) 2 len off
  let opcode ← if hasOpcode frag then readBE16 .overread buf off else pure 0
  if len < body + kCrcTrailerLen then throw .shortCRC
  pure { frag, opcode, payload := (buf.drop body).take (len - body - kCrcTrailerLen) }

/-! ## What the readers satisfy -/

/-- The header of the buffer, zero bits where there is none. -/
def headerOf (buf : List UInt8) : HdrInfo := hdrInfo (buf.getD 0 0) (buf.getD 1 0)

/-- The offset behind `dwARQ` that the header announces. -/
def HdrInfo.arqEnd (hdr : HdrInfo) : Nat :=
  4 + (if hdr.b2_ARSP then 2 else 0) + (if hdr.b3_Unknown then 2 else 0) + hdr.b4_size +
    (if hdr.a1_ARQ then 2 else 0)

/-- `process` gets as far as the retransmit filter. -/
def ReachesFilter (buf : List UInt8) : Prop := 10 ≤ buf.length ∧ (headerOf buf).arqEnd ≤ buf.length

instance (buf : List UInt8) : Decidable (ReachesFilter buf) := instDecidableAnd

/-- The early returns in front of the filter. -/
def Exit.beforeFilter (e : Exit) : Prop :=
  e = .tooShort ∨ e = .shortARSP ∨ e = .shortUnknown ∨ e = .shortAck ∨ e = .shortARQ

/-- The early returns of the parser behind the filter. -/
def Exit.behindFilter (e : Exit) : Prop :=
  e = .shortFragInfo ∨ e = .shortASQ ∨ e = .closing ∨ e = .noRoom ∨ e = .shortOpcode ∨
    e = .shortCRC

theorem arqFields_meets (buf : List UInt8) :
    Meets (arqFields buf) (fun e => e.beforeFilter ∧ ¬ ReachesFilter buf) (fun p =>
      ReachesFilter buf ∧ p.hdr = headerOf buf ∧ p.off = (headerOf buf).arqEnd ∧
        p.dwARQ.isSome = (headerOf buf).a1_ARQ) := by
  unfold arqFields ReachesFilter
  refine meets_ite (fun hlen => meets_throw_bind ⟨Or.inl rfl, by omega⟩) (fun hlen => ?_)
  refine meets_bind (meets_readU8 (by omega)) ?_
  rintro a rfl
  refine meets_bind (meets_readU8 (by omega)) ?_
  rintro b rfl
  have hhdr : hdrInfo (buf.getD 0 0) (buf.getD 1 0) = headerOf buf := rfl
  simp only [hhdr, HdrInfo.arqEnd]
  generalize headerOf buf = hdr
  have hack : (if (hdr.b4_size != 0) = true then hdr.b4_size else 0) = hdr.b4_size := by
    by_cases h0 : hdr.b4_size = 0 <;> simp [h0]
  -- the offset never passes what the header announces
  refine meets_bind (meets_skip fun hb hlt => ⟨by simp [Exit.beforeFilter], ?_⟩) ?_
  · simp only [hb, if_true]
    omega
  rintro off₁ ⟨rfl, hoff₁⟩
  refine meets_bind (meets_skip fun hb hlt => ⟨by simp [Exit.beforeFilter], ?_⟩) ?_
  · simp only [hb, if_true]
    omega
  rintro off₂ ⟨rfl, hoff₂⟩
  refine meets_bind (meets_skip fun hb hlt => ⟨by simp [Exit.beforeFilter], by omega⟩) ?_
  rintro off₃ ⟨rfl, hoff₃⟩
  rw [hack] at hoff₃ ⊢
  refine meets_bind (meets_skip fun hb hlt => ⟨by simp [Exit.beforeFilter], ?_⟩) ?_
  · simp only [hb, if_true]
    omega
  rintro off₄ ⟨rfl, hoff₄⟩
  have hreach := hoff₄ (hoff₃ (hoff₂ (hoff₁ (by omega))))
  cases ha : hdr.a1_ARQ with
  | false => exact ⟨⟨by omega, by simpa [ha] using hreach⟩, rfl, by simp, rfl⟩
  | true =>
      simp only [ha, if_true] at hreach ⊢
      exact meets_bind (meets_readBE16 hreach) (fun d _ => ⟨⟨by omega, hreach⟩, rfl, rfl, rfl⟩)

theorem fragFields_meets (buf : List UInt8) (p : ArqFields) (hoff : p.off ≤ buf.length) :
    Meets (fragFields buf p) Exit.behindFilter (fun r => r.2 ≤ buf.length ∧
      r.1.isSome = p.hdr.a3_Fragment) := by
  unfold fragFields
  refine meets_bind (meets_skip fun _ _ => Or.inl rfl) ?_
  rintro off ⟨rfl, hend⟩
  have hend := hend hoff
  cases ha : p.hdr.a3_Fragment with
  | false => exact ⟨by simpa [ha] using hend, rfl⟩
  | true =>
      simp only [ha, if_true] at hend ⊢
      refine meets_bind (meets_readBE16 (by omega)) (fun _ _ => ?_)
      refine meets_bind (meets_readBE16 (by omega)) (fun _ _ => ?_)
      exact meets_bind (meets_readBE16 (by omega)) (fun _ _ => ⟨hend, rfl⟩)

theorem bodyFields_meets (buf : List UInt8) (p : ArqFields) (hoff : p.off ≤ buf.length) :
    Meets (bodyFields buf p) Exit.behindFilter (fun body =>
      body.frag.isSome = p.hdr.a3_Fragment) := by
  unfold bodyFields
  refine meets_bind (fragFields_meets buf p hoff) ?_
  rintro ⟨frag, off⟩ ⟨hoff, hfrag⟩
  refine meets_bind (meets_skip fun _ _ => Or.inr (Or.inl rfl)) ?_
  rintro off' ⟨-, hoff'⟩
  have hoff' := hoff' hoff
  refine meets_ite (fun _ => meets_throw_bind (by simp [Exit.behindFilter])) (fun _ => ?_)
  refine meets_ite (fun _ => meets_throw_bind (by simp [Exit.behindFilter])) (fun _ => ?_)
  refine meets_bind (meets_skip fun _ _ => by simp [Exit.behindFilter]) ?_
  rintro body ⟨rfl, hbody⟩
  have hbody := hbody hoff'
  refine meets_ite (fun hop => ?_) (fun _ => ?_)
  · rw [if_pos hop] at hbody
    refine meets_bind (meets_readBE16 hbody) (fun opcode _ => ?_)
    exact meets_ite (fun _ => meets_throw_bind (by simp [Exit.behindFilter])) (fun _ => hfrag)
  · refine meets_bind (P := fun _ => True) (meets_pure trivial) (fun opcode _ => ?_)
    exact meets_ite (fun _ => meets_throw_bind (by simp [Exit.behindFilter])) (fun _ => hfrag)

/-! ## Laying out -/

/-- A packet without its message part. The bits of `a` and `b` that `hdrInfo` does not read,
    `dwSEQ`, the acknowledgement fields and the trailer are arbitrary. -/
structure Framing where
  a : UInt8
  b : UInt8
  dwSEQ : List UInt8
  dwARSP : List UInt8
  b3ARSP : List UInt8
  ack_fields : List UInt8
  dwARQ : UInt16
  dbASQ : List UInt8
  crc : List UInt8
  dwSEQ_len : dwSEQ.length = 2
  dwARSP_len : dwARSP.length = if (hdrInfo a b).b2_ARSP then 2 else 0
  b3ARSP_len : b3ARSP.length = if (hdrInfo a b).b3_Unknown then 2 else 0
  ack_len : ack_fields.length = (hdrInfo a b).b4_size
  dbASQ_len : dbASQ.length = (hdrInfo a b).asqLen
  crc_len : crc.length = kCrcTrailerLen
  not_closing : ((hdrInfo a b).a2_Closing && (hdrInfo a b).a6_Closing) = false

namespace Framing

/-- No optional field but those of the flags `a`, which must not ask for `dbASQ`. -/
def bare (a : UInt8) (dwARQ : UInt16) (dbASQ_len : (hdrInfo a 0).asqLen = 0)
    (not_closing : ((hdrInfo a 0).a2_Closing && (hdrInfo a 0).a6_Closing) = false) : Framing where
  a
  b := 0
  dwSEQ := [0, 0]
  dwARSP := []
  b3ARSP := []
  ack_fields := []
  dwARQ
  dbASQ := []
  crc := [0, 0, 0, 0]
  dwSEQ_len := rfl
  dwARSP_len := rfl
  b3ARSP_len := rfl
  ack_len := rfl
  dbASQ_len := dbASQ_len.symm
  crc_len := rfl
  not_closing := not_closing

/-- The flags of a framing. -/
def hdr (f : Framing) : HdrInfo := hdrInfo f.a f.b

/-- `dwARQ` as `process` sees it. -/
def arq (f : Framing) : Option UInt16 := if f.hdr.a1_ARQ then some f.dwARQ else none

/-- The bytes in front of `dwARQ`. -/
def lead (f : Framing) : List UInt8 :=
  [f.a, f.b] ++ f.dwSEQ ++ f.dwARSP ++ f.b3ARSP ++ f.ack_fields

/-- The bytes of `dwARQ`. -/
def arqBytes (f : Framing) : List UInt8 := if f.hdr.a1_ARQ then toBE16 f.dwARQ else []

end Framing

/-- The fragment header on the wire. -/
def fragBytes : Option FragInfo → List UInt8
  | some i => toBE16 i.fragSeq ++ (toBE16 i.fragCurr ++ toBE16 i.fragTotal)
  | none => []

/-- The opcode on the wire; only the first piece has it. -/
def opcodeBytes (frag : Option FragInfo) (opcode : UInt16) : List UInt8 :=
  if hasOpcode frag then toBE16 opcode else []

/-- The packet of framing `f` with fragment info `frag`, opcode and payload. -/
def encode (f : Framing) (frag : Option FragInfo) (opcode : UInt16) (payload : List UInt8) :
    List UInt8 :=
  f.lead ++ (f.arqBytes ++ (fragBytes frag ++ (f.dbASQ ++
    (opcodeBytes frag opcode ++ (payload ++ f.crc)))))

/-! ## Reading back what was laid out -/

namespace Framing

theorem lead_length (f : Framing) :
    f.lead.length = 4 + f.dwARSP.length + f.b3ARSP.length + f.ack_fields.length := by
  simp only [lead, List.length_append, List.length_cons, List.length_nil, f.dwSEQ_len]

theorem arqBytes_length (f : Framing) :
    f.arqBytes.length = if f.hdr.a1_ARQ then 2 else 0 := by
  unfold arqBytes
  split <;> rfl

theorem dbASQ_length (f : Framing) :
    f.dbASQ.length = if f.hdr.a4_ASQ then f.hdr.asqLen else 0 := by
  have h : f.dbASQ.length = f.hdr.asqLen := f.dbASQ_len
  rw [h]
  unfold HdrInfo.asqLen
  cases f.hdr.a4_ASQ <;> simp

end Framing

theorem fragBytes_length (frag : Option FragInfo) :
    (fragBytes frag).length = if frag.isSome then 6 else 0 := by
  cases frag <;> rfl

theorem opcodeBytes_length (frag : Option FragInfo) (opcode : UInt16) :
    (opcodeBytes frag opcode).length = if hasOpcode frag then 2 else 0 := by
  unfold opcodeBytes
  split <;> rfl

theorem encode_length (f : Framing) (frag : Option FragInfo) (opcode : UInt16)
    (payload : List UInt8) :
    (encode f frag opcode payload).length = f.lead.length + f.arqBytes.length +
      (fragBytes frag).length + f.dbASQ.length + (opcodeBytes frag opcode).length +
      payload.length + 4 := by
  simp only [encode, List.length_append, f.crc_len, kCrcTrailerLen]
  omega

theorem ten_le_encode_length (f : Framing) (frag : Option FragInfo) (opcode : UInt16)
    (payload : List UInt8) : 10 ≤ (encode f frag opcode payload).length := by
  rw [encode_length, f.lead_length, fragBytes_length, opcodeBytes_length]
  cases frag with
  | none => simp [hasOpcode]; omega
  | some i => simp; omega

/-- The field in front of `dwARQ` ends where `lead` does, whatever follows. -/
theorem arqFields_lead (f : Framing) (rest : List UInt8)
    (hlen : 10 ≤ (f.lead ++ (f.arqBytes ++ rest)).length) :
    arqFields (f.lead ++ (f.arqBytes ++ rest)) =
      .ok { hdr := f.hdr, off := f.lead.length + f.arqBytes.length, dwARQ := f.arq } := by
  set buf := f.lead ++ (f.arqBytes ++ rest) with hbuf
  have hbuflen : buf.length = f.lead.length + f.arqBytes.length + rest.length := by
    simp only [hbuf, List.length_append]
    omega
  have hlead := f.lead_length
  have h0 : readU8 Exit.overread buf 0 = .ok f.a := rfl
  have h1 : readU8 Exit.overread buf 1 = .ok f.b := rfl
  have hack : f.ack_fields.length =
      if f.hdr.b4_size != 0 then f.hdr.b4_size else 0 := by
    have h : f.ack_fields.length = f.hdr.b4_size := f.ack_len
    by_cases h0 : f.hdr.b4_size = 0 <;> simp [h, h0]
  have hARSP := skip_of_length Exit.shortARSP buf.length 4 f.dwARSP_len (by omega)
  have hUnknown := skip_of_length Exit.shortUnknown buf.length (4 + f.dwARSP.length) f.b3ARSP_len
    (by omega)
  have hAck := skip_of_length Exit.shortAck buf.length
    (4 + f.dwARSP.length + f.b3ARSP.length) hack (by omega)
  have hARQ := skip_of_length Exit.shortARQ buf.length
    (4 + f.dwARSP.length + f.b3ARSP.length + f.ack_fields.length) f.arqBytes_length
    (by omega)
  rw [← hlead] at hARQ hAck
  simp only [Framing.hdr] at hARQ hAck
  simp only [arqFields, if_neg (Nat.not_lt.mpr hlen), h0, h1, ok_bind, hARSP, hUnknown,
    hAck, hARQ]
  cases ha : (hdrInfo f.a f.b).a1_ARQ with
  | false => simp [Framing.arq, Framing.hdr, ha]; rfl
  | true =>
      have hread : readBE16 Exit.overread buf f.lead.length = .ok f.dwARQ := by
        have hbytes : f.arqBytes = toBE16 f.dwARQ := by simp [Framing.arqBytes, Framing.hdr, ha]
        rw [hbuf, hbytes]
        exact readBE16_append _ _ _ _
      simp [Framing.arq, Framing.hdr, ha, hread]

theorem arqFields_encode (f : Framing) (frag : Option FragInfo) (opcode : UInt16)
    (payload : List UInt8) :
    arqFields (encode f frag opcode payload) =
      .ok { hdr := f.hdr, off := f.lead.length + f.arqBytes.length, dwARQ := f.arq } :=
  arqFields_lead f _ (ten_le_encode_length f frag opcode payload)

/-- The fields of a fragment info are read back at its offset. -/
theorem fragFields_append (hdr : HdrInfo) (dwARQ : Option UInt16) (frag : Option FragInfo)
    (pre rest : List UInt8) (hfrag : hdr.a3_Fragment = frag.isSome) :
    fragFields (pre ++ (fragBytes frag ++ rest)) { hdr, off := pre.length, dwARQ } =
      .ok (frag, pre.length + (fragBytes frag).length) := by
  have hlen : (fragBytes frag).length = if hdr.a3_Fragment then 6 else 0 := by
    rw [hfrag, fragBytes_length]
  have hskip := skip_of_length Exit.shortFragInfo (pre ++ (fragBytes frag ++ rest)).length
    pre.length hlen (by simp only [List.length_append]; omega)
  simp only [fragFields, hskip, ok_bind]
  cases frag with
  | none =>
      have hflag : hdr.a3_Fragment = false := hfrag
      simp [hflag]
      rfl
  | some i =>
      have hseq : readBE16 Exit.overread (pre ++ (fragBytes (some i) ++ rest)) pre.length =
          .ok i.fragSeq := by
        have h := readBE16_append Exit.overread pre
          (toBE16 i.fragCurr ++ (toBE16 i.fragTotal ++ rest)) i.fragSeq
        simpa [fragBytes] using h
      have hcurr : readBE16 Exit.overread (pre ++ (fragBytes (some i) ++ rest))
          (pre.length + 2) = .ok i.fragCurr := by
        have h := readBE16_append Exit.overread (pre ++ toBE16 i.fragSeq)
          (toBE16 i.fragTotal ++ rest) i.fragCurr
        simpa [fragBytes] using h
      have htotal : readBE16 Exit.overread (pre ++ (fragBytes (some i) ++ rest))
          (pre.length + 4) = .ok i.fragTotal := by
        have h := readBE16_append Exit.overread (pre ++ (toBE16 i.fragSeq ++ toBE16 i.fragCurr))
          rest i.fragTotal
        simpa [fragBytes] using h
      have hflag : hdr.a3_Fragment = true := hfrag
      simp [hflag, hseq, hcurr, htotal]

/-- What is laid out behind `dwARQ` is what `bodyFields` reads. The source turns away a
    packet with nothing between ASQ and trailer, so a later fragment must not be empty. -/
theorem bodyFields_encode (f : Framing) (frag : Option FragInfo) (opcode : UInt16)
    (payload : List UInt8) (hfrag : f.hdr.a3_Fragment = frag.isSome)
    (hbody : hasOpcode frag = true ∨ payload ≠ []) :
    bodyFields (encode f frag opcode payload)
        { hdr := f.hdr, off := f.lead.length + f.arqBytes.length, dwARQ := f.arq } =
      .ok { frag, opcode := if hasOpcode frag then opcode else 0, payload } := by
  set buf := encode f frag opcode payload with hbuf
  have hlen := encode_length f frag opcode payload
  rw [← hbuf] at hlen
  have hread := fragFields_append f.hdr f.arq frag (f.lead ++ f.arqBytes)
    (f.dbASQ ++ (opcodeBytes frag opcode ++ (payload ++ f.crc))) hfrag
  have happ : (f.lead ++ f.arqBytes) ++ (fragBytes frag ++ (f.dbASQ ++
      (opcodeBytes frag opcode ++ (payload ++ f.crc)))) = buf := by
    simp [hbuf, encode]
  rw [happ, List.length_append] at hread
  have hASQ := skip_of_length Exit.shortASQ buf.length
    (f.lead.length + f.arqBytes.length + (fragBytes frag).length) f.dbASQ_length (by omega)
  have hOpcode := skip_of_length Exit.shortOpcode buf.length
    (f.lead.length + f.arqBytes.length + (fragBytes frag).length + f.dbASQ.length)
    (opcodeBytes_length frag opcode) (by omega)
  have hclosing : (f.hdr.a2_Closing && f.hdr.a6_Closing) = false := f.not_closing
  have hroom : ¬ buf.length ≤ f.lead.length + f.arqBytes.length + (fragBytes frag).length +
      f.dbASQ.length + kCrcTrailerLen := by
    have hpos : 0 < (opcodeBytes frag opcode).length + payload.length := by
      rcases hbody with h | h
      · rw [opcodeBytes_length, if_pos h]
        omega
      · have := List.length_pos_iff.mpr h
        omega
    simp only [kCrcTrailerLen]
    omega
  have hcrc : ¬ buf.length < f.lead.length + f.arqBytes.length + (fragBytes frag).length +
      f.dbASQ.length + (opcodeBytes frag opcode).length + kCrcTrailerLen := by
    simp only [kCrcTrailerLen]
    omega
  have hpayload : (buf.drop (f.lead.length + f.arqBytes.length + (fragBytes frag).length +
      f.dbASQ.length + (opcodeBytes frag opcode).length)).take (buf.length -
        (f.lead.length + f.arqBytes.length + (fragBytes frag).length + f.dbASQ.length +
          (opcodeBytes frag opcode).length) - kCrcTrailerLen) = payload := by
    have hsplit : buf = (f.lead ++ f.arqBytes ++ fragBytes frag ++ f.dbASQ ++
        opcodeBytes frag opcode) ++ (payload ++ f.crc) := by
      simp [hbuf, encode]
    have hpre : f.lead.length + f.arqBytes.length + (fragBytes frag).length + f.dbASQ.length +
        (opcodeBytes frag opcode).length = (f.lead ++ f.arqBytes ++ fragBytes frag ++ f.dbASQ ++
          opcodeBytes frag opcode).length := by
      simp only [List.length_append]
    have hcount : buf.length - (f.lead.length + f.arqBytes.length + (fragBytes frag).length +
        f.dbASQ.length + (opcodeBytes frag opcode).length) - kCrcTrailerLen = payload.length := by
      simp only [kCrcTrailerLen]
      omega
    rw [hcount, hpre, hsplit, List.drop_left, List.take_left]
  simp only [bodyFields, hread, ok_bind, hASQ, hclosing, Bool.false_eq_true, if_false,
    if_neg hroom, hOpcode, if_neg hcrc, hpayload]
  cases hop : hasOpcode frag with
  | false => simp; rfl
  | true =>
      have hopcode : readBE16 Exit.overread buf (f.lead.length + f.arqBytes.length +
          (fragBytes frag).length + f.dbASQ.length) = .ok opcode := by
        have h := readBE16_append Exit.overread (f.lead ++ f.arqBytes ++ fragBytes frag ++ f.dbASQ)
          (payload ++ f.crc) opcode
        have hopb : opcodeBytes frag opcode = toBE16 opcode := by simp [opcodeBytes, hop]
        rw [hbuf, encode, hopb]
        simpa [Nat.add_assoc] using h
      simp [hopcode]

/-- A later fragment without payload is turned away. -/
theorem bodyFields_encode_empty (f : Framing) (frag : Option FragInfo) (opcode : UInt16)
    (hfrag : f.hdr.a3_Fragment = frag.isSome) (hop : hasOpcode frag = false) :
    bodyFields (encode f frag opcode [])
        { hdr := f.hdr, off := f.lead.length + f.arqBytes.length, dwARQ := f.arq } =
      .error .noRoom := by
  set buf := encode f frag opcode [] with hbuf
  have hlen := encode_length f frag opcode []
  rw [← hbuf, opcodeBytes_length, hop] at hlen
  have hread := fragFields_append f.hdr f.arq frag (f.lead ++ f.arqBytes)
    (f.dbASQ ++ (opcodeBytes frag opcode ++ ([] ++ f.crc))) hfrag
  have happ : (f.lead ++ f.arqBytes) ++ (fragBytes frag ++ (f.dbASQ ++
      (opcodeBytes frag opcode ++ ([] ++ f.crc)))) = buf := by
    simp [hbuf, encode]
  rw [happ, List.length_append] at hread
  have hASQ := skip_of_length Exit.shortASQ buf.length
    (f.lead.length + f.arqBytes.length + (fragBytes frag).length) f.dbASQ_length
    (by simp at hlen; omega)
  have hclosing : (f.hdr.a2_Closing && f.hdr.a6_Closing) = false := f.not_closing
  have hroom : buf.length ≤ f.lead.length + f.arqBytes.length + (fragBytes frag).length +
      f.dbASQ.length + kCrcTrailerLen := by
    simp only [kCrcTrailerLen]
    simp at hlen
    omega
  simp only [bodyFields, hread, ok_bind, hASQ, hclosing, Bool.false_eq_true, if_false,
    if_pos hroom]
  rfl

end ShoweqDaemon.Decoder
