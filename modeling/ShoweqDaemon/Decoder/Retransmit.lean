/-
  The retransmit filter over whole runs.

  `accepted` are the `dwARQ` values that pass the filter. Each lies 1 to 32767 ahead of the one
  before it, modulo 2^16 (`accepted_isChain`), and the mark is the last of them
  (`feed_lastArq`). `retransmit_filter` draws the consequences: no number is accepted twice within
  one turn of the counter, and a packet re-sent within half a turn is dropped.

  The filter keeps one mark, so it drops what is older than the mark as well as what it has
  seen. `deliveries_records`: out of packets whose numbers span less than half a turn, the
  callback gets those that are ahead of everything delivered before them.
-/
import Mathlib.Data.List.Chain
import Mathlib.Data.List.ReduceOption
import ShoweqDaemon.Lib.Serial
import ShoweqDaemon.Decoder.Process

namespace ShoweqDaemon.Decoder

/-! ## Accepted numbers -/

/-- The `dwARQ` values that pass the filter in a run, in order. -/
def accepted (s : EQMacDecoder) (bufs : List (List UInt8)) : List UInt16 :=
  (Machine.outputs processStep acceptedArq s bufs).reduceOption

/-- The sum of the differences modulo 2^16 along `a :: l`. -/
def summedDifferences : UInt16 → List UInt16 → Nat
  | _, [] => 0
  | a, b :: l => (b - a).toNat + summedDifferences b l

/-- `b` is 1 to 32767 ahead of `a`. -/
def AheadOf (a b : UInt16) : Prop := 1 ≤ (b - a).toNat ∧ (b - a).toNat ≤ 32767

theorem sub_toNat (a b : UInt16) : (b - a).toNat = Serial.ahead 65536 a.toNat b.toNat := by
  have ha : a.toNat < 65536 := a.toNat_lt
  rw [UInt16.toNat_sub, Serial.ahead, Nat.mod_eq_of_lt ha, Nat.add_comm]

theorem summedDifferences_eq (a : UInt16) (l : List UInt16) :
    summedDifferences a l = Serial.climb 65536 a.toNat (l.map UInt16.toNat) := by
  induction l generalizing a with
  | nil => rfl
  | cons b l ih => rw [summedDifferences, List.map_cons, Serial.climb, ih, sub_toNat]

theorem getLastD_map_toNat (a : UInt16) (l : List UInt16) :
    (l.map UInt16.toNat).getLastD a.toNat = (l.getLastD a).toNat := by
  induction l generalizing a with
  | nil => rfl
  | cons b l ih => rw [List.map_cons, List.getLastD_cons, List.getLastD_cons, ih]

/-- Below one turn the summed differences are the difference of the ends. -/
theorem sub_getLastD (a : UInt16) (l : List UInt16) (h : summedDifferences a l < 65536) :
    (l.getLastD a - a).toNat = summedDifferences a l := by
  rw [summedDifferences_eq] at h ⊢
  rw [sub_toNat, ← getLastD_map_toNat]
  exact Serial.ahead_eq_climb (by decide) _ _ h

theorem ofInt_toNat (d : UInt16) : UInt16.ofInt (d.toNat : Int) = d := by
  apply UInt16.toNat_inj.mp
  have hd := d.toNat_lt
  simp only [UInt16.ofInt, UInt16.toNat_ofNat']
  omega

theorem acceptedArq_aheadOf {s : EQMacDecoder} {buf : List UInt8} {d : UInt16}
    (h : acceptedArq s buf = some d) :
    s.m_lastArq < 0 ∨ AheadOf (UInt16.ofInt s.m_lastArq) d := by
  obtain ⟨-, hpass⟩ := Option.filter_eq_some_iff.mp h
  obtain ⟨m, hm⟩ := Option.isSome_iff_exists.mp hpass
  exact ((arqFilter_eq_some_iff _ _ _).mp hm).2

theorem accepted_cons (s : EQMacDecoder) (buf : List UInt8) (bufs : List (List UInt8)) :
    accepted s (buf :: bufs) =
      (acceptedArq s buf).toList ++ accepted (processStep s buf) bufs := by
  cases h : acceptedArq s buf <;> simp [accepted, Machine.outputs, h]

theorem processStep_lastArq (s : EQMacDecoder) (buf : List UInt8) :
    (processStep s buf).m_lastArq =
      ((acceptedArq s buf).map (fun d => (d.toNat : Int))).getD s.m_lastArq :=
  process_lastArq s buf

/-- The mark is the number accepted last. -/
theorem feed_lastArq (s : EQMacDecoder) (bufs : List (List UInt8)) :
    (feed s bufs).m_lastArq =
      ((accepted s bufs).getLast?.map (fun d => (d.toNat : Int))).getD s.m_lastArq := by
  induction bufs generalizing s with
  | nil => rfl
  | cons buf bufs ih =>
      have hfeed : feed s (buf :: bufs) = feed (processStep s buf) bufs := rfl
      rw [hfeed, ih, accepted_cons, processStep_lastArq]
      cases acceptedArq s buf with
      | none => rfl
      | some d => cases h : accepted (processStep s buf) bufs <;> simp [List.getLast?_cons]

/-- The first accepted number is ahead of the mark, each later one of the one before it. -/
theorem accepted_isChain_of (s : EQMacDecoder) (bufs : List (List UInt8)) :
    (accepted s bufs).IsChain AheadOf ∧ ∀ d ∈ (accepted s bufs).head?,
      s.m_lastArq < 0 ∨ AheadOf (UInt16.ofInt s.m_lastArq) d := by
  induction bufs generalizing s with
  | nil => simp [accepted, Machine.outputs]
  | cons buf bufs ih =>
      obtain ⟨hchain, hhead⟩ := ih (processStep s buf)
      rw [processStep_lastArq] at hhead
      rw [accepted_cons]
      cases hacc : acceptedArq s buf with
      | none =>
          simp only [hacc, Option.map_none, Option.getD_none] at hhead
          exact ⟨hchain, hhead⟩
      | some d =>
          simp only [hacc, Option.map_some, Option.getD_some, ofInt_toNat] at hhead
          refine ⟨List.isChain_cons.mpr ⟨fun e he => ?_, hchain⟩, ?_⟩
          · exact (hhead e he).resolve_left (by omega)
          · rintro e he
            obtain rfl : d = e := by simpa using he
            exact acceptedArq_aheadOf hacc

theorem accepted_isChain (s : EQMacDecoder) (bufs : List (List UInt8)) :
    (accepted s bufs).IsChain AheadOf := (accepted_isChain_of s bufs).1

/-- A number accepted at most half a turn ago is dropped. -/
theorem arqFilter_of_recent (s : EQMacDecoder) (bufs : List (List UInt8)) {pre post : List UInt16}
    {a : UInt16} (hacc : accepted s bufs = pre ++ a :: post)
    (hsum : summedDifferences a post ≤ 32768) : arqFilter (feed s bufs).m_lastArq a = none := by
  have hlast : (feed s bufs).m_lastArq = (post.getLastD a).toNat := by
    rw [feed_lastArq, hacc]
    simp [List.getLast?_append, List.getLast?_cons]
  have hdist := sub_getLastD a post (by omega)
  rw [UInt16.toNat_sub] at hdist
  have ha := a.toNat_lt
  have hb := (post.getLastD a).toNat_lt
  rw [hlast, arqFilter_eq_none_iff, ofInt_toNat, UInt16.toNat_sub]
  omega

/-- In every run from a reset decoder, on any bytes: each number that is accepted is ahead of the
    one before it; none is accepted twice while the accepted ones have not gone once around; and a
    packet with a number that was accepted at most half a range ago leaves the decoder as it is
    and hands nothing to the callback. -/
theorem retransmit_filter (bufs : List (List UInt8)) :
    (accepted reset bufs).IsChain AheadOf ∧
    (∀ pre a mid b post, accepted reset bufs = pre ++ a :: (mid ++ b :: post) →
      summedDifferences a (mid ++ [b]) < 65536 → a ≠ b) ∧
    (∀ pre a post buf, accepted reset bufs = pre ++ a :: post →
      summedDifferences a post ≤ 32768 → carriedArq buf = some a →
      (process (feed reset bufs) buf).state = feed reset bufs ∧
        ∀ z, (process (feed reset bufs) buf).callback z = none) := by
  refine ⟨accepted_isChain reset bufs, ?_, ?_⟩
  · rintro pre a mid b post hacc hsum rfl
    have hchain := accepted_isChain reset bufs
    rw [hacc] at hchain
    have htail : (a :: (mid ++ a :: post)).IsChain AheadOf := (List.isChain_append.mp hchain).2.1
    -- the first step of the climb is at least one
    have hpos : 1 ≤ summedDifferences a (mid ++ [a]) := by
      cases mid with
      | nil =>
          have hstep := (List.isChain_cons_cons.mp htail).1.1
          simp only [List.nil_append, summedDifferences]
          omega
      | cons c mid =>
          have hstep := (List.isChain_cons_cons.mp htail).1.1
          simp only [List.cons_append, summedDifferences]
          omega
    have hends := sub_getLastD a (mid ++ [a]) hsum
    have hself : (mid ++ [a]).getLastD a = a := by simp
    rw [hself, UInt16.sub_self] at hends
    simp at hends
    omega
  · intro pre a post buf hacc hsum hbuf
    have hdrop := process_of_dropped hbuf (arqFilter_of_recent reset bufs hacc hsum)
    rw [hdrop]
    exact ⟨rfl, fun z => rfl⟩

/-! ## Reordered packets -/

/-- A well-formed packet with a `dwARQ` and a whole message. -/
structure ArqPacket where
  framing : Framing
  opcode : UInt16
  payload : List UInt8
  carries_arq : framing.hdr.a1_ARQ = true
  not_fragment : framing.hdr.a3_Fragment = false
  opcode_ne_zero : opcode ≠ 0

namespace ArqPacket

/-- The sequence number of the packet. -/
def dwARQ (p : ArqPacket) : UInt16 := p.framing.dwARQ

/-- What the packet carries. -/
def message (p : ArqPacket) : AppPacket := (p.opcode, p.payload)

/-- The packet on the wire. -/
def bytes (p : ArqPacket) : List UInt8 := encode p.framing none p.opcode p.payload

/-- How far the number lies ahead of `base`. -/
def offset (base : UInt16) (p : ArqPacket) : Nat := (p.dwARQ - base).toNat

end ArqPacket

/-- Packets in the order the capture delivers them. Two packets with one `dwARQ` are copies of
    one message, and the numbers span less than half a turn. -/
structure Capture (z : Zlib) where
  packets : List ArqPacket
  base : UInt16
  span : ∀ p ∈ packets, p.offset base < 32768
  copies : ∀ p ∈ packets, ∀ q ∈ packets, p.dwARQ = q.dwARQ → p.message = q.message
  decodes : ∀ p ∈ packets, (emitWithDecode z p.message).isSome

/-- The packets whose arrival makes the callback run, each with what the callback gets. -/
def deliveries (z : Zlib) (s : EQMacDecoder) (packets : List ArqPacket) :
    List (ArqPacket × AppPacket) :=
  (Machine.outputs (fun s p => processStep s p.bytes)
    (fun s p => ((process s p.bytes).callback z).map (Prod.mk p)) s packets).reduceOption

/-- A packet, with what the callback makes of its message. -/
def ArqPacket.delivery (z : Zlib) (p : ArqPacket) : Option (ArqPacket × AppPacket) :=
  (emitWithDecode z p.message).map (Prod.mk p)

/-- The mark of the decoder, as an offset from `base`. -/
def Marks (base : UInt16) (s : EQMacDecoder) (h : WithBot Nat) : Prop :=
  (s.m_lastArq < 0 ∧ h = ⊥) ∨
    ∃ d : UInt16, s.m_lastArq = d.toNat ∧ h = WithBot.some (d - base).toNat ∧
      (d - base).toNat < 32768

theorem arq_of_packet (p : ArqPacket) : p.framing.arq = some p.dwARQ := by
  simp [Framing.arq, p.carries_arq, ArqPacket.dwARQ]

/-- Within half a turn the filter compares offsets. -/
theorem arqFilter_of_offsets {base d e : UInt16} (hd : (d - base).toNat < 32768)
    (he : (e - base).toNat < 32768) :
    arqFilter d.toNat e =
      if (d - base).toNat < (e - base).toNat then some (e.toNat : Int) else none := by
  have hb := base.toNat_lt
  have hdlt := d.toNat_lt
  have helt := e.toNat_lt
  have hdiff : (e - d).toNat = (65536 + (e - base).toNat - (d - base).toNat) % 65536 := by
    simp only [UInt16.toNat_sub]
    omega
  split
  · rw [arqFilter_eq_some_iff, ofInt_toNat]
    exact ⟨rfl, Or.inr (by omega)⟩
  · rw [arqFilter_eq_none_iff, ofInt_toNat]
    omega

theorem process_packet {s : EQMacDecoder} {p : ArqPacket} {m : Int}
    (h : arqFilter s.m_lastArq p.dwARQ = some m) :
    process s p.bytes =
      { state := { s with m_lastArq := m }, msg := some p.message, exit := .single } := by
  have hpass : passFilter s.m_lastArq p.framing.arq = some m := by
    rw [arq_of_packet]
    exact h
  rw [ArqPacket.bytes, process_encode s p.framing none p.opcode p.payload hpass
    (by simpa using p.not_fragment) (Or.inl rfl)]
  simp [processBody, hasOpcode, p.opcode_ne_zero, ArqPacket.message]

theorem process_packet_dropped {s : EQMacDecoder} {p : ArqPacket}
    (h : arqFilter s.m_lastArq p.dwARQ = none) :
    process s p.bytes = { state := s, msg := none, exit := .retransmit } := by
  apply process_encode_retransmit
  rw [arq_of_packet]
  exact h

/-- One packet: ahead of the mark it is delivered and becomes the mark, otherwise it is
    dropped. -/
theorem process_marks {base : UInt16} {s : EQMacDecoder} {h : WithBot Nat} (hm : Marks base s h)
    {p : ArqPacket} (hp : p.offset base < 32768) :
    if h < WithBot.some (p.offset base) then
      (process s p.bytes).msg = some p.message ∧
        Marks base (processStep s p.bytes) (WithBot.some (p.offset base))
    else (process s p.bytes).msg = none ∧ processStep s p.bytes = s := by
  have hnext {m : Int} (hf : arqFilter s.m_lastArq p.dwARQ = some m)
      (hlt : h < WithBot.some (p.offset base)) :
      if h < WithBot.some (p.offset base) then (process s p.bytes).msg = some p.message ∧
        Marks base (processStep s p.bytes) (WithBot.some (p.offset base))
      else (process s p.bytes).msg = none ∧ processStep s p.bytes = s := by
    obtain rfl := ((arqFilter_eq_some_iff _ _ _).mp hf).1
    rw [if_pos hlt, processStep, process_packet hf]
    exact ⟨rfl, Or.inr ⟨p.dwARQ, rfl, rfl, hp⟩⟩
  rcases hm with ⟨hneg, rfl⟩ | ⟨d, hd, rfl, hdlt⟩
  · have hfirst : arqFilter s.m_lastArq p.dwARQ = some (p.dwARQ.toNat : Int) := if_pos hneg
    exact hnext hfirst (WithBot.bot_lt_coe _)
  · have hfilter := arqFilter_of_offsets hdlt hp
    rw [← hd] at hfilter
    by_cases hlt : (d - base).toNat < p.offset base
    · have hlt' : WithBot.some (d - base).toNat < WithBot.some (p.offset base) :=
        WithBot.coe_lt_coe.mpr hlt
      exact hnext (hfilter.trans (if_pos hlt)) hlt'
    · have hnot : ¬ WithBot.some (d - base).toNat < WithBot.some (p.offset base) :=
        fun hc => hlt (WithBot.coe_lt_coe.mp hc)
      have hdrop : arqFilter s.m_lastArq p.dwARQ = none := hfilter.trans (if_neg hlt)
      rw [if_neg hnot, processStep, process_packet_dropped hdrop]
      exact ⟨rfl, rfl⟩

/-- The callback gets the packets that are ahead of everything delivered before them. -/
theorem deliveries_records (z : Zlib) {base : UInt16} {s : EQMacDecoder} {h : WithBot Nat}
    (hm : Marks base s h) (packets : List ArqPacket)
    (hspan : ∀ p ∈ packets, p.offset base < 32768) :
    deliveries z s packets =
      (Serial.records (ArqPacket.offset base) h packets).filterMap (ArqPacket.delivery z) := by
  induction packets generalizing s h with
  | nil => rfl
  | cons p packets ih =>
      obtain ⟨hp, hrest⟩ := List.forall_mem_cons.mp hspan
      have hstep := process_marks hm hp
      have hcons : deliveries z s (p :: packets) =
          (((process s p.bytes).callback z).map (Prod.mk p)).toList ++
            deliveries z (processStep s p.bytes) packets := by
        cases hc : (process s p.bytes).callback z <;>
          simp [deliveries, Machine.outputs, hc]
      rw [hcons]
      by_cases hlt : h < WithBot.some (p.offset base)
      · rw [if_pos hlt] at hstep
        rw [Serial.records, if_pos hlt, ih hstep.2 hrest, Outcome.callback, hstep.1]
        cases hd : emitWithDecode z p.message <;> simp [ArqPacket.delivery, hd]
      · rw [if_neg hlt] at hstep
        rw [Serial.records, if_neg hlt, hstep.2, ih hm hrest, Outcome.callback, hstep.1]
        rfl

theorem marks_reset (base : UInt16) : Marks base reset ⊥ := Or.inl ⟨by decide, rfl⟩

theorem offset_eq_iff (base : UInt16) (p q : ArqPacket) :
    p.offset base = q.offset base ↔ p.dwARQ = q.dwARQ := by
  rw [ArqPacket.offset, ArqPacket.offset, UInt16.toNat_inj, UInt16.sub_left_inj]

theorem delivery_eq_some {z : Zlib} {p : ArqPacket} {d : ArqPacket × AppPacket}
    (h : p.delivery z = some d) : d.1 = p ∧ emitWithDecode z p.message = some d.2 := by
  obtain ⟨out, hout, rfl⟩ := Option.map_eq_some_iff.mp h
  exact ⟨rfl, hout⟩

/-- A packet's message is delivered exactly when a record has its number. -/
theorem delivered_iff_record (z : Zlib) (c : Capture z) {p : ArqPacket} (hp : p ∈ c.packets) :
    (∃ d ∈ deliveries z reset c.packets,
      d.1.dwARQ = p.dwARQ ∧ emitWithDecode z p.message = some d.2) ↔
    ∃ r ∈ Serial.records (ArqPacket.offset c.base) ⊥ c.packets,
      r.offset c.base = p.offset c.base := by
  rw [deliveries_records z (marks_reset c.base) c.packets c.span]
  constructor
  · rintro ⟨d, hd, harq, -⟩
    obtain ⟨r, hr, hrd⟩ := List.mem_filterMap.mp hd
    have hdr := (delivery_eq_some hrd).1
    exact ⟨r, hr, (offset_eq_iff c.base r p).mpr (hdr ▸ harq)⟩
  · rintro ⟨r, hr, hoff⟩
    have hmem := (Serial.records_sublist (ArqPacket.offset c.base) ⊥ c.packets).subset hr
    have harq := (offset_eq_iff c.base r p).mp hoff
    obtain ⟨out, hout⟩ := Option.isSome_iff_exists.mp (c.decodes r hmem)
    refine ⟨(r, out), List.mem_filterMap.mpr ⟨r, hr, by simp [ArqPacket.delivery, hout]⟩, harq, ?_⟩
    rw [← c.copies r hmem p hp harq]
    exact hout

/-- What the callback gets of a capture: the packets ahead of everything delivered before them, no
    number twice, and every number exactly when each first arrival is ahead of what came
    before it. -/
theorem capture_deliveries (z : Zlib) (c : Capture z) :
    deliveries z reset c.packets =
      (Serial.records (ArqPacket.offset c.base) ⊥ c.packets).filterMap (ArqPacket.delivery z) ∧
    (deliveries z reset c.packets).Pairwise (fun x y => x.1.dwARQ ≠ y.1.dwARQ) ∧
    ((∀ p ∈ c.packets, ∃ d ∈ deliveries z reset c.packets,
        d.1.dwARQ = p.dwARQ ∧ emitWithDecode z p.message = some d.2) ↔
      Serial.ArrivesAscending (ArqPacket.offset c.base) c.packets) := by
  have hrec := deliveries_records z (marks_reset c.base) c.packets c.span
  refine ⟨hrec, ?_, ?_⟩
  · rw [hrec, List.pairwise_filterMap]
    refine (Serial.records_pairwise (ArqPacket.offset c.base) ⊥ c.packets).imp ?_
    intro p q hlt x hx y hy heq
    rw [(delivery_eq_some hx).1, (delivery_eq_some hy).1] at heq
    exact hlt.ne ((offset_eq_iff c.base p q).mpr heq)
  · rw [← Serial.keys_subset_records_iff]
    exact forall₂_congr fun p hp => delivered_iff_record z c hp

/-! A late first arrival: number 2 comes before number 1. -/

/-- A one-byte message in a packet with a `dwARQ` and no other optional field. -/
def latePacket (dwARQ : UInt16) (byte : UInt8) : ArqPacket where
  framing := .bare 0x02 dwARQ rfl rfl
  opcode := 0x4041
  payload := [byte]
  carries_arq := show (hdrInfo 0x02 0).a1_ARQ = true by decide
  not_fragment := show (hdrInfo 0x02 0).a3_Fragment = false by decide
  opcode_ne_zero := by decide

/-- A zlib that is asked nothing here: opcode 0x4041 is not obfuscated. -/
def idleZlib : Zlib := { inflate := fun _ _ => none, inflate_length_le := by simp }

/-- A capture that begins with a packet that was overtaken. -/
def lateCapture : Capture idleZlib where
  packets := [latePacket 2 20, latePacket 1 10]
  base := 0
  span := by decide
  copies := by decide
  decodes := by decide

theorem late_first_arrival_lost :
    ¬ ∀ (z : Zlib) (c : Capture z), ∀ p ∈ c.packets, ∃ d ∈ deliveries z reset c.packets,
      d.1.dwARQ = p.dwARQ ∧ emitWithDecode z p.message = some d.2 := by
  intro h
  have hlate := h idleZlib lateCapture (latePacket 1 10) (by simp [lateCapture])
  rw [delivered_iff_record _ _ (by simp [lateCapture])] at hlate
  revert hlate
  decide

end ShoweqDaemon.Decoder
