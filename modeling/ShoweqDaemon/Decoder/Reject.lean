/-
  Rejected packets.

  `process` has early returns on both sides of the point where the mark of the retransmit
  filter moves. `rejected_packet`: a rejected packet leaves the decoder as it was exactly
  when it does not get as far as carrying a `dwARQ`, and is not a fragment past the end of a
  group in flight. A rejected packet that does carry one makes the decoder drop the
  intact packet of the same number.
-/
import ShoweqDaemon.Decoder.Retransmit

namespace ShoweqDaemon.Decoder

/-- The early returns of `process` other than the retransmit drop and the closing pair. -/
def Exit.isReject : Exit → Bool
  | .tooShort | .shortARSP | .shortUnknown | .shortAck | .shortARQ | .shortFragInfo
  | .shortASQ | .noRoom | .shortOpcode | .shortCRC | .zeroTotal | .pastTotal | .duplicate => true
  | _ => false

/-- The header announces a `dwARQ`, and the packet is long enough to hold it. -/
def CarriesArq (buf : List UInt8) : Prop :=
  ReachesFilter buf ∧ (headerOf buf).a1_ARQ = true

instance (buf : List UInt8) : Decidable (CarriesArq buf) := instDecidableAnd

/-- A later fragment past the end of its group in flight. -/
def PastGroup (s : EQMacDecoder) (f : FragInfo) : Prop :=
  f.fragTotal ≠ 0 ∧ f.fragCurr ≠ 0 ∧
    ∃ g, s.m_fragments f.fragSeq = some g ∧ g.received.length ≤ f.fragCurr.toNat

/-- The packet is such a fragment. -/
def DropsGroup (s : EQMacDecoder) (buf : List UInt8) : Prop :=
  ∃ p body f, arqFields buf = .ok p ∧ bodyFields buf p = .ok body ∧ body.frag = some f ∧
    PastGroup s f

theorem carriedArq_isSome_iff (buf : List UInt8) : (carriedArq buf).isSome ↔ CarriesArq buf := by
  unfold carriedArq CarriesArq
  cases harq : arqFields buf with
  | error e =>
      have hnot := ((arqFields_meets buf).of_error harq).2
      simp [hnot]
  | ok p =>
      obtain ⟨hreach, -, -, hsome⟩ := (arqFields_meets buf).of_ok harq
      simp [hreach, hsome]

/-- A `dwARQ` that passes the filter differs from the mark. -/
theorem toNat_ne_lastArq {s : EQMacDecoder} {buf : List UInt8} {d : UInt16}
    (h : acceptedArq s buf = some d) : (d.toNat : Int) ≠ s.m_lastArq := by
  intro heq
  rcases acceptedArq_aheadOf h with hneg | ⟨hone, -⟩
  · omega
  · rw [← heq, ofInt_toNat, UInt16.sub_self] at hone
    exact absurd hone (by decide)

theorem lastArq_ne_of_carries {s : EQMacDecoder} {buf : List UInt8}
    (hexit : (process s buf).exit ≠ .retransmit) (hc : CarriesArq buf) :
    (process s buf).state.m_lastArq ≠ s.m_lastArq := by
  obtain ⟨d, hd⟩ := Option.isSome_iff_exists.mp ((carriedArq_isSome_iff buf).mpr hc)
  have hacc := (acceptedArq_of_not_retransmit hexit).trans hd
  rw [process_lastArq, hacc]
  exact toNat_ne_lastArq hacc

/-- A rejected fragment leaves the decoder as it was unless it lies past its group. -/
theorem processFragment_unchanged_iff (s : EQMacDecoder) (f : FragInfo) (opcode : UInt16)
    (payload : List UInt8) (h : (processFragment s f opcode payload).exit.isReject = true) :
    (processFragment s f opcode payload).state = s ↔ ¬ PastGroup s f := by
  have hlater (htotal : f.fragTotal ≠ 0)
      (hrec : (openGroup s.m_fragments f opcode).received[f.fragCurr.toNat]? ≠ some false) :
      f.fragCurr ≠ 0 :=
    fun h0 => hrec (openGroup_first_received s.m_fragments opcode h0 htotal)
  obtain ⟨htotal, hp⟩ | ⟨htotal, hrec, hp⟩ | ⟨htotal, hrec, hp⟩ | ⟨-, -, -, hp⟩ |
    ⟨-, -, -, hp⟩ := processFragment_cases s f opcode payload rfl
  · simp [hp, PastGroup, htotal]
  · have hcurr := hlater htotal (by simp [hrec])
    rw [openGroup_later _ opcode hcurr] at hrec
    rw [hp]
    change s.store f.fragSeq none = s ↔ _
    rw [store_eq_self_iff]
    cases hg : s.m_fragments f.fragSeq with
    | none => simp [PastGroup, hg]
    | some g =>
        have hlen : g.received.length ≤ f.fragCurr.toNat := by simpa [hg] using hrec
        simpa [PastGroup, hg, htotal, hcurr] using hlen
  · have hcurr := hlater htotal (by simp [hrec])
    rw [openGroup_later _ opcode hcurr] at hrec hp
    rw [hp]
    change s.store f.fragSeq _ = s ↔ _
    rw [store_eq_self_iff]
    cases hg : s.m_fragments f.fragSeq with
    | none => simp [hg, FragmentGroup.empty] at hrec
    | some g =>
        have hlen : f.fragCurr.toNat < g.received.length := by
          have hrec' : g.received[f.fragCurr.toNat]? = some true := by simpa [hg] using hrec
          exact (List.getElem?_eq_some_iff.mp hrec').1
        simp [PastGroup, hg, hlen]
  · simp [hp, Exit.isReject] at h
  · simp [hp, Exit.isReject] at h

/-- The rejected packet might as well not have arrived: the decoder is as it was, and any
    later packet fares as it would have. -/
def Harmless (s : EQMacDecoder) (buf : List UInt8) : Prop :=
  (process s buf).state = s ∧
    ∀ later, process (process s buf).state later = process s later

theorem harmless_iff (s : EQMacDecoder) (buf : List UInt8) :
    Harmless s buf ↔ (process s buf).state = s := by
  constructor
  · exact fun h => h.1
  · exact fun h => ⟨h, fun later => by rw [h]⟩

theorem harmless_iff_of_reject (s : EQMacDecoder) (buf : List UInt8)
    (h : (process s buf).exit.isReject = true) :
    Harmless s buf ↔ ¬ CarriesArq buf ∧ ¬ DropsGroup s buf := by
  rw [harmless_iff]
  by_cases hc : CarriesArq buf
  · -- the mark has moved
    have hexit : (process s buf).exit ≠ .retransmit := by
      intro he
      simp [he, Exit.isReject] at h
    have hmark := lastArq_ne_of_carries hexit hc
    exact ⟨fun hs => absurd (congrArg EQMacDecoder.m_lastArq hs) hmark,
      fun hn => absurd hc hn.1⟩
  · have hno {p : ArqFields} (harq : arqFields buf = .ok p) : p.dwARQ = none := by
      have hcar := mt (carriedArq_isSome_iff buf).mp hc
      simpa [carriedArq, harq] using hcar
    have hmark {p : ArqFields} {m : Int} (harq : arqFields buf = .ok p)
        (hpass : passFilter s.m_lastArq p.dwARQ = some m) :
        ({ s with m_lastArq := m } : EQMacDecoder) = s := by
      have hm := (passFilter_eq_some hpass).2
      rw [hno harq] at hm
      obtain rfl : m = s.m_lastArq := hm
      rfl
    obtain ⟨e, harq, hp⟩ | ⟨p, harq, -, hp⟩ | ⟨p, m, e, harq, hpass, hbody, hp⟩ |
      ⟨p, m, body, harq, hpass, hbody, hp⟩ := process_cases s buf
    · simp [hp, hc, DropsGroup, harq]
    · simp [hp, Exit.isReject] at h
    · simp [hp, hc, DropsGroup, harq, hbody, hmark harq hpass]
    · rw [hmark harq hpass] at hp
      rw [hp] at h ⊢
      cases hfrag : body.frag with
      | none =>
          simp only [processBody, hfrag] at h
          split at h <;> simp [Exit.isReject] at h
      | some f =>
          simp only [processBody, hfrag] at h ⊢
          rw [processFragment_unchanged_iff s f body.opcode body.payload h]
          simp [hc, DropsGroup, harq, hbody, hfrag]

/-- A rejected packet that carries a `dwARQ` takes the intact packet of that number with it. -/
theorem rejected_arq_burns {s : EQMacDecoder} {buf later : List UInt8}
    (h : (process s buf).exit.isReject = true) (hc : CarriesArq buf)
    (hlater : carriedArq later = carriedArq buf) :
    acceptedArq s later = acceptedArq s buf ∧
      process (process s buf).state later =
        { state := (process s buf).state, msg := none, exit := .retransmit } := by
  have hexit : (process s buf).exit ≠ .retransmit := by
    intro he
    simp [he, Exit.isReject] at h
  obtain ⟨d, hd⟩ := Option.isSome_iff_exists.mp ((carriedArq_isSome_iff buf).mpr hc)
  have hacc := (acceptedArq_of_not_retransmit hexit).trans hd
  constructor
  · rw [acceptedArq, acceptedArq, hlater]
  · refine process_of_dropped (hlater.trans hd) ?_
    rw [process_lastArq, hacc, arqFilter_eq_none_iff]
    simp [ofInt_toNat]

/-- For every state and every packet that is rejected: it does no harm exactly when it carries no
    number and drops no group in flight. If it carries one, every later packet with that number is
    dropped as a retransmission; without the rejected packet its number would have fared as the
    rejected one did. -/
theorem rejected_packet (s : EQMacDecoder) (buf : List UInt8)
    (h : (process s buf).exit.isReject = true) :
    (Harmless s buf ↔ ¬ CarriesArq buf ∧ ¬ DropsGroup s buf) ∧
    (CarriesArq buf → ∀ later, carriedArq later = carriedArq buf →
      acceptedArq s later = acceptedArq s buf ∧
        process (process s buf).state later =
          { state := (process s buf).state, msg := none, exit := .retransmit }) :=
  ⟨harmless_iff_of_reject s buf h, fun hc _ hlater => rejected_arq_burns h hc hlater⟩

/-- Number 5 and the fragment flag, cut off in front of the fragment info. -/
def truncatedFragment : List UInt8 := [0x0a, 0, 0, 0, 0, 5, 0, 0, 0, 0]

theorem rejected_packet_truncated :
    (Harmless reset truncatedFragment ↔
      ¬ CarriesArq truncatedFragment ∧ ¬ DropsGroup reset truncatedFragment) ∧
    (CarriesArq truncatedFragment → ∀ later, carriedArq later = carriedArq truncatedFragment →
      acceptedArq reset later = acceptedArq reset truncatedFragment ∧
        process (process reset truncatedFragment).state later =
          { state := (process reset truncatedFragment).state, msg := none, exit := .retransmit }) :=
  rejected_packet reset truncatedFragment (by decide)

theorem truncated_moves_mark :
    ¬ ∀ (s : EQMacDecoder) (buf : List UInt8), (process s buf).exit.isReject = true →
      Harmless s buf := by
  intro h
  have hmark := congrArg EQMacDecoder.m_lastArq (h reset truncatedFragment (by decide)).1
  revert hmark
  decide

end ShoweqDaemon.Decoder
