/-
  `EQMacDecoder::process` as a step function.

  The state is the fragment table and the high-water mark of the retransmit filter. A step
  returns the new state, the message it hands to `emitWithDecode` (at most one), and the
  exit it takes. The callback sees `Outcome.callback`.

  `process_ne_overread`: no step reads past the end of its buffer. `process_lastArq` says what
  a step does to the mark, `process_encode` what it does with a laid-out packet.
-/
import ShoweqDaemon.Lib.Run
import ShoweqDaemon.Decoder.Wire
import ShoweqDaemon.Decoder.Emit

namespace ShoweqDaemon.Decoder

open ByteReader

/-! ## State -/

/-- In-flight assembly of one fragmented message: the opcode of its first piece, how many pieces
    there are, which came, and their bytes so far. -/
structure FragmentGroup where
  opcode : UInt16
  total : UInt16
  received_count : UInt16
  received : List Bool
  data : List UInt8
  deriving DecidableEq, Repr

/-- A default-constructed group, as `m_fragments[fragSeq]` inserts it. -/
def FragmentGroup.empty : FragmentGroup :=
  { opcode := 0, total := 0, received_count := 0, received := [], data := [] }

/-- `m_fragments`: the group that is open under a sequence number. -/
abbrev FragmentTable := UInt16 → Option FragmentGroup

/-- `EQMacDecoder`: the open groups and the mark of the retransmission filter. -/
structure EQMacDecoder where
  m_fragments : FragmentTable
  /-- High-water-mark dwARQ, -1 when none was seen. -/
  m_lastArq : Int

/-- The state after `reset`, and of a new decoder. -/
def reset : EQMacDecoder := { m_fragments := fun _ => none, m_lastArq := -1 }

/-! ## One step -/

/-- The retransmit filter: the mark behind it, `none` for a packet to drop. -/
def arqFilter (m_lastArq : Int) (dwARQ : UInt16) : Option Int :=
  if m_lastArq < 0 then some dwARQ.toNat
  else
    let delta := (dwARQ - UInt16.ofInt m_lastArq).toInt16
    if delta ≤ 0 then none else some dwARQ.toNat

/-- The filter on any packet: one without `dwARQ` passes. -/
def passFilter (m_lastArq : Int) : Option UInt16 → Option Int
  | some dwARQ => arqFilter m_lastArq dwARQ
  | none => some m_lastArq

/-- What a step leaves behind. `msg` goes to `emitWithDecode`. -/
structure Outcome where
  state : EQMacDecoder
  msg : Option AppPacket
  exit : Exit

/-- What the callback sees of the step. -/
def Outcome.callback (z : Zlib) (o : Outcome) : Option AppPacket := o.msg.bind (emitWithDecode z)

/-- The group that a fragment is added to. The first fragment (re)initializes it. -/
def openGroup (table : FragmentTable) (f : FragInfo) (opcode : UInt16) : FragmentGroup :=
  if f.fragCurr = 0 then
    { opcode, total := f.fragTotal, received_count := 0,
      received := List.replicate f.fragTotal.toNat false, data := [] }
  else (table f.fragSeq).getD FragmentGroup.empty

/-- The group with fragment `curr` received, its piece appended in arrival order. -/
def FragmentGroup.receive (fg : FragmentGroup) (curr : Nat) (payload : List UInt8) :
    FragmentGroup :=
  { fg with
    received := fg.received.set curr true
    received_count := fg.received_count + 1
    data := fg.data ++ payload }

/-- The decoder with another entry for `fragSeq`; `none` erases it. -/
def EQMacDecoder.store (s : EQMacDecoder) (fragSeq : UInt16) (fg : Option FragmentGroup) :
    EQMacDecoder :=
  { s with m_fragments := Function.update s.m_fragments fragSeq fg }

@[simp] theorem store_fragments (s : EQMacDecoder) (fragSeq : UInt16)
    (fg : Option FragmentGroup) :
    (s.store fragSeq fg).m_fragments = Function.update s.m_fragments fragSeq fg := rfl

theorem store_eq_self_iff (s : EQMacDecoder) (fragSeq : UInt16) (fg : Option FragmentGroup) :
    s.store fragSeq fg = s ↔ s.m_fragments fragSeq = fg := by
  constructor
  · intro h
    have hat := congrFun (congrArg EQMacDecoder.m_fragments h) fragSeq
    simpa using hat.symm
  · rintro rfl
    simp [EQMacDecoder.store]

/-- The `a3_Fragment` branch of `process`: the group is found or made, and erased again where the
    index is past its end; a piece that is there already is dropped, and the piece that makes the
    group whole hands its message on and erases it. -/
def processFragment (s : EQMacDecoder) (f : FragInfo) (opcode : UInt16) (payload : List UInt8) :
    Outcome :=
  if f.fragTotal = 0 then { state := s, msg := none, exit := .zeroTotal }
  else
    let fg := openGroup s.m_fragments f opcode
    match fg.received[f.fragCurr.toNat]? with
    | none => { state := s.store f.fragSeq none, msg := none, exit := .pastTotal }
    | some true => { state := s.store f.fragSeq (some fg), msg := none, exit := .duplicate }
    | some false =>
        let fg := fg.receive f.fragCurr.toNat payload
        if fg.received_count = fg.total then
          { state := s.store f.fragSeq none, msg := some (fg.opcode, fg.data), exit := .complete }
        else { state := s.store f.fragSeq (some fg), msg := none, exit := .pending }

/-- `process` once the body is parsed: a fragment goes to its group, any other packet with an opcode
    is handed on by itself. -/
def processBody (s : EQMacDecoder) (body : Body) : Outcome :=
  match body.frag with
  | some f => processFragment s f body.opcode body.payload
  | none =>
      if body.opcode ≠ 0 then
        { state := s, msg := some (body.opcode, body.payload), exit := .single }
      else { state := s, msg := none, exit := .noOpcode }

/-- `EQMacDecoder::process`: the header, the filter, and the body or its piece. -/
def process (s : EQMacDecoder) (buf : List UInt8) : Outcome :=
  match arqFields buf with
  | .error e => { state := s, msg := none, exit := e }
  | .ok p =>
      match passFilter s.m_lastArq p.dwARQ with
      | none => { state := s, msg := none, exit := .retransmit }
      | some lastArq =>
          -- the mark moves here, before the rest of the packet is looked at
          let s := { s with m_lastArq := lastArq }
          match bodyFields buf p with
          | .error e => { state := s, msg := none, exit := e }
          | .ok body => processBody s body

/-! ## The filter -/

theorem toInt16_le_zero_iff (x : UInt16) :
    x.toInt16 ≤ 0 ↔ x.toNat = 0 ∨ 32768 ≤ x.toNat := by
  have hx := x.toNat_lt
  have hint : x.toInt16.toInt = (x.toNat : Int).bmod 65536 := by
    rw [← UInt16.toNat_toBitVec]
    exact BitVec.toInt_eq_toNat_bmod x.toBitVec
  rw [Int16.le_iff_toInt_le, hint, Int16.toInt_zero, Int.bmod_def]
  split <;> omega

/-- The signed comparison of the filter, in unsigned terms: `dwARQ` passes when it is 1 to
    32767 ahead of the mark. -/
theorem arqFilter_eq_some_iff (last : Int) (d : UInt16) (m : Int) :
    arqFilter last d = some m ↔ m = d.toNat ∧
      (last < 0 ∨ 1 ≤ (d - UInt16.ofInt last).toNat ∧
        (d - UInt16.ofInt last).toNat ≤ 32767) := by
  unfold arqFilter
  by_cases hlast : last < 0
  · simp [hlast, eq_comm]
  · have hdelta := toInt16_le_zero_iff (d - UInt16.ofInt last)
    by_cases hle : (d - UInt16.ofInt last).toInt16 ≤ 0
    · simp only [if_neg hlast, if_pos hle]
      constructor
      · intro h
        cases h
      · rintro ⟨-, h | h⟩
        · exact absurd h hlast
        · have := hdelta.mp hle
          omega
    · simp only [if_neg hlast, if_neg hle, Option.some.injEq]
      have := mt hdelta.mpr hle
      constructor
      · rintro rfl
        exact ⟨rfl, Or.inr (by omega)⟩
      · rintro ⟨rfl, -⟩
        rfl

theorem arqFilter_eq_none_iff (last : Int) (d : UInt16) :
    arqFilter last d = none ↔ 0 ≤ last ∧
      ((d - UInt16.ofInt last).toNat = 0 ∨ 32768 ≤ (d - UInt16.ofInt last).toNat) := by
  unfold arqFilter
  by_cases hlast : last < 0
  · rw [if_pos hlast]
    exact iff_of_false (fun h => nomatch h) fun h => absurd h.1 (by omega)
  · have hdelta := toInt16_le_zero_iff (d - UInt16.ofInt last)
    dsimp only
    rw [if_neg hlast, ← hdelta]
    split
    · simp_all
    · simp_all

/-! ## What a step does -/

theorem openGroup_first (table : FragmentTable) {f : FragInfo} (opcode : UInt16)
    (h : f.fragCurr = 0) :
    openGroup table f opcode =
      { opcode, total := f.fragTotal, received_count := 0,
        received := List.replicate f.fragTotal.toNat false, data := [] } := if_pos h

theorem openGroup_later (table : FragmentTable) {f : FragInfo} (opcode : UInt16)
    (h : f.fragCurr ≠ 0) :
    openGroup table f opcode = (table f.fragSeq).getD FragmentGroup.empty := if_neg h

/-- The first fragment is always new to its group. -/
theorem openGroup_first_received (table : FragmentTable) {f : FragInfo} (opcode : UInt16)
    (h : f.fragCurr = 0) (htotal : f.fragTotal ≠ 0) :
    (openGroup table f opcode).received[f.fragCurr.toNat]? = some false := by
  have hpos : 0 < f.fragTotal.toNat :=
    Nat.pos_of_ne_zero fun h0 => htotal (UInt16.toNat_inj.mp h0)
  rw [openGroup_first table opcode h, h]
  exact List.getElem?_replicate_of_lt hpos

/-- What the fragment branch can do with the group it finds or opens. -/
theorem processFragment_cases (s : EQMacDecoder) (f : FragInfo) (opcode : UInt16)
    (payload : List UInt8) {fg : FragmentGroup} (hfg : openGroup s.m_fragments f opcode = fg) :
    (f.fragTotal = 0 ∧ processFragment s f opcode payload =
      { state := s, msg := none, exit := .zeroTotal }) ∨
    (f.fragTotal ≠ 0 ∧ fg.received[f.fragCurr.toNat]? = none ∧
      processFragment s f opcode payload =
        { state := s.store f.fragSeq none, msg := none, exit := .pastTotal }) ∨
    (f.fragTotal ≠ 0 ∧ fg.received[f.fragCurr.toNat]? = some true ∧
      processFragment s f opcode payload =
        { state := s.store f.fragSeq (some fg), msg := none, exit := .duplicate }) ∨
    (f.fragTotal ≠ 0 ∧ fg.received[f.fragCurr.toNat]? = some false ∧
      fg.received_count + 1 = fg.total ∧ processFragment s f opcode payload =
        { state := s.store f.fragSeq none, msg := some (fg.opcode, fg.data ++ payload),
          exit := .complete }) ∨
    (f.fragTotal ≠ 0 ∧ fg.received[f.fragCurr.toNat]? = some false ∧
      fg.received_count + 1 ≠ fg.total ∧ processFragment s f opcode payload =
        { state := s.store f.fragSeq (some (fg.receive f.fragCurr.toNat payload)), msg := none,
          exit := .pending }) := by
  subst hfg
  by_cases htotal : f.fragTotal = 0
  · exact Or.inl ⟨htotal, by simp [processFragment, htotal]⟩
  · refine Or.inr ?_
    cases hrec : (openGroup s.m_fragments f opcode).received[f.fragCurr.toNat]? with
    | none => exact Or.inl ⟨htotal, rfl, by simp [processFragment, htotal, hrec]⟩
    | some seen =>
        refine Or.inr ?_
        cases seen with
        | true => exact Or.inl ⟨htotal, rfl, by simp [processFragment, htotal, hrec]⟩
        | false =>
            refine Or.inr ?_
            by_cases hcount : (openGroup s.m_fragments f opcode).received_count + 1 =
                (openGroup s.m_fragments f opcode).total
            · exact Or.inl ⟨htotal, rfl, hcount, by
                simp [processFragment, htotal, hrec, FragmentGroup.receive, hcount]⟩
            · exact Or.inr ⟨htotal, rfl, hcount, by
                simp [processFragment, htotal, hrec, FragmentGroup.receive, hcount]⟩

@[simp] theorem processFragment_lastArq (s : EQMacDecoder) (f : FragInfo) (opcode : UInt16)
    (payload : List UInt8) :
    (processFragment s f opcode payload).state.m_lastArq = s.m_lastArq := by
  obtain ⟨-, h⟩ | ⟨-, -, h⟩ | ⟨-, -, h⟩ | ⟨-, -, -, h⟩ | ⟨-, -, -, h⟩ :=
    processFragment_cases s f opcode payload rfl
  all_goals rw [h]
  all_goals rfl

@[simp] theorem processBody_lastArq (s : EQMacDecoder) (body : Body) :
    (processBody s body).state.m_lastArq = s.m_lastArq := by
  unfold processBody
  split
  · simp
  · split <;> rfl

/-- The `dwARQ` a packet carries, if it is long enough to carry one. -/
def carriedArq (buf : List UInt8) : Option UInt16 :=
  match arqFields buf with
  | .ok p => p.dwARQ
  | .error _ => none

/-- The `dwARQ` of a packet that passes the filter. -/
def acceptedArq (s : EQMacDecoder) (buf : List UInt8) : Option UInt16 :=
  (carriedArq buf).filter (fun d => (arqFilter s.m_lastArq d).isSome)

/-- What a step can be: turned away in front of the filter, dropped by it, turned away
    behind it, or carried out. -/
theorem process_cases (s : EQMacDecoder) (buf : List UInt8) :
    (∃ e, arqFields buf = .error e ∧ process s buf = { state := s, msg := none, exit := e }) ∨
    (∃ p, arqFields buf = .ok p ∧ passFilter s.m_lastArq p.dwARQ = none ∧
      process s buf = { state := s, msg := none, exit := .retransmit }) ∨
    (∃ p m e, arqFields buf = .ok p ∧ passFilter s.m_lastArq p.dwARQ = some m ∧
      bodyFields buf p = .error e ∧
      process s buf = { state := { s with m_lastArq := m }, msg := none, exit := e }) ∨
    (∃ p m body, arqFields buf = .ok p ∧ passFilter s.m_lastArq p.dwARQ = some m ∧
      bodyFields buf p = .ok body ∧
      process s buf = processBody { s with m_lastArq := m } body) := by
  cases harq : arqFields buf with
  | error e => exact Or.inl ⟨e, rfl, by simp [process, harq]⟩
  | ok p =>
      cases hpass : passFilter s.m_lastArq p.dwARQ with
      | none => exact Or.inr (Or.inl ⟨p, rfl, hpass, by simp [process, harq, hpass]⟩)
      | some m =>
          refine Or.inr (Or.inr ?_)
          cases hbody : bodyFields buf p with
          | error e =>
              exact Or.inl ⟨p, m, e, rfl, hpass, hbody, by simp [process, harq, hpass, hbody]⟩
          | ok body =>
              exact Or.inr ⟨p, m, body, rfl, hpass, hbody, by simp [process, harq, hpass, hbody]⟩

theorem passFilter_eq_some {last m : Int} {dwARQ : Option UInt16}
    (h : passFilter last dwARQ = some m) :
    dwARQ.filter (fun d => (arqFilter last d).isSome) = dwARQ ∧
      m = (dwARQ.map (fun d => (d.toNat : Int))).getD last := by
  cases dwARQ with
  | none => exact ⟨rfl, (Option.some.inj h).symm⟩
  | some d =>
      have hf : arqFilter last d = some m := h
      exact ⟨by simp [Option.filter, hf], ((arqFilter_eq_some_iff last d m).mp hf).1⟩

theorem passFilter_eq_none {last : Int} {dwARQ : Option UInt16}
    (h : passFilter last dwARQ = none) :
    dwARQ.filter (fun d => (arqFilter last d).isSome) = none := by
  cases dwARQ with
  | none => rfl
  | some d =>
      have hf : arqFilter last d = none := h
      simp [Option.filter, hf]

/-- The mark moves to the accepted `dwARQ` and stays otherwise. -/
theorem process_lastArq (s : EQMacDecoder) (buf : List UInt8) :
    (process s buf).state.m_lastArq =
      ((acceptedArq s buf).map (fun d => (d.toNat : Int))).getD s.m_lastArq := by
  obtain ⟨e, harq, hp⟩ | ⟨p, harq, hpass, hp⟩ | ⟨p, m, e, harq, hpass, -, hp⟩ |
    ⟨p, m, body, harq, hpass, -, hp⟩ := process_cases s buf
  · simp [hp, acceptedArq, carriedArq, harq]
  · simp [hp, acceptedArq, carriedArq, harq, passFilter_eq_none hpass]
  · obtain ⟨hfilter, hm⟩ := passFilter_eq_some hpass
    simp [hp, acceptedArq, carriedArq, harq, hfilter, hm]
  · obtain ⟨hfilter, hm⟩ := passFilter_eq_some hpass
    simp [hp, acceptedArq, carriedArq, harq, hfilter, hm]

/-- What the filter lets through is what the packet carries. -/
theorem acceptedArq_of_not_retransmit {s : EQMacDecoder} {buf : List UInt8}
    (h : (process s buf).exit ≠ .retransmit) : acceptedArq s buf = carriedArq buf := by
  obtain ⟨e, harq, hp⟩ | ⟨p, harq, hpass, hp⟩ | ⟨p, m, e, harq, hpass, -, hp⟩ |
    ⟨p, m, body, harq, hpass, -, hp⟩ := process_cases s buf
  · simp [acceptedArq, carriedArq, harq]
  · simp [hp] at h
  · simp [acceptedArq, carriedArq, harq, (passFilter_eq_some hpass).1]
  · simp [acceptedArq, carriedArq, harq, (passFilter_eq_some hpass).1]

/-- A packet whose `dwARQ` does not pass changes nothing. -/
theorem process_of_dropped {s : EQMacDecoder} {buf : List UInt8} {d : UInt16}
    (hbuf : carriedArq buf = some d) (hdrop : arqFilter s.m_lastArq d = none) :
    process s buf = { state := s, msg := none, exit := .retransmit } := by
  unfold carriedArq at hbuf
  cases harq : arqFields buf with
  | error e => simp [harq] at hbuf
  | ok p =>
      have hd : p.dwARQ = some d := by simpa [harq] using hbuf
      simp [process, harq, hd, passFilter, hdrop]

/-- The exits of a packet that was parsed to its end. -/
def Exit.parsed (e : Exit) : Prop :=
  e = .zeroTotal ∨ e = .pastTotal ∨ e = .duplicate ∨ e = .pending ∨ e = .complete ∨
    e = .noOpcode ∨ e = .single

theorem processBody_exit (s : EQMacDecoder) (body : Body) : (processBody s body).exit.parsed := by
  unfold processBody
  cases body.frag with
  | none =>
      dsimp only
      split <;> simp [Exit.parsed]
  | some f =>
      obtain ⟨-, h⟩ | ⟨-, -, h⟩ | ⟨-, -, h⟩ | ⟨-, -, -, h⟩ | ⟨-, -, -, h⟩ :=
        processFragment_cases s f body.opcode body.payload rfl
      all_goals simp [h, Exit.parsed]

/-- Every read of `process` is inside the buffer. -/
theorem process_ne_overread (s : EQMacDecoder) (buf : List UInt8) :
    (process s buf).exit ≠ .overread := by
  intro hover
  obtain ⟨e, harq, hp⟩ | ⟨p, harq, -, hp⟩ | ⟨p, m, e, harq, -, hbody, hp⟩ |
    ⟨p, m, body, harq, -, -, hp⟩ := process_cases s buf
  · have he := ((arqFields_meets buf).of_error harq).1
    simp_all [Exit.beforeFilter]
  · simp [hp] at hover
  · obtain ⟨hreach, -, hoff, -⟩ := (arqFields_meets buf).of_ok harq
    have he := (bodyFields_meets buf p (hoff ▸ hreach.2)).of_error hbody
    simp_all [Exit.behindFilter]
  · have he := processBody_exit { s with m_lastArq := m } body
    rw [hp] at hover
    simp [Exit.parsed, hover] at he

/-- A packet without the fragment flag leaves the table alone. -/
theorem process_not_fragment (s : EQMacDecoder) (buf : List UInt8)
    (h : (headerOf buf).a3_Fragment = false) :
    (process s buf).state.m_fragments = s.m_fragments := by
  obtain ⟨e, -, hp⟩ | ⟨p, -, -, hp⟩ | ⟨p, m, e, -, -, -, hp⟩ |
    ⟨p, m, body, harq, -, hbody, hp⟩ := process_cases s buf
  · rw [hp]
  · rw [hp]
  · rw [hp]
  · obtain ⟨hreach, hhdr, hoff, -⟩ := (arqFields_meets buf).of_ok harq
    have hfrag := (bodyFields_meets buf p (hoff ▸ hreach.2)).of_ok hbody
    rw [hhdr, h] at hfrag
    have hnone : body.frag = none := by simpa using hfrag
    rw [hp, processBody, hnone]
    dsimp only
    split <;> rfl

/-- The message that a packet without fragment header carries by itself. -/
def ownMessage (buf : List UInt8) : Option AppPacket :=
  match arqFields buf with
  | .error _ => none
  | .ok p =>
      match bodyFields buf p with
      | .error _ => none
      | .ok body => if body.opcode ≠ 0 then some (body.opcode, body.payload) else none

/-- A packet without the fragment flag hands over its own message or nothing, whatever the
    table holds. -/
theorem process_own (s : EQMacDecoder) (buf : List UInt8)
    (h : (headerOf buf).a3_Fragment = false) :
    (process s buf).msg = none ∨ (process s buf).msg = ownMessage buf := by
  obtain ⟨e, -, hp⟩ | ⟨p, -, -, hp⟩ | ⟨p, m, e, -, -, -, hp⟩ |
    ⟨p, m, body, harq, -, hbody, hp⟩ := process_cases s buf
  · exact Or.inl (by rw [hp])
  · exact Or.inl (by rw [hp])
  · exact Or.inl (by rw [hp])
  · obtain ⟨hreach, hhdr, hoff, -⟩ := (arqFields_meets buf).of_ok harq
    have hfrag := (bodyFields_meets buf p (hoff ▸ hreach.2)).of_ok hbody
    rw [hhdr, h] at hfrag
    have hnone : body.frag = none := by simpa using hfrag
    refine Or.inr ?_
    simp only [hp, processBody, hnone, ownMessage, harq, hbody]
    by_cases hop : body.opcode ≠ 0
    · rw [if_pos hop, if_pos hop]
    · rw [if_neg hop, if_neg hop]

/-- A laid-out packet that passes the filter goes to `processBody` with what it was laid out
    from. -/
theorem process_encode (s : EQMacDecoder) (f : Framing) (frag : Option FragInfo)
    (opcode : UInt16) (payload : List UInt8) {m : Int}
    (hpass : passFilter s.m_lastArq f.arq = some m) (hfrag : f.hdr.a3_Fragment = frag.isSome)
    (hbody : hasOpcode frag = true ∨ payload ≠ []) :
    process s (encode f frag opcode payload) =
      processBody { s with m_lastArq := m }
        { frag, opcode := if hasOpcode frag then opcode else 0, payload } := by
  simp only [process, arqFields_encode, hpass, bodyFields_encode f frag opcode payload hfrag hbody]

/-- A later fragment without payload moves the mark and nothing else. -/
theorem process_encode_empty (s : EQMacDecoder) (f : Framing) (frag : Option FragInfo)
    (opcode : UInt16) {m : Int} (hpass : passFilter s.m_lastArq f.arq = some m)
    (hfrag : f.hdr.a3_Fragment = frag.isSome) (hop : hasOpcode frag = false) :
    process s (encode f frag opcode []) =
      { state := { s with m_lastArq := m }, msg := none, exit := .noRoom } := by
  simp only [process, arqFields_encode, hpass, bodyFields_encode_empty f frag opcode hfrag hop]

/-- A laid-out packet that does not pass changes nothing. -/
theorem process_encode_retransmit (s : EQMacDecoder) (f : Framing) (frag : Option FragInfo)
    (opcode : UInt16) (payload : List UInt8) (hpass : passFilter s.m_lastArq f.arq = none) :
    process s (encode f frag opcode payload) = { state := s, msg := none, exit := .retransmit } := by
  simp only [process, arqFields_encode, hpass]

/-! ## Runs -/

/-- The decoder after a packet. -/
def processStep (s : EQMacDecoder) (buf : List UInt8) : EQMacDecoder := (process s buf).state

/-- The state after feeding the payloads of `bufs`. -/
def feed (s : EQMacDecoder) (bufs : List (List UInt8)) : EQMacDecoder := bufs.foldl processStep s

/-- What each call hands to `emitWithDecode`. -/
def handed (s : EQMacDecoder) (bufs : List (List UInt8)) : List (Option AppPacket) :=
  Machine.outputs processStep (fun s buf => (process s buf).msg) s bufs

end ShoweqDaemon.Decoder
