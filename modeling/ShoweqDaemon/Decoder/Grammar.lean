/-
  The packet grammar: what is laid out comes back, and nothing else is ever touched.

  `packet_grammar` has both halves. A whole message, in one packet or as the only fragment of
  its group, reaches the callback of a reset decoder once, with its opcode and its payload.
  And for every state and every buffer, no read of `process` leaves the buffer, and the bytes
  that go to the callback or into a fragment group are those in front of the trailer.
-/
import ShoweqDaemon.Decoder.Process

namespace ShoweqDaemon.Decoder

open ByteReader

/-! ## Whole messages -/

/-- Fragment info of a message that fits one packet. -/
def Whole (frag : Option FragInfo) : Prop := ∀ i ∈ frag, i.fragCurr = 0 ∧ i.fragTotal = 1

theorem Whole.hasOpcode {frag : Option FragInfo} (h : Whole frag) : hasOpcode frag = true := by
  cases frag with
  | none => rfl
  | some i => simp [Decoder.hasOpcode, (h i rfl).1]

/-- The only fragment completes its group. -/
theorem processBody_whole (s : EQMacDecoder) {frag : Option FragInfo} (h : Whole frag)
    {opcode : UInt16} (hop : opcode ≠ 0) (payload : List UInt8) :
    (processBody s { frag, opcode, payload }).msg = some (opcode, payload) := by
  cases frag with
  | none => simp [processBody, hop]
  | some i =>
      obtain ⟨hcurr, htotal⟩ := h i rfl
      have hnew := openGroup_first_received s.m_fragments opcode hcurr (by rw [htotal]; decide)
      have hopen := openGroup_first s.m_fragments opcode hcurr
      obtain ⟨h0, -⟩ | ⟨-, hnone, -⟩ | ⟨-, hseen, -⟩ | ⟨-, -, -, hdone⟩ | ⟨-, -, hmore, -⟩ :=
        processFragment_cases s i opcode payload rfl
      · exact absurd (htotal.symm.trans h0) (by decide)
      · rw [hnew] at hnone
        cases hnone
      · rw [hnew] at hseen
        cases hseen
      · show (processFragment s i opcode payload).msg = _
        rw [hdone, hopen]
        rfl
      · rw [hopen, htotal] at hmore
        exact absurd rfl hmore

theorem emitWithDecode_plain (z : Zlib) {opcode : UInt16} (h : isObfuscated opcode = false)
    (data : List UInt8) : emitWithDecode z (opcode, data) = some (opcode, data) := by
  simp [emitWithDecode, h]

/-- A reset decoder has no mark: every packet passes the filter. -/
theorem passFilter_reset (dwARQ : Option UInt16) :
    ∃ m, passFilter reset.m_lastArq dwARQ = some m := by
  cases dwARQ with
  | none => exact ⟨-1, rfl⟩
  | some d => exact ⟨d.toNat, rfl⟩

theorem process_whole (z : Zlib) (f : Framing) {frag : Option FragInfo} (hwhole : Whole frag)
    (hflag : f.hdr.a3_Fragment = frag.isSome) {opcode : UInt16} (hop : opcode ≠ 0)
    (hplain : isObfuscated opcode = false) (payload : List UInt8) :
    (process reset (encode f frag opcode payload)).callback z = some (opcode, payload) := by
  obtain ⟨m, hpass⟩ := passFilter_reset f.arq
  have hbody := process_encode reset f frag opcode payload hpass hflag (Or.inl hwhole.hasOpcode)
  rw [if_pos hwhole.hasOpcode] at hbody
  unfold Outcome.callback
  rw [hbody, processBody_whole _ hwhole hop]
  exact emitWithDecode_plain z hplain payload

/-! ## Slices -/

/-- Bytes that lie in the buffer and end where the trailer begins. -/
def Slice (buf bytes : List UInt8) : Prop :=
  ∃ front trailer, buf = front ++ (bytes ++ trailer) ∧ trailer.length = kCrcTrailerLen

theorem slice_of_le {buf : List UInt8} {off : Nat} (h : off + kCrcTrailerLen ≤ buf.length) :
    Slice buf ((buf.drop off).take (buf.length - off - kCrcTrailerLen)) := by
  refine ⟨buf.take off, (buf.drop off).drop (buf.length - off - kCrcTrailerLen), ?_, ?_⟩
  · rw [List.take_append_drop, List.take_append_drop]
  · rw [List.length_drop, List.length_drop]
    omega

/-- The payload of every packet that is parsed to its end. -/
theorem bodyFields_slice (buf : List UInt8) (p : ArqFields) :
    Meets (bodyFields buf p) (fun _ => True) (fun body => Slice buf body.payload) := by
  unfold bodyFields
  have hany : ∀ {α : Type} (x : Except Exit α), Meets x (fun _ => True) (fun _ => True) := by
    intro α x
    cases x <;> trivial
  refine meets_bind (hany _) (fun r _ => ?_)
  refine meets_bind (hany _) (fun off _ => ?_)
  refine meets_ite (fun _ => meets_throw_bind trivial) (fun _ => ?_)
  refine meets_ite (fun _ => meets_throw_bind trivial) (fun _ => ?_)
  refine meets_bind (hany _) (fun body _ => ?_)
  refine meets_ite (fun _ => ?_) (fun _ => ?_)
  · refine meets_bind (hany _) (fun opcode _ => ?_)
    exact meets_ite (fun _ => meets_throw_bind trivial) fun hcrc => slice_of_le (Nat.not_lt.mp hcrc)
  · refine meets_bind (hany _) (fun opcode _ => ?_)
    exact meets_ite (fun _ => meets_throw_bind trivial) fun hcrc => slice_of_le (Nat.not_lt.mp hcrc)

/-! ## Every buffer -/

/-- `data` is a piece of the buffer, or the piece behind what group `fragSeq` of `table` has. -/
def Extends (buf : List UInt8) (table : FragmentTable) (fragSeq : UInt16) (data : List UInt8) :
    Prop :=
  ∃ piece, Slice buf piece ∧
    (data = piece ∨ ∃ fg, table fragSeq = some fg ∧ data = fg.data ++ piece)

/-- What one call reads and passes on lies in the buffer. -/
structure StaysInside (s : EQMacDecoder) (buf : List UInt8) : Prop where
  reads : (process s buf).exit ≠ .overread
  forwarded : ∀ opcode data, (process s buf).msg = some (opcode, data) →
    ∃ fragSeq, Extends buf s.m_fragments fragSeq data
  appended : ∀ fragSeq fg, (process s buf).state.m_fragments fragSeq = some fg →
    s.m_fragments fragSeq = some fg ∨ Extends buf s.m_fragments fragSeq fg.data

/-- A piece that is added to its group. -/
theorem openGroup_extends {buf : List UInt8} (table : FragmentTable) (f : FragInfo)
    (opcode : UInt16) {payload : List UInt8} (h : Slice buf payload) :
    Extends buf table f.fragSeq ((openGroup table f opcode).data ++ payload) := by
  refine ⟨payload, h, ?_⟩
  by_cases hcurr : f.fragCurr = 0
  · rw [openGroup_first table opcode hcurr]
    exact Or.inl rfl
  · rw [openGroup_later table opcode hcurr]
    cases htable : table f.fragSeq with
    | none => exact Or.inl rfl
    | some fg => exact Or.inr ⟨fg, rfl, rfl⟩

/-- A group in which the fragment is not new was there before. -/
theorem openGroup_of_received {table : FragmentTable} {f : FragInfo} {opcode : UInt16}
    (h : (openGroup table f opcode).received[f.fragCurr.toNat]? = some true) :
    table f.fragSeq = some (openGroup table f opcode) := by
  by_cases hcurr : f.fragCurr = 0
  · rw [openGroup_first table opcode hcurr, List.getElem?_replicate] at h
    split at h <;> cases h
  · rw [openGroup_later table opcode hcurr] at h ⊢
    cases htable : table f.fragSeq with
    | none =>
        rw [htable] at h
        exact nomatch h
    | some fg => rfl

theorem processFragment_inside {s : EQMacDecoder} {buf : List UInt8} (f : FragInfo)
    (opcode : UInt16) {payload : List UInt8} (h : Slice buf payload) :
    (∀ op data, (processFragment s f opcode payload).msg = some (op, data) →
      Extends buf s.m_fragments f.fragSeq data) ∧
    (∀ fragSeq fg, (processFragment s f opcode payload).state.m_fragments fragSeq = some fg →
      s.m_fragments fragSeq = some fg ∨ Extends buf s.m_fragments fragSeq fg.data) := by
  have hext := openGroup_extends s.m_fragments f opcode h
  have hkept : ∀ fragSeq (fg' : FragmentGroup) (new : Option FragmentGroup),
      (s.store f.fragSeq new).m_fragments fragSeq = some fg' →
        (fragSeq = f.fragSeq ∧ new = some fg') ∨ s.m_fragments fragSeq = some fg' := by
    intro fragSeq fg' new hfg'
    rw [store_fragments] at hfg'
    by_cases hseq : fragSeq = f.fragSeq
    · subst hseq
      rw [Function.update_self] at hfg'
      exact Or.inl ⟨rfl, hfg'⟩
    · rw [Function.update_of_ne hseq] at hfg'
      exact Or.inr hfg'
  obtain ⟨-, hp⟩ | ⟨-, -, hp⟩ | ⟨-, hseen, hp⟩ | ⟨-, -, -, hp⟩ | ⟨-, -, -, hp⟩ :=
    processFragment_cases s f opcode payload rfl
  · rw [hp]
    exact ⟨fun _ _ hmsg => (nomatch hmsg), fun _ _ hfg => Or.inl hfg⟩
  · rw [hp]
    refine ⟨fun _ _ hmsg => (nomatch hmsg), fun fragSeq fg hfg => ?_⟩
    rcases hkept fragSeq fg none hfg with ⟨-, hnew⟩ | hold
    · cases hnew
    · exact Or.inl hold
  · rw [hp]
    refine ⟨fun _ _ hmsg => (nomatch hmsg), fun fragSeq fg hfg => Or.inl ?_⟩
    rcases hkept fragSeq fg _ hfg with ⟨rfl, hnew⟩ | hold
    · exact (openGroup_of_received hseen).trans hnew
    · exact hold
  · rw [hp]
    refine ⟨fun op data hmsg => ?_, fun fragSeq fg hfg => ?_⟩
    · obtain ⟨-, rfl⟩ := Prod.mk.inj (Option.some.inj hmsg)
      exact hext
    · rcases hkept fragSeq fg none hfg with ⟨-, hnew⟩ | hold
      · cases hnew
      · exact Or.inl hold
  · rw [hp]
    refine ⟨fun _ _ hmsg => (nomatch hmsg), fun fragSeq fg hfg => ?_⟩
    rcases hkept fragSeq fg _ hfg with ⟨rfl, hnew⟩ | hold
    · obtain rfl := Option.some.inj hnew
      exact Or.inr hext
    · exact Or.inl hold

theorem process_inside (s : EQMacDecoder) (buf : List UInt8) : StaysInside s buf := by
  have hquiet : ∀ {e : Exit} {m : Int}, process s buf =
      { state := { s with m_lastArq := m }, msg := none, exit := e } → StaysInside s buf := by
    intro e m hp
    refine ⟨process_ne_overread s buf, fun _ _ hmsg => ?_, fun _ _ hfg => Or.inl ?_⟩
    · rw [hp] at hmsg
      cases hmsg
    · rw [hp] at hfg
      exact hfg
  obtain ⟨e, -, hp⟩ | ⟨p, -, -, hp⟩ | ⟨p, m, e, -, -, -, hp⟩ | ⟨p, m, body, -, -, hbody, hp⟩ :=
    process_cases s buf
  · exact hquiet hp
  · exact hquiet hp
  · exact hquiet hp
  · have hslice := (bodyFields_slice buf p).of_ok hbody
    have hreads := process_ne_overread s buf
    unfold processBody at hp
    split at hp
    · rename_i f hf
      obtain ⟨hmsg, hstate⟩ :=
        processFragment_inside (s := { s with m_lastArq := m }) f body.opcode hslice
      rw [← hp] at hmsg hstate
      exact ⟨hreads, fun op data h => ⟨f.fragSeq, hmsg op data h⟩, hstate⟩
    · split at hp
      · refine ⟨hreads, fun op data h => ⟨0, body.payload, hslice, Or.inl ?_⟩, fun _ _ hfg => ?_⟩
        · rw [hp] at h
          exact (Prod.mk.inj (Option.some.inj h)).2.symm
        · rw [hp] at hfg
          exact Or.inl hfg
      · exact hquiet hp

/-- Whole messages come back, and no packet leads out of its buffer. -/
theorem packet_grammar :
    (∀ (z : Zlib) (f : Framing) (frag : Option FragInfo) (opcode : UInt16) (payload : List UInt8),
      Whole frag → f.hdr.a3_Fragment = frag.isSome → opcode ≠ 0 → isObfuscated opcode = false →
        (process reset (encode f frag opcode payload)).callback z = some (opcode, payload)) ∧
    ∀ (s : EQMacDecoder) (buf : List UInt8), StaysInside s buf :=
  ⟨fun z f _ _ payload hwhole hflag hop hplain => process_whole z f hwhole hflag hop hplain payload,
    process_inside⟩

/-- A packet with `dwARQ` 7 and three bytes of payload, when zlib never inflates anything. -/
theorem packet_grammar_bare :
    (process reset (encode (Framing.bare 0x02 7 rfl rfl) none 0x1234 [1, 2, 3])).callback
      ⟨fun _ _ => none, fun _ _ _ h => nomatch h⟩ = some (0x1234, [1, 2, 3]) :=
  packet_grammar.1 _ (Framing.bare 0x02 7 rfl rfl) none 0x1234 [1, 2, 3] (fun _ hi => nomatch hi)
    rfl (by decide) (by decide)

end ShoweqDaemon.Decoder
