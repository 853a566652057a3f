/-
  Reassembly of fragmented messages.

  A `FragMessage` is a message cut into pieces. `group m got` is the group of `m` when the
  pieces with the indices `got` have arrived, in that order. `receive_piece` is the step lemma:
  a new piece `i` takes `group m got` to `group m (got ++ [i])`, and the piece that makes
  it whole hands the message over and erases the group.

  `reassembly`: any number of messages with distinct `fragSeq`, their packets interleaved with
  each other and with non-fragment packets, each message's pieces in index order. It bounds what
  is handed over at every arrival: a message at its last piece and nothing at the pieces before,
  and at a packet that is no fragment at most that packet's own message (`process_own`).
-/
import ShoweqDaemon.Decoder.Process

namespace ShoweqDaemon.Decoder

/-! ## One message -/

/-- A message that was cut into pieces, with what its packets say of it. -/
structure FragMessage where
  fragSeq : UInt16
  opcode : UInt16
  pieces : List (List UInt8)
  pieces_ne_nil : pieces ≠ []
  pieces_le : pieces.length ≤ 65535

namespace FragMessage

/-- The number of pieces. -/
def total (m : FragMessage) : Nat := m.pieces.length

/-- A piece, empty behind the last one. -/
def piece (m : FragMessage) (i : Nat) : List UInt8 := m.pieces.getD i []

/-- The opcode with the pieces `got`, concatenated in that order. -/
def messageOf (m : FragMessage) (got : List Nat) : AppPacket :=
  (m.opcode, (got.map m.piece).flatten)

/-- The message as it was cut. -/
def message (m : FragMessage) : AppPacket := (m.opcode, m.pieces.flatten)

/-- The fragment header of a piece. -/
def fragInfo (m : FragMessage) (i : Nat) : FragInfo :=
  { fragSeq := m.fragSeq, fragCurr := UInt16.ofNat i, fragTotal := UInt16.ofNat m.total }

/-- The packet with piece `i`. -/
def packet (m : FragMessage) (i : Nat) (f : Framing) : List UInt8 :=
  encode f (some (m.fragInfo i)) m.opcode (m.piece i)

/-- The group with the pieces `got` received, in that order. -/
def group (m : FragMessage) (got : List Nat) : FragmentGroup where
  opcode := m.opcode
  total := UInt16.ofNat m.total
  received_count := UInt16.ofNat got.length
  received := (List.range m.total).map (fun i => decide (i ∈ got))
  data := (got.map m.piece).flatten

theorem total_pos (m : FragMessage) : 0 < m.total := List.length_pos_iff.mpr m.pieces_ne_nil

theorem total_lt (m : FragMessage) : m.total < 65536 := Nat.lt_succ_of_le m.pieces_le

theorem messageOf_range (m : FragMessage) : m.messageOf (List.range m.total) = m.message := by
  have hpieces : (List.range m.total).map m.piece = m.pieces := by
    apply List.ext_getElem
    · simp [total]
    · intro i h₁ h₂
      simp [piece, h₂]
  rw [messageOf, hpieces, message]

theorem ofNat_toNat {n : Nat} (h : n < 65536) : (UInt16.ofNat n).toNat = n := by
  rw [UInt16.toNat_ofNat', Nat.mod_eq_of_lt h]

theorem ofNat_eq_iff {m n : Nat} (hm : m < 65536) (hn : n < 65536) :
    UInt16.ofNat m = UInt16.ofNat n ↔ m = n := by
  rw [← UInt16.toNat_inj, ofNat_toNat hm, ofNat_toNat hn]

theorem fragCurr_eq_zero_iff (m : FragMessage) {i : Nat} (hi : i < m.total) :
    (m.fragInfo i).fragCurr = 0 ↔ i = 0 := by
  have hlt := m.total_lt
  exact ofNat_eq_iff (n := 0) (by omega) (by decide)

theorem fragTotal_ne_zero (m : FragMessage) (i : Nat) : (m.fragInfo i).fragTotal ≠ 0 := by
  have h := m.total_pos
  intro h0
  have hzero : m.total = 0 := (ofNat_eq_iff (n := 0) m.total_lt (by decide)).mp h0
  omega

/-- Piece `i` goes to the group of the pieces `got`: piece 0 opens it, a later one finds it. -/
def Meets (m : FragMessage) (table : FragmentTable) (got : List Nat) (i : Nat) : Prop :=
  (i = 0 ∧ got = []) ∨ (i ≠ 0 ∧ table m.fragSeq = some (m.group got))

theorem openGroup_piece (m : FragMessage) {got : List Nat} {i : Nat} (hi : i < m.total)
    {table : FragmentTable} (hmeets : m.Meets table got i) {opcode : UInt16}
    (hopcode : i = 0 → opcode = m.opcode) :
    openGroup table (m.fragInfo i) opcode = m.group got := by
  rcases hmeets with ⟨rfl, rfl⟩ | ⟨h0, htable⟩
  · rw [openGroup_first table opcode rfl, hopcode rfl]
    have hfresh : List.replicate (UInt16.ofNat m.total).toNat false =
        (List.range m.total).map (fun i => decide (i ∈ ([] : List Nat))) := by
      rw [ofNat_toNat m.total_lt]
      simp
    simp only [group, fragInfo, hfresh]
    rfl
  · rw [openGroup_later table opcode (mt (m.fragCurr_eq_zero_iff hi).mp h0)]
    simp [fragInfo, htable]

theorem receive_group (m : FragMessage) (got : List Nat) (i : Nat) :
    (m.group got).receive i (m.piece i) = m.group (got ++ [i]) := by
  have hset : ((List.range m.total).map (fun j => decide (j ∈ got))).set i true =
      (List.range m.total).map (fun j => decide (j ∈ got ++ [i])) := by
    apply List.ext_getElem
    · simp
    · intro j h₁ h₂
      by_cases hij : i = j
      · simp [hij]
      · simp [List.getElem_set_ne hij, Ne.symm hij]
  have hcount : UInt16.ofNat got.length + 1 = UInt16.ofNat (got ++ [i]).length := by
    rw [List.length_append]
    exact (UInt16.ofNat_add got.length 1).symm
  simp only [FragmentGroup.receive, group, hset, hcount, List.map_append, List.flatten_append]
  simp

theorem group_received (m : FragMessage) {got : List Nat} {i : Nat} (hi : i < m.total)
    (hnew : i ∉ got) : (m.group got).received[i]? = some false := by
  simp [group, hi, hnew]

/-- A new piece of a message whose pieces `got` are in. -/
theorem receive_piece (m : FragMessage) {got : List Nat} {i : Nat} (hi : i < m.total)
    (hnew : i ∉ got) (hlen : got.length < m.total) (s : EQMacDecoder)
    (hmeets : m.Meets s.m_fragments got i) {opcode : UInt16}
    (hopcode : i = 0 → opcode = m.opcode) :
    processFragment s (m.fragInfo i) opcode (m.piece i) =
      if got.length + 1 = m.total then
        { state := s.store m.fragSeq none, msg := some (m.messageOf (got ++ [i]))
          exit := .complete }
      else
        { state := s.store m.fragSeq (some (m.group (got ++ [i]))), msg := none
          exit := .pending } := by
  have hlt := m.total_lt
  have htoNat : (m.fragInfo i).fragCurr.toNat = i := ofNat_toNat (by omega)
  have hcount : (m.group got).received_count + 1 = (m.group got).total ↔
      got.length + 1 = m.total := by
    have hadd : UInt16.ofNat got.length + 1 = UInt16.ofNat (got.length + 1) :=
      (UInt16.ofNat_add got.length 1).symm
    change UInt16.ofNat got.length + 1 = UInt16.ofNat m.total ↔ _
    rw [hadd, ofNat_eq_iff (by omega) hlt]
  have hrec : (m.group got).received[(m.fragInfo i).fragCurr.toNat]? = some false := by
    rw [htoNat]
    exact m.group_received hi hnew
  have hnext := m.receive_group got i
  obtain ⟨h, -⟩ | ⟨-, h, -⟩ | ⟨-, h, -⟩ | ⟨-, -, hc, hp⟩ | ⟨-, -, hc, hp⟩ :=
    processFragment_cases s (m.fragInfo i) opcode (m.piece i)
      (m.openGroup_piece hi hmeets hopcode)
  · exact absurd h (m.fragTotal_ne_zero i)
  · rw [hrec] at h
    cases h
  · rw [hrec] at h
    cases h
  · have hdata : ((m.group got).opcode, (m.group got).data ++ m.piece i) =
        m.messageOf (got ++ [i]) := by
      simp [group, messageOf]
    rw [hp, if_pos (hcount.mp hc), hdata]
    rfl
  · rw [hp, if_neg (mt hcount.mpr hc), htoNat, hnext]
    rfl

theorem hasOpcode_fragInfo (m : FragMessage) {i : Nat} (hi : i < m.total) :
    hasOpcode (some (m.fragInfo i)) = true ↔ i = 0 := by
  change ((m.fragInfo i).fragCurr == 0) = true ↔ i = 0
  rw [beq_iff_eq]
  exact m.fragCurr_eq_zero_iff hi

/-- The packet of a new piece, if it passes the filter. -/
theorem process_packet (m : FragMessage) {got : List Nat} {i : Nat} (hi : i < m.total)
    (hnew : i ∉ got) (hlen : got.length < m.total) (hpiece : i = 0 ∨ m.piece i ≠ [])
    (s : EQMacDecoder) (hmeets : m.Meets s.m_fragments got i) {f : Framing}
    (hfrag : f.hdr.a3_Fragment = true) {mark : Int}
    (hpass : passFilter s.m_lastArq f.arq = some mark) :
    process s (m.packet i f) =
      if got.length + 1 = m.total then
        { state := ({ s with m_lastArq := mark } : EQMacDecoder).store m.fragSeq none
          msg := some (m.messageOf (got ++ [i])), exit := .complete }
      else
        { state := ({ s with m_lastArq := mark } : EQMacDecoder).store m.fragSeq
            (some (m.group (got ++ [i])))
          msg := none, exit := .pending } := by
  have hop := m.hasOpcode_fragInfo hi
  have hbody : hasOpcode (some (m.fragInfo i)) = true ∨ m.piece i ≠ [] :=
    hpiece.imp hop.mpr id
  rw [packet, process_encode s f (some (m.fragInfo i)) m.opcode _ hpass hfrag hbody]
  exact m.receive_piece hi hnew hlen { s with m_lastArq := mark } hmeets
    fun h0 => if_pos (hop.mpr h0)

end FragMessage

/-! ## Interleaved messages -/

/-- Messages with pairwise distinct `fragSeq`. Only piece 0, which carries the opcode, may be
    empty. -/
structure MessageFamily (ι : Type) where
  msg : ι → FragMessage
  distinct : ∀ k k', (msg k).fragSeq = (msg k').fragSeq → k = k'
  later_ne_nil : ∀ k, ∀ p ∈ (msg k).pieces.tail, p ≠ []

/-- The packet with piece `i` of message `k`, or any other payload. -/
inductive Arrival (ι : Type) where
  | frag (k : ι) (i : Nat) (f : Framing)
  | other (buf : List UInt8)

section Interleaving

variable {ι : Type} [DecidableEq ι] (fam : MessageFamily ι)

namespace Arrival

/-- The packet that arrives. -/
def bytes : Arrival ι → List UInt8
  | frag k i f => (fam.msg k).packet i f
  | other buf => buf

/-- The arrival's piece, if it belongs to message `k`. -/
def indexOf (k : ι) : Arrival ι → Option Nat
  | frag k' i _ => if k' = k then some i else none
  | other _ => none

/-- What may be handed to `emitWithDecode` at the arrival: a fragment hands over its message when
    it is the last piece and nothing otherwise, another packet its own message or nothing. -/
def Hands : Arrival ι → Option AppPacket → Prop
  | frag k i _, msg =>
      msg = if i + 1 = (fam.msg k).total then some (fam.msg k).message else none
  | other buf, msg => msg = none ∨ msg = ownMessage buf

/-- The fragment flag is set on fragments and on nothing else. -/
def Flagged : Arrival ι → Prop
  | frag _ _ f => f.hdr.a3_Fragment = true
  | other buf => (headerOf buf).a3_Fragment = false

/-- The arrival passes the retransmit filter, if it is a fragment. -/
def Passes (s : EQMacDecoder) : Arrival ι → Prop
  | frag _ _ f => (passFilter s.m_lastArq f.arq).isSome = true
  | other _ => True

end Arrival

/-- The decoder after an arrival. -/
def arrive (s : EQMacDecoder) (e : Arrival ι) : EQMacDecoder := processStep s (e.bytes fam)

/-- What the packets of `es` hand to `emitWithDecode`, one entry an arrival. -/
def handedOver (s : EQMacDecoder) (es : List (Arrival ι)) : List (Option AppPacket) :=
  handed s (es.map (Arrival.bytes fam))

/-- The pieces of message `k`, in the order of their arrival. -/
def indices (k : ι) (es : List (Arrival ι)) : List Nat := es.filterMap (Arrival.indexOf k)

/-- What is handed over at the arrivals of message `k`'s pieces; `out` is in step with `es`. -/
def handedAt (k : ι) (es : List (Arrival ι)) (out : List (Option AppPacket)) : List AppPacket :=
  (es.zip out).filterMap (fun x => (x.1.indexOf k).bind (fun _ => x.2))

/-- An interleaving in which the pieces of each message arrive in index order, once each, and pass
    the filter. Messages may be cut short by the end of the capture. -/
structure Interleaving where
  arrivals : List (Arrival ι)
  in_order : ∀ k, indices k arrivals <+: List.range (fam.msg k).total
  flagged : ∀ e ∈ arrivals, e.Flagged
  pass : Machine.StepsMeet (arrive fam) Arrival.Passes reset arrivals

/-- The table entry once the first `n` pieces have arrived: none before the first piece and
    none after the last. -/
def FragMessage.entryAfter (m : FragMessage) (n : Nat) : Option FragmentGroup :=
  if n = 0 ∨ n = m.total then none else some (m.group (List.range n))

/-- The table holds of each message what its first `seen k` pieces leave. -/
def Tracks (s : EQMacDecoder) (seen : ι → Nat) : Prop :=
  ∀ k, s.m_fragments (fam.msg k).fragSeq = (fam.msg k).entryAfter (seen k)

variable {fam} {s : EQMacDecoder} {seen : ι → Nat}

omit [DecidableEq ι] in
theorem tracks_reset : Tracks fam reset (fun _ => 0) := by
  intro k
  simp [reset, FragMessage.entryAfter]

omit [DecidableEq ι] in
theorem later_piece_ne_nil (fam : MessageFamily ι) (k : ι) {i : Nat}
    (hi : i < (fam.msg k).total) (h0 : i ≠ 0) : (fam.msg k).piece i ≠ [] := by
  obtain ⟨j, rfl⟩ : ∃ j, i = j + 1 := ⟨i - 1, by omega⟩
  apply fam.later_ne_nil k
  have hj : j < (fam.msg k).pieces.tail.length := by
    rw [List.length_tail]
    exact Nat.lt_sub_of_add_lt hi
  rw [FragMessage.piece, List.getD_eq_getElem?_getD, ← List.getElem?_tail,
    List.getElem?_eq_getElem hj]
  exact List.getElem_mem hj

/-- The next piece of message `k`. -/
theorem arrive_frag (hs : Tracks fam s seen) (k : ι) {f : Framing}
    (hk : seen k < (fam.msg k).total) (hflag : f.hdr.a3_Fragment = true)
    (hpass : (passFilter s.m_lastArq f.arq).isSome = true) :
    Arrival.Hands fam (.frag k (seen k) f) (process s ((fam.msg k).packet (seen k) f)).msg ∧
      Tracks fam (arrive fam s (.frag k (seen k) f)) (Function.update seen k (seen k + 1)) := by
  obtain ⟨mark, hmark⟩ := Option.isSome_iff_exists.mp hpass
  have hpiece : seen k = 0 ∨ (fam.msg k).piece (seen k) ≠ [] :=
    (Decidable.em (seen k = 0)).imp_right (later_piece_ne_nil fam k hk)
  have hmeets : (fam.msg k).Meets s.m_fragments (List.range (seen k)) (seen k) := by
    by_cases h0 : seen k = 0
    · exact Or.inl ⟨h0, by simp [h0]⟩
    · have hne : seen k ≠ (fam.msg k).total := by omega
      exact Or.inr ⟨h0, by rw [hs k]; simp [FragMessage.entryAfter, h0, hne]⟩
  have hp := (fam.msg k).process_packet hk (by simp) (by simpa using hk) hpiece s hmeets hflag hmark
  rw [List.length_range, ← List.range_succ] at hp
  have hentry : (arrive fam s (.frag k (seen k) f)).m_fragments =
      Function.update s.m_fragments (fam.msg k).fragSeq
        ((fam.msg k).entryAfter (seen k + 1)) := by
    simp only [arrive, Arrival.bytes, processStep, hp, FragMessage.entryAfter]
    by_cases hlast : seen k + 1 = (fam.msg k).total <;> simp [hlast]
  constructor
  · simp only [Arrival.Hands, hp]
    by_cases hlast : seen k + 1 = (fam.msg k).total
    · simp [hlast, FragMessage.messageOf_range]
    · simp [hlast]
  · intro k'
    rw [hentry]
    by_cases hkk : k' = k
    · subst hkk
      simp
    · have hseq : (fam.msg k').fragSeq ≠ (fam.msg k).fragSeq := fun h => hkk (fam.distinct _ _ h)
      simpa [hkk, hseq] using hs k'

omit [DecidableEq ι] in
theorem arrive_other (hs : Tracks fam s seen) {buf : List UInt8}
    (hflag : (headerOf buf).a3_Fragment = false) :
    Tracks fam (arrive fam s (.other buf)) seen := by
  intro k
  rw [← hs k]
  exact congrFun (process_not_fragment s buf hflag) _

/-- The pieces in `es` continue those seen before, for each message. -/
def Continues (fam : MessageFamily ι) (seen : ι → Nat) (es : List (Arrival ι)) : Prop :=
  ∀ k, indices k es <+: List.range' (seen k) ((fam.msg k).total - seen k)

theorem indices_frag_self (k : ι) (i : Nat) (f : Framing) (es : List (Arrival ι)) :
    indices k (.frag k i f :: es) = i :: indices k es := by
  simp [indices, Arrival.indexOf]

theorem indices_frag_of_ne {k k' : ι} (h : k' ≠ k) (i : Nat) (f : Framing)
    (es : List (Arrival ι)) : indices k' (.frag k i f :: es) = indices k' es := by
  simp [indices, Arrival.indexOf, Ne.symm h]

/-- The first arrival is the next piece of its message, and the others continue from there. -/
theorem Continues.frag {k : ι} {i : Nat} {f : Framing} {es : List (Arrival ι)}
    (h : Continues fam seen (.frag k i f :: es)) :
    i = seen k ∧ seen k < (fam.msg k).total ∧
      Continues fam (Function.update seen k (seen k + 1)) es := by
  have hk := h k
  rw [indices_frag_self] at hk
  obtain ⟨n, hn⟩ : ∃ n, (fam.msg k).total - seen k = n + 1 := by
    have hlen := hk.length_le
    simp only [List.length_cons, List.length_range'] at hlen
    exact ⟨(fam.msg k).total - seen k - 1, by omega⟩
  rw [hn, List.range'_succ] at hk
  obtain ⟨rfl, hrest⟩ := List.cons_prefix_cons.mp hk
  refine ⟨rfl, by omega, fun k' => ?_⟩
  by_cases hkk : k' = k
  · subst hkk
    have hleft : (fam.msg k').total - (seen k' + 1) = n := by omega
    rwa [Function.update_self, hleft]
  · have hother := h k'
    rw [indices_frag_of_ne hkk] at hother
    rwa [Function.update_of_ne hkk]

theorem seen_frag (seen : ι → Nat) (k k' : ι) (i : Nat) (f : Framing) (es : List (Arrival ι)) :
    Function.update seen k (seen k + 1) k' + (indices k' es).length =
      seen k' + (indices k' (.frag k i f :: es)).length := by
  by_cases hkk : k' = k
  · subst hkk
    rw [Function.update_self, indices_frag_self, List.length_cons]
    omega
  · rw [Function.update_of_ne hkk, indices_frag_of_ne hkk]

/-- A run whose pieces continue those in the table. -/
theorem run_tracks (es : List (Arrival ι)) (hs : Tracks fam s seen)
    (hcont : Continues fam seen es) (hflag : ∀ e ∈ es, e.Flagged)
    (hpass : Machine.StepsMeet (arrive fam) Arrival.Passes s es) :
    List.Forall₂ (Arrival.Hands fam) es (handedOver fam s es) ∧
      Tracks fam (es.foldl (arrive fam) s) (fun k => seen k + (indices k es).length) := by
  induction es generalizing s seen with
  | nil => exact ⟨List.Forall₂.nil, hs⟩
  | cons e es ih =>
      obtain ⟨hflage, hflags⟩ := List.forall_mem_cons.mp hflag
      obtain ⟨hpasse, hpasses⟩ := hpass
      cases e with
      | other buf =>
          obtain ⟨hout, htracks⟩ := ih (arrive_other hs hflage) hcont hflags hpasses
          exact ⟨List.Forall₂.cons (process_own s buf hflage) hout, htracks⟩
      | frag k i f =>
          obtain ⟨rfl, hk, hcont⟩ := hcont.frag
          obtain ⟨houte, hnext⟩ := arrive_frag hs k hk hflage hpasse
          obtain ⟨hout, htracks⟩ := ih hnext hcont hflags hpasses
          refine ⟨List.Forall₂.cons houte hout, fun k' => ?_⟩
          have hk' := htracks k'
          dsimp only at hk' ⊢
          rw [← seen_frag seen k k' (seen k) f es]
          exact hk'

theorem Interleaving.run_tracks (c : Interleaving fam) {pre post : List (Arrival ι)}
    (h : c.arrivals = pre ++ post) :
    List.Forall₂ (Arrival.Hands fam) pre (handedOver fam reset pre) ∧
      Tracks fam (pre.foldl (arrive fam) reset) (fun k => (indices k pre).length) := by
  have hcont : Continues fam (fun _ => 0) pre := by
    intro k
    have horder := c.in_order k
    rw [h, indices, List.filterMap_append] at horder
    rw [List.range_eq_range'] at horder
    exact (List.prefix_append _ _).trans horder
  have hflag : ∀ e ∈ pre, e.Flagged := fun e he => c.flagged e (by simp [h, he])
  have hpass := c.pass
  rw [h, Machine.stepsMeet_append] at hpass
  have hrun := Decoder.run_tracks pre tracks_reset hcont hflag hpass.1
  simpa using hrun

theorem handedAt_frag_self (k : ι) (i : Nat) (f : Framing) (es : List (Arrival ι))
    (msg : Option AppPacket) (out : List (Option AppPacket)) :
    handedAt k (.frag k i f :: es) (msg :: out) = msg.toList ++ handedAt k es out := by
  cases msg <;> simp [handedAt, Arrival.indexOf]

theorem handedAt_frag_of_ne {k k' : ι} (h : k' ≠ k) (i : Nat) (f : Framing)
    (es : List (Arrival ι)) (msg : Option AppPacket) (out : List (Option AppPacket)) :
    handedAt k' (.frag k i f :: es) (msg :: out) = handedAt k' es out := by
  simp [handedAt, Arrival.indexOf, Ne.symm h]

/-- What is handed over at the pieces of message `k`: the message, at each piece that is last. -/
theorem handedAt_eq (k : ι) {es : List (Arrival ι)} {out : List (Option AppPacket)}
    (h : List.Forall₂ (Arrival.Hands fam) es out) :
    handedAt k es out = (indices k es).filterMap (fun i =>
      if i + 1 = (fam.msg k).total then some (fam.msg k).message else none) := by
  induction h with
  | nil => rfl
  | @cons e msg es out hmsg _ ih =>
      cases e with
      | other buf => exact ih
      | frag k' i f =>
          by_cases hkk : k = k'
          · subst hkk
            rw [handedAt_frag_self, indices_frag_self, List.filterMap_cons, ih, hmsg]
            by_cases hlast : i + 1 = (fam.msg k).total
            · simp [hlast]
            · simp [hlast]
          · rw [handedAt_frag_of_ne hkk, indices_frag_of_ne hkk, ih]

/-- Out of the arrivals of a message with all its pieces, exactly the last hands it over. -/
theorem handedAt_once {k : ι} {es : List (Arrival ι)} {out : List (Option AppPacket)}
    (h : List.Forall₂ (Arrival.Hands fam) es out)
    (hk : indices k es = List.range (fam.msg k).total) :
    handedAt k es out = [(fam.msg k).message] := by
  obtain ⟨n, hn⟩ : ∃ n, (fam.msg k).total = n + 1 :=
    ⟨(fam.msg k).total - 1, by have := (fam.msg k).total_pos; omega⟩
  have hbefore : (List.range n).filterMap (fun i =>
      if i + 1 = n + 1 then some (fam.msg k).message else none) = [] := by
    rw [List.filterMap_eq_nil_iff]
    intro i hi
    have hlt := List.mem_range.mp hi
    exact if_neg (by omega)
  rw [handedAt_eq k h, hk, hn, List.range_succ, List.filterMap_append, hbefore]
  simp

/-- Every family of messages, every interleaving: what each arrival hands to `emitWithDecode`,
    a message with all its pieces handed over once and at its last piece, and no entry left of
    it from then on. -/
theorem reassembly (c : Interleaving fam) :
    let out := handedOver fam reset c.arrivals
    List.Forall₂ (Arrival.Hands fam) c.arrivals out ∧
    (∀ k, indices k c.arrivals = List.range (fam.msg k).total →
      handedAt k c.arrivals out = [(fam.msg k).message]) ∧
    (∀ pre post k, c.arrivals = pre ++ post → indices k pre = List.range (fam.msg k).total →
      (pre.foldl (arrive fam) reset).m_fragments (fam.msg k).fragSeq = none) := by
  have hout := (c.run_tracks (List.append_nil _).symm).1
  refine ⟨hout, fun k hk => handedAt_once hout hk, fun pre post k hpre hk => ?_⟩
  have htracks := (c.run_tracks hpre).2 k
  dsimp only at htracks
  rw [htracks, hk, List.length_range]
  simp [FragMessage.entryAfter]

end Interleaving

end ShoweqDaemon.Decoder
