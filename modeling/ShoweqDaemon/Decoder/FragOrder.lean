/-
  The fragments of one message without `dwARQ`, in any order.

  `process` appends pieces in arrival order and keeps no place for a late one.
  `fragments_any_order`: from any state and for every order of arrival, the message is emitted
  exactly when piece 0 comes first and no later piece is empty, once, with the last packet,
  and its body is the pieces in the order they came.

  A `Shuffle` is a list of arrivals in which every piece comes once. An arrival is a packet laid
  out by the sender, so its length field and its framing are right.

  Proved:
  * `emissions_orphans`, `process_empty_piece`: what comes before piece 0, and a piece without
    bytes.
  * `fragments_any_order`: the exact condition, the moment and the body, from any state.
  * `overtaken_scrambled`: three pieces of which the last two change places are emitted scrambled.
-/
import Mathlib.Data.List.Perm.Basic
import ShoweqDaemon.Decoder.Reassembly

namespace ShoweqDaemon.Decoder

/-- One fragment packet without `dwARQ`: the index of its piece and its framing. -/
structure FragArrival where
  index : Nat
  framing : Framing
  is_fragment : framing.hdr.a3_Fragment = true
  no_arq : framing.hdr.a1_ARQ = false

/-- All fragments of `m`, once each, in any order. -/
structure Shuffle (m : FragMessage) where
  arrivals : List FragArrival
  perm : (arrivals.map FragArrival.index).Perm (List.range m.total)

section

variable (m : FragMessage)

/-- The packet that arrives. -/
def FragArrival.bytes (a : FragArrival) : List UInt8 := m.packet a.index a.framing

/-- The decoder after an arrival. -/
def receiveStep (s : EQMacDecoder) (a : FragArrival) : EQMacDecoder := processStep s (a.bytes m)

/-- What each packet hands to `emitWithDecode`. -/
def emissions (s : EQMacDecoder) (as : List FragArrival) : List (Option AppPacket) :=
  Machine.outputs (receiveStep m) (fun s a => (process s (a.bytes m)).msg) s as

variable {m}

theorem emissions_cons (s : EQMacDecoder) (a : FragArrival) (as : List FragArrival) :
    emissions m s (a :: as) = (process s (a.bytes m)).msg :: emissions m (receiveStep m s a) as := rfl

theorem FragArrival.passes (a : FragArrival) (s : EQMacDecoder) :
    passFilter s.m_lastArq a.framing.arq = some s.m_lastArq := by
  simp [Framing.arq, a.no_arq, passFilter]

/-- A later piece without bytes leaves everything as it was. -/
theorem process_empty_piece (s : EQMacDecoder) {a : FragArrival} (hi : a.index < m.total)
    (h0 : a.index ≠ 0) (hpiece : m.piece a.index = []) :
    process s (a.bytes m) = { state := s, msg := none, exit := .noRoom } := by
  have hop : hasOpcode (some (m.fragInfo a.index)) = false :=
    Bool.eq_false_iff.mpr (mt (m.hasOpcode_fragInfo hi).mp h0)
  rw [FragArrival.bytes, FragMessage.packet, hpiece]
  exact process_encode_empty s a.framing _ m.opcode (a.passes s) a.is_fragment hop

/-- A later piece of a message that has no group is dropped. -/
theorem process_orphan (s : EQMacDecoder) {a : FragArrival} (hi : a.index < m.total)
    (h0 : a.index ≠ 0) (hs : s.m_fragments m.fragSeq = none) :
    (process s (a.bytes m)).msg = none ∧
      (receiveStep m s a).m_fragments m.fragSeq = none := by
  by_cases hpiece : m.piece a.index = []
  · simp [receiveStep, processStep, process_empty_piece s hi h0 hpiece, hs]
  · have hp := process_encode s a.framing (some (m.fragInfo a.index)) m.opcode (m.piece a.index)
      (a.passes s) a.is_fragment (Or.inr hpiece)
    have hempty (opcode : UInt16) :
        openGroup s.m_fragments (m.fragInfo a.index) opcode = FragmentGroup.empty := by
      rw [openGroup_later _ _ (mt (m.fragCurr_eq_zero_iff hi).mp h0)]
      simp [FragMessage.fragInfo, hs]
    have hpast (opcode : UInt16) (payload : List UInt8) :
        processFragment s (m.fragInfo a.index) opcode payload =
          { state := s.store m.fragSeq none, msg := none, exit := .pastTotal } := by
      obtain ⟨h, -⟩ | ⟨-, -, h⟩ | ⟨-, h, -⟩ | ⟨-, h, -⟩ | ⟨-, h, -⟩ :=
        processFragment_cases s (m.fragInfo a.index) opcode payload (hempty opcode)
      · exact absurd h (m.fragTotal_ne_zero a.index)
      · exact h
      · simp [FragmentGroup.empty] at h
      · simp [FragmentGroup.empty] at h
      · simp [FragmentGroup.empty] at h
    have hstep : process s (a.bytes m) =
        { state := s.store m.fragSeq none, msg := none, exit := .pastTotal } := by
      rw [FragArrival.bytes, FragMessage.packet, hp]
      exact hpast _ _
    simp [receiveStep, processStep, hstep]

theorem emissions_orphans {s : EQMacDecoder} {as : List FragArrival}
    (hlt : ∀ a ∈ as, a.index < m.total) (h0 : ∀ a ∈ as, a.index ≠ 0)
    (hs : s.m_fragments m.fragSeq = none) :
    emissions m s as = List.replicate as.length none := by
  induction as generalizing s with
  | nil => rfl
  | cons a as ih =>
      obtain ⟨hlta, hlt⟩ := List.forall_mem_cons.mp hlt
      obtain ⟨h0a, h0⟩ := List.forall_mem_cons.mp h0
      obtain ⟨hmsg, hnext⟩ := process_orphan s hlta h0a hs
      exact congrArg₂ List.cons hmsg (ih hlt h0 hnext)

/-- A new piece with bytes, of a message with pieces `got` in. -/
theorem process_new {s : EQMacDecoder} {got : List Nat} {a : FragArrival}
    (hmeets : m.Meets s.m_fragments got a.index) (hi : a.index < m.total) (hnew : a.index ∉ got)
    (hlen : got.length < m.total) (hpiece : a.index = 0 ∨ m.piece a.index ≠ []) :
    process s (a.bytes m) =
      if got.length + 1 = m.total then
        { state := s.store m.fragSeq none, msg := some (m.messageOf (got ++ [a.index]))
          exit := .complete }
      else
        { state := s.store m.fragSeq (some (m.group (got ++ [a.index]))), msg := none
          exit := .pending } :=
  m.process_packet hi hnew hlen hpiece s hmeets a.is_fragment (a.passes s)

/-- What it emits, and the group it leaves. -/
theorem receive_new {s : EQMacDecoder} {got : List Nat} {a : FragArrival}
    (hmeets : m.Meets s.m_fragments got a.index) (hi : a.index < m.total) (hnew : a.index ∉ got)
    (hlen : got.length < m.total) (hpiece : a.index = 0 ∨ m.piece a.index ≠ []) :
    (process s (a.bytes m)).msg =
        (if got.length + 1 = m.total then some (m.messageOf (got ++ [a.index])) else none) ∧
      (got.length + 1 ≠ m.total →
        (receiveStep m s a).m_fragments m.fragSeq = some (m.group (got ++ [a.index]))) := by
  have hp := process_new hmeets hi hnew hlen hpiece
  by_cases hwhole : got.length + 1 = m.total
  · rw [if_pos hwhole] at hp
    rw [hp, if_pos hwhole]
    exact ⟨rfl, fun hne => absurd hwhole hne⟩
  · rw [if_neg hwhole] at hp
    rw [receiveStep, processStep, hp, if_neg hwhole]
    exact ⟨rfl, fun _ => by simp⟩

/-- The first piece starts the group, in any state. -/
theorem receive_first (s : EQMacDecoder) {a : FragArrival} (ha : a.index = 0) :
    (process s (a.bytes m)).msg = (if 1 = m.total then some (m.messageOf [0]) else none) ∧
      (1 ≠ m.total → (receiveStep m s a).m_fragments m.fragSeq = some (m.group [0])) := by
  have hpos := m.total_pos
  have hnew := receive_new (s := s) (m := m) (Or.inl ⟨ha, rfl⟩) (by omega) List.not_mem_nil hpos
    (Or.inl ha)
  rwa [List.nil_append, List.length_nil, Nat.zero_add, ha] at hnew

/-- Too few pieces with bytes to come: nothing is emitted. -/
theorem emissions_short {s : EQMacDecoder} {got : List Nat} {as : List FragArrival}
    (hs : s.m_fragments m.fragSeq = some (m.group got))
    (hlt : ∀ a ∈ as, a.index < m.total) (h0 : ∀ a ∈ as, a.index ≠ 0)
    (hnodup : (got ++ as.map FragArrival.index).Nodup)
    (hlen : got.length + (as.filter (fun a => m.piece a.index ≠ [])).length < m.total) :
    emissions m s as = List.replicate as.length none := by
  induction as generalizing s got with
  | nil => rfl
  | cons a as ih =>
      obtain ⟨hlta, hlt⟩ := List.forall_mem_cons.mp hlt
      obtain ⟨h0a, h0⟩ := List.forall_mem_cons.mp h0
      have hnew : a.index ∉ got := by
        intro hmem
        exact (List.nodup_append.mp hnodup).2.2 _ hmem _ (by simp) rfl
      by_cases hpiece : m.piece a.index = []
      · have hp := process_empty_piece s hlta h0a hpiece
        have hskip : (got ++ as.map FragArrival.index).Nodup :=
          hnodup.sublist (List.Sublist.append_left (by simp) got)
        have hnext := ih hs hlt h0 hskip (by simpa [hpiece] using hlen)
        have hstep : receiveStep m s a = s := by rw [receiveStep, processStep, hp]
        rw [emissions_cons, hstep, hp]
        exact congrArg (List.cons none) hnext
      · have hfilter : got.length +
            ((as.filter (fun a => m.piece a.index ≠ [])).length + 1) < m.total := by
          simpa [hpiece] using hlen
        obtain ⟨hmsg, hopen⟩ :=
          receive_new (Or.inr ⟨h0a, hs⟩) hlta hnew (by omega) (Or.inr hpiece)
        rw [if_neg (by omega)] at hmsg
        have hnext := ih (hopen (by omega)) hlt h0 (by simpa using hnodup)
          (by rw [List.length_append]; simp only [List.length_cons, List.length_nil]; omega)
        rw [emissions_cons, hmsg]
        exact congrArg (List.cons none) hnext

/-- Exactly the missing pieces to come, none without bytes: the last one emits the message. -/
theorem emissions_whole {s : EQMacDecoder} {got : List Nat} {as : List FragArrival}
    (hs : s.m_fragments m.fragSeq = some (m.group got)) (has : as ≠ [])
    (hlt : ∀ a ∈ as, a.index < m.total) (h0 : ∀ a ∈ as, a.index ≠ 0)
    (hnodup : (got ++ as.map FragArrival.index).Nodup)
    (hpieces : ∀ a ∈ as, m.piece a.index ≠ []) (hlen : got.length + as.length = m.total) :
    emissions m s as = List.replicate (as.length - 1) none ++
      [some (m.messageOf (got ++ as.map FragArrival.index))] := by
  induction as generalizing s got with
  | nil => exact absurd rfl has
  | cons a as ih =>
      obtain ⟨hlta, hlt⟩ := List.forall_mem_cons.mp hlt
      obtain ⟨h0a, h0⟩ := List.forall_mem_cons.mp h0
      obtain ⟨hpiece, hpieces⟩ := List.forall_mem_cons.mp hpieces
      have hnew : a.index ∉ got := by
        intro hmem
        exact (List.nodup_append.mp hnodup).2.2 _ hmem _ (by simp) rfl
      rw [List.length_cons] at hlen
      obtain ⟨hmsg, hopen⟩ := receive_new (Or.inr ⟨h0a, hs⟩) hlta hnew (by omega) (Or.inr hpiece)
      rw [emissions_cons]
      cases as with
      | nil =>
          rw [if_pos (by simpa using hlen)] at hmsg
          rw [hmsg]
          rfl
      | cons b bs =>
          rw [List.length_cons] at hlen
          rw [if_neg (by omega)] at hmsg
          have hnext := ih (hopen (by omega)) (by simp) hlt h0 (by simpa using hnodup) hpieces
            (by rw [List.length_append]; simp only [List.length_cons, List.length_nil]; omega)
          rw [hmsg]
          simp only [List.append_assoc, List.singleton_append] at hnext
          exact congrArg (List.cons none) hnext

theorem Shuffle.length_eq (c : Shuffle m) : c.arrivals.length = m.total := by
  simpa using c.perm.length_eq

theorem Shuffle.index_lt (c : Shuffle m) : ∀ a ∈ c.arrivals, a.index < m.total := by
  intro a ha
  exact List.mem_range.mp (c.perm.mem_iff.mp (List.mem_map_of_mem ha))

theorem Shuffle.nodup (c : Shuffle m) : (c.arrivals.map FragArrival.index).Nodup :=
  c.perm.nodup_iff.mpr List.nodup_range

/-- Piece 0 comes once. -/
theorem Shuffle.index_ne_zero (c : Shuffle m) {pre rest : List FragArrival} {a : FragArrival}
    (h : c.arrivals = pre ++ a :: rest) (ha : a.index = 0) :
    (∀ b ∈ pre, b.index ≠ 0) ∧ ∀ b ∈ rest, b.index ≠ 0 := by
  have hnodup := c.nodup
  rw [h, List.map_append, List.map_cons, ha] at hnodup
  obtain ⟨-, htail, hdisj⟩ := List.nodup_append.mp hnodup
  constructor
  · intro b hb
    exact hdisj _ (List.mem_map_of_mem hb) _ (by simp)
  · intro b hb hb0
    exact (List.nodup_cons.mp htail).1 (List.mem_map.mpr ⟨b, hb, hb0⟩)

/-- The pieces from piece 0 on, when `pre` came before it. -/
theorem emissions_from_zero (c : Shuffle m) (s : EQMacDecoder) (pre : List FragArrival)
    {rest : List FragArrival} {a : FragArrival} (h : c.arrivals = pre ++ a :: rest) (ha : a.index = 0) :
    emissions m s (a :: rest) = List.replicate rest.length none ++
      [if pre = [] ∧ ∀ b ∈ rest, m.piece b.index ≠ [] then
        some (m.messageOf (c.arrivals.map FragArrival.index)) else none] := by
  have hlength := c.length_eq
  rw [h, List.length_append, List.length_cons] at hlength
  have hlt : ∀ b ∈ rest, b.index < m.total := fun b hb => c.index_lt b (by simp [h, hb])
  have h0 := (c.index_ne_zero h ha).2
  have hnodup : ([0] ++ rest.map FragArrival.index).Nodup := by
    have hall := c.nodup
    rw [h, List.map_append, List.map_cons, ha] at hall
    exact (List.nodup_append.mp hall).2.1
  have hpos := m.total_pos
  obtain ⟨hmsg, hopen⟩ := receive_first (m := m) s ha
  rw [emissions_cons]
  by_cases hwhole : pre = [] ∧ ∀ b ∈ rest, m.piece b.index ≠ []
  · obtain ⟨rfl, hpieces⟩ := hwhole
    rw [if_pos ⟨rfl, hpieces⟩, h, List.nil_append, List.map_cons, ha]
    cases rest with
    | nil =>
        rw [if_pos (by simpa using hlength)] at hmsg
        rw [hmsg]
        rfl
    | cons b bs =>
        rw [List.length_nil, List.length_cons] at hlength
        rw [if_neg (by omega)] at hmsg
        rw [hmsg, emissions_whole (hopen (by omega)) (by simp) hlt h0 hnodup hpieces
          (by simp only [List.length_cons, List.length_nil]; omega)]
        rfl
  · rw [if_neg hwhole]
    -- some piece never joins the group
    have hfew : (rest.filter (fun b => m.piece b.index ≠ [])).length + 1 < m.total := by
      by_cases hpre : pre = []
      · obtain ⟨b, hb, hempty⟩ : ∃ b ∈ rest, m.piece b.index = [] := by
          simpa [hpre] using hwhole
        have hlost : (rest.filter (fun b => m.piece b.index ≠ [])).length < rest.length :=
          List.length_filter_lt_length_iff_exists.mpr ⟨b, hb, by simp [hempty]⟩
        rw [hpre, List.length_nil] at hlength
        omega
      · have hlen := List.length_pos_iff.mpr hpre
        have hle := List.length_filter_le (fun b => decide (m.piece b.index ≠ [])) rest
        omega
    have hshort := emissions_short (hopen (by omega)) hlt h0 hnodup
      (by simp only [List.length_cons, List.length_nil]; omega)
    rw [if_neg (by omega)] at hmsg
    rw [hmsg, hshort, ← List.replicate_succ', List.replicate_succ]

/-- For every state, every message and every order of its fragments: with piece 0 in front the
    message is emitted with the last packet, its body in the order of arrival, unless a later piece
    is empty; and with piece 0 anywhere else nothing is emitted from it on, nor before it where the
    table has no group with this number. -/
theorem fragments_any_order (m : FragMessage) (s : EQMacDecoder) (c : Shuffle m) :
    (∀ a rest, c.arrivals = a :: rest → a.index = 0 →
      emissions m s c.arrivals = List.replicate rest.length none ++
        [if ∀ b ∈ rest, m.piece b.index ≠ [] then
          some (m.messageOf (c.arrivals.map FragArrival.index)) else none]) ∧
    (∀ pre a rest, c.arrivals = pre ++ a :: rest → pre ≠ [] → a.index = 0 →
      emissions m (pre.foldl (receiveStep m) s) (a :: rest) =
        List.replicate (rest.length + 1) none ∧
      (s.m_fragments m.fragSeq = none →
        emissions m s c.arrivals = List.replicate m.total none)) := by
  refine ⟨fun a rest h ha => ?_, fun pre a rest h hpre ha => ?_⟩
  · have hzero := emissions_from_zero c s [] h ha
    rw [← h] at hzero
    simpa using hzero
  · have hzero := emissions_from_zero c (pre.foldl (receiveStep m) s) pre h ha
    rw [if_neg (fun hw => hpre hw.1), ← List.replicate_succ'] at hzero
    refine ⟨hzero, fun hs => ?_⟩
    have hlt : ∀ b ∈ pre, b.index < m.total := fun b hb => c.index_lt b (by simp [h, hb])
    have hbefore := emissions_orphans hlt (c.index_ne_zero h ha).1 hs
    have hsplit : emissions m s c.arrivals =
        emissions m s pre ++ emissions m (pre.foldl (receiveStep m) s) (a :: rest) := by
      rw [h]
      exact Machine.outputs_append _ _ s pre (a :: rest)
    have hlength := c.length_eq
    rw [h, List.length_append, List.length_cons] at hlength
    rw [hsplit, hbefore, hzero, List.replicate_append_replicate, hlength]

/-- A fragment in a packet with no optional field but the fragment info. -/
def bareFragment (index : Nat) : FragArrival where
  index := index
  framing := .bare 0x08 0 rfl rfl
  is_fragment := show (hdrInfo 0x08 0).a3_Fragment = true by decide
  no_arq := show (hdrInfo 0x08 0).a1_ARQ = false by decide

/-- A message of three pieces. -/
def threePieces : FragMessage where
  fragSeq := 7
  opcode := 0x4041
  pieces := [[1], [2], [3]]
  pieces_ne_nil := by decide
  pieces_le := by decide

/-- Piece 2 overtakes piece 1. -/
def overtaken : Shuffle threePieces where
  arrivals := [bareFragment 0, bareFragment 2, bareFragment 1]
  perm := by decide

theorem overtaken_scrambled :
    ¬ ∀ (m : FragMessage) (s : EQMacDecoder) (c : Shuffle m) (out : AppPacket),
      some out ∈ emissions m s c.arrivals → out.2 = m.pieces.flatten := by
  intro h
  have hzero : emissions threePieces reset
      (bareFragment 0 :: [bareFragment 2, bareFragment 1]) = _ :=
    emissions_from_zero overtaken reset [] rfl rfl
  have hbody := h threePieces reset overtaken (0x4041, [1, 3, 2])
    (by rw [show overtaken.arrivals = bareFragment 0 :: _ from rfl, hzero]; decide)
  revert hbody
  decide

end

end ShoweqDaemon.Decoder
