/-
  The fragment table in every state that a decoder can reach.

  `addedPiece` is the piece that a packet adds to its group, `piecesOf` what a run has added to
  one group since the group was opened. `WellFormed` ties a group to these: how many bits are set,
  and what the buffer holds. `processFragment_groups` is the step lemma; an entry that `operator[]`
  made for a later fragment is erased in the same step.

  Proved:
  * `FragmentGroup.WellFormed.receive`, `wellFormed_first`: a piece that comes to a group, and one
    that opens it.
  * `process_groups`: what any packet, a fragment or not, leaves of the table.
  * `reachable_groups`: in every state that is reached from `reset`, whatever the decoder is fed,
    each group in the table is well formed.
-/
import Mathlib.Data.List.ReduceOption
import ShoweqDaemon.Decoder.Grammar

namespace ShoweqDaemon.Decoder

/-! ## What was added -/

/-- A fragment with its payload. -/
structure Piece where
  info : FragInfo
  payload : List UInt8

/-- The fields of a packet that can be parsed. -/
def parsedBody (buf : List UInt8) : Option Body :=
  match arqFields buf with
  | .ok p => (bodyFields buf p).toOption
  | .error _ => none

/-- The exits that a piece which was added leads to. -/
def Exit.adds (e : Exit) : Prop := e = .pending ∨ e = .complete

instance : DecidablePred Exit.adds := fun e =>
  inferInstanceAs (Decidable (e = .pending ∨ e = .complete))

/-- The piece that the packet adds to its group. -/
def addedPiece (s : EQMacDecoder) (buf : List UInt8) : Option Piece :=
  if (process s buf).exit.adds then
    (parsedBody buf).bind fun body => body.frag.map fun info => { info, payload := body.payload }
  else none

/-- The pieces that a run adds, in the order of their arrival. -/
def added (s : EQMacDecoder) (bufs : List (List UInt8)) : List Piece :=
  (Machine.outputs processStep addedPiece s bufs).reduceOption

/-- The first fragment of a group starts anew. -/
def collect (fragSeq : UInt16) (got : List Piece) (p : Piece) : List Piece :=
  if p.info.fragSeq = fragSeq then
    if p.info.fragCurr = 0 then [p] else got ++ [p]
  else got

/-- The pieces of a group since its first fragment came last. -/
def piecesOf (fragSeq : UInt16) (ps : List Piece) : List Piece := ps.foldl (collect fragSeq) []

theorem piecesOf_append (fragSeq : UInt16) (ps : List Piece) (p : Piece) :
    piecesOf fragSeq (ps ++ [p]) = collect fragSeq (piecesOf fragSeq ps) p :=
  List.foldl_append

theorem collect_of_ne {fragSeq : UInt16} (got : List Piece) {p : Piece}
    (h : p.info.fragSeq ≠ fragSeq) : collect fragSeq got p = got := if_neg h

theorem collect_first {p : Piece} (got : List Piece) (h : p.info.fragCurr = 0) :
    collect p.info.fragSeq got p = [p] := by
  rw [collect, if_pos rfl, if_pos h]

theorem collect_later {p : Piece} (got : List Piece) (h : p.info.fragCurr ≠ 0) :
    collect p.info.fragSeq got p = got ++ [p] := by
  rw [collect, if_pos rfl, if_neg h]

/-! ## Groups -/

/-- A group with the pieces `got`: its bits are as many as it has pieces in all, the first one is
    set, the counter is the number of those set and below the total, and the buffer holds the pieces
    in the order they came. -/
structure FragmentGroup.WellFormed (fg : FragmentGroup) (got : List Piece) : Prop where
  total_pos : 1 ≤ fg.total.toNat
  size : fg.received.length = fg.total.toNat
  first : fg.received[0]? = some true
  count : fg.received_count.toNat = fg.received.count true
  short : fg.received_count.toNat < fg.total.toNat
  data : fg.data = (got.map Piece.payload).flatten

/-- Every group in the table, with the pieces that were added. -/
def GroupsWellFormed (table : FragmentTable) (ps : List Piece) : Prop :=
  ∀ fragSeq fg, table fragSeq = some fg → fg.WellFormed (piecesOf fragSeq ps)

theorem count_set_true {l : List Bool} {i : ℕ} (h : l[i]? = some false) :
    (l.set i true).count true = l.count true + 1 := by
  obtain ⟨hi, hbit⟩ := List.getElem?_eq_some_iff.mp h
  rw [List.count_set hi, hbit]
  rfl

/-- One more, as long as there is room. -/
theorem toNat_succ_count {count total : UInt16} (h : count.toNat < total.toNat) :
    (count + 1).toNat = count.toNat + 1 := by
  have htotal := total.toNat_lt
  rw [UInt16.toNat_add]
  exact Nat.mod_eq_of_lt (by show count.toNat + 1 < 65536; omega)

/-- A group that takes one more piece and is not whole. -/
theorem FragmentGroup.WellFormed.receive {fg : FragmentGroup} {got : List Piece}
    (h : fg.WellFormed got) {p : Piece} (hnew : fg.received[p.info.fragCurr.toNat]? = some false)
    (hmore : fg.received_count + 1 ≠ fg.total) :
    (fg.receive p.info.fragCurr.toNat p.payload).WellFormed (got ++ [p]) := by
  have hsucc := toNat_succ_count h.short
  have hne : fg.received_count.toNat + 1 ≠ fg.total.toNat := by
    rw [← hsucc]
    exact mt UInt16.toNat_inj.mp hmore
  have hshort := h.short
  refine ⟨h.total_pos, ?_, ?_, ?_, ?_, ?_⟩
  · show (fg.received.set _ true).length = fg.total.toNat
    rw [List.length_set, h.size]
  · show (fg.received.set _ true)[0]? = _
    rw [List.getElem?_set]
    split
    · exact if_pos (by have := h.total_pos; have := h.size; omega)
    · exact h.first
  · show (fg.received_count + 1).toNat = (fg.received.set _ true).count true
    rw [hsucc, h.count, count_set_true hnew]
  · show (fg.received_count + 1).toNat < _
    rw [hsucc]
    show fg.received_count.toNat + 1 < fg.total.toNat
    omega
  · show fg.data ++ p.payload = _
    rw [h.data, List.map_append, List.flatten_append]
    simp

/-- A group of more than one fragment that was opened with its first. -/
theorem wellFormed_first (table : FragmentTable) {p : Piece} (opcode : UInt16)
    (hcurr : p.info.fragCurr = 0) (htotal : p.info.fragTotal ≠ 0)
    (hmore : (openGroup table p.info opcode).received_count + 1 ≠
      (openGroup table p.info opcode).total) :
    ((openGroup table p.info opcode).receive p.info.fragCurr.toNat p.payload).WellFormed [p] := by
  have hpos : 0 < p.info.fragTotal.toNat :=
    Nat.pos_of_ne_zero fun h0 => htotal (UInt16.toNat_inj.mp h0)
  have hnew : (List.replicate p.info.fragTotal.toNat false)[0]? = some false :=
    List.getElem?_replicate_of_lt hpos
  rw [openGroup_first table opcode hcurr] at hmore ⊢
  rw [hcurr]
  have hone : p.info.fragTotal.toNat ≠ 1 := by
    intro h1
    exact hmore (UInt16.toNat_inj.mp h1.symm)
  refine ⟨hpos, ?_, ?_, ?_, ?_, ?_⟩
  · simp [FragmentGroup.receive]
  · simp [FragmentGroup.receive, hpos]
  · show 1 = ((List.replicate p.info.fragTotal.toNat false).set 0 true).count true
    rw [count_set_true hnew, List.count_replicate]
    rfl
  · show 1 < p.info.fragTotal.toNat
    omega
  · simp [FragmentGroup.receive]

/-! ## One step -/

/-- Nothing was added and no group is new. -/
theorem groups_of_kept {table table' : FragmentTable} {ps : List Piece}
    (h : GroupsWellFormed table ps)
    (hkept : ∀ fragSeq fg, table' fragSeq = some fg → table fragSeq = some fg) :
    GroupsWellFormed table' ps :=
  fun fragSeq fg hfg => h fragSeq fg (hkept fragSeq fg hfg)

theorem erase_kept (table : FragmentTable) (erased : UInt16) (fragSeq : UInt16)
    (fg : FragmentGroup) (h : Function.update table erased none fragSeq = some fg) :
    fragSeq ≠ erased ∧ table fragSeq = some fg := by
  by_cases hseq : fragSeq = erased
  · rw [hseq, Function.update_self] at h
    cases h
  · rw [Function.update_of_ne hseq] at h
    exact ⟨hseq, h⟩

/-- A later fragment that is new to its group finds it in the table. -/
theorem openGroup_of_new {table : FragmentTable} {f : FragInfo} {opcode : UInt16}
    (hcurr : f.fragCurr ≠ 0)
    (hnew : (openGroup table f opcode).received[f.fragCurr.toNat]? = some false) :
    table f.fragSeq = some (openGroup table f opcode) := by
  rw [openGroup_later table opcode hcurr] at hnew ⊢
  cases htable : table f.fragSeq with
  | none =>
      rw [htable] at hnew
      exact nomatch hnew
  | some fg => rfl

/-- What the fragment branch leaves of the groups. -/
theorem processFragment_groups {s : EQMacDecoder} {ps : List Piece}
    (h : GroupsWellFormed s.m_fragments ps) (p : Piece) (opcode : UInt16) :
    GroupsWellFormed (processFragment s p.info opcode p.payload).state.m_fragments
      (if (processFragment s p.info opcode p.payload).exit.adds then ps ++ [p] else ps) := by
  obtain ⟨-, hp⟩ | ⟨-, -, hp⟩ | ⟨-, hseen, hp⟩ | ⟨-, -, -, hp⟩ | ⟨htotal, hnew, hmore, hp⟩ :=
    processFragment_cases s p.info opcode p.payload rfl
  · rw [hp]
    exact h
  · rw [hp]
    exact groups_of_kept h fun fragSeq fg hfg => (erase_kept _ _ fragSeq fg hfg).2
  · rw [hp]
    have hstored := openGroup_of_received hseen
    refine groups_of_kept h fun fragSeq fg hfg => ?_
    simpa [← hstored] using hfg
  · rw [hp]
    intro fragSeq fg hfg
    obtain ⟨hseq, hold⟩ := erase_kept _ _ fragSeq fg hfg
    show fg.WellFormed (piecesOf fragSeq (ps ++ [p]))
    rw [piecesOf_append, collect_of_ne _ (Ne.symm hseq)]
    exact h fragSeq fg hold
  · rw [hp]
    intro fragSeq fg hfg
    show fg.WellFormed (piecesOf fragSeq (ps ++ [p]))
    rw [piecesOf_append]
    by_cases hseq : fragSeq = p.info.fragSeq
    · subst hseq
      obtain rfl : _ = fg := by simpa using hfg
      by_cases hcurr : p.info.fragCurr = 0
      · rw [collect_first _ hcurr]
        exact wellFormed_first s.m_fragments opcode hcurr htotal hmore
      · rw [collect_later _ hcurr]
        exact (h _ _ (openGroup_of_new hcurr hnew)).receive hnew hmore
    · rw [collect_of_ne _ (Ne.symm hseq)]
      rw [store_fragments, Function.update_of_ne hseq] at hfg
      exact h fragSeq fg hfg

/-- What any packet leaves of them. -/
theorem process_groups {s : EQMacDecoder} {ps : List Piece} (h : GroupsWellFormed s.m_fragments ps)
    (buf : List UInt8) :
    GroupsWellFormed (processStep s buf).m_fragments (ps ++ (addedPiece s buf).toList) := by
  obtain ⟨e, harq, hp⟩ | ⟨p, harq, hpass, hp⟩ | ⟨p, m, e, harq, hpass, hbody, hp⟩ |
    ⟨p, m, body, harq, hpass, hbody, hp⟩ := process_cases s buf
  · simpa [processStep, addedPiece, parsedBody, harq, hp] using h
  · simpa [processStep, addedPiece, hp, Exit.adds] using h
  · simpa [processStep, addedPiece, parsedBody, harq, hbody, hp, Except.toOption] using h
  · have hparsed : parsedBody buf = some body := by simp [parsedBody, harq, hbody, Except.toOption]
    unfold processStep addedPiece
    rw [hparsed, hp]
    unfold processBody
    cases hfrag : body.frag with
    | none =>
        dsimp only
        split <;> simpa [hfrag] using h
    | some info =>
        have hgroups := processFragment_groups (s := { s with m_lastArq := m }) h
          { info, payload := body.payload } body.opcode
        dsimp only at hgroups ⊢
        split at hgroups
        · rename_i hadded
          rw [if_pos hadded]
          simpa [hfrag] using hgroups
        · rename_i hnot
          rw [if_neg hnot]
          simpa using hgroups

theorem added_cons (s : EQMacDecoder) (buf : List UInt8) (bufs : List (List UInt8)) :
    added s (buf :: bufs) = (addedPiece s buf).toList ++ added (processStep s buf) bufs := by
  cases hpiece : addedPiece s buf <;> simp [added, Machine.outputs, hpiece]

theorem feed_groups {s : EQMacDecoder} {ps : List Piece} (h : GroupsWellFormed s.m_fragments ps)
    (bufs : List (List UInt8)) :
    GroupsWellFormed (feed s bufs).m_fragments (ps ++ added s bufs) := by
  induction bufs generalizing s ps with
  | nil => simpa [feed, added, Machine.outputs] using h
  | cons buf bufs ih =>
      have hnext := ih (process_groups h buf)
      rw [added_cons, ← List.append_assoc]
      exact hnext

/-- Every state that a decoder reaches from `reset`, whatever it is fed: each group in the table has
    its first piece, counts the pieces that were added since it was opened, lacks at least one, and
    holds their payloads in the order they came. -/
theorem reachable_groups (bufs : List (List UInt8)) :
    GroupsWellFormed (feed reset bufs).m_fragments (added reset bufs) := by
  have hreset : GroupsWellFormed reset.m_fragments [] := fun _ _ h => nomatch h
  exact feed_groups hreset bufs

end ShoweqDaemon.Decoder
