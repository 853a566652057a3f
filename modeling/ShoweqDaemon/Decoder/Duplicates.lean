/-
  Copies of fragments that have arrived already.

  A later fragment that comes twice is ignored. The first fragment starts its group anew, and what
  the group had is lost unless it comes once more. `absorb` is what one fragment does to the indices
  that a group holds; `emissions_repeated` says what a run with copies emits, and
  `duplicates_harmless_iff` when that is what the run without them emits.

  `Repeated m` is an arrival of all fragments of `m` with copies, each fragment for the first time
  in its turn; `Undisturbed m` is one of each fragment once.

  Proved:
  * `process_absorb`: what one fragment, new or not, does to the group.
  * `restored_of_front`: without a copy of the first fragment behind another one no harm is done.
  * `duplicates_harmless_iff`: from every state, for every message and every arrival.
  * `restarted_lost`: a copy of the first fragment behind the second one, and the message is lost.
-/
import Mathlib.Data.List.Perm.Subperm
import ShoweqDaemon.Decoder.FragOrder

namespace ShoweqDaemon.Decoder

/-! ## Runs with copies -/

/-- The fragments come in index order, with copies of those that came before in between and none
    behind the last one. `seen` of them have come already. -/
def Repeats (total : ℕ) : ℕ → List ℕ → Prop
  | seen, [] => seen = total
  | seen, i :: is =>
      seen < total ∧ (i < seen ∧ Repeats total seen is ∨ i = seen ∧ Repeats total (seen + 1) is)

/-- All fragments of `m` with copies. -/
structure Repeated (m : FragMessage) where
  arrivals : List FragArrival
  repeats : Repeats m.total 0 (arrivals.map FragArrival.index)

/-- All fragments of `m`, each once. -/
structure Undisturbed (m : FragMessage) where
  arrivals : List FragArrival
  in_order : arrivals.map FragArrival.index = List.range m.total

/-- The fragments since the first one came last, each where it came first. -/
def restart (got : List ℕ) (i : ℕ) : List ℕ :=
  if i = 0 then [0] else if i ∈ got then got else got ++ [i]

/-- The pieces since the last restart of the group. -/
def sinceFirst (is : List ℕ) : List ℕ := is.foldl restart []

section

variable {m : FragMessage}

/-- All fragments have come again since the first one came last, and join to the same bytes. -/
def Repeated.Restored (c : Repeated m) : Prop :=
  (sinceFirst (c.arrivals.map FragArrival.index)).length = m.total ∧
    m.messageOf (sinceFirst (c.arrivals.map FragArrival.index)) = m.message

/-- The last packet emits what the last packet of the undisturbed run emits, and no other emits
    anything. -/
def Repeated.Harmless (c : Repeated m) (s : EQMacDecoder) (u : Undisturbed m) : Prop :=
  emissions m s c.arrivals =
    List.replicate (c.arrivals.length - 1) none ++ [(emissions m s u.arrivals).getLastD none]

/-- A later fragment without payload is dropped. -/
def absorb (m : FragMessage) (got : List ℕ) (i : ℕ) : List ℕ :=
  if i = 0 then [0] else if m.piece i = [] ∨ i ∈ got then got else got ++ [i]

/-! ## What a group can hold -/

/-- No index twice, and only those of fragments that came. -/
structure Holds (got : List ℕ) (seen : ℕ) : Prop where
  nodup : got.Nodup
  lt : ∀ i ∈ got, i < seen

theorem Holds.length_le {got : List ℕ} {seen : ℕ} (h : Holds got seen) : got.length ≤ seen := by
  have hsub : got ⊆ List.range seen := fun i hi => List.mem_range.mpr (h.lt i hi)
  have hle := (h.nodup.subperm hsub).length_le
  rwa [List.length_range] at hle

theorem Holds.mono {got : List ℕ} {seen seen' : ℕ} (h : Holds got seen) (hle : seen ≤ seen') :
    Holds got seen' :=
  ⟨h.nodup, fun i hi => Nat.lt_of_lt_of_le (h.lt i hi) hle⟩

theorem Holds.append {got : List ℕ} {seen i : ℕ} (h : Holds got seen) (hnew : i ∉ got)
    (hi : i < seen) : Holds (got ++ [i]) seen := by
  refine ⟨List.nodup_append.mpr ⟨h.nodup, List.nodup_cons.mpr ⟨List.not_mem_nil, List.nodup_nil⟩, ?_⟩, ?_⟩
  · intro j hj k hk
    rw [List.mem_singleton.mp hk]
    rintro rfl
    exact hnew hj
  · intro j hj
    rcases List.mem_append.mp hj with hj | hj
    · exact h.lt j hj
    · rw [List.mem_singleton.mp hj]
      exact hi

theorem holds_first {seen : ℕ} (h : 0 < seen) : Holds [0] seen :=
  ⟨List.nodup_cons.mpr ⟨List.not_mem_nil, List.nodup_nil⟩, fun i hi => by
    rwa [List.mem_singleton.mp hi]⟩

theorem Holds.absorb {got : List ℕ} {seen i : ℕ} (h : Holds got seen) (hi : i < seen) :
    Holds (absorb m got i) seen := by
  unfold Decoder.absorb
  split
  · exact holds_first (by omega)
  · split
    · exact h
    · rename_i hkept
      exact h.append (fun hmem => hkept (Or.inr hmem)) hi

/-! ## One fragment -/

/-- A later fragment that is in its group already. -/
theorem process_again {s : EQMacDecoder} {got : List ℕ} {a : FragArrival}
    (hs : s.m_fragments m.fragSeq = some (m.group got)) (hi : a.index < m.total) (h0 : a.index ≠ 0)
    (hmem : a.index ∈ got) (hpiece : m.piece a.index ≠ []) :
    process s (a.bytes m) = { state := s, msg := none, exit := .duplicate } := by
  have hp := process_encode s a.framing (some (m.fragInfo a.index)) m.opcode (m.piece a.index)
    (a.passes s) a.is_fragment (Or.inr hpiece)
  have hlt := m.total_lt
  have htoNat : (m.fragInfo a.index).fragCurr.toNat = a.index := FragMessage.ofNat_toNat (by omega)
  have hgroup (opcode : UInt16) :
      openGroup s.m_fragments (m.fragInfo a.index) opcode = m.group got :=
    m.openGroup_piece hi (Or.inr ⟨h0, hs⟩) fun h => absurd h h0
  have hseen : (m.group got).received[(m.fragInfo a.index).fragCurr.toNat]? = some true := by
    rw [htoNat]
    simp [FragMessage.group, hi, hmem]
  have hsame : s.store m.fragSeq (some (m.group got)) = s := (store_eq_self_iff _ _ _).mpr hs
  have hdup (opcode : UInt16) : processFragment s (m.fragInfo a.index) opcode (m.piece a.index) =
      { state := s, msg := none, exit := .duplicate } := by
    obtain ⟨h, -⟩ | ⟨-, h, -⟩ | ⟨-, -, h⟩ | ⟨-, h, -⟩ | ⟨-, h, -⟩ :=
      processFragment_cases s (m.fragInfo a.index) opcode (m.piece a.index) (hgroup opcode)
    · exact absurd h (m.fragTotal_ne_zero a.index)
    · rw [hseen] at h
      cases h
    · rw [h]
      show Outcome.mk (s.store m.fragSeq (some (m.group got))) none .duplicate = _
      rw [hsame]
    · rw [hseen] at h
      cases h
    · rw [hseen] at h
      cases h
  rw [FragArrival.bytes, FragMessage.packet, hp]
  exact hdup _

/-- One fragment of a message whose group is in the table. -/
theorem process_absorb {s : EQMacDecoder} {got : List ℕ} {a : FragArrival}
    (hs : s.m_fragments m.fragSeq = some (m.group got)) (hi : a.index < m.total)
    (htotal : 1 < m.total) (hlen : got.length < m.total) :
    (process s (a.bytes m)).msg =
        (if (absorb m got a.index).length = m.total then some (m.messageOf (absorb m got a.index))
        else none) ∧
      ((absorb m got a.index).length ≠ m.total →
        (receiveStep m s a).m_fragments m.fragSeq = some (m.group (absorb m got a.index))) := by
  unfold absorb
  by_cases h0 : a.index = 0
  · -- the group starts anew
    obtain ⟨hmsg, hopen⟩ := receive_first (m := m) s h0
    have hne : 1 ≠ m.total := by omega
    rw [if_neg hne] at hmsg
    rw [if_pos h0, List.length_singleton, if_neg hne]
    exact ⟨hmsg, hopen⟩
  · rw [if_neg h0]
    by_cases hpiece : m.piece a.index = []
    · have hp := process_empty_piece s hi h0 hpiece
      rw [if_pos (Or.inl hpiece), if_neg (by omega)]
      exact ⟨by rw [hp], fun _ => by simpa [receiveStep, processStep, hp] using hs⟩
    · by_cases hmem : a.index ∈ got
      · have hp := process_again hs hi h0 hmem hpiece
        rw [if_pos (Or.inr hmem), if_neg (by omega)]
        exact ⟨by rw [hp], fun _ => by simpa [receiveStep, processStep, hp] using hs⟩
      · have hkept : ¬ (m.piece a.index = [] ∨ a.index ∈ got) := not_or.mpr ⟨hpiece, hmem⟩
        have hlength : (got ++ [a.index]).length = got.length + 1 := by simp
        rw [if_neg hkept, hlength]
        exact receive_new (Or.inr ⟨h0, hs⟩) hi hmem hlen (Or.inr hpiece)

/-! ## Runs -/

/-- What comes first is one that came before or the next one. -/
theorem Repeats.cons {total seen i : ℕ} {is : List ℕ} (h : Repeats total seen (i :: is)) :
    seen < total ∧ ∃ seen', seen ≤ seen' ∧ i < seen' ∧ seen' ≤ total ∧ Repeats total seen' is := by
  obtain ⟨hseen, ⟨hi, hrest⟩ | ⟨rfl, hrest⟩⟩ := h
  · exact ⟨hseen, seen, Nat.le_refl seen, hi, Nat.le_of_lt hseen, hrest⟩
  · exact ⟨hseen, i + 1, Nat.le_succ i, Nat.lt_succ_self i, hseen, hrest⟩

/-- What the last packet emits when the group holds the indices `got` in the end. -/
def emitted (m : FragMessage) (got : List ℕ) : Option AppPacket :=
  if got.length = m.total then some (m.messageOf got) else none

theorem emissions_open {s : EQMacDecoder} {got : List ℕ} {seen : ℕ} {as : List FragArrival}
    (hs : s.m_fragments m.fragSeq = some (m.group got)) (hgot : Holds got seen)
    (htotal : 1 < m.total) (has : as ≠ [])
    (hrepeats : Repeats m.total seen (as.map FragArrival.index)) :
    emissions m s as = List.replicate (as.length - 1) none ++
      [emitted m ((as.map FragArrival.index).foldl (absorb m) got)] := by
  induction as generalizing s got seen with
  | nil => exact absurd rfl has
  | cons a as ih =>
      obtain ⟨hseen, seen', hle, hi, hle', hrest⟩ := hrepeats.cons
      have hgot' := (hgot.mono hle).absorb (m := m) hi
      have hlen := hgot.length_le
      obtain ⟨hmsg, hnext⟩ := process_absorb (a := a) hs (by omega) htotal (by omega)
      rw [emissions_cons, hmsg]
      cases as with
      | nil => rfl
      | cons b bs =>
          obtain ⟨hseen', -⟩ := hrest.cons
          have hlen' := hgot'.length_le
          have hne : (absorb m got a.index).length ≠ m.total := by omega
          rw [if_neg hne, ih (hnext hne) hgot' (List.cons_ne_nil b bs) hrest]
          rfl

/-- A run with copies: the last packet emits the message if the group is whole then. -/
theorem emissions_repeated (s : EQMacDecoder) (as : List FragArrival)
    (hrepeats : Repeats m.total 0 (as.map FragArrival.index)) :
    emissions m s as = List.replicate (as.length - 1) none ++
      [emitted m ((as.map FragArrival.index).foldl (absorb m) [])] := by
  have hpos := m.total_pos
  cases as with
  | nil =>
      have hzero : 0 = m.total := hrepeats
      omega
  | cons a as =>
      obtain ⟨-, ⟨hlt, -⟩ | ⟨h0, hrest⟩⟩ := hrepeats
      · exact absurd hlt (Nat.not_lt_zero _)
      · obtain ⟨hmsg, hopen⟩ := receive_first (m := m) s h0
        rw [emissions_cons, hmsg, List.map_cons, List.foldl_cons, h0]
        cases as with
        | nil => rfl
        | cons b bs =>
            obtain ⟨hone, -⟩ := hrest.cons
            rw [if_neg (by omega), emissions_open (hopen (by omega)) (holds_first Nat.one_pos) hone
              (List.cons_ne_nil b bs) hrest]
            rfl

/-! ## What the group holds in the end -/

theorem Repeats.lt {total seen : ℕ} {is : List ℕ} (h : Repeats total seen is) :
    ∀ i ∈ is, i < total := by
  induction is generalizing seen with
  | nil => exact fun i hi => nomatch hi
  | cons i is ih =>
      obtain ⟨-, seen', -, hi, hle', hrest⟩ := h.cons
      exact List.forall_mem_cons.mpr ⟨by omega, ih hrest⟩

theorem repeats_range (total : ℕ) : Repeats total 0 (List.range total) := by
  have hfrom : ∀ n seen, seen + n = total → Repeats total seen (List.range' seen n) := by
    intro n
    induction n with
    | zero => exact fun seen h => h
    | succ n ih =>
        intro seen h
        rw [List.range'_succ]
        exact ⟨by omega, Or.inr ⟨rfl, ih (seen + 1) (by omega)⟩⟩
  rw [List.range_eq_range']
  exact hfrom total 0 (Nat.zero_add total)

/-- Every later fragment has bytes. -/
def Full (m : FragMessage) : Prop := ∀ i, i ≠ 0 → i < m.total → m.piece i ≠ []

theorem foldl_absorb_of_full (hfull : Full m) (got : List ℕ) {is : List ℕ}
    (hlt : ∀ i ∈ is, i < m.total) : is.foldl (absorb m) got = is.foldl restart got := by
  induction is generalizing got with
  | nil => rfl
  | cons i is ih =>
      obtain ⟨hi, hlt⟩ := List.forall_mem_cons.mp hlt
      have hstep : absorb m got i = restart got i := by
        unfold absorb restart
        by_cases h0 : i = 0
        · rw [if_pos h0, if_pos h0]
        · simp only [if_neg h0, hfull i h0 hi, false_or]
      rw [List.foldl_cons, List.foldl_cons, hstep, ih _ hlt]

/-- A fragment without bytes never joins its group. -/
theorem foldl_absorb_without {j : ℕ} (h0 : j ≠ 0) (hpiece : m.piece j = []) {got is : List ℕ}
    (hgot : Holds got m.total) (hj : j ∉ got) (hlt : ∀ i ∈ is, i < m.total) :
    Holds (is.foldl (absorb m) got) m.total ∧ j ∉ is.foldl (absorb m) got := by
  induction is generalizing got with
  | nil => exact ⟨hgot, hj⟩
  | cons i is ih =>
      obtain ⟨hi, hlt⟩ := List.forall_mem_cons.mp hlt
      refine ih (hgot.absorb hi) ?_ hlt
      unfold absorb
      split
      · simpa using h0
      · split
        · exact hj
        · rename_i hkept
          have hne : j ≠ i := by
            rintro rfl
            exact hkept (Or.inl hpiece)
          simpa [hj] using hne

theorem emitted_without {j : ℕ} (h0 : j ≠ 0) (hj : j < m.total) (hpiece : m.piece j = [])
    {is : List ℕ} (hlt : ∀ i ∈ is, i < m.total) :
    emitted m (is.foldl (absorb m) []) = none := by
  have hnil : Holds [] m.total := ⟨List.nodup_nil, fun _ h => nomatch h⟩
  obtain ⟨hholds, hnot⟩ := foldl_absorb_without h0 hpiece hnil List.not_mem_nil hlt
  have hlen := (hholds.append hnot hj).length_le
  rw [List.length_append] at hlen
  exact if_neg (by simp only [List.length_cons, List.length_nil] at hlen; omega)

/-- Copies of the first fragment come before any later one: nothing is lost. -/
theorem foldl_restart_range {seen : ℕ} {is : List ℕ} (hpos : 0 < seen)
    (hrepeats : Repeats m.total seen is) (h0 : 1 < seen → 0 ∉ is)
    (hpair : is.Pairwise fun i j => j = 0 → i = 0) :
    is.foldl restart (List.range seen) = List.range m.total := by
  induction is generalizing seen with
  | nil =>
      obtain rfl : seen = m.total := hrepeats
      rfl
  | cons i is ih =>
      obtain ⟨hbefore, hpair⟩ := List.pairwise_cons.mp hpair
      rw [List.foldl_cons]
      obtain ⟨-, ⟨hi, hrest⟩ | ⟨rfl, hrest⟩⟩ := hrepeats
      · -- a copy
        have hsame : restart (List.range seen) i = List.range seen := by
          unfold restart
          by_cases hi0 : i = 0
          · have hone : seen = 1 := by
              by_contra hne
              exact h0 (by omega) (by simp [hi0])
            rw [if_pos hi0, hone]
            rfl
          · rw [if_neg hi0, if_pos (List.mem_range.mpr hi)]
        rw [hsame]
        exact ih hpos hrest (fun h hmem => h0 h (List.mem_cons_of_mem i hmem)) hpair
      · have hnext : restart (List.range i) i = List.range (i + 1) := by
          unfold restart
          rw [if_neg (by omega), if_neg (by simp), List.range_succ]
        rw [hnext]
        refine ih (Nat.succ_pos i) hrest (fun _ hmem => ?_) hpair
        have := hbefore 0 hmem rfl
        omega

theorem sinceFirst_range {is : List ℕ} (hrepeats : Repeats m.total 0 is)
    (hpair : is.Pairwise fun i j => j = 0 → i = 0) : sinceFirst is = List.range m.total := by
  cases is with
  | nil =>
      have hzero : 0 = m.total := hrepeats
      rw [← hzero]
      rfl
  | cons i is =>
      obtain ⟨-, ⟨hlt, -⟩ | ⟨rfl, hrest⟩⟩ := hrepeats
      · exact absurd hlt (Nat.not_lt_zero i)
      · exact foldl_restart_range Nat.one_pos hrest (fun h => absurd h (Nat.lt_irrefl 1))
          (List.pairwise_cons.mp hpair).2

theorem restored_of_front (c : Repeated m)
    (hpair : (c.arrivals.map FragArrival.index).Pairwise fun i j => j = 0 → i = 0) :
    c.Restored := by
  unfold Repeated.Restored
  rw [sinceFirst_range c.repeats hpair]
  exact ⟨List.length_range, m.messageOf_range⟩

theorem Undisturbed.last (u : Undisturbed m) (s : EQMacDecoder) :
    (emissions m s u.arrivals).getLastD none =
      emitted m ((List.range m.total).foldl (absorb m) []) := by
  have hrepeats : Repeats m.total 0 (u.arrivals.map FragArrival.index) := by
    rw [u.in_order]
    exact repeats_range m.total
  rw [emissions_repeated s u.arrivals hrepeats, u.in_order, List.getLastD_eq_getLast?,
    List.getLast?_append]
  rfl

/-- Every state, every message, all copies that can come before it is whole. They do no harm if
    and only if nothing is emitted anyway, for want of a fragment with bytes, or all fragments come
    again behind the last copy of the first one. -/
theorem duplicates_harmless_iff (c : Repeated m) (s : EQMacDecoder) (u : Undisturbed m) :
    (c.Harmless s u ↔ ¬ Full m ∨ c.Restored) ∧
      ((c.arrivals.map FragArrival.index).Pairwise (fun i j => j = 0 → i = 0) → c.Restored) := by
  refine ⟨?_, restored_of_front c⟩
  have hlt := c.repeats.lt
  have hrange : ∀ i ∈ List.range m.total, i < m.total := fun i hi => List.mem_range.mp hi
  unfold Repeated.Harmless
  rw [emissions_repeated s c.arrivals c.repeats, u.last s, List.append_cancel_left_eq,
    List.cons.injEq, and_iff_left rfl]
  by_cases hfull : Full m
  · have hwhole : sinceFirst (List.range m.total) = List.range m.total :=
      sinceFirst_range (repeats_range m.total)
        (List.pairwise_lt_range.imp fun h hj => by omega)
    have hout : emitted m (List.range m.total) = some m.message := by
      rw [emitted, if_pos List.length_range, m.messageOf_range]
    rw [foldl_absorb_of_full hfull [] hlt, foldl_absorb_of_full hfull [] hrange]
    unfold sinceFirst at hwhole
    rw [hwhole, hout, or_iff_right (not_not.mpr hfull)]
    show emitted m (sinceFirst _) = _ ↔ _
    unfold emitted Repeated.Restored
    split
    · rename_i hlen
      rw [Option.some.injEq, and_iff_right hlen]
    · rename_i hlen
      exact iff_of_false (fun h => nomatch h) fun h => hlen h.1
  · obtain ⟨j, h0, hj, hpiece⟩ : ∃ j, j ≠ 0 ∧ j < m.total ∧ m.piece j = [] := by
      simpa [Full] using hfull
    rw [emitted_without h0 hj hpiece hlt, emitted_without h0 hj hpiece hrange]
    exact iff_of_true rfl (Or.inl hfull)

/-- The fragments of `threePieces`, each once. -/
def threeOnce : Undisturbed threePieces where
  arrivals := [bareFragment 0, bareFragment 1, bareFragment 2]
  in_order := rfl

/-- Fragment 0 comes once more behind fragment 1. -/
def threeRestarted : Repeated threePieces where
  arrivals := [bareFragment 0, bareFragment 1, bareFragment 0, bareFragment 2]
  repeats := by simp [Repeats, threePieces, FragMessage.total, bareFragment]

/-- Nothing is emitted any more. -/
theorem restarted_lost :
    ¬ ∀ (m : FragMessage) (c : Repeated m) (s : EQMacDecoder) (u : Undisturbed m),
      c.Harmless s u := by
  intro h
  have hharmless := h threePieces threeRestarted reset threeOnce
  unfold Repeated.Harmless at hharmless
  rw [emissions_repeated reset _ threeRestarted.repeats, threeOnce.last reset] at hharmless
  revert hharmless
  decide

end

end ShoweqDaemon.Decoder
