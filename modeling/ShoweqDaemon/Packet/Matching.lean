/-
  Which payload `EQPacketStream::connect2` attaches to, and which `dispatchPacket` delivers to.

  The loop of `connect2` leaves its pointer at the last payload when none is as asked for
  (`findPayload_none`), so the test behind it sees an empty list only, and the receiver is attached
  to a payload of another type. `connect2_iff` lists the calls that are right all the same.

  `dispatchPacket` delivers once to each payload that matches and to no other. A payload with
  `SZC_Modulus` matches an empty message, too; otherwise a message that matches is as long as its
  struct (`dispatchPacket_iff`).
-/
import ShoweqDaemon.Packet.Dispatch

namespace ShoweqDaemon.Packet

open Spawns (QString)
open EQSizeCheckType

/-! ## Connecting -/

/-- As `connect2` was asked for. -/
def EQPacketPayload.Wanted (payload : EQPacketPayload) (dir : UInt8) (payloadType : QString)
    (szt : EQSizeCheckType) : Prop :=
  payload.m_dir &&& dir ≠ 0 ∧ payload.m_typeName = payloadType ∧ payload.m_sizeCheckType = szt

instance (payload : EQPacketPayload) (dir : UInt8) (payloadType : QString)
    (szt : EQSizeCheckType) : Decidable (payload.Wanted dir payloadType szt) :=
  inferInstanceAs (Decidable (_ ∧ _ ∧ _))

namespace EQPacketStream

section
variable {dir : UInt8} {payloadType : QString} {szt : EQSizeCheckType}

theorem findPayload_cons (q : EQPacketPayload) (rest : List EQPacketPayload) (i : ℕ)
    (payload : Option ℕ) :
    findPayload dir payloadType szt (q :: rest) i payload =
      if q.Wanted dir payloadType szt then some i
      else findPayload dir payloadType szt rest (i + 1) (some i) := rfl

/-- The first payload that is as asked for ends the loop. -/
theorem findPayload_some {opcode : List EQPacketPayload}
    (h : ∃ p ∈ opcode, p.Wanted dir payloadType szt) (i : ℕ) (payload : Option ℕ) :
    ∃ k p, findPayload dir payloadType szt opcode i payload = some (i + k) ∧
      opcode[k]? = some p ∧ p.Wanted dir payloadType szt := by
  induction opcode generalizing i payload with
  | nil => obtain ⟨p, hp, -⟩ := h; nomatch hp
  | cons q rest ih =>
      by_cases hq : q.Wanted dir payloadType szt
      · refine ⟨0, q, ?_, rfl, hq⟩
        rw [findPayload_cons, if_pos hq]
        rfl
      · obtain ⟨p, hp, hwanted⟩ := h
        have hrest : ∃ p ∈ rest, p.Wanted dir payloadType szt := by
          rcases List.mem_cons.mp hp with rfl | hp
          · exact absurd hwanted hq
          · exact ⟨p, hp, hwanted⟩
        obtain ⟨k, p', hfound, hget, hp'⟩ := ih hrest (i + 1) (some i)
        refine ⟨k + 1, p', ?_, hget, hp'⟩
        rw [findPayload_cons, if_neg hq, hfound]
        congr 1
        omega

/-- Without one the pointer stays at the last payload. -/
theorem findPayload_none {opcode : List EQPacketPayload}
    (h : ∀ p ∈ opcode, ¬ p.Wanted dir payloadType szt) (i : ℕ) (payload : Option ℕ) :
    findPayload dir payloadType szt opcode i payload =
      if opcode = [] then payload else some (i + (opcode.length - 1)) := by
  induction opcode generalizing i payload with
  | nil => rfl
  | cons q rest ih =>
      have hq := h q List.mem_cons_self
      rw [findPayload_cons, if_neg hq, ih (fun p hp => h p (List.mem_cons_of_mem _ hp)),
        if_neg (List.cons_ne_nil q rest)]
      cases rest with
      | nil => rfl
      | cons r rest =>
          rw [if_neg (List.cons_ne_nil r rest)]
          simp only [List.length_cons]
          congr 1
          omega

end

variable {ρ : Type} (stream : EQPacketStream ρ) (hasSlot : ρ → Bool) (opcodeName : QString)
  (payloadType : QString) (szt : EQSizeCheckType) (receiver : ρ)

/-- The receivers that are attached to a payload. -/
def attached (key : QString × ℕ) : List ρ := (stream.m_dispatchers.lookup key).getD []

/-- A payload of the opcode is as asked for. -/
def Offers : Prop :=
  ∃ opcode, stream.m_opcodeDB.lookup opcodeName = some opcode ∧
    ∃ p ∈ opcode, p.Wanted stream.m_dir payloadType szt

/-- What a call of `connect2` should do: it returns true only if it has attached the receiver to
    a payload that is as asked for, and returns false without one and leaves the dispatchers. -/
structure ConnectsWanted : Prop where
  wanted : (stream.connect2 hasSlot opcodeName payloadType szt receiver).2 = true →
    ∃ opcode i p, stream.m_opcodeDB.lookup opcodeName = some opcode ∧ opcode[i]? = some p ∧
      p.Wanted stream.m_dir payloadType szt ∧
      (stream.connect2 hasSlot opcodeName payloadType szt receiver).1.attached (opcodeName, i) =
        stream.attached (opcodeName, i) ++ [receiver]
  refused : ¬ stream.Offers opcodeName payloadType szt →
    (stream.connect2 hasSlot opcodeName payloadType szt receiver).2 = false ∧
      ∀ key, (stream.connect2 hasSlot opcodeName payloadType szt receiver).1.m_dispatchers.lookup
        key = stream.m_dispatchers.lookup key

/-- The last payload of the opcode, if it has payloads. -/
def lastPayload : Option (QString × ℕ) :=
  match stream.m_opcodeDB.lookup opcodeName with
  | some (_ :: rest) => some (opcodeName, rest.length)
  | _ => none

/-- An offer is taken. -/
theorem connect2_offer (h : stream.Offers opcodeName payloadType szt) :
    ConnectsWanted stream hasSlot opcodeName payloadType szt receiver := by
  refine ⟨fun htrue => ?_, fun hnone => absurd h hnone⟩
  obtain ⟨opcode, hopcode, hwanted⟩ := h
  obtain ⟨k, p, hfound, hget, hp⟩ := findPayload_some hwanted 0 none
  rw [Nat.zero_add] at hfound
  unfold connect2 at htrue ⊢
  simp only [hopcode, hfound] at htrue ⊢
  refine ⟨opcode, k, p, rfl, hget, hp, ?_⟩
  simp only [attached, AList.lookup_insert, Option.getD_some, htrue, if_true]

/-- Without an offer the call goes to the last payload. -/
theorem connect2_no_offer (h : ¬ stream.Offers opcodeName payloadType szt) :
    stream.connect2 hasSlot opcodeName payloadType szt receiver =
      match stream.lastPayload opcodeName with
      | none => (stream, false)
      | some key =>
          ({ stream with
              m_dispatchers := stream.m_dispatchers.insert key
                (if hasSlot receiver then stream.attached key ++ [receiver]
                else stream.attached key) }, hasSlot receiver) := by
  unfold connect2 lastPayload
  cases hopcode : stream.m_opcodeDB.lookup opcodeName with
  | none => rfl
  | some opcode =>
      have hwanted : ∀ p ∈ opcode, ¬ p.Wanted stream.m_dir payloadType szt :=
        fun p hp hwanted => h ⟨opcode, hopcode, p, hp, hwanted⟩
      simp only [findPayload_none hwanted]
      cases opcode with
      | nil => rfl
      | cons q rest =>
          simp only [List.cons_ne_nil, if_false, List.length_cons, Nat.add_sub_cancel,
            Nat.zero_add]
          rfl

/-- A call is right just when there is nothing to attach to, or something as asked for, or the
    receiver has no such slot and the last payload has its dispatcher already. -/
theorem connect2_iff :
    ConnectsWanted stream hasSlot opcodeName payloadType szt receiver ↔
      stream.Offers opcodeName payloadType szt ∨ stream.lastPayload opcodeName = none ∨
        hasSlot receiver = false ∧ ∃ key, stream.lastPayload opcodeName = some key ∧
          (stream.m_dispatchers.lookup key).isSome = true := by
  by_cases hoffer : stream.Offers opcodeName payloadType szt
  · exact iff_of_true (connect2_offer stream hasSlot opcodeName payloadType szt receiver hoffer)
      (Or.inl hoffer)
  · have hcall := connect2_no_offer stream hasSlot opcodeName payloadType szt receiver hoffer
    rw [or_iff_right hoffer]
    cases hlast : stream.lastPayload opcodeName with
    | none =>
        rw [hlast] at hcall
        refine iff_of_true ⟨fun htrue => ?_, fun _ => ?_⟩ (Or.inl rfl)
        · rw [hcall] at htrue
          nomatch htrue
        · rw [hcall]
          exact ⟨rfl, fun _ => rfl⟩
    | some key =>
        rw [hlast] at hcall
        constructor
        · intro hright
          obtain ⟨hfalse, hkept⟩ := hright.refused hoffer
          rw [hcall] at hfalse hkept
          refine Or.inr ⟨hfalse, key, rfl, ?_⟩
          rw [← hkept key, AList.lookup_insert]
          rfl
        · rintro (hnone | ⟨hslot, key', hkey, hsome⟩)
          · nomatch hnone
          · cases hkey
            obtain ⟨dispatch, hdispatch⟩ := Option.isSome_iff_exists.mp hsome
            refine ⟨fun htrue => ?_, fun _ => ?_⟩
            · rw [hcall, hslot] at htrue
              nomatch htrue
            · rw [hcall]
              refine ⟨hslot, fun k => ?_⟩
              simp only [hslot, Bool.false_eq_true, if_false]
              rw [Table.lookup_insert]
              split
              · rename_i hk
                rw [hk, attached, hdispatch]
                rfl
              · rfl

/-- The profile is asked for as a `charProfileStruct`. `zoneopcodes.xml` has octets only, and they
    are what it gets. -/
theorem connect2_playerProfile :
    ¬ ConnectsWanted { m_dir := DIR_Server, m_opcodeDB := zoneOpcodes : EQPacketStream ZoneSlot }
      (fun _ => true) "OP_PlayerProfile".toList "charProfileStruct".toList SZC_Match
      .zonePlayer := by
  intro h
  have hno : ¬ ({ m_dir := DIR_Server, m_opcodeDB := zoneOpcodes : EQPacketStream ZoneSlot } :
      EQPacketStream ZoneSlot).Offers "OP_PlayerProfile".toList "charProfileStruct".toList
        SZC_Match := by
    rintro ⟨opcode, hopcode, hwanted⟩
    cases hopcode
    revert hwanted
    decide
  have hfalse := (h.refused hno).1
  revert hfalse
  decide

end EQPacketStream

/-! ## Dispatching -/

/-- A struct of more than a byte is there in full when it is matched, unless a modulus takes an
    empty message. -/
theorem isMatch_size_iff (payload : EQPacketPayload) (size : ℕ) (dir : UInt8) :
    (payload.isMatch size dir = true → 1 < payload.m_typeSize → payload.m_typeSize ≤ size) ↔
      (size = 0 → ¬ (payload.m_sizeCheckType = SZC_Modulus ∧ payload.m_dir &&& dir ≠ 0 ∧
        1 < payload.m_typeSize)) := by
  unfold EQPacketPayload.isMatch
  cases payload.m_sizeCheckType with
  | SZC_None =>
      refine iff_of_true (fun hmatch hsize => ?_) fun _ h => nomatch h.1
      simp at hmatch
      omega
  | SZC_Match =>
      refine iff_of_true (fun hmatch _ => ?_) fun _ h => nomatch h.1
      simp at hmatch
      omega
  | SZC_Modulus =>
      simp only [Bool.and_eq_true, bne_iff_ne, decide_eq_true_eq, beq_iff_eq, true_and]
      constructor
      · rintro hfits rfl ⟨hdir, hsize⟩
        have hle := hfits ⟨⟨hdir, by omega⟩, Nat.zero_mod _⟩ hsize
        omega
      · rintro hempty ⟨⟨hdir, -⟩, hmod⟩ hsize
        have hpos : 0 < size := by
          rcases Nat.eq_zero_or_pos size with h | h
          · exact absurd ⟨hdir, hsize⟩ (hempty h)
          · exact h
        exact Nat.le_of_dvd hpos (Nat.dvd_of_mod_eq_zero hmod)

namespace EQPacketStream

variable {ρ : Type} (stream : EQPacketStream ρ) (opcodeName : QString) (len : ℕ)

/-- The payloads of the opcode, none for an unknown one. -/
def payloads : List EQPacketPayload := (stream.m_opcodeDB.lookup opcodeName).getD []

/-- The places of the payloads that match. -/
def matching : List ℕ :=
  ((stream.payloads opcodeName).zipIdx.filter fun p => p.1.isMatch len stream.m_dir).map Prod.snd

theorem mem_matching {i : ℕ} : i ∈ stream.matching opcodeName len ↔
    ∃ p, (stream.payloads opcodeName)[i]? = some p ∧ p.isMatch len stream.m_dir = true := by
  unfold matching
  rw [List.mem_map]
  constructor
  · rintro ⟨⟨p, j⟩, hmem, rfl⟩
    obtain ⟨hzip, hmatch⟩ := List.mem_filter.mp hmem
    exact ⟨p, List.mem_zipIdx_iff_getElem?.mp hzip, hmatch⟩
  · rintro ⟨p, hget, hmatch⟩
    exact ⟨(p, i), List.mem_filter.mpr ⟨List.mem_zipIdx_iff_getElem?.mpr hget, hmatch⟩, rfl⟩

theorem matching_sorted : (stream.matching opcodeName len).Pairwise (· < ·) := by
  have hall : ((stream.payloads opcodeName).zipIdx.map Prod.snd).Pairwise (· < ·) := by
    rw [List.zipIdx_map_snd]
    exact List.pairwise_lt_range'
  exact hall.sublist (List.filter_sublist.map Prod.snd)

theorem flatMap_filter_map {α β γ : Type} (q : α → Bool) (f : α → β) (g : β → List γ)
    (l : List α) :
    l.flatMap (fun x => if q x = true then g (f x) else []) = ((l.filter q).map f).flatMap g := by
  induction l with
  | nil => rfl
  | cons x l ih =>
      by_cases hx : q x = true
      · rw [List.flatMap_cons, ih, if_pos hx, List.filter_cons_of_pos hx]
        rfl
      · rw [List.flatMap_cons, ih, if_neg hx, List.filter_cons_of_neg hx]
        rfl

theorem dispatchPacket_eq : stream.dispatchPacket opcodeName len =
    (stream.matching opcodeName len).flatMap fun i => stream.attached (opcodeName, i) := by
  unfold dispatchPacket matching payloads
  cases stream.m_opcodeDB.lookup opcodeName with
  | none => rfl
  | some opcodeEntry =>
      exact flatMap_filter_map (fun p => p.1.isMatch len stream.m_dir) Prod.snd
        (fun i => stream.attached (opcodeName, i)) opcodeEntry.zipIdx

/-- A message is delivered once to each payload that matches, in the order of the list, and to no
    other. What matches has its struct in full just when the message is not empty or no payload of
    the opcode takes a multiple of its struct. -/
theorem dispatchPacket_iff :
    (∃ places : List ℕ, places.Pairwise (· < ·) ∧
      (∀ i, i ∈ places ↔ ∃ p, (stream.payloads opcodeName)[i]? = some p ∧
        p.isMatch len stream.m_dir = true) ∧
      stream.dispatchPacket opcodeName len =
        places.flatMap fun i => stream.attached (opcodeName, i)) ∧
      ((∀ p ∈ stream.payloads opcodeName, p.isMatch len stream.m_dir = true →
          1 < p.m_typeSize → p.m_typeSize ≤ len) ↔
        len ≠ 0 ∨ ∀ p ∈ stream.payloads opcodeName, ¬ (p.m_sizeCheckType = SZC_Modulus ∧
          p.m_dir &&& stream.m_dir ≠ 0 ∧ 1 < p.m_typeSize)) := by
  refine ⟨⟨stream.matching opcodeName len, stream.matching_sorted opcodeName len,
    fun i => stream.mem_matching opcodeName len, stream.dispatchPacket_eq opcodeName len⟩, ?_⟩
  simp only [isMatch_size_iff]
  by_cases hlen : len = 0
  · simp [hlen]
  · simp [hlen]

end EQPacketStream

/-- A modulus of fifty bytes matches nothing at all. -/
theorem dispatchPacket_empty :
    ¬ ∀ (stream : EQPacketStream ZoneSlot) (opcodeName : QString) (len : ℕ),
      ∀ p ∈ stream.payloads opcodeName, p.isMatch len stream.m_dir = true →
        1 < p.m_typeSize → p.m_typeSize ≤ len := by
  intro h
  have hempty := h
    { m_dir := DIR_Server
      m_opcodeDB := (∅ : Table QString (List EQPacketPayload)).insert "OP_GroundSpawn".toList
        [{ m_typeName := "makeDropStruct".toList, m_typeSize := 50, m_sizeCheckType := SZC_Modulus,
           m_dir := DIR_Server }] }
    "OP_GroundSpawn".toList 0 _ List.mem_cons_self rfl (by decide)
  revert hempty
  decide

end ShoweqDaemon.Packet
