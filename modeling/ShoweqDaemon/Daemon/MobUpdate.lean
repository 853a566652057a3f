/-
  `OP_MobUpdate`: a count and as many position updates as fit behind it.

  The count is signed and comes from the wire, so `updateSpawns` takes the smaller one of it and
  of the number of whole records in the payload. `mobUpdates` are these records as structs of
  15 bytes, cut out one behind the other; `updateSpawns_val` says that the loop over the bytes
  is `updateSpawn` for each of them, and `updateSpawns_inside` that no byte behind the payload
  is read. `updateSpawns_handle` is the batch as single packets of the daemon.
-/
import ShoweqDaemon.Daemon.Wiring
import ShoweqDaemon.Lib.Audit
import ShoweqDaemon.Lib.PackedStruct

namespace ShoweqDaemon.Spawns

open Audit

/-! ## The payload -/

/-- `sizeof(mobUpdateStruct)`: its array is empty. -/
def sizeofMobUpdateStruct : ℕ := 4

/-- `sizeof(spawnPositionUpdate)` -/
def sizeofSpawnPositionUpdate : ℕ := 15

section
variable (data : List UInt8)

/-- Two bytes of the payload, the low one first; both reads are noted. -/
def u16At (i : ℕ) : Noted Element UInt16 := do
  let lo ← element data i
  let hi ← element data (i + 1)
  pure (ByteReader.be16 hi lo)

/-- `batch->numUpdates` -/
def numUpdates : Noted Element Int32 := do
  let lo ← u16At data 0
  let hi ← u16At data 2
  pure (hi.toUInt32 <<< 16 ||| lo.toUInt32).toInt32

/-- `batch->spawnUpdate[i]` as it is passed on: no deltas. -/
def spawnUpdate (i : ℕ) : Noted Element SpawnPositionUpdate := do
  let at_ := sizeofMobUpdateStruct + i * sizeofSpawnPositionUpdate
  let spawnId ← u16At data at_
  let x ← u16At data (at_ + 7)
  let y ← u16At data (at_ + 5)
  let z ← u16At data (at_ + 9)
  let heading ← element data (at_ + 3)
  let deltaHeading ← element data (at_ + 4)
  let animation ← element data (at_ + 2)
  pure
    { spawnId
      x := x.toInt16
      y := y.toInt16
      z := z.toInt16
      heading := heading.toInt8
      deltaHeading := deltaHeading.toInt8
      animation := animation.toInt8 }

variable (env : Env)

/-- The loop of `updateSpawns`, with `left` records to go from `i` on. -/
def updateSpawnsLoop : ℕ → ℕ → Out → Noted Element Out
  | 0, _, out => pure out
  | left + 1, i, out => do
      let u ← spawnUpdate data i
      updateSpawnsLoop left (i + 1) (out.andThen fun sh => sh.updateSpawn env u)

/-- `SpawnShell::updateSpawns`: nothing while zoning and for a payload without the count, else as
    many updates as the count says and the payload has. -/
def SpawnShell.updateSpawns (sh : SpawnShell) (isZoning : Bool) : Noted Element Out :=
  if isZoning then pure (sh, [])
  else if data.length < sizeofMobUpdateStruct then pure (sh, [])
  else do
    let count ← numUpdates data
    let maxFromLen := (data.length - sizeofMobUpdateStruct) / sizeofSpawnPositionUpdate
    let n := min (if count < 0 then 0 else count).toInt.toNat maxFromLen
    updateSpawnsLoop data env n 0 (sh, [])

/-! ## The records -/

/-- A `spawnPositionUpdate` in its 15 bytes, its bit fields left out. -/
def SpawnPositionUpdate.ofBytes (s : PackedStruct 15) : SpawnPositionUpdate where
  spawnId := s.u16 0
  animation := (s.u8 2).toInt8
  heading := (s.u8 3).toInt8
  deltaHeading := (s.u8 4).toInt8
  y := (s.u16 5).toInt16
  x := (s.u16 7).toInt16
  z := (s.u16 9).toInt16

/-- The count as it was sent. -/
def announced : ℤ := ((PackedStruct.fill 4 data).1.u32 0).toInt32.toInt

/-- How many records are taken. -/
def mobUpdateCount : ℕ :=
  if data.length < 4 then 0 else min (max (announced data) 0).toNat ((data.length - 4) / 15)

/-- The records that are taken, in the order of the payload. -/
def mobUpdates : List SpawnPositionUpdate :=
  (List.range (mobUpdateCount data)).map fun i =>
    .ofBytes (PackedStruct.fill 15 ((data.drop 4).drop (15 * i))).1

end

/-- `updateSpawn` for one record after the other. -/
def SpawnShell.updateEach (env : Env) (sh : SpawnShell) (us : List SpawnPositionUpdate) : Out :=
  us.foldl (fun out u => out.andThen fun sh => sh.updateSpawn env u) (sh, [])

/-! ## What is read -/

section
variable {data : List UInt8}

@[simp] theorem allowed_u16At (i : ℕ) :
    (u16At data i).Allowed Element.Inside ↔ i + 1 < data.length := by
  simp only [u16At, Noted.allowed_bind, allowed_element, Noted.allowed_pure, and_true]
  omega

theorem allowed_spawnUpdate {i : ℕ} (h : 4 + 15 * (i + 1) ≤ data.length) :
    (spawnUpdate data i).Allowed Element.Inside := by
  simp only [spawnUpdate, Noted.allowed_bind, allowed_u16At, allowed_element, Noted.allowed_pure,
    and_true, sizeofMobUpdateStruct, sizeofSpawnPositionUpdate]
  omega

/-- A byte of a struct that was cut out of the payload. -/
theorem u8_fill_drop {n off i : ℕ} (h : off + n ≤ data.length) (hi : i < n) :
    (PackedStruct.fill n (data.drop off)).1.u8 i = data.getD (off + i) default := by
  have hlong : ¬ (data.drop off).length < n := by
    rw [List.length_drop]
    omega
  rw [PackedStruct.fill, dif_neg hlong, PackedStruct.u8, dif_pos hi]
  simp [List.getElem?_eq_getElem (show off + i < data.length by omega)]

theorem u16_fill_drop {n off i : ℕ} (h : off + n ≤ data.length) (hi : i + 1 < n) :
    (PackedStruct.fill n (data.drop off)).1.u16 i = (u16At data (off + i)).val := by
  rw [PackedStruct.u16, u8_fill_drop h hi, u8_fill_drop h (by omega)]
  rfl

theorem numUpdates_eq (h : 4 ≤ data.length) : (numUpdates data).val.toInt = announced data := by
  have hfit : 0 + 4 ≤ data.length := by omega
  have hlo := u16_fill_drop hfit (show 0 + 1 < 4 by decide)
  have hhi := u16_fill_drop hfit (show 2 + 1 < 4 by decide)
  rw [List.drop_zero] at hlo hhi
  unfold announced PackedStruct.u32
  rw [hlo, hhi]
  rfl

/-- The record that the loop reads is the one that is cut out. -/
theorem spawnUpdate_eq {i : ℕ} (h : 4 + 15 * (i + 1) ≤ data.length) :
    (spawnUpdate data i).val = .ofBytes (PackedStruct.fill 15 ((data.drop 4).drop (15 * i))).1 := by
  have hfit : 4 + 15 * i + 15 ≤ data.length := by omega
  have hat : sizeofMobUpdateStruct + i * sizeofSpawnPositionUpdate = 4 + 15 * i := by
    unfold sizeofMobUpdateStruct sizeofSpawnPositionUpdate
    omega
  rw [List.drop_drop]
  unfold SpawnPositionUpdate.ofBytes spawnUpdate
  rw [u16_fill_drop hfit (by decide), u16_fill_drop hfit (by decide),
    u16_fill_drop hfit (by decide), u16_fill_drop hfit (by decide), u8_fill_drop hfit (by decide),
    u8_fill_drop hfit (by decide), u8_fill_drop hfit (by decide), hat]
  rfl

end

/-! ## The loop -/

section
variable (env : Env) {data : List UInt8}

theorem allowed_updateSpawnsLoop (left i : ℕ) (out : Out)
    (h : 4 + 15 * (i + left) ≤ data.length) :
    (updateSpawnsLoop data env left i out).Allowed Element.Inside := by
  induction left generalizing i out with
  | zero => exact Noted.allowed_pure _ _
  | succ left ih =>
      rw [updateSpawnsLoop, Noted.allowed_bind]
      exact ⟨allowed_spawnUpdate (by omega), ih (i + 1) _ (by omega)⟩

theorem updateSpawnsLoop_eq (left i : ℕ) (out : Out) (h : 4 + 15 * (i + left) ≤ data.length) :
    (updateSpawnsLoop data env left i out).val =
      ((List.range' i left).map fun j => SpawnPositionUpdate.ofBytes
        (PackedStruct.fill 15 ((data.drop 4).drop (15 * j))).1).foldl
          (fun out u => out.andThen fun sh => sh.updateSpawn env u) out := by
  induction left generalizing i out with
  | zero => rfl
  | succ left ih =>
      rw [updateSpawnsLoop, Noted.val_bind, ih (i + 1) _ (by omega), spawnUpdate_eq (by omega),
        List.range'_succ]
      rfl

/-- The signed count of the code, cut at 0, and the quotient of the length. -/
theorem taken_eq (h : ¬ data.length < 4) :
    min (if (numUpdates data).val < 0 then 0 else (numUpdates data).val).toInt.toNat
      ((data.length - sizeofMobUpdateStruct) / sizeofSpawnPositionUpdate) =
        mobUpdateCount data := by
  have hsent := numUpdates_eq (Nat.le_of_not_lt h)
  have hneg : (numUpdates data).val < 0 ↔ (numUpdates data).val.toInt < 0 := Int32.lt_iff_toInt_lt
  rw [mobUpdateCount, if_neg h, ← hsent]
  unfold sizeofMobUpdateStruct sizeofSpawnPositionUpdate
  split
  · rename_i hlt
    rw [max_eq_right (Int.le_of_lt (hneg.mp hlt))]
    rfl
  · rename_i hge
    rw [max_eq_left (Int.not_lt.mp (mt hneg.mpr hge))]

theorem mobUpdateCount_fits (h : ¬ data.length < 4) :
    4 + 15 * mobUpdateCount data ≤ data.length := by
  rw [mobUpdateCount, if_neg h]
  have hdiv := Nat.div_mul_le_self (data.length - 4) 15
  omega

end

section
variable (env : Env) (sh : SpawnShell) (data : List UInt8)

theorem updateSpawns_inside (isZoning : Bool) :
    (sh.updateSpawns data env isZoning).Allowed Element.Inside := by
  unfold SpawnShell.updateSpawns
  split
  · exact Noted.allowed_pure _ _
  · split
    · exact Noted.allowed_pure _ _
    · rename_i hlong
      have hlen : ¬ data.length < 4 := hlong
      rw [Noted.allowed_bind]
      dsimp only
      rw [taken_eq hlen]
      have hfits := mobUpdateCount_fits hlen
      constructor
      · simp only [numUpdates, Noted.allowed_bind, allowed_u16At, Noted.allowed_pure, and_true]
        omega
      · exact allowed_updateSpawnsLoop env _ 0 _ (by omega)

theorem updateSpawns_val (isZoning : Bool) :
    (sh.updateSpawns data env isZoning).val =
      if isZoning then (sh, []) else sh.updateEach env (mobUpdates data) := by
  unfold SpawnShell.updateSpawns
  cases isZoning with
  | true => rfl
  | false =>
      simp only [Bool.false_eq_true, if_false]
      split
      · rename_i hshort
        have hnone : mobUpdateCount data = 0 := if_pos hshort
        rw [mobUpdates, hnone]
        rfl
      · rename_i hlong
        have hlen : ¬ data.length < 4 := hlong
        rw [Noted.val_bind, taken_eq hlen]
        have hfits := mobUpdateCount_fits hlen
        rw [updateSpawnsLoop_eq env _ 0 _ (by omega), ← List.range_eq_range']
        rfl

/-- A batch reads its payload only, and does what its records do one after the other; as many of
    them as the count says and the payload has. -/
theorem updateSpawns_spec (isZoning : Bool) :
    (sh.updateSpawns data env isZoning).Allowed Element.Inside ∧
      (sh.updateSpawns data env isZoning).val =
        (if isZoning then (sh, []) else sh.updateEach env (mobUpdates data)) ∧
      (mobUpdates data).length =
        if data.length < 4 then 0
        else min (max (announced data) 0).toNat ((data.length - 4) / 15) := by
  refine ⟨updateSpawns_inside env sh data isZoning, updateSpawns_val env sh data isZoning, ?_⟩
  rw [mobUpdates, List.length_map, List.length_range]
  rfl

end

/-! ## The batch in the daemon -/

theorem mobUpdates_deltas {data : List UInt8} {u : SpawnPositionUpdate} (h : u ∈ mobUpdates data) :
    { u with deltaX := 0, deltaY := 0, deltaZ := 0 } = u := by
  obtain ⟨i, -, rfl⟩ := List.mem_map.mp h
  rfl

theorem foldl_andThen_quiet {β : Type} (us : List β) (out : Out) :
    us.foldl (fun (out : Out) _ => out.andThen fun sh => (sh, [])) out = out := by
  induction us with
  | nil => rfl
  | cons u us ih =>
      have hquiet : (out.andThen fun sh => (sh, [])) = out := by
        simp [Out.andThen]
      rw [List.foldl_cons, hquiet, ih]

/-- The batch is a packet of the daemon for each record. -/
theorem updateSpawns_handle (env : Env) (d : Daemon) (order : Table.Order) (data : List UInt8) :
    (d.shell.updateSpawns data env d.zone.m_zoning).val =
      (mobUpdates data).foldl (fun (out : Out) u => out.andThen fun sh =>
        { d with shell := sh }.handle env ⟨order, .updateSpawn u⟩) (d.shell, []) := by
  rw [updateSpawns_val]
  simp only [Daemon.handle, Daemon.unlessZoning]
  cases d.zone.m_zoning with
  | true => exact (foldl_andThen_quiet (mobUpdates data) (d.shell, [])).symm
  | false =>
      refine List.foldl_ext _ _ _ fun out u hu => ?_
      rw [mobUpdates_deltas hu]
      rfl

end ShoweqDaemon.Spawns
