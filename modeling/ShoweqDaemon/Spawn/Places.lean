/-
  What the spawn points say about the places of a zone.

  A place is known by what the file of the zone says of it and by how often a mob was seen there.
  A place that was seen once is a candidate; one that was seen twice, or that the file has, is a
  spawn point. `Tells` says that the two tables of the monitor are just that, and
  `tells_perform` that every operation keeps it so, while the places live their own life
  (`Places.after`). The count of a point wraps around with its 32 bits.
-/
import ShoweqDaemon.Spawn.PointFile
import ShoweqDaemon.Spawn.Saves

namespace ShoweqDaemon.SpawnPoints

open Spawns

/-! ## Zones -/

/-- What a save does to the monitor; what it does to the files is `saveSpawnPoints`. -/
def SpawnMonitor.save (disk : Disk) (s : SpawnMonitor) : SpawnMonitor :=
  if s.m_modified = true ∧ s.m_zoneName ≠ [] ∧ disk.opens = true then
    { s with m_modified := false }
  else s

/-- `clear` on the values. -/
def SpawnMonitor.clear (s : SpawnMonitor) : SpawnMonitor := { s with m_spawns := ∅, m_points := ∅ }

/-- What a zone change meets: how the save of the old zone fares, the file of the new one, if it
    is found and opens, and the times its points are made at. -/
structure Arrival where
  disk : Disk
  file : Option QString
  clock : ℕ → Int

/-- `zoneChanged` on the values: the points of the zone that is left are saved, and those of the new
    one are loaded, unless it is the same. -/
def SpawnMonitor.zoneChanged (a : Arrival) (newZoneName : QString) (s : SpawnMonitor) :
    SpawnMonitor :=
  if s.m_zoneName ≠ newZoneName then
    loadSpawnPoints a.clock a.file { (s.save a.disk).clear with m_zoneName := newZoneName }
  else s

/-- The operations, with the points by their keys. A new item that is no spawn is `none`. -/
inductive PointEvent where
  | newSpawn (now : Int) (spawn : Option SpawnInfo)
  | killSpawn (o : Table.Order) (now : Int) (id : UInt16)
  | setName (key name : QString)
  | deleteSpawnPoint (key : QString)
  | zoneChanged (a : Arrival) (newZoneName : QString)
  | zoneEnd (a : Arrival) (newZoneName : QString)

section
variable (toLower : QString → QString)

/-- What an event does to the values. -/
def SpawnMonitor.perform (s : SpawnMonitor) : PointEvent → SpawnMonitor
  | .newSpawn now (some spawn) => s.checkSpawnPoint now spawn
  | .newSpawn _ none => s
  | .killSpawn o now id => s.killSpawn o now id
  | .setName key name => s.setName key name
  | .deleteSpawnPoint key => s.deleteSpawnPoint key
  | .zoneChanged a newZoneName => s.zoneChanged a newZoneName
  | .zoneEnd a newZoneName => s.zoneChanged a (toLower newZoneName)

end

/-! ## Places -/

/-- The count that the file has for the place, if it has it, and the mobs seen there. -/
structure Place where
  loaded : Option UInt32
  seen : ℕ

/-- One creature was seen there and no file has the place. -/
def Place.Candidate (p : Place) : Prop := p.loaded = none ∧ p.seen = 1

/-- The place is a spawn point: from a file, or seen more than once. -/
def Place.Promoted (p : Place) : Prop := p.loaded ≠ none ∨ 2 ≤ p.seen

instance : DecidablePred Place.Candidate := fun _ => inferInstanceAs (Decidable (_ ∧ _))
instance : DecidablePred Place.Promoted := fun _ => inferInstanceAs (Decidable (_ ∨ _))

/-- One more mob was seen. -/
def Place.again (p : Place) : Place := { p with seen := p.seen + 1 }

/-- What the counter of the point shows. -/
def Place.count (p : Place) : UInt32 := p.loaded.getD 0 + UInt32.ofNat p.seen

/-- What is known of each place. -/
abbrev Places := QString → Place

/-- What an operation means to the places: one is seen, one is given up, a zone with its points is
    entered, or nothing. -/
inductive Happening where
  | sighted (key : QString)
  | removed (key : QString)
  | entered (points : List SavedPoint)
  | nothing

/-- What is known of each place after a happening: what the file said of it, and how often it was
    seen since. -/
def Places.after (places : Places) : Happening → Places
  | .sighted key => Function.update places key (places key).again
  | .removed key => Function.update places key { loaded := none, seen := 0 }
  | .entered points => fun key =>
      { loaded := (points.find? fun p => p.key = key).map SavedPoint.count, seen := 0 }
  | .nothing => places

/-- Not a pet, a mount, an aura or a mercenary. -/
def SpawnInfo.IsMob (spawn : SpawnInfo) : Prop :=
  ¬ (spawn.NPC ≠ SPAWN_NPC ∨ spawn.petOwnerID ≠ 0 ∨ spawn.isMount ∨ spawn.isAura ∨
    spawn.isMercenary)

instance : DecidablePred SpawnInfo.IsMob := fun _ => inferInstanceAs (Decidable (¬ _))

/-- A zone with or without a file. -/
def Arrival.points (a : Arrival) : List SavedPoint :=
  match a.file with
  | some input => readPoints input
  | none => []

section
variable (toLower : QString → QString)

/-- What an event means for the places. -/
def PointEvent.happening (zoneName : QString) : PointEvent → Happening
  | .newSpawn _ (some spawn) =>
      if spawn.IsMob then .sighted (SpawnPoint.keyOf spawn.x spawn.y spawn.z) else .nothing
  | .newSpawn _ none => .nothing
  | .killSpawn .. => .nothing
  | .setName .. => .nothing
  | .deleteSpawnPoint key => .removed key
  | .zoneChanged a newZoneName => if zoneName ≠ newZoneName then .entered a.points else .nothing
  | .zoneEnd a newZoneName =>
      if zoneName ≠ toLower newZoneName then .entered a.points else .nothing

end

/-- The tables have the places that were seen, with their counts. -/
structure Tells (places : Places) (s : SpawnMonitor) : Prop where
  points : ∀ k, (s.m_points.lookup k).map SpawnPoint.m_count =
    if (places k).Promoted then some (places k).count else none
  spawns : ∀ k, (s.m_spawns.lookup k).map SpawnPoint.m_count =
    if (places k).Candidate then some 1 else none

/-! ## Every operation keeps it so -/

/-- A sighting makes a new place a candidate, and any other a spawn point. -/
theorem Place.seen_again {p : Place} (h : p.Promoted ∨ p.Candidate) :
    p.again.Promoted ∧ ¬ p.again.Candidate ∧ p.again.count = p.count + 1 := by
  refine ⟨?_, ?_, ?_⟩
  · rcases h with (h | h) | h
    · exact .inl h
    · exact .inr (Nat.le_succ_of_le h)
    · exact .inr (Nat.succ_le_succ h.2.ge)
  · rintro ⟨hloaded, hseen⟩
    rcases h with (h | h) | h
    · exact h hloaded
    · have hsucc : p.seen + 1 = 1 := hseen
      omega
    · have hone := h.2
      have hsucc : p.seen + 1 = 1 := hseen
      omega
  · show p.loaded.getD 0 + UInt32.ofNat (p.seen + 1) = p.loaded.getD 0 + UInt32.ofNat p.seen + 1
    rw [UInt32.ofNat_add, UInt32.add_assoc]
    rfl

theorem Place.seen_first {p : Place} (hp : ¬ p.Promoted) (hc : ¬ p.Candidate) :
    ¬ p.again.Promoted ∧ p.again.Candidate := by
  have hloaded : p.loaded = none := by
    by_contra h
    exact hp (.inl h)
  have hne : p.seen ≠ 1 := fun h => hc ⟨hloaded, h⟩
  have hlt : ¬ 2 ≤ p.seen := fun h => hp (.inr h)
  refine ⟨?_, hloaded, ?_⟩
  · rintro (h | h)
    · exact h hloaded
    · have hsucc : 2 ≤ p.seen + 1 := h
      omega
  · show p.seen + 1 = 1
    omega

section
variable {places : Places} {s : SpawnMonitor}

theorem Tells.mem_points (h : Tells places s) (k : QString) :
    k ∈ s.m_points ↔ (places k).Promoted := by
  rw [← AList.lookup_isSome, ← Option.isSome_map, h.points]
  split <;> simp_all

theorem Tells.mem_spawns (h : Tells places s) (k : QString) :
    k ∈ s.m_spawns ↔ (places k).Candidate := by
  rw [← AList.lookup_isSome, ← Option.isSome_map, h.spawns]
  split <;> simp_all

/-- A change that does not touch the counts. -/
theorem Tells.congr (h : Tells places s) {s' : SpawnMonitor}
    (hpoints : ∀ k, (s'.m_points.lookup k).map SpawnPoint.m_count =
      (s.m_points.lookup k).map SpawnPoint.m_count)
    (hspawns : ∀ k, (s'.m_spawns.lookup k).map SpawnPoint.m_count =
      (s.m_spawns.lookup k).map SpawnPoint.m_count) : Tells places s' :=
  ⟨fun k => (hpoints k).trans (h.points k), fun k => (hspawns k).trans (h.spawns k)⟩

theorem tells_setName (h : Tells places s) (key name : QString) :
    Tells places (s.setName key name) := by
  unfold SpawnMonitor.setName
  dsimp only
  split
  · exact h.congr (Table.map_lookup_modify _ key (fun sp : SpawnPoint => { sp with m_name := name }) _
      fun _ => rfl) fun _ => rfl
  · split
    · exact h.congr (fun _ => rfl)
        (Table.map_lookup_modify _ key (fun sp : SpawnPoint => { sp with m_name := name }) _ fun _ => rfl)
    · exact h

theorem tells_killSpawn (h : Tells places s) (o : Table.Order) (now : Int) (id : UInt16) :
    Tells places (s.killSpawn o now id) := by
  unfold SpawnMonitor.killSpawn
  split
  · exact h.congr (Table.map_lookup_modify _ _ (SpawnPoint.restart now) _ fun _ => rfl)
      fun _ => rfl
  · exact h

/-- What the tables have to be for the places after one of them has changed. -/
theorem Tells.update (h : Tells places s) {s' : SpawnMonitor} {key : QString} {p : Place}
    (hpoints : ∀ k, (s'.m_points.lookup k).map SpawnPoint.m_count = if k = key then
      (if p.Promoted then some p.count else none) else (s.m_points.lookup k).map SpawnPoint.m_count)
    (hspawns : ∀ k, (s'.m_spawns.lookup k).map SpawnPoint.m_count = if k = key then
      (if p.Candidate then some 1 else none) else (s.m_spawns.lookup k).map SpawnPoint.m_count) :
    Tells (Function.update places key p) s' := by
  constructor
  · intro k
    rw [hpoints]
    by_cases hk : k = key
    · rw [if_pos hk, hk, Function.update_self]
    · rw [if_neg hk, Function.update_of_ne hk, h.points]
  · intro k
    rw [hspawns]
    by_cases hk : k = key
    · rw [if_pos hk, hk, Function.update_self]
    · rw [if_neg hk, Function.update_of_ne hk, h.spawns]

theorem tells_deleteSpawnPoint (h : Tells places s) (key : QString) :
    Tells (places.after (.removed key)) (s.deleteSpawnPoint key) := by
  have hnone : ¬ (⟨none, 0⟩ : Place).Promoted ∧ ¬ (⟨none, 0⟩ : Place).Candidate := by decide
  have hcross : (places key).Promoted → ¬ (places key).Candidate := by
    rintro (hp | hp) ⟨hc, hseen⟩
    · exact hp hc
    · omega
  unfold SpawnMonitor.deleteSpawnPoint
  split
  · rename_i hmem
    have hcand : (s.m_spawns.lookup key).map SpawnPoint.m_count = none := by
      rw [h.spawns, if_neg (hcross ((h.mem_points key).mp hmem))]
    refine h.update (fun k => ?_) fun k => ?_
    · dsimp only
      rw [Table.lookup_erase, if_neg hnone.1]
      split <;> rfl
    · rw [if_neg hnone.2]
      split
      · rename_i hk
        rw [hk, hcand]
      · rfl
  · rename_i hmem
    have hpoint : (s.m_points.lookup key).map SpawnPoint.m_count = none := by
      rw [AList.lookup_eq_none.mpr hmem, Option.map_none]
    refine h.update (fun k => ?_) fun k => ?_
    · rw [if_neg hnone.1]
      split
      · rename_i hk
        rw [hk, hpoint]
      · rfl
    · dsimp only
      rw [Table.lookup_erase, if_neg hnone.2]
      split <;> rfl

theorem tells_checkSpawnPoint (h : Tells places s) {now : Int} {spawn : SpawnInfo}
    (hmob : spawn.IsMob) :
    Tells (places.after (.sighted (SpawnPoint.keyOf spawn.x spawn.y spawn.z)))
      (s.checkSpawnPoint now spawn) := by
  unfold SpawnMonitor.checkSpawnPoint
  rw [if_neg hmob]
  generalize SpawnPoint.keyOf spawn.x spawn.y spawn.z = key
  have hpoint := h.points key
  have hspawn := h.spawns key
  dsimp only
  by_cases hmem : key ∈ s.m_points
  · have hp := (h.mem_points key).mp hmem
    obtain ⟨hpromoted, hcandidate, hcount⟩ := Place.seen_again (.inl hp)
    have hcand : ¬ (places key).Candidate := by
      rintro ⟨hloaded, hseen⟩
      rcases hp with hp | hp
      · exact hp hloaded
      · omega
    rw [if_pos hp] at hpoint
    rw [if_neg hcand] at hspawn
    rw [if_pos hmem]
    refine h.update (fun k => ?_) fun k => ?_
    · dsimp only
      rw [Table.lookup_modify, if_pos hpromoted, hcount]
      split
      · rename_i hk
        obtain ⟨sp, hsp, hsp'⟩ := Option.map_eq_some_iff.mp hpoint
        rw [hk, hsp, ← hsp']
        rfl
      · rfl
    · rw [if_neg hcandidate]
      split
      · rename_i hk
        rw [hk, hspawn]
      · rfl
  · have hp : ¬ (places key).Promoted := fun hp => hmem ((h.mem_points key).mpr hp)
    rw [if_neg hp] at hpoint
    rw [if_neg hmem]
    cases hlookup : s.m_spawns.lookup key with
    | some sp =>
        have hc : (places key).Candidate := by
          rw [← h.mem_spawns, ← AList.lookup_isSome, hlookup]
          rfl
        obtain ⟨hpromoted, hcandidate, hcount⟩ := Place.seen_again (.inr hc)
        rw [if_pos hc, hlookup] at hspawn
        have hone : sp.m_count = 1 := Option.some.inj hspawn
        refine h.update (fun k => ?_) fun k => ?_
        · dsimp only
          rw [Table.lookup_insert, if_pos hpromoted, hcount]
          split
          · show some (sp.m_count + 1) = some ((places key).count + 1)
            rw [hone, Place.count, hc.1, hc.2]
            rfl
          · rfl
        · dsimp only
          rw [Table.lookup_erase, if_neg hcandidate]
          split <;> rfl
    | none =>
        have hc : ¬ (places key).Candidate := by
          rw [← h.mem_spawns, ← AList.lookup_isSome, hlookup]
          simp
        have hfirst := Place.seen_first hp hc
        refine h.update (fun k => ?_) fun k => ?_
        · dsimp only
          rw [if_neg hfirst.1]
          split
          · rename_i hk
            rw [hk, hpoint]
          · rfl
        · dsimp only
          rw [Table.lookup_insert, if_pos hfirst.2]
          split <;> rfl

/-- A zone starts with the points of its file. -/
theorem tells_zone (a : Arrival) (newZoneName : QString) (s : SpawnMonitor) :
    Tells (places.after (.entered a.points))
      (loadSpawnPoints a.clock a.file { s.clear with m_zoneName := newZoneName }) := by
  have hloaded : ∀ k, ((loadSpawnPoints a.clock a.file
      { s.clear with m_zoneName := newZoneName }).m_points.lookup k).map SpawnPoint.m_count =
      (a.points.find? fun p => p.key = k).map SavedPoint.count := by
    intro k
    cases hfile : a.file with
    | none =>
        rw [Arrival.points, hfile]
        rfl
    | some input =>
        have hsaved := saved_lookup_loadPoints (readPoints input) k a.clock
          (∅ : Table QString SpawnPoint)
        rw [AList.lookup_empty, Option.map_none, Option.none_or] at hsaved
        rw [Arrival.points, hfile, ← hsaved, Option.map_map]
        rfl
  have hempty : ∀ k, (loadSpawnPoints a.clock a.file
      { s.clear with m_zoneName := newZoneName }).m_spawns.lookup k = none := by
    intro k
    cases a.file <;> rfl
  constructor
  · intro k
    rw [hloaded]
    cases hfind : a.points.find? fun p => p.key = k with
    | none =>
        rw [if_neg]
        · rfl
        · simp [Places.after, hfind, Place.Promoted]
    | some p =>
        rw [if_pos]
        · simp [Places.after, hfind, Place.count]
        · simp [Places.after, hfind, Place.Promoted]
  · intro k
    rw [hempty, if_neg]
    · rfl
    · rintro ⟨-, hseen⟩
      cases hseen

end

theorem tells_perform (toLower : QString → QString) {places : Places} {s : SpawnMonitor}
    (h : Tells places s) (e : PointEvent) :
    Tells (places.after (e.happening toLower s.m_zoneName)) (s.perform toLower e) := by
  have hzone : ∀ (a : Arrival) (newZoneName : QString),
      Tells (places.after (if s.m_zoneName ≠ newZoneName then .entered a.points else .nothing))
        (s.zoneChanged a newZoneName) := by
    intro a newZoneName
    unfold SpawnMonitor.zoneChanged
    split
    · exact tells_zone a newZoneName (s.save a.disk)
    · exact h
  cases e with
  | newSpawn now spawn =>
      cases spawn with
      | none => exact h
      | some spawn =>
          show Tells (places.after (if spawn.IsMob then _ else _)) (s.checkSpawnPoint now spawn)
          by_cases hmob : spawn.IsMob
          · rw [if_pos hmob]
            exact tells_checkSpawnPoint h hmob
          · rw [if_neg hmob]
            unfold SpawnMonitor.checkSpawnPoint
            rw [if_pos (not_not.mp hmob)]
            exact h
  | killSpawn o now id => exact tells_killSpawn h o now id
  | setName key name => exact tells_setName h key name
  | deleteSpawnPoint key => exact tells_deleteSpawnPoint h key
  | zoneChanged a newZoneName => exact hzone a newZoneName
  | zoneEnd a newZoneName => exact hzone a (toLower newZoneName)

/-- A monitor without points, and places that nothing is known of. -/
theorem tells_inZone (zone : QString) :
    Tells (fun _ => { loaded := none, seen := 0 }) (SpawnMonitor.inZone zone) := by
  constructor <;> intro k <;> rfl

end ShoweqDaemon.SpawnPoints
