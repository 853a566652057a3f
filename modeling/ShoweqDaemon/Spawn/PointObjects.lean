/-
  `SpawnMonitor` with its points as objects.

  Here the tables hold addresses, `m_selected` is one, points are made and deleted, and every
  operation gives the signals it emits. A point that is promoted is in both tables for the length
  of one signal. `Sound` is what every run keeps. `view_perform` says that the values behind the
  addresses move as in `Places.lean`.

  `Held k a` says that one of the two tables has the address `a` under the key `k`, `Live a` that
  some key has it. What is deleted goes to a list, so that a pointer to it can be told from
  others.

  Proved:
  * `sound_perform`: every operation keeps the tables apart, each key that of its point, and every
    pointer, the selected one too, on an object that was not deleted; none is deleted twice.
  * `view_perform`: each operation does to the values what `Places.lean` has for it, or nothing.
-/
import ShoweqDaemon.Lib.Run
import ShoweqDaemon.Spawn.Places

namespace ShoweqDaemon.SpawnPoints

open Spawns

namespace Owned

instance : Inhabited SpawnPoint :=
  ⟨{ x := 0, y := 0, z := 0, m_spawnTime := 0, m_deathTime := 0, m_diffTime := 0, m_count := 0
     m_name := [], m_last := [], m_lastID := 0 }⟩

/-- The memory of the points is a function; `deleted` lists the addresses given back. -/
structure SpawnMonitor where
  object : Addr → SpawnPoint
  next : Addr
  deleted : List Addr
  m_zoneName : QString
  m_spawns : Table QString Addr
  m_points : Table QString Addr
  m_selected : Option Addr
  m_modified : Bool

/-- A signal, with the point as its receivers read it. -/
inductive Signal where
  | newSpawnPoint (spawnPoint : SpawnPoint)
  | clearSpawnPoints
  | selectionChanged (selected : Option Addr)
  | spawnPointUpdated (spawnPoint : SpawnPoint)
  | spawnPointDeleted (spawnPoint : SpawnPoint)

/-- The state after an operation and the signals that it emitted. -/
abbrev Out := SpawnMonitor × List Signal

namespace SpawnMonitor

/-- The constructor: no points, no zone. -/
def init : SpawnMonitor where
  object := fun _ => default
  next := 0
  deleted := []
  m_zoneName := []
  m_spawns := ∅
  m_points := ∅
  m_selected := none
  m_modified := false

/-- A write through a pointer. -/
def setObject (s : SpawnMonitor) (a : Addr) (f : SpawnPoint → SpawnPoint) : SpawnMonitor :=
  { s with object := fun b => if b = a then f (s.object a) else s.object b }

/-- `delete sp`: the address is given back. -/
def delete (s : SpawnMonitor) (a : Addr) : SpawnMonitor := { s with deleted := a :: s.deleted }

/-! ## Operations -/

/-- `SpawnMonitor::setName`: a point gets a name, and the monitor has something to save. -/
def setName (s : SpawnMonitor) (csp : Option Addr) (name : QString) : Out :=
  match csp with
  | none => (s, [])
  | some sp =>
      let s := { s.setObject sp ({ · with m_name := name }) with m_modified := true }
      (s, [.spawnPointUpdated (s.object sp)])

/-- `SpawnMonitor::setSelected`, with a signal when the selection changes. -/
def setSelected (s : SpawnMonitor) (selected : Option Addr) : Out :=
  if s.m_selected = selected then (s, [])
  else ({ s with m_selected := selected }, [.selectionChanged selected])

/-- `SpawnMonitor::clear`: the points of both tables are deleted, and nothing is selected. -/
def clear (s : SpawnMonitor) : Out :=
  let s := s.m_spawns.values.foldl delete s
  let s := s.m_points.values.foldl delete { s with m_spawns := ∅ }
  ({ s with m_points := ∅, m_selected := none }, [.clearSpawnPoints])

/-- `SpawnMonitor::deleteSpawnPoint`: a selected point is deselected first; then what the table has
    under its key is deleted. -/
def deleteSpawnPoint (s : SpawnMonitor) (sp : Addr) : Out :=
  let o : Out :=
    if s.m_selected = some sp then ({ s with m_selected := none }, [.selectionChanged none])
    else (s, [])
  let key := (s.object sp).key
  let s :=
    match o.1.m_points.lookup key with
    | some taken => { o.1 with m_points := o.1.m_points.erase key }.delete taken
    | none =>
        match o.1.m_spawns.lookup key with
        | some taken => { o.1 with m_spawns := o.1.m_spawns.erase key }.delete taken
        | none => o.1
  ({ s with m_modified := true }, o.2 ++ [.spawnPointDeleted (o.1.object sp)])

/-- `SpawnMonitor::restartSpawnPoint`: the point counts another spawn from now on. -/
def restartSpawnPoint (s : SpawnMonitor) (now : Int) (sp : Addr) : Out :=
  let s := s.setObject sp (SpawnPoint.restart now)
  (s, [.spawnPointUpdated (s.object sp)])

/-- The loop over the promoted points ends at the first one whose last spawn this was. -/
def killSpawn (s : SpawnMonitor) (o : Table.Order) (now : Int) (id : UInt16) : Out :=
  match (o.visit s.m_points.entries).find? (fun e => (s.object e.2).m_lastID = id) with
  | some e => s.restartSpawnPoint now e.2
  | none => (s, [])

/-- `SpawnMonitor::checkSpawnPoint`: pets, mounts and the like make no point; another creature
    updates the point at its place, makes a point of the candidate there, or becomes a candidate. -/
def checkSpawnPoint (s : SpawnMonitor) (now : Int) (spawn : SpawnInfo) : Out :=
  if spawn.NPC ≠ SPAWN_NPC ∨ spawn.petOwnerID ≠ 0 ∨ spawn.isMount ∨ spawn.isAura ∨
      spawn.isMercenary then (s, [])
  else
    let key := SpawnPoint.keyOf spawn.x spawn.y spawn.z
    match s.m_points.lookup key with
    | some sp =>
        let s := { s with m_modified := true }.setObject sp (SpawnPoint.update now spawn)
        (s, [.spawnPointUpdated (s.object sp)])
    | none =>
        match s.m_spawns.lookup key with
        | some sp =>
            let s := s.setObject sp (SpawnPoint.update now spawn)
            let s := { s with m_points := s.m_points.insert key sp }
            -- the signal goes out while both tables have the point
            let signals := [Signal.newSpawnPoint (s.object sp)]
            ({ s with m_modified := true, m_spawns := s.m_spawns.erase key }, signals)
        | none =>
            let sp := s.next
            ({ s.setObject sp (fun _ => SpawnPoint.new now spawn) with
              next := s.next + 1
              m_spawns := s.m_spawns.insert key sp }, [])

/-- An item that is no spawn is `none`. -/
def newSpawn (s : SpawnMonitor) (now : Int) : (item : Option SpawnInfo) → Out
  | some spawn => s.checkSpawnPoint now spawn
  | none => (s, [])

/-! ## Zones -/

/-- What a save does to the monitor. -/
def saveSpawnPoints (s : SpawnMonitor) (disk : Disk) : SpawnMonitor :=
  if s.m_modified = true ∧ s.m_zoneName ≠ [] ∧ disk.opens = true then
    { s with m_modified := false }
  else s

/-- A point is made for every line, and deleted again when its key is in use. -/
def loadPoint (s : SpawnMonitor) (now : Int) (p : SavedPoint) : Out :=
  let sp := s.next
  let made := { s.setObject sp (fun _ => p.point now) with next := s.next + 1 }
  match s.m_points.lookup p.key with
  | none =>
      ({ made with m_points := s.m_points.insert p.key sp }, [.newSpawnPoint (made.object sp)])
  | some _ => (made.delete sp, [])

/-- The lines of a file one after the other, each with its own reading of the clock. -/
def loadPoints (s : SpawnMonitor) : (clock : ℕ → Int) → List SavedPoint → Out
  | _, [] => (s, [])
  | clock, p :: ps =>
      let o := s.loadPoint (clock 0) p
      let r := o.1.loadPoints (fun n => clock (n + 1)) ps
      (r.1, o.2 ++ r.2)

/-- `SpawnMonitor::loadSpawnPoints`: a file that is not there loads nothing. -/
def loadSpawnPoints (s : SpawnMonitor) (clock : ℕ → Int) (file : Option QString) : Out :=
  match file with
  | none => (s, [])
  | some input =>
      let o := s.loadPoints clock (readPoints input)
      ({ o.1 with m_modified := false }, o.2)

/-- `SpawnMonitor::zoneChanged`: the points of the old zone are saved and cleared, those of the new
    one are loaded. -/
def zoneChanged (s : SpawnMonitor) (a : Arrival) (newZoneName : QString) : Out :=
  if s.m_zoneName ≠ newZoneName then
    let o := (s.saveSpawnPoints a.disk).clear
    let r := { o.1 with m_zoneName := newZoneName }.loadSpawnPoints a.clock a.file
    (r.1, o.2 ++ r.2)
  else (s, [])

/-- The name is changed before the points are cleared. -/
def zoneEnd (s : SpawnMonitor) (toLower : QString → QString) (a : Arrival)
    (newZoneName : QString) : Out :=
  let lower := toLower newZoneName
  if s.m_zoneName ≠ lower then
    let o := { s.saveSpawnPoints a.disk with m_zoneName := lower }.clear
    let r := o.1.loadSpawnPoints a.clock a.file
    (r.1, o.2 ++ r.2)
  else (s, [])

/-! ## Runs -/

/-- The point is in the table of its key. -/
def Held (s : SpawnMonitor) (k : QString) (a : Addr) : Prop :=
  s.m_spawns.lookup k = some a ∨ s.m_points.lookup k = some a

/-- An address that one of the tables holds. -/
def Live (s : SpawnMonitor) (a : Addr) : Prop := ∃ k, s.Held k a

/-- The addresses that the tables hold. -/
def live (s : SpawnMonitor) : List Addr := s.m_spawns.values ++ s.m_points.values

theorem mem_live {s : SpawnMonitor} {a : Addr} : a ∈ s.live ↔ s.Live a := by
  unfold live Live Held
  rw [List.mem_append, Table.mem_values, Table.mem_values, ← exists_or]

end SpawnMonitor

/-- The operations. A pointer that is handed in is of a live point: with another one there is no
    call. -/
inductive Event where
  | newSpawn (now : Int) (item : Option SpawnInfo)
  | killSpawn (o : Table.Order) (now : Int) (id : UInt16)
  | setName (csp : Option Addr) (name : QString)
  | setSelected (selected : Option Addr)
  | deleteSpawnPoint (sp : Addr)
  | zoneChanged (a : Arrival) (newZoneName : QString)
  | zoneEnd (a : Arrival) (newZoneName : QString)

section
variable (toLower : QString → QString)

/-- What an event does; only points that the tables hold are named or selected. -/
def SpawnMonitor.perform (s : SpawnMonitor) : Event → Out
  | .newSpawn now item => s.newSpawn now item
  | .killSpawn o now id => s.killSpawn o now id
  | .setName csp name => if ∀ a ∈ csp, a ∈ s.live then s.setName csp name else (s, [])
  | .setSelected selected =>
      if ∀ a ∈ selected, a ∈ s.live then s.setSelected selected else (s, [])
  | .deleteSpawnPoint sp => if sp ∈ s.live then s.deleteSpawnPoint sp else (s, [])
  | .zoneChanged a newZoneName => s.zoneChanged a newZoneName
  | .zoneEnd a newZoneName => s.zoneEnd toLower a newZoneName

/-- The state after an event. -/
def step (s : SpawnMonitor) (e : Event) : SpawnMonitor := (s.perform toLower e).1

end

/-! ## The invariant -/

namespace SpawnMonitor

/-- What every run keeps: the tables share no key, each key is that of its point, no pointer to a
    deleted point is left, and none is deleted twice. -/
structure Sound (s : SpawnMonitor) : Prop where
  disjoint : ∀ k, k ∈ s.m_spawns → k ∉ s.m_points
  keyed : ∀ k a, s.Held k a → k = (s.object a).key
  alive : ∀ a, s.Live a → a ∉ s.deleted ∧ a < s.next
  deleted_lt : ∀ a ∈ s.deleted, a < s.next
  /-- No object is deleted twice. -/
  deleted_nodup : s.deleted.Nodup
  selected : ∀ a, s.m_selected = some a → s.Live a

theorem init_sound : init.Sound where
  disjoint _ h := absurd h (AList.notMem_empty _)
  keyed k a h := by rcases h with h | h <;> cases h
  alive a h := by
    obtain ⟨k, h | h⟩ := h <;> cases h
  deleted_lt _ h := absurd h List.not_mem_nil
  deleted_nodup := List.nodup_nil
  selected _ h := nomatch h

variable {s : SpawnMonitor}

/-- The key finds the point. -/
theorem Sound.eq_of_held (h : s.Sound) {k : QString} {a b : Addr} (ha : s.Held k a)
    (hb : s.Held k b) : a = b := by
  have hcross : ∀ {a b : Addr}, s.m_spawns.lookup k = some a → s.m_points.lookup k = some b →
      False := by
    intro a b ha hb
    refine h.disjoint k ?_ ?_
    · rw [← AList.lookup_isSome, ha]
      rfl
    · rw [← AList.lookup_isSome, hb]
      rfl
  rcases ha with ha | ha
  · rcases hb with hb | hb
    · exact Option.some.inj (ha.symm.trans hb)
    · exact (hcross ha hb).elim
  · rcases hb with hb | hb
    · exact (hcross hb ha).elim
    · exact Option.some.inj (ha.symm.trans hb)

/-- A point changes, but not its place. -/
theorem Sound.setObject (h : s.Sound) (a : Addr) {f : SpawnPoint → SpawnPoint}
    (hf : ∀ sp, (f sp).key = sp.key) : (s.setObject a f).Sound := by
  refine ⟨h.disjoint, fun k b hb => ?_, h.alive, h.deleted_lt, h.deleted_nodup, h.selected⟩
  show k = (if b = a then f (s.object a) else s.object b).key
  split
  · rename_i hba
    rw [hf, ← hba]
    exact h.keyed k b hb
  · exact h.keyed k b hb

/-- The same points are held, perhaps in the other table. -/
theorem Sound.moved (h : s.Sound) {s' : SpawnMonitor} (hheld : ∀ k a, s'.Held k a ↔ s.Held k a)
    (hdisjoint : ∀ k, k ∈ s'.m_spawns → k ∉ s'.m_points) (hobject : s'.object = s.object)
    (hnext : s'.next = s.next) (hdeleted : s'.deleted = s.deleted)
    (hselected : ∀ a, s'.m_selected = some a → s.Live a) : s'.Sound := by
  have hlive : ∀ a, s'.Live a ↔ s.Live a := fun a => exists_congr fun k => hheld k a
  refine ⟨hdisjoint, fun k a ha => ?_, fun a ha => ?_, ?_, ?_, fun a ha => ?_⟩
  · rw [hobject]
    exact h.keyed k a ((hheld k a).mp ha)
  · rw [hdeleted, hnext]
    exact h.alive a ((hlive a).mp ha)
  · rw [hdeleted, hnext]
    exact h.deleted_lt
  · rw [hdeleted]
    exact h.deleted_nodup
  · exact (hlive a).mpr (hselected a ha)

/-- The point of a key is gone. -/
theorem Sound.removed (h : s.Sound) {s' : SpawnMonitor} {key : QString} {taken : Addr}
    (htaken : s.Held key taken) (hheld : ∀ k a, s'.Held k a ↔ k ≠ key ∧ s.Held k a)
    (hdisjoint : ∀ k, k ∈ s'.m_spawns → k ∉ s'.m_points) (hobject : s'.object = s.object)
    (hnext : s'.next = s.next) (hdeleted : s'.deleted = taken :: s.deleted)
    (hselected : ∀ a, s'.m_selected = some a → s.Live a ∧ a ≠ taken) : s'.Sound := by
  have htaken' := h.alive taken ⟨key, htaken⟩
  refine ⟨hdisjoint, fun k a ha => ?_, fun a ha => ?_, fun a ha => ?_, ?_, fun a ha => ?_⟩
  · rw [hobject]
    exact h.keyed k a ((hheld k a).mp ha).2
  · obtain ⟨k, ha⟩ := ha
    obtain ⟨hk, ha⟩ := (hheld k a).mp ha
    obtain ⟨hnot, hlt⟩ := h.alive a ⟨k, ha⟩
    rw [hdeleted, hnext, List.mem_cons, not_or]
    refine ⟨⟨fun heq => ?_, hnot⟩, hlt⟩
    rw [heq] at ha
    exact hk ((h.keyed k taken ha).trans (h.keyed key taken htaken).symm)
  · rw [hdeleted] at ha
    rw [hnext]
    rcases List.mem_cons.mp ha with heq | ha
    · rw [heq]
      exact htaken'.2
    · exact h.deleted_lt a ha
  · rw [hdeleted]
    exact List.nodup_cons.mpr ⟨htaken'.1, h.deleted_nodup⟩
  · obtain ⟨⟨k, ha⟩, hne⟩ := hselected a ha
    refine ⟨k, (hheld k a).mpr ⟨fun hk => ?_, ha⟩⟩
    rw [hk] at ha
    exact hne (h.eq_of_held ha htaken)

/-- A new point under a key that no point has. -/
theorem Sound.added (h : s.Sound) {s' : SpawnMonitor} (sp : SpawnPoint)
    (hheld : ∀ k a, s'.Held k a ↔ (k = sp.key ∧ a = s.next) ∨ s.Held k a)
    (hdisjoint : ∀ k, k ∈ s'.m_spawns → k ∉ s'.m_points)
    (hobject : s'.object = (s.setObject s.next fun _ => sp).object)
    (hnext : s'.next = s.next + 1) (hdeleted : s'.deleted = s.deleted)
    (hselected : s'.m_selected = s.m_selected) : s'.Sound := by
  refine ⟨hdisjoint, fun k a ha => ?_, fun a ha => ?_, fun a ha => ?_, ?_, fun a ha => ?_⟩
  · rw [hobject]
    show k = (if a = s.next then sp else s.object a).key
    rcases (hheld k a).mp ha with ⟨hk, ha⟩ | ha
    · rw [if_pos ha, hk]
    · have hlt := (h.alive a ⟨k, ha⟩).2
      rw [if_neg (Nat.ne_of_lt hlt)]
      exact h.keyed k a ha
  · obtain ⟨k, ha⟩ := ha
    rw [hdeleted, hnext]
    rcases (hheld k a).mp ha with ⟨-, rfl⟩ | ha
    · exact ⟨fun hmem => Nat.lt_irrefl _ (h.deleted_lt _ hmem), Nat.lt_succ_self _⟩
    · obtain ⟨hnot, hlt⟩ := h.alive a ⟨k, ha⟩
      exact ⟨hnot, Nat.lt_succ_of_lt hlt⟩
  · rw [hdeleted] at ha
    rw [hnext]
    exact Nat.lt_succ_of_lt (h.deleted_lt a ha)
  · rw [hdeleted]
    exact h.deleted_nodup
  · obtain ⟨k, ha⟩ := h.selected a (hselected ▸ ha)
    exact ⟨k, (hheld k a).mpr (.inr ha)⟩

/-! ## Every operation keeps it -/

theorem sound_setName (h : s.Sound) (csp : Option Addr) (name : QString) :
    (s.setName csp name).1.Sound := by
  cases csp with
  | none => exact h
  | some sp =>
      have hs := h.setObject sp (f := ({ · with m_name := name })) fun _ => rfl
      exact ⟨hs.disjoint, hs.keyed, hs.alive, hs.deleted_lt, hs.deleted_nodup, hs.selected⟩

theorem sound_setSelected (h : s.Sound) {selected : Option Addr}
    (hlive : ∀ a ∈ selected, a ∈ s.live) : (s.setSelected selected).1.Sound := by
  unfold setSelected
  split
  · exact h
  · exact ⟨h.disjoint, h.keyed, h.alive, h.deleted_lt, h.deleted_nodup,
      fun a ha => mem_live.mp (hlive a ha)⟩

theorem sound_killSpawn (h : s.Sound) (o : Table.Order) (now : Int) (id : UInt16) :
    (s.killSpawn o now id).1.Sound := by
  unfold killSpawn
  split
  · exact h.setObject _ fun _ => rfl
  · exact h

/-- The tables hold every point once. -/
theorem Sound.live_nodup (h : s.Sound) : s.live.Nodup := by
  have hkeys : ∀ {t : Table QString Addr}, (∀ k a, t.lookup k = some a → s.Held k a) →
      t.values.map (fun a => (s.object a).key) = t.keys := by
    intro t ht
    show (t.entries.map fun e => e.2).map _ = t.entries.map Sigma.fst
    rw [List.map_map]
    refine List.map_congr_left fun e he => ?_
    exact (h.keyed e.1 e.2 (ht e.1 e.2 (AList.mem_lookup_iff.mpr he))).symm
  refine List.Nodup.of_map (fun a => (s.object a).key) ?_
  rw [live, List.map_append, hkeys fun _ _ => .inl, hkeys fun _ _ => .inr]
  refine List.Nodup.append s.m_spawns.nodupKeys s.m_points.nodupKeys ?_
  intro k hspawns hpoints
  exact h.disjoint k hspawns hpoints

theorem foldl_delete (l : List Addr) (s : SpawnMonitor) :
    l.foldl delete s = { s with deleted := l.reverse ++ s.deleted } :=
  Machine.foldl_push delete deleted (fun s l => { s with deleted := l }) (fun _ _ => rfl)
    (fun _ _ => rfl) (fun _ _ _ => rfl) (fun _ => rfl) l s

theorem clear_eq (s : SpawnMonitor) : s.clear.1 =
    { s with
      deleted := s.live.reverse ++ s.deleted, m_spawns := ∅, m_points := ∅, m_selected := none } := by
  simp [clear, foldl_delete, live]

theorem sound_clear (h : s.Sound) : s.clear.1.Sound := by
  rw [clear_eq]
  have hdisjoint : List.Disjoint s.live.reverse s.deleted := by
    intro a ha hdeleted
    exact (h.alive a (mem_live.mp (List.mem_reverse.mp ha))).1 hdeleted
  refine ⟨fun k hk => absurd hk (AList.notMem_empty k), fun k a ha => ?_, fun a ha => ?_,
    fun a ha => ?_, ?_, fun a ha => (nomatch ha)⟩
  · rcases ha with ha | ha <;> cases ha
  · obtain ⟨k, ha | ha⟩ := ha <;> cases ha
  · rcases List.mem_append.mp ha with ha | ha
    · exact (h.alive a (mem_live.mp (List.mem_reverse.mp ha))).2
    · exact h.deleted_lt a ha
  · exact (List.nodup_reverse.mpr h.live_nodup).append h.deleted_nodup hdisjoint

/-- A deleted point is no longer selected, and its key finds it. -/
theorem sound_deleteSpawnPoint (h : s.Sound) {sp : Addr} (hlive : sp ∈ s.live) :
    (s.deleteSpawnPoint sp).1.Sound := by
  obtain ⟨k, hheld⟩ := mem_live.mp hlive
  have hkey := h.keyed k sp hheld
  unfold deleteSpawnPoint
  dsimp only
  generalize ho : (if s.m_selected = some sp then
    (({ s with m_selected := none }, [.selectionChanged none]) : Out) else (s, [])) = o
  have hspawns : o.1.m_spawns = s.m_spawns := by rw [← ho]; split <;> rfl
  have hpoints : o.1.m_points = s.m_points := by rw [← ho]; split <;> rfl
  have hobject : o.1.object = s.object := by rw [← ho]; split <;> rfl
  have hnext : o.1.next = s.next := by rw [← ho]; split <;> rfl
  have hdeleted : o.1.deleted = s.deleted := by rw [← ho]; split <;> rfl
  have hselected : ∀ a, o.1.m_selected = some a → s.Live a ∧ a ≠ sp := by
    intro a ha
    rw [← ho] at ha
    split at ha
    · cases ha
    · rename_i hne
      exact ⟨h.selected a ha, fun heq => hne (heq ▸ ha)⟩
  rw [← hkey, hpoints, hspawns]
  cases hp : s.m_points.lookup k with
  | some taken =>
      have htaken : s.Held k taken := .inr hp
      have hsame : taken = sp := h.eq_of_held htaken hheld
      have hno : s.m_spawns.lookup k = none := by
        rw [AList.lookup_eq_none]
        intro hmem
        refine h.disjoint k hmem ?_
        rw [← AList.lookup_isSome, hp]
        rfl
      refine h.removed htaken (fun k' a => ?_) (fun k' hk' => ?_) hobject hnext
        (congrArg (taken :: ·) hdeleted) (hsame ▸ hselected)
      · show (s.m_spawns.lookup k' = some a ∨ (s.m_points.erase k).lookup k' = some a) ↔ _
        rw [Table.lookup_erase]
        by_cases hk : k' = k
        · rw [if_pos hk, hk, hno]
          simp
        · rw [if_neg hk]
          exact (and_iff_right hk).symm
      · exact fun hk => h.disjoint k' hk' (AList.mem_erase.mp hk).2
  | none =>
      cases hs : s.m_spawns.lookup k with
      | some taken =>
          have htaken : s.Held k taken := .inl hs
          have hsame : taken = sp := h.eq_of_held htaken hheld
          refine h.removed htaken (fun k' a => ?_) (fun k' hk' => ?_) hobject hnext
            (congrArg (taken :: ·) hdeleted) (hsame ▸ hselected)
          · show ((s.m_spawns.erase k).lookup k' = some a ∨ s.m_points.lookup k' = some a) ↔ _
            rw [Table.lookup_erase]
            by_cases hk : k' = k
            · rw [if_pos hk, hk, hp]
              simp
            · rw [if_neg hk]
              exact (and_iff_right hk).symm
          · exact h.disjoint k' (AList.mem_erase.mp hk').2
      | none =>
          rcases hheld with hheld | hheld
          · rw [hs] at hheld
            cases hheld
          · rw [hp] at hheld
            cases hheld

theorem sound_checkSpawnPoint (h : s.Sound) (now : Int) (spawn : SpawnInfo) :
    (s.checkSpawnPoint now spawn).1.Sound := by
  unfold checkSpawnPoint
  split
  · exact h
  · dsimp only
    generalize hkey : SpawnPoint.keyOf spawn.x spawn.y spawn.z = key
    cases hp : s.m_points.lookup key with
    | some sp =>
        have hs := h.setObject sp (f := SpawnPoint.update now spawn) fun _ => rfl
        exact ⟨hs.disjoint, hs.keyed, hs.alive, hs.deleted_lt, hs.deleted_nodup, hs.selected⟩
    | none =>
        cases hc : s.m_spawns.lookup key with
        | some sp =>
            have hs := h.setObject sp (f := SpawnPoint.update now spawn) fun _ => rfl
            have hheld : ∀ k a, ((s.m_spawns.erase key).lookup k = some a ∨
                (s.m_points.insert key sp).lookup k = some a) ↔ s.Held k a := by
              intro k a
              rw [Table.lookup_erase, Table.lookup_insert, Held]
              by_cases hk : k = key
              · rw [if_pos hk, if_pos hk, hk, hc, hp]
                simp
              · rw [if_neg hk, if_neg hk]
            refine hs.moved hheld (fun k hk => ?_) rfl rfl rfl hs.selected
            obtain ⟨hne, hmem⟩ := AList.mem_erase.mp hk
            intro hmem'
            rcases (AList.mem_insert _).mp hmem' with heq | hmem'
            · exact hne heq
            · exact h.disjoint k hmem hmem'
        | none =>
            have hheld : ∀ k a, ((s.m_spawns.insert key s.next).lookup k = some a ∨
                s.m_points.lookup k = some a) ↔ (k = key ∧ a = s.next) ∨ s.Held k a := by
              intro k a
              rw [Table.lookup_insert, Held]
              by_cases hk : k = key
              · rw [if_pos hk, hk, hc, hp]
                simp [eq_comm]
              · rw [if_neg hk]
                simp [hk]
            have hnew : (SpawnPoint.new now spawn).key = key := hkey
            refine h.added (SpawnPoint.new now spawn) (fun k a => ?_) (fun k hk => ?_) rfl rfl
              rfl rfl
            · rw [hnew]
              exact hheld k a
            · rcases (AList.mem_insert _).mp hk with heq | hmem
              · rw [heq]
                exact AList.lookup_eq_none.mp hp
              · exact h.disjoint k hmem

/-- While a file is loaded there are no candidates. -/
theorem sound_loadPoint (h : s.Sound) (hnone : s.m_spawns = ∅) (now : Int) (p : SavedPoint) :
    (s.loadPoint now p).1.Sound ∧ (s.loadPoint now p).1.m_spawns = ∅ := by
  unfold loadPoint
  dsimp only
  cases hp : s.m_points.lookup p.key with
  | none =>
      refine ⟨h.added (p.point now) (fun k a => ?_) (fun k hk => ?_) rfl rfl rfl rfl, hnone⟩
      · show (s.m_spawns.lookup k = some a ∨ (s.m_points.insert p.key s.next).lookup k = some a) ↔
          (k = p.key ∧ a = s.next) ∨ s.Held k a
        rw [Table.lookup_insert, Held]
        by_cases hk : k = p.key
        · rw [if_pos hk, hk, hp, hnone]
          simp [eq_comm]
        · rw [if_neg hk]
          simp [hk]
      · have hmem : k ∈ s.m_spawns := hk
        rw [hnone] at hmem
        exact absurd hmem (AList.notMem_empty k)
  | some sp =>
      refine ⟨⟨h.disjoint, fun k a ha => ?_, fun a ha => ?_, fun a ha => ?_, ?_, h.selected⟩, hnone⟩
      · have hlt := (h.alive a ⟨k, ha⟩).2
        show k = (if a = s.next then p.point now else s.object a).key
        rw [if_neg (Nat.ne_of_lt hlt)]
        exact h.keyed k a ha
      · obtain ⟨hnot, hlt⟩ := h.alive a ha
        refine ⟨fun hmem => ?_, Nat.lt_succ_of_lt hlt⟩
        rcases List.mem_cons.mp hmem with heq | hmem
        · exact Nat.ne_of_lt hlt heq
        · exact hnot hmem
      · rcases List.mem_cons.mp ha with heq | ha
        · rw [heq]
          exact Nat.lt_succ_self _
        · exact Nat.lt_succ_of_lt (h.deleted_lt a ha)
      · exact List.nodup_cons.mpr ⟨fun hmem => Nat.lt_irrefl _ (h.deleted_lt _ hmem),
          h.deleted_nodup⟩

theorem sound_loadPoints (ps : List SavedPoint) :
    ∀ {s : SpawnMonitor} (_ : s.Sound) (_ : s.m_spawns = ∅) (clock : ℕ → Int),
      (s.loadPoints clock ps).1.Sound := by
  induction ps with
  | nil => exact fun h _ _ => h
  | cons p ps ih =>
      intro s h hnone clock
      obtain ⟨hsound, hnone'⟩ := sound_loadPoint h hnone (clock 0) p
      exact ih hsound hnone' _

theorem sound_loadSpawnPoints (h : s.Sound) (hnone : s.m_spawns = ∅) (clock : ℕ → Int)
    (file : Option QString) : (s.loadSpawnPoints clock file).1.Sound := by
  cases file with
  | none => exact h
  | some input =>
      have hs := sound_loadPoints (readPoints input) h hnone clock
      exact ⟨hs.disjoint, hs.keyed, hs.alive, hs.deleted_lt, hs.deleted_nodup, hs.selected⟩

theorem sound_saveSpawnPoints (h : s.Sound) (disk : Disk) : (s.saveSpawnPoints disk).Sound := by
  unfold saveSpawnPoints
  split
  · exact ⟨h.disjoint, h.keyed, h.alive, h.deleted_lt, h.deleted_nodup, h.selected⟩
  · exact h

/-- To take the new name first or last is the same. -/
theorem zoneEnd_eq (s : SpawnMonitor) (toLower : QString → QString) (a : Arrival)
    (newZoneName : QString) :
    s.zoneEnd toLower a newZoneName = s.zoneChanged a (toLower newZoneName) := by
  unfold zoneEnd zoneChanged
  dsimp only
  have hclear : ∀ s : SpawnMonitor, ∀ name, { s with m_zoneName := name }.clear =
      ({ s.clear.1 with m_zoneName := name }, s.clear.2) := by
    intro s name
    simp [clear, foldl_delete]
  rw [hclear]

theorem sound_zoneChanged (h : s.Sound) (a : Arrival) (newZoneName : QString) :
    (s.zoneChanged a newZoneName).1.Sound := by
  unfold zoneChanged
  split
  · have hs := sound_clear (sound_saveSpawnPoints h a.disk)
    have hnone : (s.saveSpawnPoints a.disk).clear.1.m_spawns = ∅ := by rw [clear_eq]
    have hnamed : { (s.saveSpawnPoints a.disk).clear.1 with m_zoneName := newZoneName }.Sound :=
      ⟨hs.disjoint, hs.keyed, hs.alive, hs.deleted_lt, hs.deleted_nodup, hs.selected⟩
    exact sound_loadSpawnPoints hnamed hnone a.clock a.file
  · exact h

theorem sound_perform (toLower : QString → QString) (h : s.Sound) (e : Event) :
    (s.perform toLower e).1.Sound := by
  cases e with
  | newSpawn now item =>
      cases item with
      | none => exact h
      | some spawn => exact sound_checkSpawnPoint h now spawn
  | killSpawn o now id => exact sound_killSpawn h o now id
  | setName csp name =>
      rw [perform]
      split
      · exact sound_setName h csp name
      · exact h
  | setSelected selected =>
      rw [perform]
      split
      · rename_i hlive
        exact sound_setSelected h hlive
      · exact h
  | deleteSpawnPoint sp =>
      rw [perform]
      split
      · rename_i hlive
        exact sound_deleteSpawnPoint h hlive
      · exact h
  | zoneChanged a newZoneName => exact sound_zoneChanged h a newZoneName
  | zoneEnd a newZoneName =>
      rw [perform, zoneEnd_eq]
      exact sound_zoneChanged h a (toLower newZoneName)

/-! ## The values -/

/-- The tables as their readers see them: each address replaced by the point it leads to. -/
def view (s : SpawnMonitor) : SpawnPoints.SpawnMonitor where
  m_zoneName := s.m_zoneName
  m_spawns := s.m_spawns.mapValues s.object
  m_points := s.m_points.mapValues s.object
  m_modified := s.m_modified

theorem Sound.not_both (h : s.Sound) {k k' : QString} {a : Addr}
    (hs : s.m_spawns.lookup k = some a) (hp : s.m_points.lookup k' = some a) : False := by
  have hk : k = k' := (h.keyed k a (.inl hs)).trans (h.keyed k' a (.inr hp)).symm
  refine h.disjoint k ?_ ?_
  · rw [← AList.lookup_isSome, hs]
    rfl
  · rw [hk, ← AList.lookup_isSome, hp]
    rfl

theorem Sound.same_key (h : s.Sound) {k k' : QString} {a : Addr} (ha : s.Held k a)
    (ha' : s.Held k' a) : k = k' := (h.keyed k a ha).trans (h.keyed k' a ha').symm

/-- A table that does not hold the point does not show its change. -/
theorem mapValues_setObject {t : Table QString Addr} {a : Addr}
    (ht : ∀ k b, t.lookup k = some b → b ≠ a) (f : SpawnPoint → SpawnPoint) :
    t.mapValues (s.setObject a f).object = t.mapValues s.object :=
  Table.mapValues_congr fun k b hb => if_neg (ht k b hb)

/-- No table shows a change of what is not allocated yet. -/
theorem mapValues_setObject_next (h : s.Sound) {t : Table QString Addr}
    (ht : ∀ k b, t.lookup k = some b → s.Held k b) (f : SpawnPoint → SpawnPoint) :
    t.mapValues (s.setObject s.next f).object = t.mapValues s.object :=
  mapValues_setObject (fun k b hb => Nat.ne_of_lt (h.alive b ⟨k, ht k b hb⟩).2) f

theorem object_setObject (a : Addr) (f : SpawnPoint → SpawnPoint) :
    (s.setObject a f).object a = f (s.object a) := if_pos rfl

theorem view_setObject_points (h : s.Sound) {k : QString} {a : Addr}
    (ha : s.m_points.lookup k = some a) (f : SpawnPoint → SpawnPoint) :
    (s.setObject a f).view = { s.view with m_points := s.view.m_points.modify k f } := by
  have hspawns : s.m_spawns.mapValues (s.setObject a f).object = s.m_spawns.mapValues s.object :=
    mapValues_setObject (fun _ _ hb heq => h.not_both (heq ▸ hb) ha) f
  have hpoints : s.m_points.mapValues (s.setObject a f).object =
      (s.m_points.mapValues s.object).modify k f := by
    refine Table.mapValues_modify fun k' b hb => ?_
    show (if b = a then f (s.object a) else s.object b) = _
    by_cases hk : k' = k
    · have heq : b = a := h.eq_of_held (.inr hb) (.inr (hk ▸ ha))
      rw [if_pos hk, if_pos heq, heq]
    · rw [if_neg hk, if_neg fun heq : b = a => hk (h.same_key (.inr hb) (.inr (heq ▸ ha)))]
  unfold view
  rw [← hspawns, ← hpoints]
  rfl

theorem view_setObject_spawns (h : s.Sound) {k : QString} {a : Addr}
    (ha : s.m_spawns.lookup k = some a) (f : SpawnPoint → SpawnPoint) :
    (s.setObject a f).view = { s.view with m_spawns := s.view.m_spawns.modify k f } := by
  have hpoints : s.m_points.mapValues (s.setObject a f).object = s.m_points.mapValues s.object :=
    mapValues_setObject (fun _ _ hb heq => h.not_both ha (heq ▸ hb)) f
  have hspawns : s.m_spawns.mapValues (s.setObject a f).object =
      (s.m_spawns.mapValues s.object).modify k f := by
    refine Table.mapValues_modify fun k' b hb => ?_
    show (if b = a then f (s.object a) else s.object b) = _
    by_cases hk : k' = k
    · have heq : b = a := h.eq_of_held (.inl hb) (.inl (hk ▸ ha))
      rw [if_pos hk, if_pos heq, heq]
    · rw [if_neg hk, if_neg fun heq : b = a => hk (h.same_key (.inl hb) (.inl (heq ▸ ha)))]
  unfold view
  rw [← hspawns, ← hpoints]
  rfl

@[simp] theorem mem_view_points (s : SpawnMonitor) (k : QString) :
    k ∈ s.view.m_points ↔ k ∈ s.m_points := by
  rw [← AList.lookup_isSome, ← AList.lookup_isSome]
  show ((s.m_points.mapValues s.object).lookup k).isSome = true ↔ _
  rw [Table.lookup_mapValues, Option.isSome_map]

theorem mem_view_of_lookup {s : SpawnMonitor} {k : QString} {sp : Addr}
    (hp : s.m_points.lookup k = some sp) : k ∈ s.view.m_points := by
  rw [mem_view_points, ← AList.lookup_isSome, hp]
  rfl

theorem not_mem_view_of_lookup {s : SpawnMonitor} {k : QString} (hp : s.m_points.lookup k = none) :
    k ∉ s.view.m_points := by
  rw [mem_view_points]
  exact AList.lookup_eq_none.mp hp

@[simp] theorem mem_view_spawns (s : SpawnMonitor) (k : QString) :
    k ∈ s.view.m_spawns ↔ k ∈ s.m_spawns := by
  rw [← AList.lookup_isSome, ← AList.lookup_isSome]
  show ((s.m_spawns.mapValues s.object).lookup k).isSome = true ↔ _
  rw [Table.lookup_mapValues, Option.isSome_map]

theorem view_setName (h : s.Sound) {k : QString} {sp : Addr} (hheld : s.Held k sp)
    (name : QString) : (s.setName (some sp) name).1.view = s.view.setName k name := by
  have hset : ∀ s' : SpawnMonitor,
      { s' with m_modified := true }.view = { s'.view with m_modified := true } := fun _ => rfl
  unfold setName SpawnPoints.SpawnMonitor.setName
  dsimp only
  rw [hset]
  rcases hheld with hs | hp
  · have hmem : k ∈ s.m_spawns := by
      rw [← AList.lookup_isSome, hs]
      rfl
    rw [if_neg fun hk => h.disjoint k hmem ((mem_view_points s k).mp hk),
      if_pos ((mem_view_spawns s k).mpr hmem), view_setObject_spawns h hs]
  · have hmem : k ∈ s.m_points := by
      rw [← AList.lookup_isSome, hp]
      rfl
    rw [if_pos ((mem_view_points s k).mpr hmem), view_setObject_points h hp]

/-- What was selected does not show. -/
theorem view_deleteSpawnPoint (h : s.Sound) {k : QString} {sp : Addr} (hheld : s.Held k sp) :
    (s.deleteSpawnPoint sp).1.view = s.view.deleteSpawnPoint k := by
  have hkey := h.keyed k sp hheld
  unfold deleteSpawnPoint SpawnPoints.SpawnMonitor.deleteSpawnPoint
  dsimp only
  generalize ho : (if s.m_selected = some sp then
    (({ s with m_selected := none }, [.selectionChanged none]) : Out) else (s, [])) = o
  have hview : o.1.view = s.view := by rw [← ho]; split <;> rfl
  have hspawns : o.1.m_spawns = s.m_spawns := by rw [← ho]; split <;> rfl
  have hpoints : o.1.m_points = s.m_points := by rw [← ho]; split <;> rfl
  have hobject : o.1.object = s.object := by rw [← ho]; split <;> rfl
  have hzone : o.1.m_zoneName = s.m_zoneName := by rw [← ho]; split <;> rfl
  rw [← hkey, hpoints, hspawns]
  cases hp : s.m_points.lookup k with
  | some taken =>
      have hmem : k ∈ s.view.m_points := mem_view_of_lookup hp
      rw [if_pos hmem]
      unfold view
      rw [← Table.mapValues_erase]
      show SpawnPoints.SpawnMonitor.mk o.1.m_zoneName (s.m_spawns.mapValues o.1.object)
        (Table.mapValues o.1.object (s.m_points.erase k)) true = _
      rw [hobject, hzone]
  | none =>
      have hmem : k ∉ s.view.m_points := not_mem_view_of_lookup hp
      rw [if_neg hmem]
      cases hs : s.m_spawns.lookup k with
      | some taken =>
          unfold view
          rw [← Table.mapValues_erase]
          show SpawnPoints.SpawnMonitor.mk o.1.m_zoneName
            (Table.mapValues o.1.object (s.m_spawns.erase k)) (s.m_points.mapValues o.1.object) true
            = _
          rw [hobject, hzone]
      | none =>
          rcases hheld with hheld | hheld
          · rw [hs] at hheld
            cases hheld
          · rw [hp] at hheld
            cases hheld

theorem view_checkSpawnPoint (h : s.Sound) (now : Int) (spawn : SpawnInfo) :
    (s.checkSpawnPoint now spawn).1.view = s.view.checkSpawnPoint now spawn := by
  unfold checkSpawnPoint SpawnPoints.SpawnMonitor.checkSpawnPoint
  split
  · rfl
  · dsimp only
    generalize SpawnPoint.keyOf spawn.x spawn.y spawn.z = key
    cases hp : s.m_points.lookup key with
    | some sp =>
        have hmem : key ∈ s.view.m_points := mem_view_of_lookup hp
        have hset := view_setObject_points h hp (SpawnPoint.update now spawn)
        rw [if_pos hmem]
        show { (s.setObject sp (SpawnPoint.update now spawn)).view with m_modified := true } = _
        rw [hset]
    | none =>
        have hmem : key ∉ s.view.m_points := not_mem_view_of_lookup hp
        have hlookup : s.view.m_spawns.lookup key = (s.m_spawns.lookup key).map s.object :=
          Table.lookup_mapValues ..
        rw [if_neg hmem, hlookup]
        cases hc : s.m_spawns.lookup key with
        | some sp =>
            have hpoints : s.m_points.mapValues (s.setObject sp (SpawnPoint.update now spawn)).object =
                s.m_points.mapValues s.object :=
              mapValues_setObject (fun _ _ hb heq => h.not_both hc (heq ▸ hb)) _
            have hspawns : Table.mapValues (s.setObject sp (SpawnPoint.update now spawn)).object
                (s.m_spawns.erase key) = Table.mapValues s.object (s.m_spawns.erase key) := by
              refine mapValues_setObject (fun k b hb heq => ?_) _
              rw [Table.lookup_erase] at hb
              split at hb
              · cases hb
              · rename_i hk
                exact hk (h.same_key (.inl hb) (.inl (heq ▸ hc)))
            show SpawnPoints.SpawnMonitor.mk s.m_zoneName
              (Table.mapValues (s.setObject sp (SpawnPoint.update now spawn)).object
                (s.m_spawns.erase key))
              (Table.mapValues (s.setObject sp (SpawnPoint.update now spawn)).object
                (s.m_points.insert key sp)) true = _
            rw [Table.mapValues_insert, object_setObject, hpoints, hspawns, Table.mapValues_erase]
            rfl
        | none =>
            show SpawnPoints.SpawnMonitor.mk s.m_zoneName
              (Table.mapValues (s.setObject s.next fun _ => SpawnPoint.new now spawn).object
                (s.m_spawns.insert key s.next))
              (s.m_points.mapValues (s.setObject s.next fun _ => SpawnPoint.new now spawn).object)
              s.m_modified = _
            rw [Table.mapValues_insert, object_setObject,
              mapValues_setObject_next h fun _ _ => .inl, mapValues_setObject_next h fun _ _ => .inr]
            rfl

/-- The loop of `killSpawn` finds the same point in some order of the values. -/
theorem view_killSpawn (h : s.Sound) (o : Table.Order) (now : Int) (id : UInt16) :
    ∃ o', (s.killSpawn o now id).1.view = s.view.killSpawn o' now id := by
  have hentries : s.view.m_points.entries = s.m_points.entries.map fun e => ⟨e.1, s.object e.2⟩ := rfl
  unfold killSpawn SpawnPoints.SpawnMonitor.killSpawn
  cases hfind : (o.visit s.m_points.entries).find? (fun e => (s.object e.2).m_lastID = id) with
  | none =>
      have hnone : (o.visit s.view.m_points.entries).find? (fun e => e.2.m_lastID = id) = none := by
        rw [List.find?_eq_none]
        intro e' he'
        rw [o.mem_visit, hentries] at he'
        obtain ⟨e, he, rfl⟩ := List.mem_map.mp he'
        exact List.find?_eq_none.mp hfind e (o.mem_visit.mpr he)
      refine ⟨o, ?_⟩
      rw [hnone]
  | some e =>
      have hmem : e ∈ s.m_points.entries := o.mem_visit.mp (List.mem_of_find?_eq_some hfind)
      have hlookup : s.m_points.lookup e.1 = some e.2 := AList.mem_lookup_iff.mpr hmem
      have hid := List.find?_some hfind
      obtain ⟨i, hi⟩ := List.getElem?_of_mem hmem
      have hfound : ((Table.Order.beginAt i).visit s.view.m_points.entries).find?
          (fun e' => e'.2.m_lastID = id) = some ⟨e.1, s.object e.2⟩ := by
        refine Table.Order.find_beginAt ?_ hid
        rw [hentries, List.getElem?_map, hi]
        rfl
      refine ⟨.beginAt i, ?_⟩
      rw [hfound]
      exact view_setObject_points h hlookup (SpawnPoint.restart now)

theorem view_clear (s : SpawnMonitor) : s.clear.1.view = s.view.clear := by
  rw [clear_eq]
  rfl

theorem view_saveSpawnPoints (s : SpawnMonitor) (disk : Disk) :
    (s.saveSpawnPoints disk).view = s.view.save disk := by
  unfold saveSpawnPoints SpawnPoints.SpawnMonitor.save
  by_cases hsave : s.m_modified = true ∧ s.m_zoneName ≠ [] ∧ disk.opens = true
  · rw [if_pos hsave]
    exact (if_pos hsave).symm
  · rw [if_neg hsave]
    exact (if_neg hsave).symm

theorem view_loadPoint (h : s.Sound) (now : Int) (p : SavedPoint) :
    (s.loadPoint now p).1.view =
      { s.view with m_points := SpawnPoints.loadPoint now p s.view.m_points } := by
  unfold loadPoint SpawnPoints.loadPoint
  dsimp only
  cases hp : s.m_points.lookup p.key with
  | none =>
      have hmem : p.key ∉ s.view.m_points := not_mem_view_of_lookup hp
      rw [if_neg hmem]
      show SpawnPoints.SpawnMonitor.mk s.m_zoneName
        (s.m_spawns.mapValues (s.setObject s.next fun _ => p.point now).object)
        (Table.mapValues (s.setObject s.next fun _ => p.point now).object
          (s.m_points.insert p.key s.next)) s.m_modified = _
      rw [Table.mapValues_insert, object_setObject, mapValues_setObject_next h fun _ _ => .inl,
        mapValues_setObject_next h fun _ _ => .inr]
      rfl
  | some sp =>
      have hmem : p.key ∈ s.view.m_points := mem_view_of_lookup hp
      rw [if_pos hmem]
      show SpawnPoints.SpawnMonitor.mk s.m_zoneName
        (s.m_spawns.mapValues (s.setObject s.next fun _ => p.point now).object)
        (s.m_points.mapValues (s.setObject s.next fun _ => p.point now).object) s.m_modified = _
      rw [mapValues_setObject_next h fun _ _ => .inl, mapValues_setObject_next h fun _ _ => .inr]
      rfl

theorem view_loadPoints (ps : List SavedPoint) :
    ∀ {s : SpawnMonitor} (_ : s.Sound) (_ : s.m_spawns = ∅) (clock : ℕ → Int),
      (s.loadPoints clock ps).1.view =
        { s.view with m_points := SpawnPoints.loadPoints clock ps s.view.m_points } := by
  induction ps with
  | nil => exact fun _ _ _ => rfl
  | cons p ps ih =>
      intro s h hnone clock
      obtain ⟨hsound, hnone'⟩ := sound_loadPoint h hnone (clock 0) p
      have hrest := ih hsound hnone' fun n => clock (n + 1)
      rw [view_loadPoint h] at hrest
      exact hrest

theorem view_zoneChanged (h : s.Sound) (a : Arrival) (newZoneName : QString) :
    (s.zoneChanged a newZoneName).1.view = s.view.zoneChanged a newZoneName := by
  unfold zoneChanged SpawnPoints.SpawnMonitor.zoneChanged
  by_cases hname : s.m_zoneName ≠ newZoneName
  · rw [if_pos hname, if_pos (show s.view.m_zoneName ≠ newZoneName from hname)]
    have hs := sound_clear (sound_saveSpawnPoints h a.disk)
    have hnone : (s.saveSpawnPoints a.disk).clear.1.m_spawns = ∅ := by rw [clear_eq]
    have hnamed : { (s.saveSpawnPoints a.disk).clear.1 with m_zoneName := newZoneName }.Sound :=
      ⟨hs.disjoint, hs.keyed, hs.alive, hs.deleted_lt, hs.deleted_nodup, hs.selected⟩
    have hview : { (s.saveSpawnPoints a.disk).clear.1 with m_zoneName := newZoneName }.view =
        { (s.view.save a.disk).clear with m_zoneName := newZoneName } := by
      rw [← view_saveSpawnPoints, ← view_clear]
      rfl
    rw [← hview]
    dsimp only
    cases hfile : a.file with
    | none => rfl
    | some input =>
        have hload := view_loadPoints (readPoints input) hnamed hnone a.clock
        exact congrArg (fun v : SpawnPoints.SpawnMonitor => { v with m_modified := false }) hload
  · rw [if_neg hname, if_neg (show ¬ s.view.m_zoneName ≠ newZoneName from hname)]

/-- What an operation means to the places. -/
def happening (s : SpawnMonitor) (toLower : QString → QString) : Event → Happening
  | .newSpawn _ (some spawn) =>
      if spawn.IsMob then .sighted (SpawnPoint.keyOf spawn.x spawn.y spawn.z) else .nothing
  | .newSpawn _ none => .nothing
  | .killSpawn .. => .nothing
  | .setName .. => .nothing
  | .setSelected _ => .nothing
  | .deleteSpawnPoint sp => if sp ∈ s.live then .removed (s.object sp).key else .nothing
  | .zoneChanged a newZoneName =>
      if s.m_zoneName ≠ newZoneName then .entered a.points else .nothing
  | .zoneEnd a newZoneName =>
      if s.m_zoneName ≠ toLower newZoneName then .entered a.points else .nothing

/-- Every operation on the objects is one on the values, or one that the values do not show. -/
theorem view_perform (toLower : QString → QString) (h : s.Sound) (e : Event) :
    ((s.perform toLower e).1.view = s.view ∧ s.happening toLower e = .nothing) ∨
      ∃ e', (s.perform toLower e).1.view = s.view.perform toLower e' ∧
        s.happening toLower e = e'.happening toLower s.m_zoneName := by
  cases e with
  | newSpawn now item =>
      cases item with
      | none => exact .inl ⟨rfl, rfl⟩
      | some spawn =>
          exact .inr ⟨.newSpawn now (some spawn), view_checkSpawnPoint h now spawn, rfl⟩
  | killSpawn o now id =>
      obtain ⟨o', hview⟩ := view_killSpawn h o now id
      exact .inr ⟨.killSpawn o' now id, hview, rfl⟩
  | setName csp name =>
      rw [perform]
      cases csp with
      | none =>
          left
          split <;> exact ⟨rfl, rfl⟩
      | some sp =>
          split
          · rename_i hlive
            obtain ⟨k, hheld⟩ := mem_live.mp (hlive sp rfl)
            exact .inr ⟨.setName k name, view_setName h hheld name, rfl⟩
          · exact .inl ⟨rfl, rfl⟩
  | setSelected selected =>
      left
      rw [perform]
      split
      · unfold setSelected
        split <;> exact ⟨rfl, rfl⟩
      · exact ⟨rfl, rfl⟩
  | deleteSpawnPoint sp =>
      rw [perform, happening]
      split
      · rename_i hlive
        obtain ⟨k, hheld⟩ := mem_live.mp hlive
        refine .inr ⟨.deleteSpawnPoint k, view_deleteSpawnPoint h hheld, ?_⟩
        rw [← h.keyed k sp hheld]
        rfl
      · exact .inl ⟨rfl, rfl⟩
  | zoneChanged a newZoneName =>
      exact .inr ⟨.zoneChanged a newZoneName, view_zoneChanged h a newZoneName, rfl⟩
  | zoneEnd a newZoneName =>
      refine .inr ⟨.zoneEnd a newZoneName, ?_, rfl⟩
      rw [perform, zoneEnd_eq]
      exact view_zoneChanged h a (toLower newZoneName)

end SpawnMonitor

end Owned

end ShoweqDaemon.SpawnPoints
