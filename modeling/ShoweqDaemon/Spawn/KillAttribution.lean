/-
  Which spawn point a death restarts.

  A point keeps the id of the last spawn that popped there, and `killSpawn` restarts the first
  point, in the order of the hash table, that has the id of the dead one. `Watched` keeps beside
  the monitor the last pop of a mob with each id, and whether the point there has been restarted
  since: this is the point that a death should restart. `kills_right_iff`: all deaths of a run do,
  in every order of the table, just when before each of them the promoted points with the id of the
  dead one are that point alone. `kills_right_of_fair` says which pops bring that about.
-/
import ShoweqDaemon.Spawn.Places

namespace ShoweqDaemon.SpawnPoints

open Spawns
open Machine (StepsMeet)

/-! ## The history -/

/-- A pop of a mob: its place, and whether the point there has been restarted since. -/
structure Pop where
  key : QString
  restarted : Bool
  deriving DecidableEq, Repr

/-- The monitor and the last pop with each id. -/
structure Watched where
  monitor : SpawnMonitor
  latest : UInt16 → Option Pop

/-- Nothing has been announced yet in this zone. -/
def Watched.start (s : SpawnMonitor) : Watched where
  monitor := s
  latest := fun _ => none

/-- What the monitor learns of the creatures of a zone. -/
inductive Sighting where
  | newSpawn (now : Int) (spawn : SpawnInfo)
  | killSpawn (o : Table.Order) (now : Int) (id : UInt16)

/-- The key of the place where the creature is. -/
def SpawnInfo.key (spawn : SpawnInfo) : QString := SpawnPoint.keyOf spawn.x spawn.y spawn.z

/-- The key of the point that `killSpawn` restarts. -/
def SpawnMonitor.restarted (o : Table.Order) (id : UInt16) (s : SpawnMonitor) : Option QString :=
  ((o.visit s.m_points.entries).find? fun e => e.2.m_lastID = id).map Sigma.fst

/-- A pop after the point at `key` was restarted. -/
def Pop.restart (key : QString) (p : Pop) : Pop :=
  if p.key = key then { p with restarted := true } else p

/-- What the monitor and a watcher make of a sighting. -/
def watch (w : Watched) : Sighting → Watched
  | .newSpawn now spawn =>
      { monitor := w.monitor.checkSpawnPoint now spawn
        latest :=
          if spawn.IsMob then Function.update w.latest spawn.id (some (Pop.mk spawn.key false))
          else w.latest }
  | .killSpawn o now id =>
      { monitor := w.monitor.killSpawn o now id
        latest :=
          match w.monitor.restarted o id with
          | some key => fun id' => (w.latest id').map (Pop.restart key)
          | none => w.latest }

/-- The promoted point of the last pop with this id, unless it has been restarted since. -/
def Watched.target (w : Watched) (id : UInt16) : Option QString :=
  match w.latest id with
  | some p => if p.restarted = false ∧ p.key ∈ w.monitor.m_points then some p.key else none
  | none => none

/-- The point at `target` is restarted, if there is one, and nothing else changes. -/
structure RestartsOnly (now : Int) (target : Option QString) (s s' : SpawnMonitor) : Prop where
  points : ∀ key, s'.m_points.lookup key =
    if target = some key then (s.m_points.lookup key).map (SpawnPoint.restart now)
    else s.m_points.lookup key
  others : { s' with m_points := s.m_points } = s

/-- A death restarts the point that it should, whatever the order of the table. -/
def Right (w : Watched) : Sighting → Prop
  | .newSpawn _ _ => True
  | .killSpawn _ _ id =>
      ∀ o now, RestartsOnly now (w.target id) w.monitor (w.monitor.killSpawn o now id)

/-- Before a death: the promoted points whose last id is that of the dead one are those of the last
    pop with this id, not restarted since. -/
def Told (w : Watched) : Sighting → Prop
  | .newSpawn _ _ => True
  | .killSpawn _ _ id => ∀ key sp, w.monitor.m_points.lookup key = some sp →
      (sp.m_lastID = id ↔ w.latest id = some (Pop.mk key false))

/-! ## One death -/

section
variable (o : Table.Order) (now : Int) (id : UInt16) (s : SpawnMonitor)

theorem killSpawn_eq : s.killSpawn o now id =
    match s.restarted o id with
    | some key => { s with m_points := s.m_points.modify key (SpawnPoint.restart now) }
    | none => s := by
  unfold SpawnMonitor.killSpawn SpawnMonitor.restarted
  cases (o.visit s.m_points.entries).find? _ <;> rfl

variable {o id s}

theorem restarted_some {key : QString} (h : s.restarted o id = some key) :
    ∃ sp, s.m_points.lookup key = some sp ∧ sp.m_lastID = id := by
  obtain ⟨e, he, rfl⟩ := Option.map_eq_some_iff.mp h
  refine ⟨e.2, AList.mem_lookup_iff.mpr ?_, by simpa using List.find?_some he⟩
  exact o.mem_visit.mp (List.mem_of_find?_eq_some he)

theorem restarted_none (h : s.restarted o id = none) {key : QString} {sp : SpawnPoint}
    (hsp : s.m_points.lookup key = some sp) : sp.m_lastID ≠ id := by
  have hnone := List.find?_eq_none.mp (Option.map_eq_none_iff.mp h) ⟨key, sp⟩
    (o.mem_visit.mpr (AList.mem_lookup_iff.mp hsp))
  simpa using hnone

/-- Any point with the id is the first one in some order. -/
theorem restarted_first {key : QString} {sp : SpawnPoint} (hsp : s.m_points.lookup key = some sp)
    (hid : sp.m_lastID = id) : ∃ o, s.restarted o id = some key := by
  obtain ⟨i, hi⟩ := List.mem_iff_getElem?.mp (AList.mem_lookup_iff.mp hsp)
  refine ⟨.beginAt i, ?_⟩
  unfold SpawnMonitor.restarted
  rw [Table.Order.find_beginAt hi (by simpa using hid)]
  rfl

variable (o id s)

/-- A death that restarts `target` in one order. -/
theorem restartsOnly_of_restarted {target : Option QString} (h : s.restarted o id = target) :
    RestartsOnly now target s (s.killSpawn o now id) := by
  subst h
  rw [killSpawn_eq]
  cases s.restarted o id with
  | none => exact ⟨fun key => by rw [if_neg (by simp)], rfl⟩
  | some key =>
      refine ⟨fun key' => ?_, rfl⟩
      rw [Table.lookup_modify]
      simp only [Option.some.injEq, eq_comm]

/-- The other way around: at another time than the last death, the restarted point shows. -/
theorem restarted_of_restartsOnly {target : Option QString} {key : QString} {sp : SpawnPoint}
    (hsp : s.m_points.lookup key = some sp) (hnow : now ≠ sp.m_deathTime)
    (h : RestartsOnly now target s (s.killSpawn o now id)) :
    s.restarted o id = some key ↔ target = some key := by
  have hchanged : SpawnPoint.restart now sp ≠ sp := fun heq =>
    hnow (congrArg SpawnPoint.m_deathTime heq)
  have hpoint := h.points key
  rw [(restartsOnly_of_restarted o now id s rfl).points key, hsp] at hpoint
  by_cases hdone : s.restarted o id = some key
  · refine iff_of_true hdone ?_
    by_contra hother
    rw [if_pos hdone, if_neg hother] at hpoint
    exact hchanged (Option.some.inj hpoint)
  · refine iff_of_false hdone fun htarget => ?_
    rw [if_neg hdone, if_pos htarget] at hpoint
    exact hchanged (Option.some.inj hpoint).symm

end

theorem target_eq_some_iff {w : Watched} {id : UInt16} {key : QString} :
    w.target id = some key ↔
      w.latest id = some (Pop.mk key false) ∧ key ∈ w.monitor.m_points := by
  unfold Watched.target
  cases w.latest id with
  | none => simp
  | some p =>
      obtain ⟨k, restarted⟩ := p
      simp only [Option.ite_none_right_eq_some, Option.some.injEq, Pop.mk.injEq]
      constructor
      · rintro ⟨⟨rfl, hmem⟩, rfl⟩
        exact ⟨⟨rfl, rfl⟩, hmem⟩
      · rintro ⟨⟨rfl, rfl⟩, hmem⟩
        exact ⟨⟨rfl, hmem⟩, rfl⟩

/-- A step is right just when the points are told apart before it. -/
theorem right_iff_told (w : Watched) (e : Sighting) : Right w e ↔ Told w e := by
  cases e with
  | newSpawn now spawn => rfl
  | killSpawn o now id =>
      constructor
      · intro hright key sp hsp
        have hmem : key ∈ w.monitor.m_points := AList.lookup_isSome.mp (by rw [hsp]; rfl)
        have hlater : sp.m_deathTime + 1 ≠ sp.m_deathTime := by omega
        constructor
        · intro hid
          obtain ⟨o', ho'⟩ := restarted_first hsp hid
          have htarget := (restarted_of_restartsOnly o' _ id w.monitor hsp hlater
            (hright o' _)).mp ho'
          exact (target_eq_some_iff.mp htarget).1
        · intro hlatest
          have htarget : w.target id = some key := target_eq_some_iff.mpr ⟨hlatest, hmem⟩
          have hdone := (restarted_of_restartsOnly o _ id w.monitor hsp hlater
            (hright o _)).mpr htarget
          obtain ⟨sp', hsp', hid⟩ := restarted_some hdone
          rw [hsp] at hsp'
          cases hsp'
          exact hid
      · intro htold o' now'
        refine restartsOnly_of_restarted o' now' id w.monitor ?_
        cases hdone : w.monitor.restarted o' id with
        | some key =>
            obtain ⟨sp, hsp, hid⟩ := restarted_some hdone
            refine (target_eq_some_iff.mpr ⟨(htold key sp hsp).mp hid, ?_⟩).symm
            exact AList.lookup_isSome.mp (by rw [hsp]; rfl)
        | none =>
            cases htarget : w.target id with
            | none => rfl
            | some key =>
                obtain ⟨hlatest, hmem⟩ := target_eq_some_iff.mp htarget
                obtain ⟨sp, hsp⟩ := Option.isSome_iff_exists.mp (AList.lookup_isSome.mpr hmem)
                exact absurd ((htold key sp hsp).mpr hlatest) (restarted_none hdone hsp)

/-! ## Runs -/

/-- All deaths of a run restart what they should just when the points are told apart before
    each. -/
theorem kills_right_iff (s : SpawnMonitor) (es : List Sighting) :
    StepsMeet watch Right (.start s) es ↔ StepsMeet watch Told (.start s) es :=
  Machine.stepsMeet_congr watch right_iff_told (.start s) es

/-- Every id that a promoted point keeps is that of a pop at this point, the last one with that
    id. -/
def Watched.Fresh (w : Watched) : Prop :=
  ∀ key sp, w.monitor.m_points.lookup key = some sp → sp.m_lastID ≠ 0 →
    w.latest sp.m_lastID = some (Pop.mk key false)

/-- A mob does not pop with the id that another promoted point keeps. Who dies has an id, and no
    other mob has popped at the place since. -/
def Fair (w : Watched) : Sighting → Prop
  | .newSpawn _ spawn => spawn.IsMob → ∀ key sp, w.monitor.m_points.lookup key = some sp →
      sp.m_lastID = spawn.id → sp.m_lastID ≠ 0 → key = spawn.key
  | .killSpawn _ _ id => id ≠ 0 ∧ ∀ key sp, w.monitor.m_points.lookup key = some sp →
      w.latest id = some (Pop.mk key false) → sp.m_lastID = id

/-- What a promoted point was before a sighting: the place of the sighting has its id now. -/
theorem lookup_checkSpawnPoint {s : SpawnMonitor} {now : Int} {spawn : SpawnInfo} {key : QString}
    {sp : SpawnPoint} (h : (s.checkSpawnPoint now spawn).m_points.lookup key = some sp) :
    spawn.IsMob ∧ key = spawn.key ∧ sp.m_lastID = spawn.id ∨
      s.m_points.lookup key = some sp ∧ (spawn.IsMob → key ≠ spawn.key) := by
  unfold SpawnMonitor.checkSpawnPoint at h
  split at h
  · rename_i hskip
    exact Or.inr ⟨h, fun hmob => absurd hskip hmob⟩
  · rename_i hmob
    dsimp only at h
    split at h
    · rw [Table.lookup_modify] at h
      split at h
      · rename_i hkey
        obtain ⟨old, -, rfl⟩ := Option.map_eq_some_iff.mp h
        exact Or.inl ⟨hmob, hkey, rfl⟩
      · rename_i hkey
        exact Or.inr ⟨h, fun _ => hkey⟩
    · rename_i hfree
      have hother (hlookup : s.m_points.lookup key = some sp) : key ≠ spawn.key := by
        rintro rfl
        exact hfree (AList.lookup_isSome.mp (by rw [SpawnInfo.key] at hlookup; rw [hlookup]; rfl))
      split at h
      · dsimp only at h
        rw [Table.lookup_insert] at h
        split at h
        · rename_i hkey
          cases h
          exact Or.inl ⟨hmob, hkey, rfl⟩
        · exact Or.inr ⟨h, fun _ => hother h⟩
      · exact Or.inr ⟨h, fun _ => hother h⟩

theorem fresh_watch {w : Watched} (h : w.Fresh) {e : Sighting} (hfair : Fair w e) :
    (watch w e).Fresh := by
  intro key sp hsp hne
  cases e with
  | newSpawn now spawn =>
      rcases lookup_checkSpawnPoint hsp with ⟨hmob, rfl, hid⟩ | ⟨hold, hother⟩
      · show (if spawn.IsMob then _ else _ : UInt16 → Option Pop) sp.m_lastID = _
        rw [if_pos hmob, hid, Function.update_self]
      · show (if spawn.IsMob then _ else _ : UInt16 → Option Pop) sp.m_lastID = _
        by_cases hmob : spawn.IsMob
        · have hid : sp.m_lastID ≠ spawn.id := fun hid =>
            hother hmob (hfair hmob key sp hold hid hne)
          rw [if_pos hmob, Function.update_of_ne hid]
          exact h key sp hold hne
        · rw [if_neg hmob]
          exact h key sp hold hne
  | killSpawn o now id =>
      have hlookup : (w.monitor.killSpawn o now id).m_points.lookup key = some sp := hsp
      rw [(restartsOnly_of_restarted o now id w.monitor rfl).points key] at hlookup
      split at hlookup
      · obtain ⟨old, -, rfl⟩ := Option.map_eq_some_iff.mp hlookup
        exact absurd rfl hne
      · rename_i hother
        have hlatest := h key sp hlookup hne
        show (match w.monitor.restarted o id with
          | some key => fun id' => (w.latest id').map (Pop.restart key)
          | none => w.latest) sp.m_lastID = _
        cases hdone : w.monitor.restarted o id with
        | none => exact hlatest
        | some key' =>
            have hkey : key ≠ key' := fun heq => hother (by rw [hdone, heq])
            dsimp only
            rw [hlatest, Option.map_some, Pop.restart, if_neg hkey]

theorem told_of_fair {w : Watched} (h : w.Fresh) {e : Sighting} (hfair : Fair w e) : Told w e := by
  cases e with
  | newSpawn now spawn => trivial
  | killSpawn o now id =>
      obtain ⟨hid, hlast⟩ := hfair
      intro key sp hsp
      refine ⟨fun hsame => ?_, hlast key sp hsp⟩
      subst hsame
      exact h key sp hsp hid

/-- In a zone whose points keep no id yet, all deaths are right as long as ids are not reused
    while a point keeps them and nobody else pops at the place of one who then dies. -/
theorem kills_right_of_fair {s : SpawnMonitor} (hs : s.m_points.All fun sp => sp.m_lastID = 0)
    {es : List Sighting} (h : StepsMeet watch Fair (.start s) es) :
    StepsMeet watch Right (.start s) es := by
  have hstart : (Watched.start s).Fresh := fun key sp hsp hne => absurd (hs.of_lookup hsp) hne
  revert h hstart
  generalize Watched.start s = w
  induction es generalizing w with
  | nil => exact fun _ _ => trivial
  | cons e es ih =>
      intro h hfresh
      exact ⟨(right_iff_told w e).mpr (told_of_fair hfresh h.1),
        ih (watch w e) h.2 (fresh_watch hfresh h.1)⟩

/-! ## Two points with one id -/

/-- A rat with this id at this place. -/
def ratAt (id : UInt16) (x : Int16) : SpawnInfo :=
  { id, name := "a_rat".toList, NPC := SPAWN_NPC, petOwnerID := 0, isMount := false,
    isAura := false, isMercenary := false, x, y := 0, z := 0 }

/-- Two pops with id 5 at one place and two at another, then it dies. -/
def twoPlaces : List Sighting :=
  [.newSpawn 10 (ratAt 5 1), .newSpawn 20 (ratAt 5 1), .newSpawn 30 (ratAt 5 2),
    .newSpawn 40 (ratAt 5 2), .killSpawn .entries 50 5]

/-- If the table begins with the first place, that one is restarted. -/
theorem kills_wrong : ¬ StepsMeet watch Right (.start (.inZone [])) twoPlaces := by
  intro h
  have hdeath := h.2.2.2.2.1 (.beginAt 1) 50
  have hfirst := hdeath.points (SpawnPoint.keyOf 1 0 0)
  revert hfirst
  decide

end ShoweqDaemon.SpawnPoints
