/-
  When a save leaves the spawn points in the file.

  A save clears `m_modified` at its end whatever became of the file: a text cut short, a rename
  that failed. The rename to the backup fails in every save that finds a backup, so the
  backup of the second save blocks the third. `saveFaithful_iff` is the exact condition on one
  save, `saves_faithful_iff` carries it through a run, and says what a run of faithful saves
  means: whenever nothing is modified, the file holds the promoted points.
-/
import ShoweqDaemon.Spawn.SpawnMonitor

namespace ShoweqDaemon.SpawnPoints

open Spawns Machine

/-! ## One save -/

/-- The save gets as far as writing. -/
def Attempts (disk : Disk) (s : SpawnMonitor) : Prop :=
  s.m_modified = true ∧ s.m_zoneName ≠ [] ∧ disk.opens = true

/-- The whole text is stored. -/
def WritesAll (o : Table.Order) (disk : Disk) (s : SpawnMonitor) : Prop :=
  disk.stored (render o s.m_points) = render o s.m_points

/-- The new file takes the name of the old one, which takes the name of the backup. -/
def RenamesAll (disk : Disk) (fs : Files) : Prop :=
  disk.renamesNew = true ∧ (fs.sp ≠ none → disk.renamesOld = true ∧ fs.bak = none)

/-- Something of the save fails: the new file is not opened or not filled, or a rename fails. -/
def Fails (o : Table.Order) (disk : Disk) (s : SpawnMonitor) (fs : Files) : Prop :=
  (s.m_modified = true ∧ s.m_zoneName ≠ [] ∧ (disk.opens = false ∨ ¬ WritesAll o disk s)) ∨
    (Attempts disk s ∧ ¬ RenamesAll disk fs)

/-- A save that clears `m_modified` leaves the points in the file, and one that fails does not
    clear it. -/
def SaveFaithful (o : Table.Order) (disk : Disk) (s : SpawnMonitor) (fs : Files) : Prop :=
  let r := saveSpawnPoints o disk s fs
  (s.m_modified = true → r.1.m_modified = false → r.2.sp = some (render o r.1.m_points)) ∧
    (Fails o disk s fs → r.1.m_modified = true)

/-- A save that begins to write stores the whole text, and no rename fails. -/
def SaveSucceeds (o : Table.Order) (disk : Disk) (s : SpawnMonitor) (fs : Files) : Prop :=
  Attempts disk s → WritesAll o disk s ∧ RenamesAll disk fs

theorem save_skipped {disk : Disk} {s : SpawnMonitor} (h : ¬ Attempts disk s) (o : Table.Order)
    (fs : Files) : saveSpawnPoints o disk s fs = (s, fs) := by
  unfold saveSpawnPoints
  by_cases hm : s.m_modified = false
  · rw [if_pos hm]
  · rw [if_neg hm]
    by_cases hz : s.m_zoneName = []
    · rw [if_pos hz]
    · rw [if_neg hz]
      have ho : disk.opens = false := by
        by_contra ho
        exact h ⟨by simpa using hm, hz, by simpa using ho⟩
      rw [if_pos ho]

/-- Once it writes, a save clears the flag. -/
theorem save_attempted_fst {disk : Disk} {s : SpawnMonitor} (h : Attempts disk s)
    (o : Table.Order) (fs : Files) :
    (saveSpawnPoints o disk s fs).1 = { s with m_modified := false } := by
  obtain ⟨hm, hz, ho⟩ := h
  simp [saveSpawnPoints, hm, hz, ho]

/-- When every rename goes through, the file is what was stored. -/
theorem save_attempted_sp {disk : Disk} {s : SpawnMonitor} (h : Attempts disk s)
    (o : Table.Order) {fs : Files} (hr : RenamesAll disk fs) :
    (saveSpawnPoints o disk s fs).2.sp = some (disk.stored (render o s.m_points)) := by
  obtain ⟨hm, hz, ho⟩ := h
  obtain ⟨hnew, hold⟩ := hr
  cases hsp : fs.sp with
  | none => simp [saveSpawnPoints, hm, hz, ho, hsp, Files.install, hnew]
  | some old =>
      obtain ⟨hrename, hbak⟩ := hold (by simp [hsp])
      simp [saveSpawnPoints, hm, hz, ho, hsp, Files.install, hnew, hrename, hbak]

theorem saveFaithful_iff (o : Table.Order) (disk : Disk) (s : SpawnMonitor) (fs : Files) :
    SaveFaithful o disk s fs ↔ SaveSucceeds o disk s fs := by
  unfold SaveFaithful SaveSucceeds
  by_cases h : Attempts disk s
  · have hfst := save_attempted_fst h o fs
    constructor
    · rintro ⟨-, hfails⟩ -
      have hno : ¬ Fails o disk s fs := by
        intro hf
        have hset := hfails hf
        rw [hfst] at hset
        cases hset
      constructor
      · by_contra hw
        exact hno (Or.inl ⟨h.1, h.2.1, Or.inr hw⟩)
      · by_contra hr
        exact hno (Or.inr ⟨h, hr⟩)
    · intro hok
      obtain ⟨hw, hr⟩ := hok h
      constructor
      · intro _ _
        rw [save_attempted_sp h o hr, hfst]
        exact congrArg some hw
      · rintro (⟨-, -, hopen | hwrite⟩ | ⟨-, hrename⟩)
        · rw [h.2.2] at hopen
          cases hopen
        · exact absurd hw hwrite
        · exact absurd hr hrename
  · rw [save_skipped h]
    refine iff_of_true ⟨?_, ?_⟩ (fun ha => absurd ha h)
    · intro hset hclear
      rw [hset] at hclear
      cases hclear
    · rintro (⟨hm, -, -⟩ | ⟨ha, -⟩)
      · exact hm
      · exact absurd ha h

/-! ## Runs -/

/-- Every save of the run is faithful. -/
def StepFaithful (w : World) : Event → Prop
  | .save o disk => SaveFaithful o disk w.monitor w.files
  | _ => True

/-- Every save of the run that begins to write succeeds. -/
def StepSucceeds (w : World) : Event → Prop
  | .save o disk => SaveSucceeds o disk w.monitor w.files
  | _ => True

/-- The file holds the lines of the promoted points, each once, in some order. -/
def Holds (w : World) : Prop :=
  ∃ lines : List QString, w.files.sp = some lines.flatten ∧
    lines.Perm (w.monitor.m_points.values.map SpawnPoint.line)

/-- Whenever nothing is modified, the file holds the points. -/
def Persisted (w : World) : Prop := w.monitor.m_modified = false → Holds w

theorem stepFaithful_iff (w : World) (e : Event) : StepFaithful w e ↔ StepSucceeds w e := by
  cases e with
  | save o disk => exact saveFaithful_iff o disk w.monitor w.files
  | _ => rfl

theorem holds_of_render (o : Table.Order) (w : World)
    (h : w.files.sp = some (render o w.monitor.m_points)) : Holds w :=
  ⟨(o.visit w.monitor.m_points.values).map SpawnPoint.line, by
    rw [h, render, List.flatMap_def], (o.perm _).map _⟩

/-- What a killed spawn changes is not in the file. -/
theorem line_restart (now : Int) (sp : SpawnPoint) : (sp.restart now).line = sp.line := rfl

/-- Every other change of a promoted point sets the flag. -/
theorem setName_kept {key name : QString} {s : SpawnMonitor}
    (h : (s.setName key name).m_modified = false) : s.setName key name = s := by
  unfold SpawnMonitor.setName at h ⊢
  dsimp only at h ⊢
  split at h
  · cases h
  · split at h
    · cases h
    · rename_i h1 h2
      rw [if_neg h1, if_neg h2]

theorem deleteSpawnPoint_modified (key : QString) (s : SpawnMonitor) :
    (s.deleteSpawnPoint key).m_modified = true := by
  unfold SpawnMonitor.deleteSpawnPoint
  split <;> rfl

theorem checkSpawnPoint_kept {now : Int} {spawn : SpawnInfo} {s : SpawnMonitor}
    (h : (s.checkSpawnPoint now spawn).m_modified = false) :
    s.m_modified = false ∧ (s.checkSpawnPoint now spawn).m_points = s.m_points := by
  unfold SpawnMonitor.checkSpawnPoint at h ⊢
  split
  · rename_i hmob
    rw [if_pos hmob] at h
    exact ⟨h, rfl⟩
  · rename_i hmob
    rw [if_neg hmob] at h
    dsimp only at h ⊢
    split
    · rename_i hkey
      rw [if_pos hkey] at h
      cases h
    · rename_i hkey
      rw [if_neg hkey] at h
      cases hs : s.m_spawns.lookup (SpawnPoint.keyOf spawn.x spawn.y spawn.z) with
      | some sp =>
          rw [hs] at h
          cases h
      | none =>
          rw [hs] at h
          exact ⟨h, rfl⟩

theorem killSpawn_kept (o : Table.Order) (now : Int) (id : UInt16) (s : SpawnMonitor) :
    (s.killSpawn o now id).m_modified = s.m_modified ∧
      (s.killSpawn o now id).m_points.values.map SpawnPoint.line =
        s.m_points.values.map SpawnPoint.line := by
  unfold SpawnMonitor.killSpawn
  split
  · exact ⟨rfl, Table.map_values_modify _ _ _ _ (line_restart now)⟩
  · exact ⟨rfl, rfl⟩

theorem step_persisted {w : World} {e : Event} (h : StepSucceeds w e) (hw : Persisted w) :
    Persisted (step w e) := by
  intro hclear
  cases e with
  | setName key name =>
      have hsame := setName_kept hclear
      show Holds { w with monitor := w.monitor.setName key name }
      have hflag : w.monitor.m_modified = false := by
        rw [← hsame]
        exact hclear
      rw [hsame]
      exact hw hflag
  | newSpawn now spawn =>
      obtain ⟨hflag, hpoints⟩ := checkSpawnPoint_kept hclear
      obtain ⟨lines, hsp, hperm⟩ := hw hflag
      refine ⟨lines, hsp, ?_⟩
      show lines.Perm ((w.monitor.checkSpawnPoint now spawn).m_points.values.map SpawnPoint.line)
      rw [hpoints]
      exact hperm
  | killSpawn o now id =>
      obtain ⟨hflag, hlines⟩ := killSpawn_kept o now id w.monitor
      obtain ⟨lines, hsp, hperm⟩ := hw (hflag.symm.trans hclear)
      refine ⟨lines, hsp, ?_⟩
      show lines.Perm ((w.monitor.killSpawn o now id).m_points.values.map SpawnPoint.line)
      rw [hlines]
      exact hperm
  | deleteSpawnPoint key =>
      have hset := deleteSpawnPoint_modified key w.monitor
      have hclear' : (w.monitor.deleteSpawnPoint key).m_modified = false := hclear
      rw [hset] at hclear'
      cases hclear'
  | save o disk =>
      by_cases ha : Attempts disk w.monitor
      · obtain ⟨hwrites, hrenames⟩ := h ha
        have hsp := save_attempted_sp ha o hrenames
        have hfst := save_attempted_fst ha o w.files
        refine holds_of_render o _ ?_
        show (saveSpawnPoints o disk w.monitor w.files).2.sp =
          some (render o (saveSpawnPoints o disk w.monitor w.files).1.m_points)
        rw [hsp, hfst]
        exact congrArg some hwrites
      · have hsame : step w (.save o disk) = w := by
          simp only [step, save_skipped ha]
        rw [hsame] at hclear ⊢
        exact hw hclear

/-- In every run, all saves are faithful exactly when every save that begins to write stores
    its text and renames both files. In such a run the file holds the promoted points
    whenever nothing is modified, if it does at the start. -/
theorem saves_faithful_iff (w : World) (events : List Event) :
    (StepsMeet step StepFaithful w events ↔ StepsMeet step StepSucceeds w events) ∧
    (Persisted w → StepsMeet step StepSucceeds w events →
      ∀ t ∈ trace step w events, Persisted t) := by
  refine ⟨stepsMeet_congr step stepFaithful_iff w events, fun hw hrun => ?_⟩
  exact trace_of_stepsMeet step (fun _ _ h hp => step_persisted h hp) hw hrun

/-- A point is promoted and saved, renamed and saved, and renamed and saved again. Nothing is
    modified at the end, and the file has the first name. -/
theorem third_save_lost :
    let mob : SpawnInfo :=
      { id := 7, name := "a_rat".toList, NPC := SPAWN_NPC, petOwnerID := 0, isMount := false
        isAura := false, isMercenary := false, x := 1, y := 2, z := 3 }
    let key := SpawnPoint.keyOf 1 2 3
    let save := Event.save Table.Order.entries {}
    let events := [.newSpawn 10 mob, .newSpawn 20 mob, save, .setName key ['b'], save,
      .setName key ['c'], save]
    let w : World :=
      { monitor := SpawnMonitor.inZone "qeynos".toList, files := ⟨none, none, none⟩ }
    let t := events.foldl step w
    ¬ StepsMeet step StepFaithful w events ∧ t.monitor.m_modified = false ∧
      t.files.sp = some "1 2 3 0 2 b\n".toList ∧
      render Table.Order.entries t.monitor.m_points = "1 2 3 0 2 c\n".toList := by
  intro mob key save events w t
  refine ⟨fun hrun => ?_, by decide, by decide, by decide⟩
  -- the last step finds the backup that the second save left
  have hsteps := (stepsMeet_congr step stepFaithful_iff w events).mp hrun
  have hlast : StepSucceeds ((events.take 6).foldl step w) save := hsteps.2.2.2.2.2.2.1
  obtain ⟨-, -, hrenames⟩ := hlast ⟨by decide, by decide, rfl⟩
  have hbak : ((events.take 6).foldl step w).files.bak = none := (hrenames (by decide)).2
  have hsome : ((events.take 6).foldl step w).files.bak ≠ none := by decide
  exact hsome hbak

end ShoweqDaemon.SpawnPoints
