/-
  The checkpoint: who the player is and in which zone, kept on disk across restarts of the daemon.

  `Checkpoint::save` writes a JSON object and `load` reads it back; the text of the object is Qt's
  and stands for it here. `applyCheckpoint` sets the player's members, but not `m_useDefaults`, and
  a player that has just been made uses the defaults. `shows_iff` says when the accessors answer
  with the checkpoint, `persists_iff` when it survives restarts.

  Proved:
  * `ofObject_toObject`, `load_save`: a checkpoint is read back from its object and from its file.
  * `applied_accessors`: what the accessors answer behind `applyCheckpoint`.
  * `persists_iff`: the identity on disk after any number of restarts without packets.
  * `checkpoint_round_trip_iff`: both, for every checkpoint and all preferences.
  * `restored_name_is_default`: a daemon that restores "Bob" has a player named "You".
-/
import ShoweqDaemon.Daemon.Wiring
import ShoweqDaemon.Lib.Run
import ShoweqDaemon.Player.Profile

namespace ShoweqDaemon.Spawns

/-! ## The file -/

/-- A value in a JSON object, as far as a checkpoint has it. -/
inductive QJsonValue where
  | undefined
  | number (n : ℤ)
  | string (s : QString)
  deriving DecidableEq, Repr

namespace QJsonValue

/-- 0 for what is no `int`. -/
def toInt : QJsonValue → ℤ
  | number n => if -2 ^ 31 ≤ n ∧ n < 2 ^ 31 then n else 0
  | _ => 0

/-- `toVariant().toLongLong()`, texts that spell a number apart. -/
def toLongLong : QJsonValue → ℤ
  | number n => n
  | _ => 0

/-- `QJsonValue::toString`, empty for a value of another type. -/
def toString : QJsonValue → QString
  | string s => s
  | _ => []

end QJsonValue

/-- A JSON object, by key. -/
abbrev QJsonObject := List (String × QJsonValue)

/-- `QJsonObject::value`; a key that is missing has the undefined value. -/
def QJsonObject.value (root : QJsonObject) (key : String) : QJsonValue :=
  (root.lookup key).getD .undefined

/-- `CheckpointData` with what it has besides the identity. -/
structure CheckpointRecord extends CheckpointData where
  written_at_unix : ℤ := 0
  player_gender : UInt8
  current_exp : UInt32
  max_exp : UInt32
  current_alt_exp : UInt32
  current_aa_pts : UInt16
  deriving DecidableEq, Repr

/-- The checkpoint file: the JSON object in it, if that is what it holds. -/
structure CheckpointFile where
  document : Option QJsonObject
  lastModified : ℤ
  deriving DecidableEq, Repr

namespace Checkpoint

/-- The version that `save` writes and `load` takes. -/
def kSchemaVersion : ℤ := 1

/-- The object that `Checkpoint::save` writes: the version, the time of writing, and a member for
    each field of the record under the name that `load` asks for. -/
def toObject (data : CheckpointRecord) : QJsonObject :=
  [("version", .number kSchemaVersion),
    ("written_at_unix", .number data.written_at_unix),
    ("player_id", .number data.player_id.toNat),
    ("player_name", .string data.player_name),
    ("player_last_name", .string data.player_last_name),
    ("player_class", .number data.player_class.toNat),
    ("player_level", .number data.player_level.toNat),
    ("player_race", .number data.player_race.toNat),
    ("player_deity", .number data.player_deity.toNat),
    ("player_gender", .number data.player_gender.toNat),
    ("current_exp", .number data.current_exp.toNat),
    ("max_exp", .number data.max_exp.toNat),
    ("current_alt_exp", .number data.current_alt_exp.toNat),
    ("current_aa_pts", .number data.current_aa_pts.toNat),
    ("short_zone_name", .string data.short_zone_name),
    ("long_zone_name", .string data.long_zone_name)]

/-- The file after a `save` that succeeds at time `now`. -/
def save (data : CheckpointRecord) (now : ℤ) : CheckpointFile where
  document := some (toObject { data with written_at_unix := now })
  lastModified := now

/-- The record that `Checkpoint::load` reads, field by field, with the defaults of JSON for what is
    missing. -/
def ofObject (root : QJsonObject) : CheckpointRecord where
  written_at_unix := (root.value "written_at_unix").toLongLong
  player_id := .ofInt (root.value "player_id").toInt
  player_name := (root.value "player_name").toString
  player_last_name := (root.value "player_last_name").toString
  player_class := .ofInt (root.value "player_class").toInt
  player_level := .ofInt (root.value "player_level").toInt
  player_race := .ofInt (root.value "player_race").toInt
  player_deity := .ofInt (root.value "player_deity").toInt
  player_gender := .ofInt (root.value "player_gender").toInt
  current_exp := .ofInt (root.value "current_exp").toLongLong
  max_exp := .ofInt (root.value "max_exp").toLongLong
  current_alt_exp := .ofInt (root.value "current_alt_exp").toLongLong
  current_aa_pts := .ofInt (root.value "current_aa_pts").toInt
  short_zone_name := (root.value "short_zone_name").toString
  long_zone_name := (root.value "long_zone_name").toString

/-- `Checkpoint::load`: a file that is there, not too old, well formed and of the right version. -/
def load (info : Option CheckpointFile) (max_age_seconds now : ℤ) : Option CheckpointRecord :=
  match info with
  | none => none
  | some file =>
      if max_age_seconds > 0 ∧ now - file.lastModified > max_age_seconds then none
      else
        match file.document with
        | none => none
        | some root =>
            if (root.value "version").toInt ≠ kSchemaVersion then none else some (ofObject root)

theorem toInt_number {n : ℕ} (h : n < 2 ^ 31) : (QJsonValue.number n).toInt = n := by
  have hint : -2 ^ 31 ≤ (n : ℤ) ∧ (n : ℤ) < 2 ^ 31 := by omega
  unfold QJsonValue.toInt
  dsimp only
  rw [if_pos hint]

theorem u8_toInt (x : UInt8) : UInt8.ofInt (QJsonValue.number x.toNat).toInt = x := by
  have hlt := x.toNat_lt
  rw [toInt_number (by omega)]
  show UInt8.ofNat ((x.toNat : ℤ) % 2 ^ 8).toNat = x
  rw [Int.emod_eq_of_lt (by omega) (by omega), Int.toNat_natCast, UInt8.ofNat_toNat]

theorem u16_toInt (x : UInt16) : UInt16.ofInt (QJsonValue.number x.toNat).toInt = x := by
  have hlt := x.toNat_lt
  rw [toInt_number (by omega)]
  show UInt16.ofNat ((x.toNat : ℤ) % 2 ^ 16).toNat = x
  rw [Int.emod_eq_of_lt (by omega) (by omega), Int.toNat_natCast, UInt16.ofNat_toNat]

theorem u32_toLongLong (x : UInt32) : UInt32.ofInt (QJsonValue.number x.toNat).toLongLong = x := by
  have hlt := x.toNat_lt
  show UInt32.ofNat ((x.toNat : ℤ) % 2 ^ 32).toNat = x
  rw [Int.emod_eq_of_lt (by omega) (by omega), Int.toNat_natCast, UInt32.ofNat_toNat]

/-- What was written is read back. -/
theorem ofObject_toObject (data : CheckpointRecord) : ofObject (toObject data) = data := by
  show CheckpointRecord.mk ⟨.ofInt (QJsonValue.number data.player_id.toNat).toInt, data.player_name,
    data.player_last_name, .ofInt (QJsonValue.number data.player_level.toNat).toInt,
    .ofInt (QJsonValue.number data.player_class.toNat).toInt,
    .ofInt (QJsonValue.number data.player_race.toNat).toInt,
    .ofInt (QJsonValue.number data.player_deity.toNat).toInt, data.short_zone_name,
    data.long_zone_name⟩ data.written_at_unix
    (.ofInt (QJsonValue.number data.player_gender.toNat).toInt)
    (.ofInt (QJsonValue.number data.current_exp.toNat).toLongLong)
    (.ofInt (QJsonValue.number data.max_exp.toNat).toLongLong)
    (.ofInt (QJsonValue.number data.current_alt_exp.toNat).toLongLong)
    (.ofInt (QJsonValue.number data.current_aa_pts.toNat).toInt) = data
  simp only [u8_toInt, u16_toInt, u32_toLongLong]

/-- A file that is not too old is read back with the time of its writing. -/
theorem load_save (data : CheckpointRecord) (written max_age_seconds now : ℤ) :
    load (some (save data written)) max_age_seconds now =
      if max_age_seconds > 0 ∧ now - written > max_age_seconds then none
      else some { data with written_at_unix := written } := by
  show (if max_age_seconds > 0 ∧ now - written > max_age_seconds then none else
    some (ofObject (toObject { data with written_at_unix := written }))) = _
  rw [ofObject_toObject]

end Checkpoint

/-! ## The player and the zone -/

/-- The section "Defaults" of the preferences, with what the source falls back on where one is
    missing. -/
structure PlayerPrefs where
  useAutoDetectedSettings : Bool := true
  DefaultName : QString := "You".toList
  DefaultLastName : QString := []
  DefaultLevel : UInt8 := 1
  DefaultRace : UInt16 := 1
  DefaultClass : UInt8 := 1
  DefaultDeity : UInt16 := 396

/-- The player with its gender, which is only kept. -/
structure CheckpointPlayer extends PlayerState where
  m_gender : UInt8 := 0

namespace CheckpointPlayer

/-- A player that has just been made: after the preferences `reset` and `clear`. -/
def fresh (fl : FloatEnv) (prefs : PlayerPrefs) : CheckpointPlayer where
  toPlayerState := PlayerState.zoneChanged fl { PlayerState.blank with
    m_NPC := SPAWN_SELF
    m_useAutoDetectedSettings := prefs.useAutoDetectedSettings
    m_defaultName := prefs.DefaultName
    m_defaultLastName := prefs.DefaultLastName
    m_defaultLevel := prefs.DefaultLevel
    m_defaultRace := prefs.DefaultRace
    m_defaultClass := prefs.DefaultClass
    m_defaultDeity := prefs.DefaultDeity
    m_useDefaults := true
    m_name := prefs.DefaultName }

/-- `Player::applyCheckpoint`: the fields of the record are those of the player. -/
def applyCheckpoint (p : CheckpointPlayer) (cp : CheckpointRecord) : CheckpointPlayer :=
  { p with
    toPlayer := { p.toPlayer.restored cp.toCheckpointData with m_ID := cp.player_id }
    m_gender := cp.player_gender
    m_currentExp := cp.current_exp
    m_maxExp := cp.max_exp
    m_currentAltExp := cp.current_alt_exp
    m_currentAApts := cp.current_aa_pts }

end CheckpointPlayer

/-- `ZoneMgr::applyCheckpoint`: a checkpoint without a zone changes nothing. -/
def ZoneMgr.applyCheckpoint (z : ZoneMgr) (shortName longName : QString) : ZoneMgr :=
  if shortName = [] then z
  else { m_shortZoneName := shortName, m_longZoneName := longName, m_zoning := false }

/-- The part of `DaemonApp` that a checkpoint is about. -/
structure DaemonApp where
  m_player : CheckpointPlayer
  m_zoneMgr : ZoneMgr

namespace DaemonApp

/-- The age up to which a checkpoint is taken. -/
def kCheckpointMaxAgeSeconds : ℤ := 30 * 60

/-- A daemon that has just been started. -/
def fresh (fl : FloatEnv) (prefs : PlayerPrefs) : DaemonApp where
  m_player := .fresh fl prefs
  m_zoneMgr := .init

/-- What `saveCheckpoint` collects: the identity as the accessors of the player answer, so with the
    defaults while they are in use, the members for the experience, and the zone. -/
def checkpoint (d : DaemonApp) : CheckpointRecord where
  player_id := d.m_player.m_ID
  player_name := d.m_player.name
  player_last_name := d.m_player.lastName
  player_class := d.m_player.classVal
  player_level := d.m_player.level.toUInt32.toUInt8
  player_race := d.m_player.race
  player_deity := d.m_player.deity
  player_gender := d.m_player.m_gender
  current_exp := d.m_player.m_currentExp
  max_exp := d.m_player.m_maxExp
  current_alt_exp := d.m_player.m_currentAltExp
  current_aa_pts := d.m_player.m_currentAApts
  short_zone_name := d.m_zoneMgr.m_shortZoneName
  long_zone_name := d.m_zoneMgr.m_longZoneName

/-- Only a real identity is saved. -/
def saveCheckpoint (d : DaemonApp) (file : Option CheckpointFile) (now : ℤ) :
    Option CheckpointFile :=
  if d.m_player.m_ID = 0 ∨ d.m_player.name = [] then file
  else some (Checkpoint.save d.checkpoint now)

/-- What the daemon does with a record: the player first, then the zone. -/
def applyCheckpoint (d : DaemonApp) (cp : CheckpointRecord) : DaemonApp where
  m_player := d.m_player.applyCheckpoint cp
  m_zoneMgr := d.m_zoneMgr.applyCheckpoint cp.short_zone_name cp.long_zone_name

/-- `DaemonApp::restoreCheckpoint`: a checkpoint that cannot be loaded leaves the daemon as it is.
    -/
def restoreCheckpoint (d : DaemonApp) (file : Option CheckpointFile) (now : ℤ) : DaemonApp :=
  match Checkpoint.load file kCheckpointMaxAgeSeconds now with
  | none => d
  | some cp => d.applyCheckpoint cp

end DaemonApp

/-- A run of the daemon to which no packet comes: when it is started, and when it saves. -/
structure Life where
  started : ℤ
  saves : List ℤ

/-- The checkpoint file after such a run. -/
def Life.live (fl : FloatEnv) (prefs : PlayerPrefs) (file : Option CheckpointFile) (l : Life) :
    Option CheckpointFile :=
  l.saves.foldl ((DaemonApp.fresh fl prefs).restoreCheckpoint file l.started).saveCheckpoint file

/-! ## The accessors -/

/-- The accessors answer with the checkpoint: the five fields that the preferences have defaults
    for. -/
structure Player.Shows (p : Player) (cp : CheckpointData) : Prop where
  name : p.name = cp.player_name
  level : p.level = cp.player_level.toUInt32.toInt32
  race : p.race = cp.player_race
  classVal : p.classVal = cp.player_class
  deity : p.deity = cp.player_deity

/-- The defaults are those of the checkpoint. -/
structure PlayerPrefs.Match (prefs : PlayerPrefs) (cp : CheckpointData) : Prop where
  name : prefs.DefaultName = cp.player_name
  level : prefs.DefaultLevel = cp.player_level
  race : prefs.DefaultRace = cp.player_race
  classVal : prefs.DefaultClass = cp.player_class
  deity : prefs.DefaultDeity = cp.player_deity

section
variable (fl : FloatEnv) (prefs : PlayerPrefs)

/-- `m_useDefaults` is still set. -/
theorem applied_defaults (cp : CheckpointRecord) :
    ((CheckpointPlayer.fresh fl prefs).applyCheckpoint cp).defaults = true := by
  show (!prefs.useAutoDetectedSettings || true) = true
  exact Bool.or_true _

theorem applied_accessors (cp : CheckpointRecord) :
    let p := (CheckpointPlayer.fresh fl prefs).applyCheckpoint cp
    p.name = prefs.DefaultName ∧ p.level = prefs.DefaultLevel.toUInt32.toInt32 ∧
      p.race = prefs.DefaultRace ∧ p.classVal = prefs.DefaultClass ∧
        p.deity = prefs.DefaultDeity := by
  have hdefaults := applied_defaults fl prefs cp
  exact ⟨if_pos hdefaults, if_pos hdefaults, if_pos hdefaults, if_pos hdefaults, if_pos hdefaults⟩

/-- A level is saved as it was. -/
theorem level_saved (x : UInt8) : x.toUInt32.toInt32.toUInt32.toUInt8 = x := by
  rw [UInt32.toUInt32_toInt32, UInt8.toUInt8_toUInt32]

theorem shows_iff (cp : CheckpointRecord) :
    ((CheckpointPlayer.fresh fl prefs).applyCheckpoint cp).Shows cp.toCheckpointData ↔
      prefs.Match cp.toCheckpointData := by
  obtain ⟨hname, hlevel, hrace, hclass, hdeity⟩ := applied_accessors fl prefs cp
  constructor
  · intro h
    have hsame := congrArg (fun l : Int32 => l.toUInt32.toUInt8) (hlevel.symm.trans h.level)
    rw [level_saved, level_saved] at hsame
    exact ⟨hname ▸ h.name, hsame, hrace ▸ h.race, hclass ▸ h.classVal, hdeity ▸ h.deity⟩
  · intro h
    have hsame := congrArg (fun l : UInt8 => l.toUInt32.toInt32) h.level
    exact ⟨hname.trans h.name, hlevel.trans hsame, hrace.trans h.race, hclass.trans h.classVal,
      hdeity.trans h.deity⟩

/-! ## Restarts -/

/-- Two checkpoints name the same player. -/
structure SameIdentity (cp cp' : CheckpointData) : Prop where
  name : cp'.player_name = cp.player_name
  level : cp'.player_level = cp.player_level
  race : cp'.player_race = cp.player_race
  classVal : cp'.player_class = cp.player_class
  deity : cp'.player_deity = cp.player_deity

/-- The file, whatever its age, has the identity of `cp`. -/
def Persists (cp : CheckpointData) (file : Option CheckpointFile) : Prop :=
  ∀ now, ∃ cp', Checkpoint.load file 0 now = some cp' ∧ SameIdentity cp cp'.toCheckpointData

/-- What runs keep: the file was saved with the id and the identity of `cp`. -/
def Saved (cp : CheckpointData) (file : Option CheckpointFile) : Prop :=
  ∃ data written, file = some (Checkpoint.save data written) ∧
    data.player_id = cp.player_id ∧ SameIdentity cp data.toCheckpointData

theorem persists_save (cp : CheckpointData) (data : CheckpointRecord) (written : ℤ) :
    Persists cp (some (Checkpoint.save data written)) ↔ SameIdentity cp data.toCheckpointData := by
  have hload : ∀ now, Checkpoint.load (some (Checkpoint.save data written)) 0 now =
      some { data with written_at_unix := written } := by
    intro now
    rw [Checkpoint.load_save, if_neg fun h => absurd h.1 (lt_irrefl 0)]
  constructor
  · intro h
    obtain ⟨cp', hcp', hsame⟩ := h 0
    rw [hload] at hcp'
    rw [← Option.some.inj hcp'] at hsame
    exact hsame
  · intro h now
    exact ⟨_, hload now, h⟩

theorem restoreCheckpoint_save (d : DaemonApp) (data : CheckpointRecord) (written now : ℤ) :
    d.restoreCheckpoint (some (Checkpoint.save data written)) now =
      if now - written > DaemonApp.kCheckpointMaxAgeSeconds then d
      else d.applyCheckpoint { data with written_at_unix := written } := by
  unfold DaemonApp.restoreCheckpoint
  rw [Checkpoint.load_save]
  by_cases hold : now - written > DaemonApp.kCheckpointMaxAgeSeconds
  · have hmax : DaemonApp.kCheckpointMaxAgeSeconds > 0 := by decide
    rw [if_pos hold, if_pos ⟨hmax, hold⟩]
  · rw [if_neg hold, if_neg fun h => hold h.2]

variable {fl prefs}

/-- The checkpoint that a restored daemon saves has the defaults. -/
theorem restored_identity (cp cp' : CheckpointRecord) :
    SameIdentity cp.toCheckpointData
        ((DaemonApp.fresh fl prefs).applyCheckpoint cp').checkpoint.toCheckpointData ↔
      prefs.Match cp.toCheckpointData := by
  obtain ⟨hname, hlevel, hrace, hclass, hdeity⟩ := applied_accessors fl prefs cp'
  let saved := ((DaemonApp.fresh fl prefs).applyCheckpoint cp').checkpoint
  have hlevel' : saved.player_level = prefs.DefaultLevel :=
    (congrArg (fun l : Int32 => l.toUInt32.toUInt8) hlevel).trans (level_saved _)
  constructor
  · rintro ⟨h1, h2, h3, h4, h5⟩
    exact ⟨hname.symm.trans h1, hlevel'.symm.trans h2, hrace.symm.trans h3, hclass.symm.trans h4,
      hdeity.symm.trans h5⟩
  · rintro ⟨h1, h2, h3, h4, h5⟩
    exact ⟨hname.trans h1, hlevel'.trans h2, hrace.trans h3, hclass.trans h4, hdeity.trans h5⟩

/-- One run keeps the file as it should be where nothing is saved or the defaults are saved. -/
theorem live_saved {cp : CheckpointRecord} (hcp : cp.player_id = 0 ∨ prefs.DefaultName = [] ∨
      prefs.Match cp.toCheckpointData) {file : Option CheckpointFile} (l : Life)
    (h : Saved cp.toCheckpointData file) : Saved cp.toCheckpointData (l.live fl prefs file) := by
  obtain ⟨data, written, rfl, hid, hsame⟩ := h
  let file := some (Checkpoint.save data written)
  let d := (DaemonApp.fresh fl prefs).restoreCheckpoint file l.started
  have hsave : ∀ f now, Saved cp.toCheckpointData f →
      Saved cp.toCheckpointData (d.saveCheckpoint f now) := by
    intro f now hf
    unfold DaemonApp.saveCheckpoint
    split
    · exact hf
    · rename_i hreal
      obtain ⟨hreal, hnamed⟩ := not_or.mp hreal
      have hd : d = if l.started - written > DaemonApp.kCheckpointMaxAgeSeconds then
          DaemonApp.fresh fl prefs
        else (DaemonApp.fresh fl prefs).applyCheckpoint { data with written_at_unix := written } :=
        restoreCheckpoint_save _ data written l.started
      split at hd
      · -- Too old: the player has no id.
        exact absurd (congrArg (fun d : DaemonApp => d.m_player.m_ID) hd) hreal
      · have hid' : d.m_player.m_ID = data.player_id :=
          congrArg (fun d : DaemonApp => d.m_player.m_ID) hd
        have hname : d.m_player.name = prefs.DefaultName :=
          (congrArg (fun d : DaemonApp => d.m_player.name) hd).trans
            (applied_accessors fl prefs _).1
        refine ⟨d.checkpoint, now, rfl, hid'.trans hid, ?_⟩
        rcases hcp with hzero | hempty | hmatch
        · exact absurd (hid'.trans (hid.trans hzero)) hreal
        · exact absurd (hname.trans hempty) hnamed
        · rw [hd]
          exact (restored_identity cp _).mpr hmatch
  have hstart : Saved cp.toCheckpointData file := ⟨data, written, rfl, hid, hsame⟩
  exact Machine.foldl_invariant d.saveCheckpoint hsave hstart l.saves

/-- The identity on disk survives all restarts exactly when nothing is ever saved over it, for want
    of an id or of a default name, or when it is the one of the defaults. -/
theorem persists_iff (cp : CheckpointRecord) (written : ℤ) :
    (∀ lives : List Life, ∀ file ∈ Machine.trace (Life.live fl prefs)
        (some (Checkpoint.save cp written)) lives, Persists cp.toCheckpointData file) ↔
      cp.player_id = 0 ∨ prefs.DefaultName = [] ∨ prefs.Match cp.toCheckpointData := by
  constructor
  · intro h
    by_contra hcp
    obtain ⟨hid, hcp⟩ := not_or.mp hcp
    obtain ⟨hnamed, hdiffers⟩ := not_or.mp hcp
    -- The daemon is started at once, and saves.
    let l : Life := ⟨written, [written]⟩
    let d := (DaemonApp.fresh fl prefs).applyCheckpoint { cp with written_at_unix := written }
    have hlive : l.live fl prefs (some (Checkpoint.save cp written)) =
        some (Checkpoint.save d.checkpoint written) := by
      show DaemonApp.saveCheckpoint (DaemonApp.restoreCheckpoint _ _ written) _ written = _
      rw [restoreCheckpoint_save, if_neg (by rw [sub_self]; decide)]
      refine if_neg (not_or.mpr ⟨hid, fun hempty => hnamed ?_⟩)
      exact (applied_accessors fl prefs _).1.symm.trans hempty
    have hpersists := h [l] _ (List.mem_cons_of_mem _ List.mem_cons_self)
    rw [hlive, persists_save] at hpersists
    exact hdiffers ((restored_identity cp _).mp hpersists)
  · intro hcp lives file hfile
    have hstart : Saved cp.toCheckpointData (some (Checkpoint.save cp written)) :=
      ⟨cp, written, rfl, rfl, ⟨rfl, rfl, rfl, rfl, rfl⟩⟩
    have hsaved : Saved cp.toCheckpointData file :=
      Machine.trace_invariant (Life.live fl prefs) (fun f l hf => live_saved hcp l hf) hstart lives
        file hfile
    obtain ⟨data, written', rfl, -, hsame⟩ := hsaved
    exact (persists_save _ data written').mpr hsame

end

/-- A checkpoint is what the accessors of a player answer with to whom it was applied, and it stays
    the identity on disk through any number of restarts without packets, exactly when its name,
    level, race, class and deity are the defaults of the preferences. -/
theorem checkpoint_round_trip_iff (fl : FloatEnv) (prefs : PlayerPrefs) (cp : CheckpointRecord)
    (written : ℤ) :
    (((CheckpointPlayer.fresh fl prefs).applyCheckpoint cp).Shows cp.toCheckpointData ∧
        ∀ lives : List Life, ∀ file ∈ Machine.trace (Life.live fl prefs)
          (some (Checkpoint.save cp written)) lives, Persists cp.toCheckpointData file) ↔
      prefs.Match cp.toCheckpointData := by
  rw [shows_iff, persists_iff]
  exact and_iff_left_of_imp fun h => Or.inr (Or.inr h)

/-- With the default preferences a daemon that restores "Bob" has a player named "You". -/
theorem restored_name_is_default :
    ¬ ∀ (fl : FloatEnv) (prefs : PlayerPrefs) (cp : CheckpointRecord) (written : ℤ),
      ((CheckpointPlayer.fresh fl prefs).applyCheckpoint cp).Shows cp.toCheckpointData ∧
        ∀ lives : List Life, ∀ file ∈ Machine.trace (Life.live fl prefs)
          (some (Checkpoint.save cp written)) lives, Persists cp.toCheckpointData file := by
  intro h
  let fl : FloatEnv := { lrintf := fun _ => 0, calc_exp := fun _ _ _ => 0 }
  let cp : CheckpointRecord := {
    player_id := 7
    player_name := "Bob".toList
    player_last_name := []
    player_level := 50
    player_class := 1
    player_race := 1
    player_deity := 396
    short_zone_name := "qeynos".toList
    long_zone_name := "South Qeynos".toList
    player_gender := 0
    current_exp := 0
    max_exp := 0
    current_alt_exp := 0
    current_aa_pts := 0 }
  have hshows := (h fl {} cp 0).1
  have hname : "You".toList = "Bob".toList := ((shows_iff fl {} cp).mp hshows).name
  exact absurd hname (by decide)

end ShoweqDaemon.Spawns
