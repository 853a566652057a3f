/-
  The player's stats as a session shows them.

  A session sends `PlayerStats` at the stat signals of the player and when its id changes; each
  message is filled from the player as it is at that moment, which may be in the middle of a
  handler. `StatsPlayer.next` is what the handlers do to the player and what is sent.

  A profile, the vitals' packets, a step of the player and a checkpoint end with a message or
  leave what is shown alone. The reset at a zone change, a `zoneEntry` of the player and its death
  change what is shown and send nothing, so `stats_fresh_iff` asks of them that they change none
  of it.
-/
import ShoweqDaemon.Lib.Published
import ShoweqDaemon.Player.Checkpoint

namespace ShoweqDaemon.Spawns

open Published (Fresh Keeps keeps_before keeps_last keeps_silent keeps_single)

/-! ## The message -/

/-- The player with its stamina. -/
structure StatsPlayer extends CheckpointPlayer where
  m_food : UInt16 := 0
  m_water : UInt16 := 0
  m_fatigue : UInt16 := 0

/-- The message, each value with the type in which it is handed over. -/
structure PlayerStats where
  hp_cur : UInt16
  hp_max : UInt16
  mana_cur : UInt16
  mana_max : UInt16
  endurance_cur : UInt32
  endurance_max : UInt32
  level : Int32
  exp_cur : UInt32
  exp_max : UInt32
  aa_exp_cur : UInt32
  aa_exp_max : UInt32
  aa_points : UInt16
  aa_unspent : UInt32
  name : QString
  class_ : UInt8
  race : UInt16
  str : UInt8
  sta : UInt8
  agi : UInt8
  dex : UInt8
  wis : UInt8
  int_ : UInt8
  cha : UInt8
  deriving DecidableEq, Repr

/-- Hit points as `uint16_t`. -/
def hpShown (hp : Int32) : UInt16 := hp.toUInt32.toUInt16

/-- A maximum is at least what is there. -/
def atLeast (cur calcMax : UInt16) : UInt16 := if cur > calcMax then cur else calcMax

/-- `fillPlayerStats`: the numbers that the clients see, where a greatest value is at least the
    current one. -/
def fillPlayerStats (p : StatsPlayer) : PlayerStats where
  hp_cur := hpShown p.m_curHP
  hp_max := atLeast (hpShown p.m_curHP) (hpShown p.m_maxHP)
  mana_cur := p.m_mana
  mana_max := atLeast p.m_mana p.m_maxMana
  endurance_cur := 100 - p.m_fatigue.toUInt32
  endurance_max := 100
  level := p.level
  exp_cur := p.m_currentExp
  exp_max := p.m_maxExp
  aa_exp_cur := p.m_currentAltExp
  aa_exp_max := 15000000
  aa_points := p.m_currentAApts
  aa_unspent := p.m_currentAAUnspent
  name := p.name
  class_ := p.classVal
  race := p.race
  str := p.getMaxSTR
  sta := p.getMaxSTA
  agi := p.getMaxAGI
  dex := p.getMaxDEX
  wis := p.getMaxWIS
  int_ := p.getMaxINT
  cha := p.getMaxCHA

/-! ## The handlers -/

/-- The player after a handler, and the messages that were sent meanwhile. -/
abbrev StatsOut := StatsPlayer × List PlayerStats

/-- The test of `zoneEntry`. -/
def Player.isSelf (env : Env) (p : Player) (s : SpawnStruct) : Bool :=
  s.name = (env.toLatin1 p.m_realName).takeWhile (· ≠ 0)

/-- The player as `SpawnShell::killSpawn` leaves it. -/
def Player.dead (env : Env) (f : FilterMgr) (p : Player) : Player :=
  let q := { p with toSpawn := p.toSpawn.killSpawn }
  let q := (q.updateFilterFlags env f).updateRuntimeFilterFlags env f
  { q with m_name := q.m_name ++ Spawn_Corpse_Designator }

namespace StatsPlayer

/-- `changedID` is emitted only if the id changes. -/
def setPlayerID (p : StatsPlayer) (playerID : UInt16) : StatsOut :=
  if p.m_ID = playerID then (p, [])
  else
    let q : StatsPlayer := { p with m_ID := playerID }
    (q, [fillPlayerStats q])

section
variable (env : Env) (fl : FloatEnv) (p : StatsPlayer)

/-- `newPlayer` is emitted before anything is set, `levelChanged` in front of the attributes,
    `statChanged` seven times behind them, `manaChanged` in front of the experience. -/
def player (guildMgr : GuildMgr) (b : ProfileBytes) : StatsOut :=
  let named : StatsPlayer := { p with
    m_NPC := SPAWN_SELF
    m_typeflag := 1
    m_name := env.fromUtf8 b.name
    m_realName := env.fromUtf8 b.name
    m_lastName := env.fromUtf8 b.lastName }
  let levelled : StatsPlayer := { named with
    m_useDefaults := false
    m_gender := b.byteAt 140
    m_race := b.race
    m_class := b.class_.toUInt8
    m_deity := b.deity
    m_curHP := b.curHp.toInt32
    m_level := b.level.toUInt32.toInt32 }
  let able : StatsPlayer := { levelled with
    toPlayerState := levelled.toPlayerState.accumulate b }
  let charged : StatsPlayer := { able with
    m_mana := b.MANA.toUInt16
    m_maxMana := .ofInt
      (calcMaxMana able.m_maxINT able.m_maxWIS able.m_class able.m_level + able.m_plusMana.toNat) }
  let loaded : StatsPlayer := { charged with
    toPlayerState := p.toPlayerState.player fl b env guildMgr }
  (loaded,
    (if p.m_name ≠ env.fromUtf8 b.name then [fillPlayerStats p] else []) ++
      [fillPlayerStats levelled] ++ List.replicate 7 (fillPlayerStats able) ++
      [fillPlayerStats charged] ++ [fillPlayerStats loaded, fillPlayerStats loaded])

/-- `Player::manaChange` -/
def manaChange (newMana : UInt16) : StatsOut :=
  let q : StatsPlayer := { p with m_mana := newMana, m_validMana := true }
  (q, [fillPlayerStats q])

/-- `Player::updateStamina`: food, water and fatigue are stored, and the stats go out with them. -/
def updateStamina (food water : Int16) (fatigue : Int8) : StatsOut :=
  let q : StatsPlayer := { p with
    m_food := food.toUInt16
    m_water := water.toUInt16
    m_fatigue := fatigue.toInt16.toUInt16 }
  (q, [fillPlayerStats q])

/-- `Player::updateNpcHP`, for the player's own id: both numbers are stored, and the stats go out
    with them. -/
def updateNpcHP (spawnId : UInt32) (curHP maxHP : Int32) : StatsOut :=
  if spawnId ≠ p.m_ID.toUInt32 then (p, [])
  else
    let q : StatsPlayer := { p with m_curHP := curHP, m_maxHP := maxHP }
    (q, [fillPlayerStats q])

/-- No stat signal, but the first id may be set. An update for something else goes to the shell. -/
def playerUpdateSelf (dir : SpawnShell.Dir) (u : SpawnPositionUpdate) : StatsOut :=
  if dir ≠ .client ∧ u.spawnId ≠ p.m_ID then (p, [])
  else
    let o := if dir = .client ∧ p.m_ID = 0 then p.setPlayerID u.spawnId else (p, [])
    if u.spawnId ≠ o.1.m_ID then o
    else ({ o.1 with toPlayer := o.1.toPlayer.moveSelf u }, o.2)

/-- `reset` and `clear` have no stat signal. -/
def zoneChanged : StatsOut :=
  ({ p with
      toPlayerState := p.toPlayerState.zoneChanged fl
      m_food := 0
      m_water := 0
      m_fatigue := 0 }, [])

/-- `setPlayerID` comes behind all else, then `newPlayer` and `levelChanged`. -/
def applyCheckpoint (cp : CheckpointRecord) : StatsOut :=
  let restored : StatsPlayer := { p with
    toCheckpointPlayer := { p.toCheckpointPlayer.applyCheckpoint cp with m_ID := p.m_ID } }
  let o := restored.setPlayerID cp.player_id
  (o.1, o.2 ++ [fillPlayerStats o.1, fillPlayerStats o.1])

/-- `SpawnShell::zoneEntry` where it is about the player: the update has no stat signal. -/
def zoneEntry (s : SpawnStruct) (gender : UInt8) : StatsOut :=
  if p.toPlayer.isSelf env s then
    let o := p.setPlayerID s.spawnId
    ({ o.1 with toSpawn := o.1.toSpawn.update env s, m_gender := gender }, o.2)
  else (p, [])

/-- `SpawnShell::killSpawn` where it is about the player: no stat signal either. -/
def killSpawn (f : FilterMgr) (spawnId : UInt16) : StatsOut :=
  if spawnId = p.m_ID then ({ p with toPlayer := p.toPlayer.dead env f }, []) else (p, [])

end

/-- What reaches the player: the packets and signals that `DaemonApp` connects to his handlers, with
    what they carry. -/
inductive Event where
  | player (guildMgr : GuildMgr) (b : ProfileBytes)
  | manaChange (newMana : UInt16)
  | updateStamina (food water : Int16) (fatigue : Int8)
  | updateNpcHP (spawnId : UInt32) (curHP maxHP : Int32)
  | playerUpdateSelf (dir : SpawnShell.Dir) (u : SpawnPositionUpdate)
  | zoneChanged
  | applyCheckpoint (cp : CheckpointRecord)
  | zoneEntry (s : SpawnStruct) (gender : UInt8)
  | killSpawn (f : FilterMgr) (spawnId : UInt16)

/-- The player after an event, and the numbers that were sent. -/
def next (env : Env) (fl : FloatEnv) (p : StatsPlayer) : Event → StatsOut
  | .player guildMgr b => p.player env fl guildMgr b
  | .manaChange newMana => p.manaChange newMana
  | .updateStamina food water fatigue => p.updateStamina food water fatigue
  | .updateNpcHP spawnId curHP maxHP => p.updateNpcHP spawnId curHP maxHP
  | .playerUpdateSelf dir u => p.playerUpdateSelf dir u
  | .zoneChanged => p.zoneChanged fl
  | .applyCheckpoint cp => p.applyCheckpoint cp
  | .zoneEntry s gender => p.zoneEntry env s gender
  | .killSpawn f spawnId => p.killSpawn env f spawnId

end StatsPlayer

/-! ## The player of the shell -/

theorem newSpawn_player (env : Env) (sh : SpawnShell) (s : SpawnStruct) :
    (sh.newSpawn env s).1.m_player = sh.m_player := by
  unfold SpawnShell.newSpawn
  split
  · rfl
  · dsimp only
    split <;> rfl

theorem playerChangedID_player (sh : SpawnShell) (old new : UInt16) :
    (sh.playerChangedID old new).1.m_player = sh.m_player := by
  unfold SpawnShell.playerChangedID
  split <;> simp [Out.andThen]

theorem setPlayerID_player (sh : SpawnShell) (id : UInt16) :
    (sh.setPlayerID id).1.m_player = { sh.m_player with m_ID := id } := by
  unfold SpawnShell.setPlayerID
  split
  · rename_i heq
    rw [← heq]
  · exact playerChangedID_player _ _ _

/-- An update for something else does not touch the player. -/
theorem updateSpawn_player (env : Env) (sh : SpawnShell) {u : SpawnPositionUpdate}
    (h : u.spawnId ≠ sh.m_player.m_ID) : (sh.updateSpawn env u).1.m_player = sh.m_player := by
  unfold SpawnShell.updateSpawn
  rw [if_neg h]
  split
  · rfl
  · split
    · split <;> rfl
    · rfl

namespace StatsPlayer

section
variable (env : Env) (fl : FloatEnv) {sh : SpawnShell} {p : StatsPlayer}

theorem setPlayerID_toPlayer (p : StatsPlayer) (id : UInt16) :
    (p.setPlayerID id).1.toPlayer = { p.toPlayer with m_ID := id } := by
  unfold setPlayerID
  split
  · rename_i heq
    rw [← heq]
  · rfl

/-- On the fields of the spawn the handlers do what the shell's model has. -/
theorem player_spawn (guildMgr : GuildMgr) (b : ProfileBytes) :
    (p.player env fl guildMgr b).1.toPlayer =
      p.toPlayer.player env guildMgr (b.toStruct fl.lrintf) := rfl

theorem updateNpcHP_spawn (h : sh.m_player = p.toPlayer) (spawnId : UInt32) (curHP maxHP : Int32) :
    (sh.playerUpdateNpcHP spawnId curHP maxHP).1.m_player =
      (p.updateNpcHP spawnId curHP maxHP).1.toPlayer := by
  unfold SpawnShell.playerUpdateNpcHP updateNpcHP
  rw [h]
  split <;> [exact h; rfl]

theorem playerUpdateSelf_spawn (h : sh.m_player = p.toPlayer) (m_zoning : Bool)
    (dir : SpawnShell.Dir) (u : SpawnPositionUpdate) :
    (sh.playerUpdateSelf env m_zoning dir u).1.m_player =
      (p.playerUpdateSelf dir u).1.toPlayer := by
  unfold SpawnShell.playerUpdateSelf playerUpdateSelf
  rw [h]
  split
  · exact h
  · have hmove : ∀ (o : Out) (o' : StatsOut), o.1.m_player = o'.1.toPlayer →
        (o.andThen fun sh =>
          if u.spawnId ≠ sh.m_player.m_ID then
            if m_zoning then (sh, []) else sh.updateSpawn env u
          else ({ sh with m_player := sh.m_player.moveSelf u },
            [.playerChangeItem (.player (sh.m_player.moveSelf u))
              tSpawnChangedPosition])).1.m_player =
          (if u.spawnId ≠ o'.1.m_ID then o'
            else ({ o'.1 with toPlayer := o'.1.toPlayer.moveSelf u }, o'.2)).1.toPlayer := by
      intro o o' ho
      unfold Out.andThen
      dsimp only
      rw [ho]
      by_cases hself : u.spawnId = o'.1.m_ID
      · rw [if_neg (not_not_intro hself), if_neg (not_not_intro hself)]
      · rw [if_pos hself, if_pos hself]
        split
        · exact ho
        · rw [updateSpawn_player env _ (by rwa [ho]), ho]
    split
    · refine hmove _ (p.setPlayerID u.spawnId) ?_
      rw [setPlayerID_player, setPlayerID_toPlayer, h]
    · exact hmove (sh, []) (p, []) h

theorem zoneChanged_spawn : (p.zoneChanged fl).1.toPlayer = p.toPlayer.zoneChanged := rfl

theorem applyCheckpoint_spawn (h : sh.m_player = p.toPlayer) (cp : CheckpointRecord) :
    ({ sh with m_player := sh.m_player.restored cp.toCheckpointData }.setPlayerID
      cp.player_id).1.m_player = (p.applyCheckpoint cp).1.toPlayer := by
  rw [setPlayerID_player]
  unfold applyCheckpoint
  dsimp only
  rw [setPlayerID_toPlayer, h]
  rfl

theorem zoneEntry_spawn (h : sh.m_player = p.toPlayer) (s : SpawnStruct) (gender : UInt8) :
    (sh.zoneEntry env s).1.m_player = (p.zoneEntry env s gender).1.toPlayer := by
  have hself : sh.isSelf env s = p.toPlayer.isSelf env s := by
    rw [← h]
    rfl
  unfold SpawnShell.zoneEntry zoneEntry
  rw [hself]
  split
  · show { (sh.setPlayerID s.spawnId).1.m_player with
      toSpawn := (sh.setPlayerID s.spawnId).1.m_player.toSpawn.update env s } = _
    rw [setPlayerID_player, h]
    dsimp only
    rw [setPlayerID_toPlayer]
  · split
    · exact h
    · rw [newSpawn_player, h]

theorem killSpawn_spawn (h : sh.m_player = p.toPlayer) (spawnId killerId : UInt16) :
    (sh.killSpawn env spawnId killerId).1.m_player =
      (p.killSpawn env sh.m_filterMgr spawnId).1.toPlayer := by
  unfold SpawnShell.killSpawn killSpawn
  rw [h]
  split
  · rfl
  · split
    · rfl
    · exact h

end

/-! ## What is shown -/

/-- What a reset would change is shown as reset already. -/
structure ShownReset (fl : FloatEnv) (p : StatsPlayer) : Prop where
  curHP : hpShown p.m_curHP = 0
  maxHP : hpShown p.m_maxHP = 0
  mana : p.m_mana = 0
  maxMana : p.m_maxMana = 0
  fatigue : p.m_fatigue = 0
  level : p.level = p.m_defaultLevel.toUInt32.toInt32
  currentExp : p.m_currentExp = 0
  maxExp : p.m_maxExp =
    fl.calc_exp p.m_defaultLevel.toUInt32.toInt32 p.m_defaultRace p.m_defaultClass
  currentAltExp : p.m_currentAltExp = 0
  currentAApts : p.m_currentAApts = 0
  currentAAUnspent : p.m_currentAAUnspent = 0
  name : p.name = p.m_defaultName
  classVal : p.classVal = p.m_defaultClass
  race : p.race = p.m_defaultRace
  maxSTR : p.m_maxSTR = 0
  maxSTA : p.m_maxSTA = 0
  maxAGI : p.m_maxAGI = 0
  maxDEX : p.m_maxDEX = 0
  maxWIS : p.m_maxWIS = 0
  maxINT : p.m_maxINT = 0
  maxCHA : p.m_maxCHA = 0

/-- What an update would change is shown as the packet has it already. -/
structure ShownUpdated (env : Env) (p : StatsPlayer) (s : SpawnStruct) : Prop where
  curHP : hpShown p.m_curHP = hpShown s.curHp.toInt32
  maxHP : atLeast (hpShown p.m_curHP) (hpShown p.m_maxHP) = atLeast (hpShown s.curHp.toInt32) 100
  identity : p.defaults = true ∨ p.m_name = env.fromUtf8 s.name ∧
    p.m_level = s.level.toUInt32.toInt32 ∧ p.m_race = s.race ∧ p.m_class = s.class_

/-- The player is shown without hit points, and not under its own name. -/
structure ShownDead (p : StatsPlayer) : Prop where
  curHP : hpShown p.m_curHP = 0
  maxHP : hpShown p.m_maxHP = 0
  defaults : p.defaults = true

theorem atLeast_zero (x : UInt16) : atLeast 0 x = x := if_neg UInt16.not_lt_zero

/-- Without hit points shown the maximum is what is stored. -/
theorem max_zero_iff {cur : UInt16} (hcur : cur = 0) (max : UInt16) :
    atLeast cur max = atLeast 0 0 ↔ max = 0 := by
  rw [hcur, atLeast_zero, atLeast_zero]

theorem endurance_inj {a b : UInt16} (h : 100 - a.toUInt32 = 100 - b.toUInt32) : a = b :=
  UInt16.toUInt32_inj.mp ((UInt32.sub_right_inj 100).mp h)

section
variable (env : Env) (fl : FloatEnv) (p : StatsPlayer)

theorem zoneChanged_shown_iff :
    fillPlayerStats p = fillPlayerStats (p.zoneChanged fl).1 ↔ p.ShownReset fl := by
  have hdefaults : (p.zoneChanged fl).1.defaults = true := Bool.or_true _
  have hname : (p.zoneChanged fl).1.name = p.m_defaultName := if_pos hdefaults
  have hlevel : (p.zoneChanged fl).1.level = p.m_defaultLevel.toUInt32.toInt32 := if_pos hdefaults
  have hrace : (p.zoneChanged fl).1.race = p.m_defaultRace := if_pos hdefaults
  have hclass : (p.zoneChanged fl).1.classVal = p.m_defaultClass := if_pos hdefaults
  have hmaxExp : (p.zoneChanged fl).1.m_maxExp =
      fl.calc_exp p.m_defaultLevel.toUInt32.toInt32 p.m_defaultRace p.m_defaultClass := by
    -- `reset` asks the accessors before it sets the level, the race and the class.
    let q : Player := { p.toPlayer with m_useDefaults := true }
    have hq : q.defaults = true := Bool.or_true _
    have hqlevel : q.level = q.m_defaultLevel.toUInt32.toInt32 := if_pos hq
    have hqrace : q.race = q.m_defaultRace := if_pos hq
    have hqclass : q.classVal = q.m_defaultClass := if_pos hq
    show fl.calc_exp q.level q.race q.classVal = _
    rw [hqlevel, hqrace, hqclass]
  rw [fillPlayerStats, fillPlayerStats, PlayerStats.mk.injEq, hname, hlevel, hrace, hclass, hmaxExp]
  constructor
  · rintro ⟨hcur, hmax, hmana, hmaxMana, hfatigue, -, hlevel, hexp, hmaxExp, halt, -, hpts,
      hunspent, hname, hclass, hrace, hstr, hsta, hagi, hdex, hwis, hint, hcha⟩
    have hcur : hpShown p.m_curHP = 0 := hcur
    have hmana : p.m_mana = 0 := hmana
    exact ⟨hcur, (max_zero_iff hcur _).mp hmax, hmana, (max_zero_iff hmana _).mp hmaxMana,
      endurance_inj hfatigue, hlevel, hexp, hmaxExp, halt, hpts, hunspent, hname, hclass, hrace,
      hstr, hsta, hagi, hdex, hwis, hint, hcha⟩
  · intro h
    refine ⟨h.curHP, (max_zero_iff h.curHP _).mpr h.maxHP, h.mana,
      (max_zero_iff h.mana _).mpr h.maxMana, ?_, rfl, h.level, h.currentExp, h.maxExp,
      h.currentAltExp, rfl, h.currentAApts, h.currentAAUnspent, h.name, h.classVal, h.race,
      h.maxSTR, h.maxSTA, h.maxAGI, h.maxDEX, h.maxWIS, h.maxINT, h.maxCHA⟩
    rw [h.fatigue]
    rfl

/-- Of an update only the hit points and the identity are shown. -/
theorem update_shown_iff (s : SpawnStruct) (gender : UInt8) :
    fillPlayerStats p =
        fillPlayerStats { p with toSpawn := p.toSpawn.update env s, m_gender := gender } ↔
      p.ShownUpdated env s := by
  let q : StatsPlayer := { p with toSpawn := p.toSpawn.update env s, m_gender := gender }
  have hsame : q.defaults = p.defaults := rfl
  show fillPlayerStats p = fillPlayerStats q ↔ _
  rw [fillPlayerStats, fillPlayerStats, PlayerStats.mk.injEq]
  constructor
  · rintro ⟨hcur, hmax, -, -, -, -, hlevel, -, -, -, -, -, -, hname, hclass, hrace, -⟩
    refine ⟨hcur, hmax, ?_⟩
    by_cases hdefaults : p.defaults = true
    · exact Or.inl hdefaults
    · refine Or.inr ?_
      have hnone : ¬ q.defaults = true := hdefaults
      unfold Player.name at hname
      unfold Player.level at hlevel
      unfold Player.race at hrace
      unfold Player.classVal at hclass
      rw [if_neg hdefaults, if_neg hnone] at hname hlevel hrace hclass
      exact ⟨hname, hlevel, hrace, hclass⟩
  · rintro ⟨hcur, hmax, hidentity⟩
    have haccess : p.name = q.name ∧ p.level = q.level ∧ p.race = q.race ∧
        p.classVal = q.classVal := by
      unfold Player.name Player.level Player.race Player.classVal
      rw [hsame]
      rcases hidentity with hdefaults | ⟨hname, hlevel, hrace, hclass⟩
      · simp only [if_pos hdefaults]
        exact ⟨rfl, rfl, rfl, rfl⟩
      · rw [hname, hlevel, hrace, hclass]
        exact ⟨rfl, rfl, rfl, rfl⟩
    obtain ⟨hname, hlevel, hrace, hclass⟩ := haccess
    exact ⟨hcur, hmax, rfl, rfl, rfl, rfl, hlevel, rfl, rfl, rfl, rfl, rfl, rfl, hname, hclass,
      hrace, rfl, rfl, rfl, rfl, rfl, rfl, rfl⟩

/-- A name of its own is longer after the death. -/
theorem dead_shown_iff (f : FilterMgr) :
    fillPlayerStats p = fillPlayerStats { p with toPlayer := p.toPlayer.dead env f } ↔
      p.ShownDead := by
  let q : StatsPlayer := { p with toPlayer := p.toPlayer.dead env f }
  have hsame : q.defaults = p.defaults := rfl
  show fillPlayerStats p = fillPlayerStats q ↔ _
  rw [fillPlayerStats, fillPlayerStats, PlayerStats.mk.injEq]
  constructor
  · rintro ⟨hcur, hmax, -, -, -, -, -, -, -, -, -, -, -, hname, -⟩
    have hcur : hpShown p.m_curHP = 0 := hcur
    refine ⟨hcur, (max_zero_iff hcur _).mp hmax, ?_⟩
    by_contra hdefaults
    have hnone : ¬ q.defaults = true := hdefaults
    unfold Player.name at hname
    rw [if_neg hdefaults, if_neg hnone] at hname
    have hlonger : p.m_name = p.m_name ++ Spawn_Corpse_Designator := hname
    exact absurd (List.self_eq_append_right.mp hlonger) (by decide)
  · rintro ⟨hcur, hmax, hdefaults⟩
    have hname : p.name = q.name := by
      unfold Player.name
      rw [hsame, if_pos hdefaults, if_pos hdefaults]
      rfl
    have haccess : p.level = q.level ∧ p.classVal = q.classVal ∧ p.race = q.race := by
      unfold Player.level Player.classVal Player.race
      rw [hsame]
      simp only [if_pos hdefaults]
      exact ⟨rfl, rfl, rfl⟩
    obtain ⟨hlevel, hclass, hrace⟩ := haccess
    exact ⟨hcur, (max_zero_iff hcur _).mpr hmax, rfl, rfl, rfl, rfl, hlevel, rfl, rfl, rfl, rfl,
      rfl, rfl, hname, hclass, hrace, rfl, rfl, rfl, rfl, rfl, rfl, rfl⟩

/-! ## Freshness -/

/-- What is to be met so that an event leaves the session with the current stats. -/
def Kept : Event → Prop
  | .zoneChanged => p.ShownReset fl
  | .zoneEntry s _ => p.toPlayer.isSelf env s = true → p.ShownUpdated env s
  | .killSpawn _ spawnId => spawnId = p.m_ID → p.ShownDead
  | _ => True

variable {p}

theorem setPlayerID_before (id : UInt16) : ∀ m ∈ (p.setPlayerID id).2, m = fillPlayerStats p := by
  unfold setPlayerID
  split
  · exact fun m hm => absurd hm List.not_mem_nil
  · exact fun m hm => List.mem_singleton.mp hm

theorem setPlayerID_shown (id : UInt16) :
    fillPlayerStats (p.setPlayerID id).1 = fillPlayerStats p := by
  unfold setPlayerID
  split <;> rfl

/-- A player that moves shows what it showed. -/
theorem playerUpdateSelf_shown (dir : SpawnShell.Dir) (u : SpawnPositionUpdate) :
    (∀ m ∈ (p.playerUpdateSelf dir u).2, m = fillPlayerStats p) ∧
      fillPlayerStats (p.playerUpdateSelf dir u).1 = fillPlayerStats p := by
  have hnone : ∀ m ∈ ([] : List PlayerStats), m = fillPlayerStats p :=
    fun m hm => absurd hm List.not_mem_nil
  have hmoved : ∀ q : StatsPlayer,
      fillPlayerStats { q with toPlayer := q.toPlayer.moveSelf u } = fillPlayerStats q := fun _ => rfl
  unfold playerUpdateSelf
  split
  · exact ⟨hnone, rfl⟩
  · dsimp only
    split <;> split
    · exact ⟨setPlayerID_before _, setPlayerID_shown _⟩
    · exact ⟨setPlayerID_before _, (hmoved _).trans (setPlayerID_shown _)⟩
    · exact ⟨hnone, rfl⟩
    · exact ⟨hnone, hmoved _⟩

/-- A handler whose messages end with one about the player as it leaves it. -/
theorem keeps_of_last {e : Event} {sent : List PlayerStats}
    (h : (p.next env fl e).2 = sent ++ [fillPlayerStats (p.next env fl e).1]) :
    Keeps (next env fl) id fillPlayerStats p e := (keeps_last h).mpr rfl

theorem keeps_iff_kept (p : StatsPlayer) (e : Event) :
    Keeps (next env fl) id fillPlayerStats p e ↔ p.Kept env fl e := by
  cases e with
  | player guildMgr b =>
      exact iff_of_true (keeps_of_last env fl (List.append_cons _ _ [_])) trivial
  | manaChange newMana => exact iff_of_true ((keeps_single rfl).mpr rfl) trivial
  | updateStamina food water fatigue => exact iff_of_true ((keeps_single rfl).mpr rfl) trivial
  | updateNpcHP spawnId curHP maxHP =>
      refine iff_of_true ?_ trivial
      by_cases hself : spawnId ≠ p.m_ID.toUInt32
      · have hnext : p.next env fl (.updateNpcHP spawnId curHP maxHP) = (p, []) := if_pos hself
        rw [keeps_silent (by rw [hnext]), hnext]
      · have hnext : p.next env fl (.updateNpcHP spawnId curHP maxHP) =
            ({ p with m_curHP := curHP, m_maxHP := maxHP },
              [fillPlayerStats { p with m_curHP := curHP, m_maxHP := maxHP }]) := if_neg hself
        have hlast : (p.next env fl (.updateNpcHP spawnId curHP maxHP)).2 =
            [] ++ [fillPlayerStats (p.next env fl (.updateNpcHP spawnId curHP maxHP)).1] := by
          rw [hnext]
          rfl
        exact keeps_of_last env fl hlast
  | playerUpdateSelf dir u =>
      obtain ⟨hbefore, hsame⟩ := playerUpdateSelf_shown (p := p) dir u
      exact iff_of_true ((keeps_before hbefore).mpr hsame.symm) trivial
  | zoneChanged => exact (keeps_silent rfl).trans (zoneChanged_shown_iff fl p)
  | applyCheckpoint cp =>
      exact iff_of_true (keeps_of_last env fl (List.append_cons _ _ [_])) trivial
  | zoneEntry s gender =>
      by_cases hself : p.toPlayer.isSelf env s = true
      · have hnext : p.next env fl (.zoneEntry s gender) =
            ({ (p.setPlayerID s.spawnId).1 with
                toSpawn := (p.setPlayerID s.spawnId).1.toSpawn.update env s
                m_gender := gender }, (p.setPlayerID s.spawnId).2) := if_pos hself
        have hbefore : ∀ m ∈ (p.next env fl (.zoneEntry s gender)).2, id m = fillPlayerStats p := by
          rw [hnext]
          exact setPlayerID_before _
        have hshown : fillPlayerStats (p.next env fl (.zoneEntry s gender)).1 =
            fillPlayerStats { p with toSpawn := p.toSpawn.update env s, m_gender := gender } := by
          rw [hnext]
          unfold setPlayerID
          split <;> rfl
        rw [keeps_before hbefore, hshown, update_shown_iff]
        exact (imp_iff_right hself).symm
      · have hnext : p.next env fl (.zoneEntry s gender) = (p, []) := if_neg hself
        have hkeeps : Keeps (next env fl) id fillPlayerStats p (.zoneEntry s gender) := by
          rw [keeps_silent (by rw [hnext]), hnext]
        exact iff_of_true hkeeps fun h => absurd h hself
  | killSpawn f spawnId =>
      by_cases hself : spawnId = p.m_ID
      · have hnext : p.next env fl (.killSpawn f spawnId) =
            ({ p with toPlayer := p.toPlayer.dead env f }, []) := if_pos hself
        rw [keeps_silent (by rw [hnext]), hnext, dead_shown_iff]
        exact (imp_iff_right hself).symm
      · have hnext : p.next env fl (.killSpawn f spawnId) = (p, []) := if_neg hself
        have hkeeps : Keeps (next env fl) id fillPlayerStats p (.killSpawn f spawnId) := by
          rw [keeps_silent (by rw [hnext]), hnext]
        exact iff_of_true hkeeps fun h => absurd h hself

end

/-- A session that has just subscribed. -/
def subscribed (p : StatsPlayer) : Published.Watched StatsPlayer PlayerStats where
  store := p
  shown := fillPlayerStats p

/-- The last stats that a session got are the current ones after every event exactly when each
    reset, update and death of the player finds shown what it leaves. -/
theorem stats_fresh_iff (env : Env) (fl : FloatEnv) (p : StatsPlayer) (es : List Event) :
    (∀ t ∈ Machine.trace (Published.step (next env fl)) p.subscribed es,
        Fresh id fillPlayerStats t) ↔
      Machine.StepsMeet (fun p e => (next env fl p e).1) (Kept env fl) p es := by
  have hkeeps : ∀ (p : StatsPlayer) (e : Event),
      Keeps (next env fl) id fillPlayerStats p e ↔ Kept env fl p e := keeps_iff_kept env fl
  have hstart : Fresh id fillPlayerStats p.subscribed := rfl
  exact Published.trace_fresh_iff hkeeps hstart es

/-- The hit points that are shown outlive the zone. -/
theorem stale_after_zone_change :
    ¬ ∀ (env : Env) (fl : FloatEnv) (p : StatsPlayer) (es : List Event),
      ∀ t ∈ Machine.trace (Published.step (next env fl)) p.subscribed es,
        Fresh id fillPlayerStats t := by
  intro h
  let fl : FloatEnv := { lrintf := fun _ => 0, calc_exp := fun _ _ _ => 0 }
  let p : StatsPlayer := { toCheckpointPlayer := .fresh fl {} }
  let es : List Event :=
    [.playerUpdateSelf .client { spawnId := 7 }, .updateNpcHP 7 40 100, .zoneChanged]
  let last := es.foldl (Published.step (next Env.ascii fl)) p.subscribed
  have hlast : last ∈ Machine.trace (Published.step (next Env.ascii fl)) p.subscribed es :=
    List.mem_of_getLast? rfl
  have hcur := congrArg PlayerStats.hp_cur (h Env.ascii fl p es last hlast)
  exact absurd hcur (by decide)

end StatsPlayer

end ShoweqDaemon.Spawns
