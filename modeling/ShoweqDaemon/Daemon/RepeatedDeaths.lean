/-
  `SpawnShell::killSpawn` on death packets that come more than once.

  The class, the hit points and the deltas of a corpse stay what the first packet made them. The
  name does not: it is built from the name that is stored, which the packet before has changed, so
  every packet appends the designator again (`deaths_victim`), and from the second on the filters
  see the changed name. A packet that arrives twice does what it does once just when it finds
  nobody (`killSpawn_duplicates_iff`).
-/
import ShoweqDaemon.Session.Handlers

namespace ShoweqDaemon.Spawns

/-! ## What a death changes -/

/-- The state of a spawn that a death packet concerns. -/
structure DeathState where
  name : QString
  NPC : UInt8
  curHP : Int32
  maxHP : Int32
  deltas : Int16 × Int16 × Int16
  filterFlags : UInt32
  runtimeFilterFlags : UInt32
  deriving DecidableEq, Repr

/-- What `killSpawn` writes of a spawn, so that two packets of one death can be compared by it. -/
def Spawn.deathState (sp : Spawn) : DeathState where
  name := sp.m_name
  NPC := sp.m_NPC
  curHP := sp.m_curHP
  maxHP := sp.m_maxHP
  deltas := (sp.m_deltaX, sp.m_deltaY, sp.m_deltaZ)
  filterFlags := sp.m_filterFlags
  runtimeFilterFlags := sp.m_runtimeFilterFlags

namespace SpawnShell

/-- The same spawns under the same ids and the same player, each in the same state. -/
structure SameDeaths (sh sh' : SpawnShell) : Prop where
  spawns : ∀ id, (sh.m_spawns.lookup id).map Spawn.deathState =
    (sh'.m_spawns.lookup id).map Spawn.deathState
  player : sh.m_player.toSpawn.deathState = sh'.m_player.toSpawn.deathState

/-- The spawn that `killSpawn` finds; the player is one, too. -/
def victim (sh : SpawnShell) (spawnId : UInt16) : Option Spawn :=
  if spawnId = sh.m_player.m_ID then some sh.m_player.toSpawn
  else sh.m_spawns.lookup (idKey spawnId)

/-- After `n` packets. -/
def deaths (env : Env) (sh : SpawnShell) (spawnId killerId : UInt16) : ℕ → SpawnShell
  | 0 => sh
  | n + 1 => ((sh.deaths env spawnId killerId n).killSpawn env spawnId killerId).1

end SpawnShell

/-- A corpse in the name of `n` packets. -/
structure Spawn.Corpse (n : ℕ) (alive sp : Spawn) : Prop where
  name : sp.m_name = alive.m_name ++ (List.replicate n Spawn_Corpse_Designator).flatten
  NPC : sp.m_NPC = alive.killSpawn.m_NPC
  hp : sp.m_curHP = 0 ∧ sp.m_maxHP = 0
  deltas : sp.m_deltaX = 0 ∧ sp.m_deltaY = 0 ∧ sp.m_deltaZ = 0

/-! ## One packet -/

section
variable (env : Env) {sh : SpawnShell} {spawnId : UInt16} (killerId : UInt16)

theorem killSpawn_nobody (h : sh.victim spawnId = none) :
    sh.killSpawn env spawnId killerId = (sh, []) := by
  unfold SpawnShell.victim at h
  split at h
  · nomatch h
  · rename_i hplayer
    unfold SpawnShell.killSpawn
    rw [if_neg hplayer, h]

theorem killSpawn_playerId (sh : SpawnShell) (spawnId : UInt16) :
    (sh.killSpawn env spawnId killerId).1.m_player.m_ID = sh.m_player.m_ID := by
  unfold SpawnShell.killSpawn
  dsimp only
  split
  · rfl
  · split <;> rfl

/-- Who was found is found again, dead and with a longer name. -/
theorem killSpawn_victim {v : Spawn} (h : sh.victim spawnId = some v) :
    ∃ v', (sh.killSpawn env spawnId killerId).1.victim spawnId = some v' ∧
      v'.m_name = v.m_name ++ Spawn_Corpse_Designator ∧ v'.m_NPC = v.killSpawn.m_NPC ∧
      (v'.m_curHP = 0 ∧ v'.m_maxHP = 0) ∧
      (v'.m_deltaX = 0 ∧ v'.m_deltaY = 0 ∧ v'.m_deltaZ = 0) := by
  have hid := killSpawn_playerId env killerId sh spawnId
  unfold SpawnShell.victim at h ⊢
  rw [hid]
  by_cases hplayer : spawnId = sh.m_player.m_ID
  · rw [if_pos hplayer] at h ⊢
    cases h
    refine ⟨_, rfl, ?_⟩
    unfold SpawnShell.killSpawn
    rw [if_pos hplayer]
    exact ⟨rfl, rfl, ⟨rfl, rfl⟩, rfl, rfl, rfl⟩
  · rw [if_neg hplayer] at h ⊢
    unfold SpawnShell.killSpawn
    rw [if_neg hplayer, h]
    exact ⟨_, AList.lookup_insert _, rfl, rfl, ⟨rfl, rfl⟩, rfl, rfl, rfl⟩

/-- A corpse stays of its kind. -/
theorem killSpawn_NPC_idem (sp : Spawn) : sp.killSpawn.killSpawn.m_NPC = sp.killSpawn.m_NPC :=
  killSpawn_corpse (killSpawn_isCorpse sp)

theorem killSpawn_NPC_congr {a b : Spawn} (h : a.m_NPC = b.m_NPC) :
    a.killSpawn.m_NPC = b.killSpawn.m_NPC := by
  unfold Spawn.killSpawn
  dsimp only
  rw [h]

/-! ## Any number of packets -/

theorem deaths_nobody (h : sh.victim spawnId = none) (n : ℕ) :
    sh.deaths env spawnId killerId n = sh := by
  induction n with
  | zero => rfl
  | succ n ih =>
      rw [SpawnShell.deaths, ih, killSpawn_nobody env killerId h]

/-- Every packet appends the designator; what else it sets is set already. -/
theorem deaths_victim {v : Spawn} (h : sh.victim spawnId = some v) (n : ℕ) :
    ∃ v', (sh.deaths env spawnId killerId (n + 1)).victim spawnId = some v' ∧
      v.Corpse (n + 1) v' := by
  induction n with
  | zero =>
      obtain ⟨v', hv', hname, hnpc, hhp, hdeltas⟩ := killSpawn_victim env killerId h
      exact ⟨v', hv', by simpa using hname, hnpc, hhp, hdeltas⟩
  | succ n ih =>
      obtain ⟨w, hw, hcorpse⟩ := ih
      obtain ⟨v', hv', hname, hnpc, hhp, hdeltas⟩ := killSpawn_victim env killerId hw
      refine ⟨v', hv', ?_, ?_, hhp, hdeltas⟩
      · rw [hname, hcorpse.name, List.append_assoc, List.replicate_succ' (n := n + 1)]
        simp
      · rw [hnpc, killSpawn_NPC_congr hcorpse.NPC, killSpawn_NPC_idem]

theorem deaths_playerId (n : ℕ) :
    (sh.deaths env spawnId killerId n).m_player.m_ID = sh.m_player.m_ID := by
  induction n with
  | zero => rfl
  | succ n ih => rw [SpawnShell.deaths, killSpawn_playerId, ih]

end

/-! ## Twice and once -/

theorem SpawnShell.SameDeaths.victim_name {sh sh' : SpawnShell} (h : sh.SameDeaths sh')
    (hid : sh.m_player.m_ID = sh'.m_player.m_ID) (spawnId : UInt16) :
    (sh.victim spawnId).map Spawn.m_name = (sh'.victim spawnId).map Spawn.m_name := by
  have hstates : (sh.victim spawnId).map Spawn.deathState =
      (sh'.victim spawnId).map Spawn.deathState := by
    unfold SpawnShell.victim
    rw [hid]
    split
    · exact congrArg some h.player
    · exact h.spawns _
  have hnames := congrArg (Option.map DeathState.name) hstates
  rw [Option.map_map, Option.map_map] at hnames
  exact hnames

theorem designators_length (n : ℕ) :
    (List.replicate n Spawn_Corpse_Designator).flatten.length = 9 * n := by
  have hlength : Spawn_Corpse_Designator.length = 9 := by decide
  induction n with
  | zero => rfl
  | succ n ih =>
      rw [List.replicate_succ, List.flatten_cons, List.length_append, ih, hlength]
      omega

section
variable (env : Env) (sh : SpawnShell) (spawnId killerId : UInt16)

/-- More than one packet leaves what one leaves only if there is nobody to kill. -/
theorem deaths_settled_iff (n : ℕ) :
    (sh.deaths env spawnId killerId (n + 2)).SameDeaths (sh.deaths env spawnId killerId 1) ↔
      sh.victim spawnId = none := by
  constructor
  · intro hsame
    cases hv : sh.victim spawnId with
    | none => rfl
    | some v =>
        obtain ⟨a, ha, hmany⟩ := deaths_victim env killerId hv (n + 1)
        obtain ⟨b, hb, hone⟩ := deaths_victim env killerId hv 0
        have hid : (sh.deaths env spawnId killerId (n + 2)).m_player.m_ID =
            (sh.deaths env spawnId killerId 1).m_player.m_ID := by
          rw [deaths_playerId, deaths_playerId]
        have hnames := hsame.victim_name hid spawnId
        rw [ha, hb, Option.map_some, Option.map_some, Option.some_inj, hmany.name,
          hone.name] at hnames
        have hlengths := congrArg List.length (List.append_cancel_left hnames)
        rw [designators_length, designators_length] at hlengths
        omega
  · intro hnone
    rw [deaths_nobody env killerId hnone, deaths_nobody env killerId hnone]
    exact ⟨fun _ => rfl, rfl⟩

/-- A second packet does nothing, and neither does any further one, just when the first one did
    nothing; otherwise the name has as many designators as there were packets. -/
theorem killSpawn_duplicates_iff :
    ((sh.deaths env spawnId killerId 2).SameDeaths (sh.deaths env spawnId killerId 1) ↔
        sh.victim spawnId = none) ∧
      ((∀ n, (sh.deaths env spawnId killerId (n + 1)).SameDeaths
          (sh.deaths env spawnId killerId 1)) ↔ sh.victim spawnId = none) ∧
      ∀ n v, sh.victim spawnId = some v →
        ∃ v', (sh.deaths env spawnId killerId (n + 1)).victim spawnId = some v' ∧
          v.Corpse (n + 1) v' := by
  refine ⟨deaths_settled_iff env sh spawnId killerId 0, ⟨fun h => ?_, fun h n => ?_⟩,
    fun n v hv => deaths_victim env killerId hv n⟩
  · exact (deaths_settled_iff env sh spawnId killerId 0).mp (h 1)
  · rw [deaths_nobody env killerId h, deaths_nobody env killerId h]
    exact ⟨fun _ => rfl, rfl⟩

end

/-- A player with id 1 and a monster with id 7. -/
def orcShell : SpawnShell :=
  ((SpawnShell.init { addr := 0, m_ID := 1 } .none (fun _ _ => []) false).newSpawn .ascii
    { spawnId := 7, name := [111, 114, 99], npc := SPAWN_NPC }).1

theorem killSpawn_duplicates_orc :
    ¬ (orcShell.deaths .ascii 7 1 2).SameDeaths (orcShell.deaths .ascii 7 1 1) := by
  intro h
  have hstate := h.spawns (idKey 7)
  revert hstate
  decide

end ShoweqDaemon.Spawns
