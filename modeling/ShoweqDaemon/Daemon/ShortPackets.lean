/-
  Payloads shorter than the struct they should carry: `zoneEntry` and `zonePlayer`.

  Both fill a cleared struct and go on with it, whatever `fillSpawnStruct` and `fillProfileStruct`
  return. A short spawn has id 0 and no name; `Blank` is the spawn that its update leaves alone.
  `shortPackets_iff` says when a short packet changes nothing.

  The bytes of a payload go through `PackedStruct.fill`, so the fields of a short one are all
  zero.

  Proved:
  * `zoneEntry_short`: a short `OP_ZoneEntry` is the entry of a spawn with id 0 and no name. It is
    added where there is none with that id, and updates it where there is one.
  * `zonePlayer_short`: a short profile makes the zone that of id 0; `zonePlayer_announces`: it is
    announced, like a profile of any length.
  * `shortPackets_iff`: a short `OP_ZoneEntry` changes nothing just when the state is prepared for
    it, a short profile never, from any state and for any payload.
  * `secondEntry_unchanged`, `emptyPayloads_change`: an empty payload can do nothing, and can
    change the spawns, the zone and the profile.
-/
import ShoweqDaemon.Daemon.Wiring
import ShoweqDaemon.Lib.PackedStruct
import ShoweqDaemon.Packet.Dispatch
import ShoweqDaemon.Player.Profile

namespace ShoweqDaemon.Spawns

/-! ## The structs -/

/-- The bytes of a `spawnStruct`. -/
abbrev SpawnBytes := PackedStruct 224

/-- `SpawnShell::fillSpawnStruct`: the struct is filled with the bytes that there are. -/
def fillSpawnStruct (data : List UInt8) : SpawnBytes × ℕ := PackedStruct.fill 224 data

/-- The same for the profile. -/
def fillProfileStruct (data : List UInt8) : ProfileBytes × ℕ := PackedStruct.fill 8460 data

/-- `Spawn::calcIsMount` -/
def calcIsMount (race : UInt16) (level : UInt8) : Bool :=
  level = 30 &&
    [216, 348, 492, 517, 518, 519, 583, 584, 594, 597, 598, 623, 625, 631, 652, 654, 655, 656, 657,
      671, 672, 673, 674, 675, 676, 677, 679, 680, 682, 684, 709, 720, 721].contains race

/-- What `Spawn::update` sets beside the members of `Spawn`; `τ` is the time of day. -/
structure SpawnRest (τ : Type) where
  m_petOwnerID : UInt16
  m_gender : UInt8
  m_isMount : Bool
  m_isMercenary : Bool
  m_isAura : Bool
  m_considered : Bool
  m_notUpdated : Bool
  m_lastUpdate : τ

namespace SpawnBytes

variable (s : SpawnBytes)

/-- The struct as the other functions read it. -/
def toStruct : SpawnStruct where
  spawnId := s.u16 76
  name := s.text 127
  lastName := s.text 191
  x := (s.u16 9).toInt16
  y := (s.u16 7).toInt16
  z := (s.u16 11).toInt16
  -- eleven, eleven and ten bits
  deltaY := (s.u32 13 &&& 0x7ff).toUInt16
  deltaZ := (s.u32 13 >>> 11 &&& 0x7ff).toUInt16
  deltaX := (s.u32 13 >>> 22).toUInt16
  heading := s.u8 5
  deltaHeading := (s.u8 6).toInt8
  animation := s.u8 20
  light := s.u8 94
  deity := (s.u16 124).toInt16
  race := s.u16 84
  class_ := s.u8 87
  curHp := (s.u16 80).toInt16
  guildID := (s.u16 82).toInt16
  level := s.u8 89
  equipment := (List.range 9).map fun i => s.u16 (104 + 2 * i)
  bodytype := (s.u16 78).toInt16
  gm := (s.u8 99).toInt8
  npc := s.u8 86

/-- The fields that `Spawn::update` sets besides those of `Spawn`, at the time `now`: some from the
    struct, the others cleared. -/
def rest {τ : Type} (now : τ) : SpawnRest τ where
  m_petOwnerID := s.u16 18
  m_gender := s.u8 88
  m_isMount := calcIsMount (s.u16 84) (s.u8 89)
  m_isMercenary := false
  m_isAura := false
  m_considered := false
  m_notUpdated := false
  m_lastUpdate := now

end SpawnBytes

/-! ## The handlers -/

/-- The shell, and the rest of each spawn and of the player. -/
structure EntryState (τ : Type) where
  shell : SpawnShell
  rest : Int → SpawnRest τ
  playerRest : SpawnRest τ

/-- The signals of `ZoneMgr::zonePlayer`. -/
inductive ZoneSignal where
  | zoneBegin (shortZoneName : QString)
  | playerProfile (player : ProfileBytes)

section
variable (env : Env) {τ : Type} (now : τ)

/-- `SpawnShell::zoneEntry` from its payload on. Only a spawn that says it is the player, and is
    not, is ignored. -/
def EntryState.zoneEntry (st : EntryState τ) (data : List UInt8) : EntryState τ × List Signal :=
  let spawn := (fillSpawnStruct data).1
  let s := spawn.toStruct
  let key := idKey s.spawnId
  let o := st.shell.zoneEntry env s
  if st.shell.isSelf env s then
    ({ st with shell := o.1, playerRest := spawn.rest now }, o.2)
  else if s.npc = SPAWN_SELF ∧ st.shell.m_spawns.lookup key = none then
    ({ st with shell := o.1 }, o.2)
  else
    ({ st with shell := o.1, rest := Function.update st.rest key (spawn.rest now) }, o.2)

/-- `ZoneMgr::zonePlayer` from its payload on: the struct is filled from what there is, and the
    profile is announced behind the zone that it begins, if it does. -/
def ZoneMgr.zonePlayerPayload (lrintf : UInt32 → Int) (z : ZoneMgr) (data : List UInt8) :
    ZoneMgr × List ZoneSignal :=
  let player := (fillProfileStruct data).1
  let profile := player.toStruct lrintf
  (.zonePlayer env profile,
    (if z.zoneChanged env profile then
      [.zoneBegin (ZoneMgr.zonePlayer env profile).m_shortZoneName]
    else []) ++ [.playerProfile player])

/-! ## What stays -/

/-- Every member of the shell is the same. A hash table is what it has under each key. -/
structure SpawnShell.Same (sh sh' : SpawnShell) : Prop where
  spawns : ∀ id, sh'.m_spawns.lookup id = sh.m_spawns.lookup id
  others : { sh' with m_spawns := sh.m_spawns } = sh

/-- A handler that changed nothing and emitted nothing. -/
structure EntryState.Unchanged (st : EntryState τ) (out : EntryState τ × List Signal) : Prop where
  shell : st.shell.Same out.1.shell
  rest : out.1.rest = st.rest
  playerRest : out.1.playerRest = st.playerRest
  signals : out.2 = []

/-- A spawn as a cleared struct makes it. -/
structure Spawn.Blank (sp : Spawn) : Prop where
  name : sp.m_name = env.fromUtf8 []
  lastName : sp.m_lastName = env.fromUtf8 []
  position : sp.m_x = 0 ∧ sp.m_y = 0 ∧ sp.m_z = 0
  deltas : sp.m_deltaX = 0 ∧ sp.m_deltaY = 0 ∧ sp.m_deltaZ = 0
  headings : sp.m_heading = 0 ∧ sp.m_deltaHeading = 0
  looks : sp.m_animation = 0 ∧ sp.m_light = 0 ∧ sp.m_equipment = List.replicate 9 0
  kind : sp.m_NPC = 0 ∧ sp.m_race = 0 ∧ sp.m_class = 0 ∧ sp.m_deity = 0 ∧ sp.m_typeflag = 0
  hp : sp.m_curHP = 0 ∧ sp.m_maxHP = 100
  guild : sp.m_guildID = 0 ∧ sp.m_guildServerID = 0
  level : sp.m_level = 0
  gm : sp.m_gm = 0

/-- The state that a short `OP_ZoneEntry` leaves alone: the player has a name, and spawn 0 is there,
    blank, last updated at this very time by another one. -/
structure EntryState.Prepared (st : EntryState τ) : Prop where
  named : (env.toLatin1 st.shell.m_player.m_realName).takeWhile (· ≠ 0) ≠ []
  blank : ∃ sp, st.shell.m_spawns.lookup 0 = some sp ∧ sp.Blank env
  rest : st.rest 0 = SpawnBytes.rest (PackedStruct.clear 224) now

theorem toStruct_clear : SpawnBytes.toStruct (PackedStruct.clear 224) = {} := by
  simp only [SpawnBytes.toStruct, PackedStruct.u8_clear, PackedStruct.u16_clear,
    PackedStruct.u32_clear, PackedStruct.text_clear]
  rfl

theorem update_clear_iff (sp : Spawn) : sp.update env {} = sp ↔ sp.Blank env := by
  constructor
  · intro h
    have field {α : Type} (f : Spawn → α) : f sp = f (sp.update env {}) := (congrArg f h).symm
    exact
      { name := field Spawn.m_name
        lastName := field Spawn.m_lastName
        position := ⟨field Spawn.m_x, field Spawn.m_y, field Spawn.m_z⟩
        deltas := ⟨field Spawn.m_deltaX, field Spawn.m_deltaY, field Spawn.m_deltaZ⟩
        headings := ⟨field Spawn.m_heading, field Spawn.m_deltaHeading⟩
        looks := ⟨field Spawn.m_animation, field Spawn.m_light, field Spawn.m_equipment⟩
        kind := ⟨field Spawn.m_NPC, field Spawn.m_race, field Spawn.m_class, field Spawn.m_deity,
          field Spawn.m_typeflag⟩
        hp := ⟨field Spawn.m_curHP, field Spawn.m_maxHP⟩
        guild := ⟨field Spawn.m_guildID, field Spawn.m_guildServerID⟩
        level := field Spawn.m_level
        gm := field Spawn.m_gm }
  · intro h
    obtain ⟨hname, hlast, ⟨hx, hy, hz⟩, ⟨hdx, hdy, hdz⟩, ⟨hh, hdh⟩, ⟨ha, hl, he⟩,
      ⟨hnpc, hr, hc, hd, ht⟩, ⟨hcur, hmax⟩, ⟨hg, hgs⟩, hlevel, hgm⟩ := h
    cases sp
    dsimp only at *
    subst_vars
    rfl

/-- One entry more or the same again: what a table has under each key decides. -/
theorem same_insert_iff (sh : SpawnShell) (key : Int) (sp : Spawn) :
    sh.Same { sh with m_spawns := sh.m_spawns.insert key sp } ↔
      sh.m_spawns.lookup key = some sp := by
  constructor
  · intro h
    have hkey := h.spawns key
    rw [Table.lookup_insert, if_pos rfl] at hkey
    exact hkey.symm
  · intro h
    refine ⟨fun id => ?_, rfl⟩
    show (sh.m_spawns.insert key sp).lookup id = sh.m_spawns.lookup id
    rw [Table.lookup_insert]
    split
    · rename_i hid
      rw [hid, h]
    · rfl

theorem isSelf_clear_iff (sh : SpawnShell) :
    sh.isSelf env {} = true ↔ (env.toLatin1 sh.m_player.m_realName).takeWhile (· ≠ 0) = [] := by
  unfold SpawnShell.isSelf
  rw [decide_eq_true_iff]
  exact eq_comm

/-- The player that has no name is told to be the spawn, and that it changed. -/
theorem zoneEntry_self {sh : SpawnShell} {s : SpawnStruct} (h : sh.isSelf env s = true) :
    (sh.zoneEntry env s).2 ≠ [] := by
  unfold SpawnShell.zoneEntry
  rw [if_pos h]
  exact List.append_ne_nil_of_right_ne_nil _ (List.cons_ne_nil _ _)

/-- The update of a spawn that is there emits nothing. -/
theorem zoneEntry_known {sh : SpawnShell} {s : SpawnStruct} {sp : Spawn}
    (h : ¬ sh.isSelf env s = true) (hsp : sh.m_spawns.lookup (idKey s.spawnId) = some sp) :
    sh.zoneEntry env s =
      ({ sh with m_spawns := sh.m_spawns.insert (idKey s.spawnId) (sp.update env s) }, []) := by
  unfold SpawnShell.zoneEntry
  rw [if_neg h, hsp]

/-- A spawn that is not there is added. -/
theorem zoneEntry_unknown {sh : SpawnShell} {s : SpawnStruct} (h : ¬ sh.isSelf env s = true)
    (hnpc : s.npc ≠ SPAWN_SELF) (hnone : sh.m_spawns.lookup (idKey s.spawnId) = none) :
    (sh.zoneEntry env s).2 ≠ [] := by
  unfold SpawnShell.zoneEntry SpawnShell.newSpawn
  rw [if_neg h, hnone]
  simp only [if_neg hnpc, hnone]
  exact List.cons_ne_nil _ _

/-- A short `OP_ZoneEntry` is the entry of a spawn with id 0 and no name. -/
theorem zoneEntry_short (st : EntryState τ) {data : List UInt8} (h : data.length < 224) :
    st.Unchanged (st.zoneEntry env now data) ↔ st.Prepared env now := by
  have hfill : fillSpawnStruct data = (PackedStruct.clear 224, 0) := PackedStruct.fill_short h
  unfold EntryState.zoneEntry
  rw [hfill]
  simp only [toStruct_clear]
  by_cases hself : st.shell.isSelf env {} = true
  · rw [if_pos hself]
    constructor
    · intro hun
      exact absurd hun.signals (zoneEntry_self env hself)
    · intro hprep
      exact absurd ((isSelf_clear_iff env st.shell).mp hself) hprep.named
  · have hnpc : ({} : SpawnStruct).npc ≠ SPAWN_SELF := by decide
    have hnamed := fun h => hself ((isSelf_clear_iff env st.shell).mpr h)
    rw [if_neg hself, if_neg fun h => hnpc h.1]
    cases hsp : st.shell.m_spawns.lookup (idKey ({} : SpawnStruct).spawnId) with
    | none =>
        constructor
        · intro hun
          exact absurd hun.signals (zoneEntry_unknown env hself hnpc hsp)
        · intro hprep
          obtain ⟨sp, hblank, -⟩ := hprep.blank
          exact absurd (hsp.symm.trans hblank) (by simp)
    | some sp =>
        rw [zoneEntry_known env hself hsp]
        constructor
        · intro hun
          have hup := (same_insert_iff st.shell _ _).mp hun.shell
          have hrest := congrFun hun.rest 0
          refine ⟨hnamed, ⟨sp, hsp, (update_clear_iff env sp).mp ?_⟩, ?_⟩
          · exact Option.some.inj (hup.symm.trans hsp)
          · exact hrest.symm
        · intro hprep
          obtain ⟨sp', hlookup, hblank⟩ := hprep.blank
          have heq : sp' = sp := Option.some.inj (hlookup.symm.trans hsp)
          have hup := (update_clear_iff env sp').mpr hblank
          refine ⟨(same_insert_iff st.shell _ _).mpr ?_, ?_, rfl, rfl⟩
          · rw [← heq, hup]
            exact hlookup
          · exact Function.update_eq_self_iff.mpr hprep.rest.symm

/-- A profile is announced at any length. -/
theorem zonePlayer_announces (lrintf : UInt32 → Int) (z : ZoneMgr) (data : List UInt8) :
    (z.zonePlayerPayload env lrintf data).2 ≠ [] :=
  List.append_ne_nil_of_right_ne_nil _ (List.cons_ne_nil _ _)

/-- A short profile makes the zone that of id 0, at once. -/
theorem zonePlayer_short (lrintf : UInt32 → Int) (z : ZoneMgr) {data : List UInt8}
    (h : data.length < 8460) :
    (z.zonePlayerPayload env lrintf data).1 =
      { m_shortZoneName := env.zoneNameFromID 0
        m_longZoneName := env.zoneLongNameFromID 0
        m_zoning := false } := by
  have hfill : fillProfileStruct data = (PackedStruct.clear 8460, 0) := PackedStruct.fill_short h
  have hzone : ProfileBytes.zoneId (PackedStruct.clear 8460) = 0 := rfl
  unfold ZoneMgr.zonePlayerPayload ZoneMgr.zonePlayer ProfileBytes.toStruct
  rw [hfill]
  simp only [hzone]
  rfl

/-- The daemon at its start, for a player with a name. The clock stands still. -/
def startState : EntryState Unit where
  shell := .init { addr := 0, m_ID := 0, m_realName := "Soandso".toList } .none
    (fun _ _ => []) false
  rest := fun _ => SpawnBytes.rest (PackedStruct.clear 224) ()
  playerRest := SpawnBytes.rest (PackedStruct.clear 224) ()

/-- A short `OP_ZoneEntry` changes nothing just when all that it would write is there already, in a
    spawn with id 0 below a player with a name; a short `OP_PlayerProfile` never does nothing. -/
theorem shortPackets_iff (lrintf : UInt32 → Int) (st : EntryState τ) (z : ZoneMgr)
    (data : List UInt8) :
    (data.length < 224 → (st.Unchanged (st.zoneEntry env now data) ↔ st.Prepared env now)) ∧
      (data.length < 8460 → z.zonePlayerPayload env lrintf data ≠ (z, [])) := by
  refine ⟨zoneEntry_short env now st, fun _ heq => ?_⟩
  exact zonePlayer_announces env lrintf z data (congrArg Prod.snd heq)

/-- The first empty `OP_ZoneEntry` puts a blank spawn there, the second one finds it. -/
theorem secondEntry_unchanged :
    let st := (startState.zoneEntry Env.ascii () []).1
    st.Unchanged (st.zoneEntry Env.ascii () []) := by
  intro st
  refine ((shortPackets_iff Env.ascii () (fun _ => 0) st .init []).1 (by decide)).mpr ?_
  exact ⟨by decide, ⟨_, rfl, (update_clear_iff Env.ascii _).mp rfl⟩, rfl⟩

/-- Of two empty payloads one adds a spawn, the other one a zone and a profile. -/
theorem emptyPayloads_change :
    ¬ startState.Unchanged (startState.zoneEntry Env.ascii () []) ∧
      ZoneMgr.init.zonePlayerPayload Env.ascii (fun _ => 0) [] ≠ (ZoneMgr.init, []) := by
  constructor
  · intro h
    exact absurd h.signals (List.cons_ne_nil _ _)
  · intro h
    exact absurd (congrArg Prod.snd h) (List.append_ne_nil_of_right_ne_nil _ (List.cons_ne_nil _ _))

end

end ShoweqDaemon.Spawns
