/-
  When the filter flags of the items are those that the filters give.

  The filter string of an item names nearly everything about it. `newSpawn` and `killSpawn` look the
  flags up before their last change of the item; `zoneEntry` for a spawn that is there,
  `illusionSpawn`, `updateSpawnAppearance`, `updateGuildTag` and the moves do not look them up at
  all. `Keeps` collects what must hold for the flags to be right all the same, `Spares` what must
  hold of the items that a handler leaves alone.
-/
import ShoweqDaemon.Session.Freshness

namespace ShoweqDaemon.Spawns

section
variable (env : Env)

/-- What the filters say about an item now. -/
def Item.mask (f : FilterMgr) (x : Item) : UInt32 := f.filterMask (x.filterString env) x.filterLevel

/-- The flags of the spawn are what the filters say of it now. -/
def Spawn.Filtered (f : FilterMgr) (s : Spawn) : Prop := s.m_filterFlags = (Item.spawn s).mask env f

/-- The same for an item on the ground or a door. -/
def Fixture.Filtered (mk : Fixture → Item) (f : FilterMgr) (d : Fixture) : Prop :=
  d.m_filterFlags = (mk d).mask env f

namespace SpawnShell

/-- All flags are right, those of the spawns under `keys` apart. -/
structure FilteredBut (sh : SpawnShell) (keys : Int → Prop) : Prop where
  spawns : sh.m_spawns.AllBut keys (Spawn.Filtered env sh.m_filterMgr)
  drops : sh.m_drops.All (Fixture.Filtered env .drop sh.m_filterMgr)
  doors : sh.m_doors.All (Fixture.Filtered env .door sh.m_filterMgr)

/-- The flags of all items are what the filters say. -/
abbrev Filtered (sh : SpawnShell) : Prop := sh.FilteredBut env fun _ => False

variable {env} {sh sh' : SpawnShell} {k : Int}

theorem Filtered.but (h : sh.Filtered env) (keys : Int → Prop) : sh.FilteredBut env keys :=
  ⟨h.spawns.weaken, h.drops, h.doors⟩

/-- Only the three maps and the filters matter. -/
theorem filtered_congr {keys : Int → Prop} (hspawns : sh'.m_spawns = sh.m_spawns)
    (hdrops : sh'.m_drops = sh.m_drops) (hdoors : sh'.m_doors = sh.m_doors)
    (hfilters : sh'.m_filterMgr.filterMask = sh.m_filterMgr.filterMask) :
    sh'.FilteredBut env keys ↔ sh.FilteredBut env keys := by
  have hmask : ∀ x : Item, x.mask env sh'.m_filterMgr = x.mask env sh.m_filterMgr := by
    intro x
    unfold Item.mask
    rw [hfilters]
  have hspawn : Spawn.Filtered env sh'.m_filterMgr = Spawn.Filtered env sh.m_filterMgr := by
    funext s
    unfold Spawn.Filtered
    rw [hmask]
  have hfixture : ∀ mk, Fixture.Filtered env mk sh'.m_filterMgr =
      Fixture.Filtered env mk sh.m_filterMgr := by
    intro mk
    funext d
    unfold Fixture.Filtered
    rw [hmask]
  constructor
  · rintro ⟨hs, hd, ho⟩
    rw [hspawns, hspawn] at hs
    rw [hdrops, hfixture] at hd
    rw [hdoors, hfixture] at ho
    exact ⟨hs, hd, ho⟩
  · rintro ⟨hs, hd, ho⟩
    rw [← hspawns, ← hspawn] at hs
    rw [← hdrops, ← hfixture] at hd
    rw [← hdoors, ← hfixture] at ho
    exact ⟨hs, hd, ho⟩

/-! ## One spawn -/

theorem filtered_insert {s : Spawn} {next : Addr} :
    ({ sh with m_spawns := sh.m_spawns.insert k s, next } : SpawnShell).Filtered env ↔
      sh.FilteredBut env (· = k) ∧ s.Filtered env sh.m_filterMgr := by
  constructor
  · rintro ⟨hs, hd, ho⟩
    obtain ⟨hnew, hrest⟩ := Table.all_insert.mp hs
    exact ⟨⟨hrest, hd, ho⟩, hnew⟩
  · rintro ⟨⟨hs, hd, ho⟩, hnew⟩
    exact ⟨Table.all_insert.mpr ⟨hnew, hs⟩, hd, ho⟩

theorem filtered_absent (h : sh.m_spawns.lookup k = none) :
    sh.FilteredBut env (· = k) ↔ sh.Filtered env := by
  refine ⟨fun hfiltered => ?_, fun hfiltered => hfiltered.but _⟩
  exact ⟨(Table.allBut_absent h).mp hfiltered.spawns, hfiltered.drops, hfiltered.doors⟩

theorem filtered_erase :
    (sh.remove .tSpawn k).Filtered env ↔ sh.FilteredBut env (· = k) := by
  constructor
  · rintro ⟨hs, hd, ho⟩
    exact ⟨Table.all_erase.mp hs, hd, ho⟩
  · rintro ⟨hs, hd, ho⟩
    exact ⟨Table.all_erase.mpr hs, hd, ho⟩

/-- A handler that changes one spawn and looks no flags up. -/
theorem changeSpawn_filtered (f : Spawn → Spawn) (changeType : UInt32) :
    (sh.changeSpawn k f changeType).1.Filtered env ↔ sh.FilteredBut env (· = k) ∧
      ∀ item ∈ sh.m_spawns.lookup k, (f item).Filtered env sh.m_filterMgr := by
  unfold changeSpawn
  cases hitem : sh.m_spawns.lookup k with
  | some item =>
      rw [filtered_insert]
      refine and_congr_right fun _ => ⟨fun h item' hitem' => ?_, fun h => h item rfl⟩
      rw [← Option.some.inj hitem']
      exact h
  | none =>
      rw [filtered_absent hitem]
      exact (and_iff_left fun item hitem' => nomatch hitem').symm

/-! ## The handlers that the filters are about -/

/-- The spawn as `newSpawn` finds or makes it, updated. -/
def arrival (env : Env) (sh : SpawnShell) (s : SpawnStruct) : Spawn :=
  ((sh.m_spawns.lookup (idKey s.spawnId)).getD { addr := sh.next, m_ID := s.spawnId }).update env s

/-- The flags are looked up under the old guild tag: under the new one they are the same. -/
def KeepsNew (env : Env) (sh : SpawnShell) (s : SpawnStruct) : Prop :=
  s.npc ≠ SPAWN_SELF → (Item.spawn (sh.arrival env s)).mask env sh.m_filterMgr =
    (Item.spawn (sh.tagged (sh.arrival env s))).mask env sh.m_filterMgr

theorem newSpawn_filtered (s : SpawnStruct) : (sh.newSpawn env s).1.Filtered env ↔
    sh.FilteredBut env (fun k => s.npc ≠ SPAWN_SELF ∧ k = idKey s.spawnId) ∧ sh.KeepsNew env s := by
  unfold newSpawn KeepsNew
  by_cases hself : s.npc = SPAWN_SELF
  · rw [if_pos hself]
    simp [hself]
  · rw [if_neg hself, forall_prop_of_true hself]
    simp only [ne_eq, hself, not_false_eq_true, true_and]
    let sh₁ : SpawnShell := { sh with m_dead := sh.m_dead.forget s.spawnId }
    have hlabelled : (sh₁.labelled env (sh.arrival env s)).Filtered env sh.m_filterMgr ↔
        (Item.spawn (sh.arrival env s)).mask env sh.m_filterMgr =
          (Item.spawn (sh.tagged (sh.arrival env s))).mask env sh.m_filterMgr := Iff.rfl
    rw [← hlabelled]
    have hsame : sh₁.FilteredBut env (· = idKey s.spawnId) ↔
        sh.FilteredBut env (· = idKey s.spawnId) := filtered_congr rfl rfl rfl rfl
    rw [← hsame]
    have hinsert : ∀ (x : Spawn) (next : Addr),
        ({ sh₁ with m_spawns := sh₁.m_spawns.insert (idKey s.spawnId) x, next } :
          SpawnShell).Filtered env ↔ sh₁.FilteredBut env (· = idKey s.spawnId) ∧
            x.Filtered env sh₁.m_filterMgr := fun _ _ => filtered_insert
    unfold arrival
    cases hitem : sh.m_spawns.lookup (idKey s.spawnId) with
    | some item => exact hinsert _ _
    | none => exact hinsert _ _

theorem filteredBut_of_pos {c : Prop} (hc : c) :
    sh.FilteredBut env (fun k' => c ∧ k' = k) ↔ sh.FilteredBut env (· = k) := by
  simp only [hc, true_and]

theorem filteredBut_of_neg {c : Prop} (hc : ¬ c) :
    sh.FilteredBut env (fun k' => c ∧ k' = k) ↔ sh.Filtered env := by
  simp only [hc, false_and]

theorem deleteItem_spawn_filtered :
    (sh.deleteItem .tSpawn k).1.Filtered env ↔ sh.FilteredBut env (· = k) := by
  rcases deleteItem_cases sh .tSpawn k with ⟨hnone, heq⟩ | ⟨item, -, heq⟩
  · rw [heq]
    exact (filtered_absent (Option.map_eq_none_iff.mp hnone)).symm
  · rw [heq]
    exact filtered_erase

/-- The keys of the player are in a map of their own. -/
theorem deleteItem_player_filtered {keys : Int → Prop} :
    (sh.deleteItem .tPlayer k).1.FilteredBut env keys ↔ sh.FilteredBut env keys := by
  rcases deleteItem_cases sh .tPlayer k with ⟨-, heq⟩ | ⟨item, -, heq⟩
  · rw [heq]
  · rw [heq]
    exact filtered_congr rfl rfl rfl rfl

theorem playerChangedID_filtered {old new : UInt16} (hne : old ≠ new) :
    (sh.playerChangedID old new).1.Filtered env ↔ sh.FilteredBut env (· = idKey new) := by
  let sh₁ := (sh.deleteItem .tPlayer 0).1
  let sh₂ := (sh₁.deleteItem .tPlayer (idKey old)).1
  let sh₃ := (sh₂.deleteItem .tSpawn (idKey new)).1
  have heq : (sh.playerChangedID old new).1 =
      { sh₃ with m_players := sh₃.m_players.insert (idKey new) () } := by
    unfold playerChangedID
    dsimp only
    rw [if_neg hne]
    rfl
  calc (sh.playerChangedID old new).1.Filtered env ↔ sh₃.Filtered env := by
        rw [heq]
        exact filtered_congr rfl rfl rfl rfl
    _ ↔ sh₂.FilteredBut env (· = idKey new) := deleteItem_spawn_filtered
    _ ↔ sh₁.FilteredBut env (· = idKey new) := deleteItem_player_filtered
    _ ↔ sh.FilteredBut env (· = idKey new) := deleteItem_player_filtered

/-- A new id throws out the spawn that has it. -/
theorem setPlayerID_filtered (id : UInt16) : (sh.setPlayerID id).1.Filtered env ↔
    sh.FilteredBut env fun k => id ≠ sh.m_player.m_ID ∧ k = idKey id := by
  unfold setPlayerID
  by_cases hid : sh.m_player.m_ID = id
  · rw [if_pos hid, filteredBut_of_neg (not_not.mpr hid.symm)]
  · rw [if_neg hid, filteredBut_of_pos (Ne.symm hid)]
    exact (playerChangedID_filtered hid).trans (filtered_congr rfl rfl rfl rfl)

/-- The update of a spawn that is there looks no flags up. -/
theorem zoneEntry_filtered (s : SpawnStruct) : (sh.zoneEntry env s).1.Filtered env ↔
    sh.FilteredBut env (fun k => (sh.isSelf env s = true → s.spawnId ≠ sh.m_player.m_ID) ∧
      k = idKey s.spawnId) ∧ (sh.isSelf env s = false →
        match sh.m_spawns.lookup (idKey s.spawnId) with
        | some item => (item.update env s).Filtered env sh.m_filterMgr
        | none => sh.KeepsNew env s) := by
  unfold zoneEntry
  cases hself : sh.isSelf env s with
  | true =>
      rw [if_pos rfl]
      refine Iff.trans (b := (sh.setPlayerID s.spawnId).1.Filtered env)
        (filtered_congr rfl rfl rfl rfl) ?_
      rw [setPlayerID_filtered]
      simp
  | false =>
      rw [if_neg Bool.false_ne_true, forall_prop_of_true rfl,
        filteredBut_of_pos fun h => absurd h Bool.false_ne_true]
      cases hitem : sh.m_spawns.lookup (idKey s.spawnId) with
      | some item => exact filtered_insert
      | none =>
          dsimp only
          rw [newSpawn_filtered, filtered_absent hitem]
          refine and_congr_left fun _ => ?_
          by_cases hnpc : s.npc = SPAWN_SELF
          · exact filteredBut_of_neg (not_not.mpr hnpc)
          · exact (filteredBut_of_pos hnpc).trans (filtered_absent hitem)

/-- A spawn that is killed, with the name of a corpse. -/
def corpse (s : Spawn) : Spawn := { s.killSpawn with m_name := s.m_name ++ Spawn_Corpse_Designator }

/-- The flags are looked up under the name it lived by: under the corpse's they are the same. -/
theorem killSpawn_filtered (spawnId killerId : UInt16) :
    (sh.killSpawn env spawnId killerId).1.Filtered env ↔
      sh.FilteredBut env (fun k => spawnId ≠ sh.m_player.m_ID ∧ k = idKey spawnId) ∧
        (spawnId ≠ sh.m_player.m_ID → ∀ item ∈ sh.m_spawns.lookup (idKey spawnId),
          (Item.spawn item.killSpawn).mask env sh.m_filterMgr =
            (Item.spawn (corpse item)).mask env sh.m_filterMgr) := by
  unfold killSpawn
  by_cases hplayer : spawnId = sh.m_player.m_ID
  · rw [if_pos hplayer, filteredBut_of_neg (not_not.mpr hplayer),
      and_iff_left fun h => absurd hplayer h]
    exact filtered_congr rfl rfl rfl rfl
  · rw [if_neg hplayer, filteredBut_of_pos hplayer, forall_prop_of_true hplayer]
    cases hitem : sh.m_spawns.lookup (idKey spawnId) with
    | some item =>
        dsimp only
        rw [filtered_insert]
        refine and_congr_right fun _ => ⟨fun h item' hitem' => ?_, fun h => h item rfl⟩
        rw [← Option.some.inj hitem']
        exact h
    | none =>
        rw [filtered_absent hitem]
        exact (and_iff_left fun item hitem' => nomatch hitem').symm

/-- Nothing is stored, and the flags are looked up. -/
theorem spawnWearingUpdate_filtered (spawnId : UInt16) :
    (sh.spawnWearingUpdate env spawnId).1.Filtered env ↔
      sh.FilteredBut env (· = idKey spawnId) := by
  unfold spawnWearingUpdate
  cases hitem : sh.m_spawns.lookup (idKey spawnId) with
  | some item =>
      dsimp only
      rw [filtered_insert]
      exact and_iff_left rfl
  | none => exact (filtered_absent hitem).symm

theorem updateGuildTag_filtered (order : Table.Order) (guildId : UInt32) :
    (sh.updateGuildTag order guildId).1.Filtered env ↔
      sh.FilteredBut env (fun k => ∃ s, sh.m_spawns.lookup k = some s ∧ s.isMember guildId = true) ∧
        ∀ k s, sh.m_spawns.lookup k = some s → s.isMember guildId = true →
          (sh.tagged s).Filtered env sh.m_filterMgr := by
  constructor
  · rintro ⟨hs, hd, ho⟩
    have hall : sh.m_spawns.All fun s =>
        (if s.isMember guildId = true then sh.tagged s else s).Filtered env sh.m_filterMgr :=
      Table.all_mapValues.mp hs
    refine ⟨⟨fun k s hlookup hother => ?_, hd, ho⟩, fun k s hlookup hmember => ?_⟩
    · have hleft := hall.of_lookup hlookup
      have hother' : ¬ s.isMember guildId = true := fun hmember => hother ⟨s, hlookup, hmember⟩
      rwa [if_neg hother'] at hleft
    · have htagged := hall.of_lookup hlookup
      rwa [if_pos hmember] at htagged
  · rintro ⟨⟨hs, hd, ho⟩, htagged⟩
    refine ⟨Table.all_mapValues.mpr fun k s hlookup _ => ?_, hd, ho⟩
    show (if s.isMember guildId = true then sh.tagged s else s).Filtered env sh.m_filterMgr
    by_cases hmember : s.isMember guildId = true
    · rw [if_pos hmember]
      exact htagged k s hlookup hmember
    · rw [if_neg hmember]
      refine hs k s hlookup ?_
      rintro ⟨s', hlookup', hmember'⟩
      rw [hlookup] at hlookup'
      exact hmember (Option.some.inj hlookup' ▸ hmember')

/-- Everything is looked up. -/
theorem refilterSpawns_filtered (order : Table.Order) :
    (sh.refilterSpawns env order).1.Filtered env := by
  refine ⟨Table.all_mapValues.mpr ?_, Table.all_mapValues.mpr ?_, Table.all_mapValues.mpr ?_⟩
  all_goals exact fun _ _ _ _ => rfl

/-! ## The other handlers -/

/-- A move looks no flags up. -/
def KeepsMove (env : Env) (sh : SpawnShell) (u : SpawnPositionUpdate) : Prop :=
  u.spawnId ≠ sh.m_player.m_ID → ∀ item ∈ sh.m_spawns.lookup (idKey u.spawnId),
    (item.move u).Filtered env sh.m_filterMgr

theorem updateSpawn_filtered (h : sh.Filtered env) {u : SpawnPositionUpdate}
    (hkeeps : sh.KeepsMove env u) : (sh.updateSpawn env u).1.Filtered env := by
  unfold updateSpawn
  by_cases hplayer : u.spawnId = sh.m_player.m_ID
  · rw [if_pos hplayer]
    exact ⟨h.spawns, h.drops, h.doors⟩
  · rw [if_neg hplayer]
    cases hitem : sh.m_spawns.lookup (idKey u.spawnId) with
    | some item => exact filtered_insert.mpr ⟨h.but _, hkeeps hplayer item hitem⟩
    | none =>
        dsimp only
        by_cases hcreate : sh.createUnknownSpawns = true
        · rw [if_pos hcreate]
          cases hdead : sh.m_dead.find u.spawnId with
          | some i => exact ⟨h.spawns, h.drops, h.doors⟩
          | none => exact filtered_insert.mpr ⟨h.but _, rfl⟩
        · rw [if_neg hcreate]
          exact h

theorem newGroundItem_filtered (h : sh.Filtered env) (ds : MakeDropStruct) :
    (sh.newGroundItem env ds).1.Filtered env := by
  unfold newGroundItem
  cases sh.m_drops.lookup (intKey ds.dropId) with
  | some item => exact ⟨h.spawns, Table.all_insert.mpr ⟨rfl, h.drops.weaken⟩, h.doors⟩
  | none => exact ⟨h.spawns, Table.all_insert.mpr ⟨rfl, h.drops.weaken⟩, h.doors⟩

theorem newDoorSpawn_filtered (h : sh.Filtered env) (d : DoorStruct) :
    (sh.newDoorSpawn env d).1.Filtered env := by
  unfold newDoorSpawn
  cases sh.m_doors.lookup (idKey d.doorId.toUInt16) with
  | some item => exact ⟨h.spawns, h.drops, Table.all_insert.mpr ⟨rfl, h.doors.weaken⟩⟩
  | none => exact ⟨h.spawns, h.drops, Table.all_insert.mpr ⟨rfl, h.doors.weaken⟩⟩

theorem removeGroundItem_filtered (h : sh.Filtered env) (dropId : UInt32) :
    (sh.removeGroundItem dropId).1.Filtered env := by
  unfold removeGroundItem
  rcases deleteItem_cases sh .tDrop (intKey dropId) with ⟨-, heq⟩ | ⟨item, -, heq⟩
  · rw [heq]
    exact h
  · rw [heq]
    exact ⟨h.spawns, Table.all_erase.mpr h.drops.weaken, h.doors⟩

/-- Hit points are no part of the filter string. -/
theorem updateNpcHP_filtered (h : sh.Filtered env) (spawnId : UInt32) (curHP maxHP : Int32) :
    (sh.updateNpcHP spawnId curHP maxHP).1.Filtered env :=
  (changeSpawn_filtered _ _).mpr ⟨h.but _, fun item hitem => h.spawns _ item hitem not_false⟩

/-- The runtime filters have masks of their own. -/
theorem refilterSpawnsRuntime_filtered (h : sh.Filtered env) (order : Table.Order) :
    (sh.refilterSpawnsRuntime env order).1.Filtered env :=
  ⟨Table.all_mapValues.mpr h.spawns, Table.all_mapValues.mpr h.drops,
    Table.all_mapValues.mpr h.doors⟩

/-- A new zone: the maps are empty, and the new filters are asked. -/
theorem zoneBegin_filtered (sh : SpawnShell) (order : Table.Order) (zone : ZoneMgr)
    (loaded : FilterMgr) : (sh.zoneBegin env order zone loaded).1.Filtered env := by
  let sh' : SpawnShell := { sh.clear.1 with m_filterMgr := loaded }
  exact sh'.refilterSpawns_filtered order

theorem playerUpdateNpcHP_filtered (h : sh.Filtered env) (spawnId : UInt32) (curHP maxHP : Int32) :
    (sh.playerUpdateNpcHP spawnId curHP maxHP).1.Filtered env := by
  unfold playerUpdateNpcHP
  split
  · exact h
  · exact ⟨h.spawns, h.drops, h.doors⟩

/-- `OP_ClientUpdate` moves one spawn at most. -/
theorem clientUpdate_filtered (hok : sh.holdings.Ok) (h : sh.Filtered env) {z : Bool} {dir : Dir}
    {u : SpawnPositionUpdate} (hkeeps : z = false → ¬ (dir = .client ∧ sh.m_player.m_ID = 0) →
      sh.KeepsMove env u) :
    ((sh.playerUpdateSelf env z dir u).andThen fun sh =>
      if z = true ∨ dir = .client then (sh, []) else sh.updateSpawn env u).1.Filtered env := by
  by_cases hset : dir = .client ∧ sh.m_player.m_ID = 0
  · obtain ⟨rfl, hid⟩ := hset
    rw [clientUpdate_client, playerUpdateSelf_first env hok z u hid]
    have hnew : (sh.setPlayerID u.spawnId).1.Filtered env :=
      (setPlayerID_filtered u.spawnId).mpr (h.but _)
    exact ⟨hnew.spawns, hnew.drops, hnew.doors⟩
  · by_cases hself : u.spawnId = sh.m_player.m_ID
    · rw [playerUpdateSelf_self env hset hself]
      let sh' : SpawnShell := { sh with m_player := sh.m_player.moveSelf u }
      have hmoved : sh'.Filtered env := ⟨h.spawns, h.drops, h.doors⟩
      show (if z = true ∨ dir = .client then (sh', []) else sh'.updateSpawn env u).1.Filtered env
      split
      · exact hmoved
      · exact updateSpawn_filtered hmoved fun hother => absurd hself hother
    · rw [clientUpdate_other env hset hself]
      cases z with
      | true => exact h
      | false => exact updateSpawn_filtered h (hkeeps rfl hset)

end SpawnShell

/-! ## Every call -/

/-- The handlers of spawns that are no mere moves or changes of hit points, and the refiltering. -/
def Call.refreshes : Call → Bool
  | .spawnWearingUpdate _ _ => true
  | .event e =>
      match e.packet with
      | .newSpawn _ | .zoneSpawn _ | .zoneEntry _ | .updateSpawnAppearance _ _ _
      | .illusionSpawn _ _ | .killSpawn _ _ | .guildTagUpdated _ _ | .filtersChanged _ => true
      | _ => false

namespace Daemon

/-- The keys of the spawns that such a call changes, looks up again or throws out. -/
def handled (d : Daemon) : Call → Int → Prop
  | .spawnWearingUpdate _ spawnId => (· = idKey spawnId)
  | .event e =>
      match e.packet with
      | .newSpawn s =>
          fun k => (d.zone.m_zoning = false ∧ s.npc ≠ SPAWN_SELF) ∧ k = idKey s.spawnId
      | .zoneSpawn s => fun k => s.npc ≠ SPAWN_SELF ∧ k = idKey s.spawnId
      | .zoneEntry s => fun k =>
          (d.shell.isSelf env s = true → s.spawnId ≠ d.shell.m_player.m_ID) ∧ k = idKey s.spawnId
      | .updateSpawnAppearance spawnId type _ => fun k => type = 1 ∧ k = idKey spawnId
      | .illusionSpawn spawnId _ => (· = intKey spawnId)
      | .killSpawn spawnId _ => fun k => spawnId ≠ d.shell.m_player.m_ID ∧ k = idKey spawnId
      | .guildTagUpdated _ guildId => fun k =>
          ∃ s, d.shell.m_spawns.lookup k = some s ∧ s.isMember guildId = true
      | _ => fun _ => False

/-- What the call leaves alone has the flags that the filters give. -/
def Spares (d : Daemon) (c : Call) : Prop :=
  match c with
  | .event ⟨_, .filtersChanged _⟩ => True
  | c => d.shell.FilteredBut env (d.handled env c)

/-- What the call changes after it looked the flags up, or without looking them up, is the same for
    the filters. -/
def Keeps (d : Daemon) : Call → Prop
  | .spawnWearingUpdate _ _ => True
  | .event e =>
      let f := d.shell.m_filterMgr
      match e.packet with
      | .newSpawn s => d.zone.m_zoning = false → d.shell.KeepsNew env s
      | .zoneSpawn s => d.shell.KeepsNew env s
      | .zoneEntry s => d.shell.isSelf env s = false →
          match d.shell.m_spawns.lookup (idKey s.spawnId) with
          | some item => (item.update env s).Filtered env f
          | none => d.shell.KeepsNew env s
      | .updateSpawnAppearance spawnId type parameter => type = 1 →
          ∀ item ∈ d.shell.m_spawns.lookup (idKey spawnId),
            Spawn.Filtered env f { item with m_level := parameter.toInt32 }
      | .illusionSpawn spawnId race => ∀ item ∈ d.shell.m_spawns.lookup (intKey spawnId),
          Spawn.Filtered env f { item with m_race := race.toUInt16 }
      | .killSpawn spawnId _ => spawnId ≠ d.shell.m_player.m_ID →
          ∀ item ∈ d.shell.m_spawns.lookup (idKey spawnId), (Item.spawn item.killSpawn).mask env f =
            (Item.spawn (SpawnShell.corpse item)).mask env f
      | .guildTagUpdated guildMgr guildId => ∀ k s, d.shell.m_spawns.lookup k = some s →
          s.isMember guildId = true →
            Spawn.Filtered env f { s with m_guildTag := guildMgr s.m_guildID s.m_guildServerID }
      | .updateSpawn u => d.zone.m_zoning = false → d.shell.KeepsMove env u
      | .clientUpdate dir u => d.zone.m_zoning = false →
          ¬ (dir = .client ∧ d.shell.m_player.m_ID = 0) → d.shell.KeepsMove env u
      | .runtimeFiltersChanged loaded => loaded.filterMask = f.filterMask
      | _ => True

variable {env} {d : Daemon}

theorem unlessZoning_filtered (o : Out) : (d.unlessZoning o).1.Filtered env ↔
    if d.zone.m_zoning = true then d.shell.Filtered env else o.1.Filtered env := by
  unfold unlessZoning
  split <;> exact Iff.rfl

/-- After a handler that is no move the flags are right exactly when those are right that it leaves
    alone, and what it changes besides is the same for the filters. -/
theorem call_filtered_iff {c : Call} (hc : c.refreshes = true) :
    (d.call env c).shell.Filtered env ↔ d.Spares env c ∧ d.Keeps env c := by
  cases c with
  | spawnWearingUpdate order spawnId =>
      exact (SpawnShell.spawnWearingUpdate_filtered spawnId).trans (and_iff_left trivial).symm
  | event e =>
      obtain ⟨order, packet⟩ := e
      cases packet
      case newSpawn s =>
        refine (unlessZoning_filtered _).trans ?_
        show _ ↔ d.shell.FilteredBut env (fun k =>
          (d.zone.m_zoning = false ∧ s.npc ≠ SPAWN_SELF) ∧ k = idKey s.spawnId) ∧
            (d.zone.m_zoning = false → d.shell.KeepsNew env s)
        cases d.zone.m_zoning with
        | true => simp
        | false =>
            rw [if_neg Bool.false_ne_true, SpawnShell.newSpawn_filtered]
            simp only [true_and, forall_const]
      case zoneSpawn s => exact SpawnShell.newSpawn_filtered s
      case zoneEntry s => exact SpawnShell.zoneEntry_filtered s
      case updateSpawnAppearance spawnId type parameter =>
        show (d.shell.updateSpawnAppearance spawnId type parameter).1.Filtered env ↔
          d.shell.FilteredBut env (fun k => type = 1 ∧ k = idKey spawnId) ∧ (type = 1 → _)
        unfold SpawnShell.updateSpawnAppearance
        by_cases htype : type = 1
        · rw [if_pos htype, SpawnShell.filteredBut_of_pos htype, forall_prop_of_true htype]
          exact SpawnShell.changeSpawn_filtered _ _
        · rw [if_neg htype, SpawnShell.filteredBut_of_neg htype]
          exact (and_iff_left fun h => absurd h htype).symm
      case illusionSpawn spawnId race => exact SpawnShell.changeSpawn_filtered _ _
      case killSpawn spawnId killerId => exact SpawnShell.killSpawn_filtered spawnId killerId
      case guildTagUpdated guildMgr guildId =>
        let sh' : SpawnShell := { d.shell with m_guildMgr := guildMgr }
        have htagged : (sh'.updateGuildTag order guildId).1.Filtered env ↔ _ :=
          sh'.updateGuildTag_filtered order guildId
        refine htagged.trans (and_congr_left fun _ => ?_)
        exact SpawnShell.filtered_congr rfl rfl rfl rfl
      case filtersChanged loaded =>
        exact iff_of_true (SpawnShell.refilterSpawns_filtered order) ⟨trivial, trivial⟩
      all_goals cases hc

theorem spares_of_filtered (h : d.shell.Filtered env) (c : Call) : d.Spares env c := by
  unfold Spares
  split
  · trivial
  · exact h.but _

theorem call_filtered (hok : d.shell.holdings.Ok) (h : d.shell.Filtered env) {c : Call}
    (hkeeps : d.Keeps env c) : (d.call env c).shell.Filtered env := by
  by_cases hc : c.refreshes = true
  · exact (call_filtered_iff hc).mpr ⟨spares_of_filtered h c, hkeeps⟩
  · cases c with
    | spawnWearingUpdate order spawnId => exact absurd rfl hc
    | event e =>
        obtain ⟨order, packet⟩ := e
        cases packet
        case zonePlayer profile loaded =>
          have hzone : (if d.zone.zoneChanged env profile = true then
              d.shell.zoneBegin env order (.zonePlayer env profile) loaded
            else (d.shell, [])).1.Filtered env := by
            split
            · exact SpawnShell.zoneBegin_filtered d.shell order _ loaded
            · exact h
          exact ⟨hzone.spawns, hzone.drops, hzone.doors⟩
        case zoneChange zoneId dir =>
          show (if dir = .server then d.shell.zoneChanged (.zoneChange env zoneId)
            else (d.shell, [])).1.Filtered env
          split
          · exact ⟨Table.all_empty, Table.all_empty, Table.all_empty⟩
          · exact h
        case zoneCheckpoint cp loaded =>
          show (if cp.short_zone_name = [] then (d.shell, [])
            else d.shell.zoneBegin env order _ loaded).1.Filtered env
          split
          · exact h
          · exact SpawnShell.zoneBegin_filtered d.shell order _ loaded
        case playerCheckpoint cp =>
          refine (SpawnShell.setPlayerID_filtered cp.player_id).mpr (SpawnShell.Filtered.but ?_ _)
          exact ⟨h.spawns, h.drops, h.doors⟩
        case newGroundItem ds =>
          refine (unlessZoning_filtered _).mpr ?_
          split
          · exact h
          · exact SpawnShell.newGroundItem_filtered h ds
        case removeGroundItem dropId =>
          refine (unlessZoning_filtered _).mpr ?_
          split
          · exact h
          · exact SpawnShell.removeGroundItem_filtered h dropId
        case newDoorSpawn door => exact SpawnShell.newDoorSpawn_filtered h door
        case updateSpawn u =>
          refine (unlessZoning_filtered _).mpr ?_
          split
          · exact h
          · rename_i hzoning
            exact SpawnShell.updateSpawn_filtered h (hkeeps (Bool.not_eq_true _ ▸ hzoning))
        case clientUpdate dir u => exact SpawnShell.clientUpdate_filtered hok h hkeeps
        case updateNpcHP spawnId curHP maxHP =>
          exact SpawnShell.playerUpdateNpcHP_filtered
            (SpawnShell.updateNpcHP_filtered h spawnId curHP maxHP) spawnId curHP maxHP
        case deleteSpawn spawnId =>
          let sh' : SpawnShell := { d.shell with m_dead := d.shell.m_dead.push spawnId }
          have hsh' : sh'.Filtered env := ⟨h.spawns, h.drops, h.doors⟩
          exact SpawnShell.deleteItem_spawn_filtered.mpr (hsh'.but _)
        case runtimeFiltersChanged loaded =>
          let sh' : SpawnShell := { d.shell with m_filterMgr := loaded }
          have hcongr : sh'.Filtered env ↔ d.shell.Filtered env :=
            SpawnShell.filtered_congr rfl rfl rfl hkeeps
          exact SpawnShell.refilterSpawnsRuntime_filtered (hcongr.mpr h) order
        all_goals first | exact absurd rfl hc | exact h

end Daemon

end

/-! ## Runs -/

/-- In a run of the daemon, after each handler that is no move: the flags of all spawns, drops and
    doors are right exactly when those are right that the handler leaves alone, and what it changes
    without looking the flags up is the same for the filters. And if that second part is so for
    every call of the run, moves included, the flags are right in every state. -/
theorem filterFlags_runs (env : Env) (player : Player) (filterMgr : FilterMgr)
    (guildMgr : GuildMgr) (createUnknownSpawns : Bool) (cs : List Call) :
    let start := Daemon.init player filterMgr guildMgr createUnknownSpawns
    (Machine.StepsMeet (Daemon.call env)
        (fun d c => c.refreshes = true → (d.call env c).shell.Filtered env) start cs ↔
      Machine.StepsMeet (Daemon.call env)
        (fun d c => c.refreshes = true → d.Spares env c ∧ d.Keeps env c) start cs) ∧
    (Machine.StepsMeet (Daemon.call env) (Daemon.Keeps env) start cs →
      ∀ d ∈ Machine.trace (Daemon.call env) start cs, d.shell.Filtered env) := by
  intro start
  constructor
  · exact Machine.stepsMeet_congr _ (fun d c => imp_congr_right Daemon.call_filtered_iff) start cs
  · intro hkeeps d hd
    have hstep : ∀ d c, Daemon.Keeps env d c → d.shell.holdings.Ok ∧ d.shell.Filtered env →
        (d.call env c).shell.holdings.Ok ∧ (d.call env c).shell.Filtered env :=
      fun d c hk h => ⟨Daemon.call_ok env d c h.1, Daemon.call_filtered h.1 h.2 hk⟩
    have hstart : start.shell.holdings.Ok ∧ start.shell.Filtered env :=
      ⟨init_ok player filterMgr guildMgr createUnknownSpawns, Table.all_empty, Table.all_empty,
        Table.all_empty⟩
    exact (Machine.trace_of_stepsMeet (Daemon.call env) hstep hstart hkeeps d hd).2

/-- A spawn reaches the level that a filter is about: its flags stay those of the level before. -/
theorem level_leaves_old_flags :
    ¬ ∀ (env : Env) (player : Player) (filterMgr : FilterMgr) (guildMgr : GuildMgr)
      (createUnknownSpawns : Bool) (cs : List Call),
      Machine.StepsMeet (Daemon.call env)
        (fun d c => c.refreshes = true → (d.call env c).shell.Filtered env)
        (Daemon.init player filterMgr guildMgr createUnknownSpawns) cs := by
  intro h
  let f : FilterMgr := { FilterMgr.none with
    filterMask := fun _ level => if level = 20 then 1 else 0 }
  let start := Daemon.init { addr := 0, m_ID := 0 } f (fun _ _ => []) false
  let enter : Call := .event ⟨.entries, .newSpawn { spawnId := 5, npc := SPAWN_NPC, level := 10 }⟩
  let c : Call := .event ⟨.entries, .updateSpawnAppearance 5 1 20⟩
  let entered := start.call .ascii enter
  have hsteps := h .ascii { addr := 0, m_ID := 0 } f (fun _ _ => []) false [enter, c]
  have hfiltered : (entered.call .ascii c).shell.Filtered .ascii := hsteps.2.1 rfl
  have hspawns : (entered.call .ascii c).shell.m_spawns.values.map
      (fun s => (s.m_filterFlags, (Item.spawn s).filterLevel)) = [(0, 20)] := by decide +kernel
  obtain ⟨s, hs, hvalues⟩ := List.map_eq_singleton_iff.mp hspawns
  obtain ⟨hflags, hlevel⟩ := Prod.mk.inj hvalues
  obtain ⟨k, hk⟩ := Table.mem_values.mp (hs ▸ List.mem_singleton_self s)
  have hmask : s.m_filterFlags = if (Item.spawn s).filterLevel = 20 then 1 else 0 :=
    hfiltered.spawns k s hk not_false
  rw [hflags, hlevel] at hmask
  exact absurd hmask (by decide)

end ShoweqDaemon.Spawns
