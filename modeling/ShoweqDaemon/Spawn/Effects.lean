/-
  What each handler of `SpawnShell` does to the holdings.

  Most handlers are quiet. `newSpawn`, `updateSpawn`, `newGroundItem`, `newDoorSpawn` may add one
  item, `deleteItem` removes one, `setPlayerID` moves the player to another key and throws out a
  spawn that has the new id.

  Every handler has one lemma for each of these it can do, under the condition on the state that
  decides between them: `Creates` is a spawn packet with a new id that is not the player's,
  `CreatesUnknown` a position update for an id nobody knows. The lemmas are used by name wherever
  a consumer follows the maps, so that no other module unfolds a handler.

  Proved:
  * `newSpawn_adds` and `newSpawn_quiet`, likewise for updates, drops and doors: one item more,
    with one signal that carries it, or the same ids and addresses.
  * `refilter_quiet`: what is refiltered keeps its ids and addresses.
  * `deleteItem_removes`, `deleteSpawn_removes`, `clear_holdings`: what leaves the maps.
  * `setPlayerID_of_ne`, `setPlayerID_of_eq`: what a new id of the player does to the maps.
-/
import ShoweqDaemon.Spawn.Holdings

namespace ShoweqDaemon.Spawns

open SpawnShell (refilterMap)

theorem Quiet.congr {sh sh' : SpawnShell} {o : Out} (h : Quiet sh' o)
    (heq : sh'.holdings = sh.holdings) : Quiet sh o :=
  ⟨h.holdings.trans heq, heq ▸ h.signals⟩

theorem Adds.congr {sh sh' : SpawnShell} {o : Out} {type : SpawnItemType} {k : Int} {id : UInt16}
    (h : Adds sh' o type k id) (heq : sh'.holdings = sh.holdings) : Adds sh o type k id where
  type_ne := h.type_ne
  key_eq := h.key_eq
  free := heq ▸ h.free
  holdings := heq ▸ h.holdings
  signals := by
    obtain ⟨x, hsig, hkey, hspawn⟩ := h.signals
    have hnext : sh'.next = sh.next := congrArg Holdings.next heq
    exact ⟨x, hsig, hkey.trans (congrArg _ hnext), hspawn⟩
  stored := h.stored

theorem find_eq_none {sh : SpawnShell} {k : Int} (h : sh.m_spawns.lookup k = none) :
    sh.find .tSpawn k = none :=
  congrArg (Option.map Item.spawn) h

section
variable (env : Env)

/-! ## Spawns -/

/-- `newSpawn` makes an item of this struct. -/
def SpawnShell.Creates (sh : SpawnShell) (s : SpawnStruct) : Prop :=
  s.npc ≠ SPAWN_SELF ∧ sh.m_spawns.lookup (idKey s.spawnId) = none

theorem newSpawn_adds {sh : SpawnShell} {s : SpawnStruct} (h : sh.Creates s) :
    Adds sh (sh.newSpawn env s) .tSpawn (idKey s.spawnId) s.spawnId := by
  obtain ⟨hself, hnone⟩ := h
  unfold SpawnShell.newSpawn
  rw [if_neg hself]
  dsimp only
  rw [hnone]
  let sh' : SpawnShell := { sh with m_dead := sh.m_dead.forget s.spawnId }
  have hadds := (sets_spawn sh' (idKey s.spawnId) (sh'.labelled env (Spawn.ofStruct env sh'.next s))
    (sh'.next + 1)).adds (find_eq_none hnone) rfl rfl (by decide) (fun _ => rfl) fun _ => rfl
  exact hadds.congr rfl

theorem newSpawn_quiet {sh : SpawnShell} {s : SpawnStruct} (h : ¬ sh.Creates s) :
    Quiet sh (sh.newSpawn env s) := by
  unfold SpawnShell.newSpawn
  by_cases hself : s.npc = SPAWN_SELF
  · rw [if_pos hself]
    exact Quiet.refl sh
  · rw [if_neg hself]
    dsimp only
    let sh' : SpawnShell := { sh with m_dead := sh.m_dead.forget s.spawnId }
    cases hitem : sh.m_spawns.lookup (idKey s.spawnId) with
    | none => exact absurd ⟨hself, hitem⟩ h
    | some item =>
        have hquiet := (sets_spawn sh' (idKey s.spawnId) (sh'.labelled env (item.update env s))
          sh'.next).quiet (find_spawn hitem) rfl rfl tSpawnChangedALL
        exact hquiet.congr rfl

/-- `updateSpawn` makes an unknown spawn. -/
def SpawnShell.CreatesUnknown (sh : SpawnShell) (u : SpawnPositionUpdate) : Prop :=
  u.spawnId ≠ sh.m_player.m_ID ∧ sh.m_spawns.lookup (idKey u.spawnId) = none ∧
    sh.createUnknownSpawns = true ∧ sh.m_dead.find u.spawnId = none

theorem updateSpawn_adds {sh : SpawnShell} {u : SpawnPositionUpdate} (h : sh.CreatesUnknown u) :
    Adds sh (sh.updateSpawn env u) .tSpawn (idKey u.spawnId) u.spawnId := by
  obtain ⟨hplayer, hnone, hcreate, hdead⟩ := h
  unfold SpawnShell.updateSpawn
  rw [if_neg hplayer, hnone]
  dsimp only
  rw [if_pos hcreate, hdead]
  exact (sets_spawn sh (idKey u.spawnId) (((Spawn.ofUpdate sh.next u).updateFilterFlags env
    sh.m_filterMgr).updateRuntimeFilterFlags env sh.m_filterMgr) (sh.next + 1)).adds
    (find_eq_none hnone) rfl rfl (by decide) (fun _ => rfl) fun _ => rfl

theorem updateSpawn_quiet {sh : SpawnShell} (hok : sh.holdings.Ok) {u : SpawnPositionUpdate}
    (h : ¬ sh.CreatesUnknown u) : Quiet sh (sh.updateSpawn env u) := by
  unfold SpawnShell.updateSpawn
  by_cases hplayer : u.spawnId = sh.m_player.m_ID
  · rw [if_pos hplayer]
    refine quiet_setPlayer hok ?_ tSpawnChangedPosition
    rfl
  rw [if_neg hplayer]
  cases hitem : sh.m_spawns.lookup (idKey u.spawnId) with
  | some item =>
      exact (sets_spawn sh (idKey u.spawnId) (item.move u) sh.next).quiet (find_spawn hitem) rfl rfl
        tSpawnChangedPosition
  | none =>
      dsimp only
      by_cases hcreate : sh.createUnknownSpawns = true
      · rw [if_pos hcreate]
        cases hdead : sh.m_dead.find u.spawnId with
        | some i => exact ⟨rfl, by simp⟩
        | none => exact absurd ⟨hplayer, hitem, hcreate, hdead⟩ h
      · rw [if_neg hcreate]
        exact Quiet.refl sh

theorem changeSpawn_quiet (sh : SpawnShell) (id : Int) (f : Spawn → Spawn) (changeType : UInt32)
    (hf : ∀ s, (Item.spawn (f s)).key = (Item.spawn s).key) :
    Quiet sh (sh.changeSpawn id f changeType) := by
  unfold SpawnShell.changeSpawn
  cases hitem : sh.m_spawns.lookup id with
  | some item =>
      exact (sets_spawn sh id (f item) sh.next).quiet (find_spawn hitem) (hf item) rfl changeType
  | none => exact Quiet.refl sh

theorem updateNpcHP_quiet (sh : SpawnShell) (spawnId : UInt32) (curHP maxHP : Int32) :
    Quiet sh (sh.updateNpcHP spawnId curHP maxHP) :=
  changeSpawn_quiet sh _ _ _ fun _ => rfl

theorem illusionSpawn_quiet (sh : SpawnShell) (spawnId race : UInt32) :
    Quiet sh (sh.illusionSpawn spawnId race) :=
  changeSpawn_quiet sh _ _ _ fun _ => rfl

theorem updateSpawnAppearance_quiet (sh : SpawnShell) (spawnId type : UInt16) (parameter : UInt32) :
    Quiet sh (sh.updateSpawnAppearance spawnId type parameter) := by
  unfold SpawnShell.updateSpawnAppearance
  split
  · exact changeSpawn_quiet sh _ _ _ fun _ => rfl
  · exact Quiet.refl sh

theorem killSpawn_quiet (sh : SpawnShell) (spawnId killerId : UInt16) :
    Quiet sh (sh.killSpawn env spawnId killerId) := by
  unfold SpawnShell.killSpawn
  dsimp only
  split
  · refine quiet_kill ?_ _ _ _
    refine holdings_setPlayer ?_
    rfl
  · split
    · rename_i item hitem
      refine quiet_kill ?_ _ _ _
      refine (sets_spawn sh _ _ sh.next).holdings (find_spawn hitem) ?_ rfl
      rfl
    · exact Quiet.refl sh

/-! ## Drops and doors -/

theorem newGroundItem_adds {sh : SpawnShell} {ds : MakeDropStruct}
    (h : sh.m_drops.lookup (intKey ds.dropId) = none) :
    Adds sh (sh.newGroundItem env ds) .tDrop (intKey ds.dropId) ds.dropId.toUInt16 := by
  unfold SpawnShell.newGroundItem
  rw [h]
  exact (sets_drop sh _ ((Drop.ofStruct env sh.next ds).updateFilterFlags env .drop sh.m_filterMgr)
    (sh.next + 1)).adds (congrArg (Option.map Item.drop) h) rfl rfl (by decide)
    (fun heq => nomatch heq) fun hsp => nomatch hsp

theorem newGroundItem_quiet {sh : SpawnShell} {ds : MakeDropStruct}
    (h : sh.m_drops.lookup (intKey ds.dropId) ≠ none) : Quiet sh (sh.newGroundItem env ds) := by
  unfold SpawnShell.newGroundItem
  cases hitem : sh.m_drops.lookup (intKey ds.dropId) with
  | none => exact absurd hitem h
  | some item =>
      refine (sets_drop sh _ _ sh.next).quiet (find_drop hitem) ?_ rfl tSpawnChangedALL
      rfl

theorem newDoorSpawn_adds {sh : SpawnShell} {d : DoorStruct}
    (h : sh.m_doors.lookup (idKey d.doorId.toUInt16) = none) :
    Adds sh (sh.newDoorSpawn env d) .tDoors (idKey d.doorId.toUInt16) d.doorId.toUInt16 := by
  unfold SpawnShell.newDoorSpawn
  rw [h]
  exact (sets_door sh _ ((Door.ofStruct env sh.next d).updateFilterFlags env .door sh.m_filterMgr)
    (sh.next + 1)).adds (congrArg (Option.map Item.door) h) rfl rfl (by decide)
    (fun heq => nomatch heq) fun hsp => nomatch hsp

theorem newDoorSpawn_quiet {sh : SpawnShell} {d : DoorStruct}
    (h : sh.m_doors.lookup (idKey d.doorId.toUInt16) ≠ none) : Quiet sh (sh.newDoorSpawn env d) := by
  unfold SpawnShell.newDoorSpawn
  cases hitem : sh.m_doors.lookup (idKey d.doorId.toUInt16) with
  | none => exact absurd hitem h
  | some item =>
      refine (sets_door sh _ _ sh.next).quiet (find_door hitem) ?_ rfl tSpawnChangedALL
      rfl

/-! ## Filters and guild tags -/

/-- All values of a map change, no id or address does. -/
theorem holdings_mapValues {sh sh' : SpawnShell}
    (hfind : ∀ t k, (sh'.find t k).map Item.key = (sh.find t k).map Item.key)
    (hplayer : (Item.player sh'.m_player).key = (Item.player sh.m_player).key)
    (hnext : sh'.next = sh.next) : sh'.holdings = sh.holdings :=
  Holdings.ext (funext fun t => funext fun k => hfind t k) hplayer hnext

theorem map_key_mapValues {α : Type} (m : Table Int α) (f : α → α) (mk : α → Item)
    (hf : ∀ x, (mk (f x)).key = (mk x).key) (k : Int) :
    (((m.mapValues f).lookup k).map mk).map Item.key = ((m.lookup k).map mk).map Item.key := by
  rw [Table.lookup_mapValues]
  cases m.lookup k with
  | none => rfl
  | some x => exact congrArg some (hf x)

/-- The signals of `refilterMap` are about values of the map. -/
theorem refilterMap_signals {α : Type} {order : Table.Order} {refilter : α → α} {flags : α → UInt32}
    {mk : α → Item} {changeType : UInt32} {m : Table Int α} {h : Holdings}
    (hheld : ∀ k x, m.lookup k = some x → h.Held (mk x).key.1 (mk x).key.2)
    (hf : ∀ x, (mk (refilter x)).key = (mk x).key) :
    ∀ sg ∈ (refilterMap order refilter flags mk changeType m).2, sg.Quiet h := by
  intro sg hsg
  obtain ⟨x, hx, hsome⟩ := List.mem_filterMap.mp hsg
  split at hsome
  · obtain rfl := Option.some.inj hsome
    obtain ⟨k, hk⟩ := Table.mem_values.mp (order.mem_visit.mp hx)
    show h.Held (mk (refilter x)).key.1 (mk (refilter x)).key.2
    rw [hf]
    exact hheld k x hk
  · cases hsome

/-- Both refilterings: three maps are refiltered with functions that keep ids and addresses. -/
theorem refilter_quiet (sh : SpawnShell) (order : Table.Order) {fs : Spawn → Spawn}
    {fd fo : Fixture → Fixture} {gs : Spawn → UInt32} {gd : Fixture → UInt32} (c : UInt32)
    (hs : ∀ x, (Item.spawn (fs x)).key = (Item.spawn x).key)
    (hd : ∀ x, (Item.drop (fd x)).key = (Item.drop x).key)
    (ho : ∀ x, (Item.door (fo x)).key = (Item.door x).key) :
    Quiet sh ({ sh with
        m_spawns := (refilterMap order fs gs .spawn c sh.m_spawns).1
        m_drops := (refilterMap order fd gd .drop c sh.m_drops).1
        m_doors := (refilterMap order fo gd .door c sh.m_doors).1 },
      (refilterMap order fs gs .spawn c sh.m_spawns).2 ++
        (refilterMap order fd gd .drop c sh.m_drops).2 ++
        (refilterMap order fo gd .door c sh.m_doors).2) where
  holdings := by
    refine holdings_mapValues (fun t k => ?_) rfl rfl
    cases t with
    | tSpawn => exact map_key_mapValues sh.m_spawns fs .spawn hs k
    | tDrop => exact map_key_mapValues sh.m_drops fd .drop hd k
    | tDoors => exact map_key_mapValues sh.m_doors fo .door ho k
    | tPlayer => rfl
  signals := by
    intro sg hsg
    rcases List.mem_append.mp hsg with hsg | hsg
    · rcases List.mem_append.mp hsg with hsg | hsg
      · exact refilterMap_signals (fun k x hx => held_of_find (find_spawn hx)) hs sg hsg
      · exact refilterMap_signals (fun k x hx => held_of_find (find_drop hx)) hd sg hsg
    · exact refilterMap_signals (fun k x hx => held_of_find (find_door hx)) ho sg hsg

theorem refilterSpawns_quiet (sh : SpawnShell) (order : Table.Order) :
    Quiet sh (sh.refilterSpawns env order) :=
  refilter_quiet sh order tSpawnChangedFilter (fun _ => rfl) (fun _ => rfl) fun _ => rfl

theorem refilterSpawnsRuntime_quiet (sh : SpawnShell) (order : Table.Order) :
    Quiet sh (sh.refilterSpawnsRuntime env order) :=
  refilter_quiet sh order tSpawnChangedRuntimeFilter (fun _ => rfl) (fun _ => rfl) fun _ => rfl

theorem updateGuildTag_quiet {sh : SpawnShell} (hok : sh.holdings.Ok) (order : Table.Order)
    (guildId : UInt32) : Quiet sh (sh.updateGuildTag order guildId) := by
  unfold SpawnShell.updateGuildTag
  dsimp only
  have hplayer : ∀ b : Bool, (Item.player (if b = true then
      { sh.m_player with toSpawn := { sh.m_player.toSpawn with
        m_guildTag := sh.m_guildMgr sh.m_player.m_guildID sh.m_player.m_guildServerID } }
      else sh.m_player)).key = (Item.player sh.m_player).key := by
    intro b
    cases b <;> rfl
  refine ⟨holdings_mapValues (fun t k => ?_) (hplayer _) rfl, fun sg hsg => ?_⟩
  · cases t with
    | tSpawn =>
        refine map_key_mapValues sh.m_spawns _ .spawn (fun s => ?_) k
        split <;> rfl
    | tDrop => rfl
    | tDoors => rfl
    | tPlayer =>
        show ((sh.m_players.lookup k).map fun _ => Item.player _).map Item.key =
          ((sh.m_players.lookup k).map fun _ => Item.player sh.m_player).map Item.key
        cases sh.m_players.lookup k with
        | none => rfl
        | some u => exact congrArg some (hplayer _)
  · rcases List.mem_append.mp hsg with hsg | hsg <;>
      obtain ⟨x, hx, hsome⟩ := List.mem_filterMap.mp hsg <;> split at hsome
    · obtain rfl := Option.some.inj hsome
      obtain ⟨k, hk⟩ := Table.mem_values.mp (order.mem_visit.mp hx)
      have hheld := held_of_find (find_spawn hk)
      exact hheld
    · cases hsome
    · obtain rfl := Option.some.inj hsome
      exact hok.player_held
    · cases hsome

/-! ## Removal -/

theorem find_remove (sh : SpawnShell) (type : SpawnItemType) (k : Int) (t : SpawnItemType)
    (k' : Int) : (sh.remove type k).find t k' =
      if t = type ∧ k' = k then none else sh.find t k' := by
  by_cases ht : t = type
  · subst ht
    have hmap : ∀ {α : Type} (m : Table Int α) (mk : α → Item),
        (AList.lookup k' (AList.erase k m)).map mk =
          if t = t ∧ k' = k then none else (m.lookup k').map mk := by
      intro α m mk
      rw [Table.lookup_erase]
      by_cases hk : k' = k
      · rw [if_pos hk, if_pos ⟨rfl, hk⟩]
        rfl
      · rw [if_neg hk, if_neg fun h => hk h.2]
    cases t with
    | tSpawn => exact hmap sh.m_spawns .spawn
    | tDrop => exact hmap sh.m_drops .drop
    | tDoors => exact hmap sh.m_doors .door
    | tPlayer => exact hmap sh.m_players fun _ => .player sh.m_player
  · rw [if_neg fun h => ht h.1]
    cases t <;> cases type <;> first | rfl | exact absurd rfl ht

theorem holdings_remove (sh : SpawnShell) (type : SpawnItemType) (k : Int) :
    (sh.remove type k).holdings = sh.holdings.remove type k := by
  refine Holdings.ext (funext fun t => funext fun k' => ?_)
    (congrArg (fun p => (Item.player p).key) (remove_player sh type k)) (remove_next sh type k)
  show ((sh.remove type k).find t k').map Item.key = _
  rw [find_remove, Holdings.remove_at]
  split
  · rfl
  · rfl

theorem deleteItem_removes {sh : SpawnShell} {type : SpawnItemType} {k : Int} {x : Item}
    (htype : type ≠ .tPlayer) (h : sh.find type k = some x) :
    Removes sh (sh.deleteItem type k) type k x := by
  rw [deleteItem_of_find h]
  exact ⟨htype, h, holdings_remove sh type k, rfl⟩

theorem deleteItem_quiet {sh : SpawnShell} {type : SpawnItemType} {k : Int}
    (h : sh.find type k = none) : Quiet sh (sh.deleteItem type k) := by
  rw [deleteItem_of_none h]
  exact Quiet.refl sh

/-- The ring of deleted ids is not part of the holdings. -/
theorem deleteSpawn_removes {sh : SpawnShell} {spawnId : UInt16} {x : Item}
    (h : sh.find .tSpawn (idKey spawnId) = some x) :
    Removes sh (sh.deleteSpawn spawnId) .tSpawn (idKey spawnId) x := by
  let sh' : SpawnShell := { sh with m_dead := sh.m_dead.push spawnId }
  have hfind : sh'.find .tSpawn (idKey spawnId) = some x := h
  obtain ⟨htype, -, hholdings, hsignals⟩ := deleteItem_removes (by decide) hfind
  exact ⟨htype, h, hholdings, hsignals⟩

theorem deleteSpawn_quiet {sh : SpawnShell} {spawnId : UInt16}
    (h : sh.find .tSpawn (idKey spawnId) = none) : Quiet sh (sh.deleteSpawn spawnId) := by
  let sh' : SpawnShell := { sh with m_dead := sh.m_dead.push spawnId }
  have hfind : sh'.find .tSpawn (idKey spawnId) = none := h
  exact (deleteItem_quiet hfind).congr rfl

theorem clear_holdings (sh : SpawnShell) : sh.clear.1.holdings = sh.holdings.clear := by
  refine Holdings.ext (funext fun t => funext fun k => ?_) rfl rfl
  cases t with
  | tPlayer =>
      have hlookup : sh.clear.1.m_players.lookup k = if k = 0 then some () else none :=
        Table.lookup_insert ∅ 0 k ()
      show ((sh.clear.1.m_players.lookup k).map fun _ => Item.player sh.m_player).map Item.key = _
      rw [hlookup]
      by_cases hk : k = 0
      · rw [if_pos hk]
        exact (if_pos ⟨rfl, hk⟩).symm
      · rw [if_neg hk]
        exact (if_neg fun h => hk h.2).symm
  | tSpawn => rfl
  | tDrop => rfl
  | tDoors => rfl

/-! ## The player's id -/

/-- The key of the player in `m_players`. -/
theorem players_lookup {sh : SpawnShell} (hok : sh.holdings.Ok) :
    ∃ kp, (∀ k, sh.m_players.lookup k = if k = kp then some () else none) ∧
      (kp = 0 ∨ kp = idKey sh.m_player.m_ID) := by
  obtain ⟨kp, hkp, hkey⟩ := hok.player_at
  refine ⟨kp, fun k => ?_, hkey⟩
  have hk : ((sh.m_players.lookup k).map fun _ => Item.player sh.m_player).map Item.key =
    if k = kp then some sh.holdings.player else none := hkp k
  cases hl : sh.m_players.lookup k with
  | none =>
      rw [hl] at hk
      split at hk
      · cases hk
      · rename_i hne
        rw [if_neg hne]
  | some u =>
      rw [hl] at hk
      split at hk
      · rename_i heq
        rw [if_pos heq]
      · cases hk

theorem find_player {sh : SpawnShell} (hok : sh.holdings.Ok) :
    ∃ k, sh.find .tPlayer k = some (.player sh.m_player) := by
  obtain ⟨kp, hkp, -⟩ := players_lookup hok
  refine ⟨kp, ?_⟩
  show (sh.m_players.lookup kp).map _ = _
  rw [hkp, if_pos rfl]
  rfl

/-- Both deletions of `playerChangedID` together take the player out of its map once. -/
theorem take_player {sh : SpawnShell} {kp : Int} {old : UInt16}
    (hlookup : ∀ k, sh.m_players.lookup k = if k = kp then some () else none)
    (hkp : kp = 0 ∨ kp = idKey old) :
    (sh.deleteItem .tPlayer 0).andThen (·.deleteItem .tPlayer (idKey old)) =
      (sh.remove .tPlayer kp, [.delItem (.player sh.m_player)]) := by
  have hfind : ∀ k, sh.find .tPlayer k = if k = kp then some (.player sh.m_player) else none := by
    intro k
    show (sh.m_players.lookup k).map _ = _
    rw [hlookup]
    split <;> rfl
  by_cases h0 : kp = 0
  · subst h0
    have hfirst : sh.deleteItem .tPlayer 0 = _ :=
      deleteItem_of_find ((hfind 0).trans (if_pos rfl))
    have hsecond : (sh.remove .tPlayer 0).find .tPlayer (idKey old) = none := by
      rw [find_remove, hfind]
      split
      · rfl
      · rename_i hne
        rw [if_neg fun heq => hne ⟨rfl, heq⟩]
    unfold Out.andThen
    rw [hfirst]
    dsimp only
    rw [deleteItem_of_none hsecond]
    rfl
  · have hold : kp = idKey old := hkp.resolve_left h0
    have hfirst : sh.deleteItem .tPlayer 0 = (sh, []) :=
      deleteItem_of_none ((hfind 0).trans (if_neg fun heq => h0 heq.symm))
    have hsecond : sh.deleteItem .tPlayer (idKey old) = _ :=
      deleteItem_of_find ((hfind _).trans (if_pos hold.symm))
    unfold Out.andThen
    rw [hfirst]
    dsimp only
    rw [hsecond, hold]
    rfl

/-- The spawn that `playerChangedID` throws out, as a signal. -/
def SpawnShell.evicted (sh : SpawnShell) (id : UInt16) : List Signal :=
  match sh.find .tSpawn (idKey id) with
  | some x => [.delItem x]
  | none => []

theorem deleteItem_signals (sh : SpawnShell) (id : UInt16) :
    (sh.deleteItem .tSpawn (idKey id)).2 = sh.evicted id := by
  unfold SpawnShell.evicted
  rcases deleteItem_cases sh .tSpawn (idKey id) with ⟨hnone, heq⟩ | ⟨x, hx, heq⟩
  · rw [hnone, heq]
  · rw [hx, heq]

theorem deleteItem_find (sh : SpawnShell) (type : SpawnItemType) (k : Int) (t : SpawnItemType)
    (k' : Int) : (sh.deleteItem type k).1.find t k' =
      if t = type ∧ k' = k then none else sh.find t k' := by
  rcases deleteItem_cases sh type k with ⟨hnone, heq⟩ | ⟨x, -, heq⟩
  · rw [heq]
    split
    · rename_i hplace
      rw [hplace.1, hplace.2]
      exact hnone
    · rfl
  · rw [heq]
    exact find_remove sh type k t k'

theorem deleteItem_next (sh : SpawnShell) (type : SpawnItemType) (k : Int) :
    (sh.deleteItem type k).1.next = sh.next := by
  rcases deleteItem_cases sh type k with ⟨-, heq⟩ | ⟨x, -, heq⟩ <;> simp [heq]

/-- The player taken out of its map, a spawn with the new id thrown out, the player put back. -/
theorem holdings_rename {sh : SpawnShell} {kp : Int}
    (hlookup : ∀ k, sh.m_players.lookup k = if k = kp then some () else none) (new : UInt16) :
    let p : Player := { sh.m_player with m_ID := new }
    let gone := (({ sh with m_player := p }.remove .tPlayer kp).deleteItem .tSpawn (idKey new)).1
    { gone with m_players := gone.m_players.insert (idKey new) () }.holdings =
      sh.holdings.rename new := by
  intro p gone
  let sh₁ : SpawnShell := { sh with m_player := p }
  have hfind : ∀ t k, gone.find t k =
      if t = .tSpawn ∧ k = idKey new then none else (sh₁.remove .tPlayer kp).find t k :=
    deleteItem_find (sh₁.remove .tPlayer kp) .tSpawn (idKey new)
  have hplayer : gone.m_player = p := deleteItem_player (sh₁.remove .tPlayer kp) .tSpawn (idKey new)
  have hnext : gone.next = sh.next := deleteItem_next (sh₁.remove .tPlayer kp) .tSpawn (idKey new)
  have hempty : ∀ k, gone.m_players.lookup k = none := by
    intro k
    have hk : gone.find .tPlayer k = none := by
      rw [hfind, if_neg fun h => (nomatch h.1), find_remove]
      split
      · rfl
      · rename_i hne
        show (sh.m_players.lookup k).map _ = none
        rw [hlookup, if_neg fun heq => hne ⟨rfl, heq⟩]
        rfl
    exact Option.map_eq_none_iff.mp hk
  refine Holdings.ext (funext fun t => funext fun k => ?_)
    (congrArg (fun p => (Item.player p).key) hplayer) hnext
  cases t with
  | tSpawn =>
      show (gone.find .tSpawn k).map Item.key =
        if k = idKey new then none else (sh.find .tSpawn k).map Item.key
      rw [hfind]
      by_cases hk : k = idKey new
      · rw [if_pos ⟨rfl, hk⟩, if_pos hk]
        rfl
      · rw [if_neg fun h => hk h.2, if_neg hk]
        rfl
  | tDrop =>
      show (gone.find .tDrop k).map Item.key = (sh.find .tDrop k).map Item.key
      rw [hfind, if_neg fun h => nomatch h.1]
      rfl
  | tDoors =>
      show (gone.find .tDoors k).map Item.key = (sh.find .tDoors k).map Item.key
      rw [hfind, if_neg fun h => nomatch h.1]
      rfl
  | tPlayer =>
      show ((AList.lookup k (AList.insert (idKey new) () gone.m_players)).map fun _ =>
        Item.player gone.m_player).map Item.key =
          if k = idKey new then some (new, sh.m_player.addr) else none
      rw [Table.lookup_insert, hempty, hplayer]
      split <;> rfl

/-- A new id: the player is taken out and put back under the new key, a spawn there goes. -/
theorem setPlayerID_of_ne {sh : SpawnShell} (hok : sh.holdings.Ok) {new : UInt16}
    (hne : sh.m_player.m_ID ≠ new) :
    let p : Player := { sh.m_player with m_ID := new }
    (sh.setPlayerID new).1.holdings = sh.holdings.rename new ∧
    (sh.setPlayerID new).1.m_player = p ∧
    (sh.setPlayerID new).2 = [.delItem (.player p)] ++ sh.evicted new ++
      [.changeItem (.player p) tSpawnChangedALL, .changedID (sh.setPlayerID new).1,
        .playerChangeItem (.player p) tSpawnChangedALL] := by
  intro p
  obtain ⟨kp, hlookup, hkp⟩ := players_lookup hok
  let sh₁ : SpawnShell := { sh with m_player := p }
  let o : Out := (sh₁.remove .tPlayer kp).deleteItem .tSpawn (idKey new)
  let sh' : SpawnShell := { o.1 with m_players := o.1.m_players.insert (idKey new) () }
  have htake : (sh₁.deleteItem .tPlayer 0).andThen
      (·.deleteItem .tPlayer (idKey sh.m_player.m_ID)) =
        (sh₁.remove .tPlayer kp, [.delItem (.player p)]) := take_player hlookup hkp
  have hplayer : o.1.m_player = p := deleteItem_player (sh₁.remove .tPlayer kp) .tSpawn (idKey new)
  have hevicted : o.2 = sh.evicted new := deleteItem_signals (sh₁.remove .tPlayer kp) new
  have hset : sh.setPlayerID new = (sh', [.delItem (.player p)] ++ sh.evicted new ++
      [.changeItem (.player p) tSpawnChangedALL, .changedID sh',
        .playerChangeItem (.player p) tSpawnChangedALL]) := by
    unfold SpawnShell.setPlayerID SpawnShell.playerChangedID
    rw [if_neg hne]
    dsimp only
    rw [if_neg hne, htake]
    show (sh', ([.delItem (.player p)] ++ o.2 ++
      [.changeItem (.player o.1.m_player) tSpawnChangedALL]) ++
      [.changedID sh', .playerChangeItem (.player o.1.m_player) tSpawnChangedALL]) = _
    rw [hplayer, hevicted]
    simp
  rw [hset]
  exact ⟨holdings_rename hlookup new, hplayer, rfl⟩

theorem setPlayerID_of_eq {sh : SpawnShell} {new : UInt16} (h : sh.m_player.m_ID = new) :
    sh.setPlayerID new = (sh, []) := by
  unfold SpawnShell.setPlayerID
  rw [if_pos h]

end

end ShoweqDaemon.Spawns
