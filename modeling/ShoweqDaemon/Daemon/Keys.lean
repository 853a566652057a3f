/-
  Under which keys the items lie.

  A client knows an item by its map and its 16 bit id, the shell by the key in the map. The first
  half says when the two agree for spawns, drops and doors: `keys_are_ids_iff`. Spawns and doors are
  stored under their ids; a drop is stored under the 32 bits of the packet, and `Item` keeps 16 of
  them. The second half is about the player, whose key follows its id by the signal `changedID`
  only: `player_tracked_iff`. Both conditions are read off the effect of an event.
-/
import ShoweqDaemon.Daemon.Effect

namespace ShoweqDaemon.Spawns

open Machine

/-- `Item::type`. -/
def Item.type : Item → SpawnItemType
  | spawn _ => .tSpawn
  | player _ => .tPlayer
  | drop _ => .tDrop
  | door _ => .tDoors

theorem find_type {sh : SpawnShell} {t : SpawnItemType} {k : Int} {x : Item}
    (h : sh.find t k = some x) : x.type = t := by
  cases t with
  | tSpawn =>
      obtain ⟨s, -, rfl⟩ := Option.map_eq_some_iff.mp h
      rfl
  | tDrop =>
      obtain ⟨d, -, rfl⟩ := Option.map_eq_some_iff.mp h
      rfl
  | tDoors =>
      obtain ⟨d, -, rfl⟩ := Option.map_eq_some_iff.mp h
      rfl
  | tPlayer =>
      obtain ⟨u, -, rfl⟩ := Option.map_eq_some_iff.mp h
      rfl

/-! ## Spawns, drops and doors -/

/-- What a client may rely on when it names an item by its id. -/
structure SpawnShell.KeysAreIds (sh : SpawnShell) : Prop where
  key : ∀ t k x, t ≠ .tPlayer → sh.find t k = some x → k = idKey x.id ∧ x.type = t
  distinct : ∀ t k k' x x', t ≠ .tPlayer → sh.find t k = some x → sh.find t k' = some x' →
    x.id = x'.id → k = k'
  /-- The deletion by id takes this item, and nothing else. -/
  deletes : ∀ t k x, t ≠ .tPlayer → sh.find t k = some x →
    (sh.deleteItem t (idKey x.id)).2 = [.delItem x] ∧
      ∀ t' k', (sh.deleteItem t (idKey x.id)).1.find t' k' =
        if t' = t ∧ k' = k then none else sh.find t' k'

namespace Holdings

/-- All but the player lie under their ids. -/
def Keyed (h : Holdings) : Prop :=
  ∀ t k id a, t ≠ .tPlayer → h.at_ t k = some (id, a) → k = idKey id

theorem keyed_clear (h : Holdings) : h.clear.Keyed :=
  fun _ _ _ _ hne hat => absurd (clear_at hat).1 hne

theorem keyed_add_iff {h : Holdings} (hk : h.Keyed) {type : SpawnItemType}
    (htype : type ≠ .tPlayer) (k : Int) (id : UInt16) :
    (h.add type k id).Keyed ↔ k = idKey id := by
  constructor
  · intro hadd
    exact hadd type k id h.next htype (if_pos ⟨rfl, rfl⟩)
  · intro hid t k' id' a hne hat
    rw [add_at] at hat
    split at hat
    · rename_i hplace
      obtain ⟨rfl, -⟩ := Prod.mk.inj (Option.some.inj hat)
      exact hplace.2.trans hid
    · exact hk t k' id' a hne hat

theorem Keyed.remove {h : Holdings} (hk : h.Keyed) (type : SpawnItemType) (k : Int) :
    (h.remove type k).Keyed := by
  intro t k' id a hne hat
  rw [remove_at] at hat
  split at hat
  · cases hat
  · exact hk t k' id a hne hat

theorem Keyed.rename {h : Holdings} (hk : h.Keyed) (new : UInt16) : (h.rename new).Keyed := by
  intro t k id a hne hat
  rcases rename_at hat with ⟨ht, -⟩ | ⟨-, hat, -⟩
  · exact absurd ht hne
  · exact hk t k id a hne hat

end Holdings

/-- The three parts of `KeysAreIds` are one. -/
theorem keysAreIds_iff (sh : SpawnShell) : sh.KeysAreIds ↔ sh.holdings.Keyed := by
  constructor
  · intro h t k id a hne hat
    obtain ⟨x, hx, hkey⟩ := holdings_at.mp hat
    have hid : x.id = id := congrArg Prod.fst hkey
    exact hid ▸ (h.key t k x hne hx).1
  · intro h
    have hkey : ∀ t k x, t ≠ .tPlayer → sh.find t k = some x → k = idKey x.id :=
      fun t k x hne hx => h t k x.id x.addr hne (holdings_at.mpr ⟨x, hx, rfl⟩)
    refine ⟨fun t k x hne hx => ⟨hkey t k x hne hx, find_type hx⟩,
      fun t k k' x x' hne hx hx' hid => ?_, fun t k x hne hx => ?_⟩
    · rw [hkey t k x hne hx, hkey t k' x' hne hx', hid]
    · have hk : idKey x.id = k := (hkey t k x hne hx).symm
      rw [hk]
      exact ⟨by rw [deleteItem_of_find hx], deleteItem_find sh t k⟩

/-- A new item comes under its id. -/
def Effect.UnderId : Effect → Prop
  | adds _ k id => k = idKey id
  | _ => True

theorem Effect.Of.keyed_iff {sh : SpawnShell} {o : Out} {eff : Effect} (h : eff.Of sh o)
    (hk : sh.holdings.Keyed) : o.1.holdings.Keyed ↔ eff.UnderId := by
  rw [h.refines]
  cases eff with
  | quiet => exact iff_of_true hk trivial
  | adds type k id => exact Holdings.keyed_add_iff hk (Adds.type_ne h) k id
  | removes type k x => exact iff_of_true (hk.remove type k) trivial
  | renames p => exact iff_of_true (hk.rename p.m_ID) trivial
  | clears id announced => exact iff_of_true (Holdings.keyed_clear _) trivial

theorem underId_ite {c : Prop} [Decidable c] {a b : Effect} (ha : c → a.UnderId)
    (hb : ¬ c → b.UnderId) : (if c then a else b).UnderId := by
  split
  · rename_i hc
    exact ha hc
  · rename_i hc
    exact hb hc

theorem intKey_eq_idKey_iff (n : UInt32) : intKey n = idKey n.toUInt16 ↔ n.toNat < 2 ^ 16 := by
  have hint : intKey n = if 2 * n.toNat < 2 ^ 32 then (n.toNat : Int)
      else (n.toNat : Int) - (2 ^ 32 : Nat) := BitVec.toInt_eq_toNat_cond n.toBitVec
  have hid : idKey n.toUInt16 = ((n.toNat % 2 ^ 16 : Nat) : Int) := rfl
  have hlt : n.toNat < 2 ^ 32 := n.toNat_lt
  rw [hint, hid]
  split <;> omega

/-- No new drop with an id of more than 16 bits. -/
def Daemon.DropIdFits (d : Daemon) : Packet → Prop
  | .newGroundItem ds => d.zone.m_zoning = false →
      d.shell.m_drops.lookup (intKey ds.dropId) = none → ds.dropId.toNat < 2 ^ 16
  | _ => True

theorem underId_iff (env : Env) (d : Daemon) (packet : Packet) :
    (d.effect env packet).UnderId ↔ d.DropIdFits packet := by
  have hset : ∀ (p : Player) id, (p.setPlayerIDEffect id).UnderId :=
    fun p id => underId_ite (fun _ => trivial) fun _ => trivial
  have hspawn : ∀ s, (d.shell.newSpawnEffect s).UnderId :=
    fun s => underId_ite (fun _ => rfl) fun _ => trivial
  have hunknown : ∀ u, (d.shell.updateSpawnEffect u).UnderId :=
    fun u => underId_ite (fun _ => rfl) fun _ => trivial
  have hdelete : ∀ t k, (d.shell.deleteItemEffect t k).UnderId := by
    intro t k
    unfold SpawnShell.deleteItemEffect
    split <;> trivial
  cases packet with
  | newGroundItem ds =>
      show (if d.zone.m_zoning = true then Effect.quiet else d.shell.newGroundItemEffect ds).UnderId ↔
        (d.zone.m_zoning = false → d.shell.m_drops.lookup (intKey ds.dropId) = none →
          ds.dropId.toNat < 2 ^ 16)
      cases d.zone.m_zoning with
      | true => exact iff_of_true trivial fun h => nomatch h
      | false =>
          unfold SpawnShell.newGroundItemEffect
          by_cases hfree : d.shell.m_drops.lookup (intKey ds.dropId) = none
          · rw [if_neg (by decide), if_pos hfree]
            exact (intKey_eq_idKey_iff ds.dropId).trans ⟨fun h _ _ => h, fun h => h rfl hfree⟩
          · rw [if_neg (by decide), if_neg hfree]
            exact iff_of_true trivial fun _ h => absurd h hfree
  | zonePlayer profile loaded =>
      exact iff_of_true (underId_ite (fun _ => trivial) fun _ => trivial) trivial
  | zoneChange zoneId dir =>
      exact iff_of_true (underId_ite (fun _ => trivial) fun _ => trivial) trivial
  | zoneCheckpoint cp loaded =>
      exact iff_of_true (underId_ite (fun _ => trivial) fun _ => trivial) trivial
  | playerCheckpoint cp => exact iff_of_true (hset _ _) trivial
  | removeGroundItem dropId =>
      exact iff_of_true (underId_ite (fun _ => trivial) fun _ => hdelete _ _) trivial
  | newDoorSpawn door =>
      exact iff_of_true (underId_ite (fun _ => rfl) fun _ => trivial) trivial
  | zoneEntry s =>
      exact iff_of_true (underId_ite (fun _ => hset _ _) fun _ => hspawn s) trivial
  | zoneSpawn s => exact iff_of_true (hspawn s) trivial
  | newSpawn s => exact iff_of_true (underId_ite (fun _ => trivial) fun _ => hspawn s) trivial
  | updateSpawn u => exact iff_of_true (underId_ite (fun _ => trivial) fun _ => hunknown u) trivial
  | clientUpdate dir u =>
      exact iff_of_true (underId_ite (fun _ => hset _ _) fun _ =>
        underId_ite (fun _ => trivial) fun _ => hunknown u) trivial
  | deleteSpawn spawnId => exact iff_of_true (hdelete _ _) trivial
  | zoneEntryClient | zoneNew | updateNpcHP | illusionSpawn | updateSpawnAppearance | killSpawn
  | addGroupMember | removeGroupMember | filtersChanged | runtimeFiltersChanged | guildTagUpdated
  | subscribe => exact Iff.rfl

/-- In every state of a run the items lie under the ids that clients know, exactly when no drop came
    in anew with an id of more than 16 bits. -/
theorem keys_are_ids_iff (env : Env) (player : Player) (filterMgr : FilterMgr) (guildMgr : GuildMgr)
    (createUnknownSpawns : Bool) (es : List Event) :
    (∀ d ∈ trace (Daemon.step env)
        (Daemon.init player filterMgr guildMgr createUnknownSpawns) es, d.shell.KeysAreIds) ↔
      StepsMeet (Daemon.step env) (fun d e => d.DropIdFits e.packet)
        (Daemon.init player filterMgr guildMgr createUnknownSpawns) es := by
  refine trace_forall_iff_stepsMeet (Daemon.step env) (step_ok env) (fun d e hok h => ?_)
    (init_ok player filterMgr guildMgr createUnknownSpawns) ?_ es
  · rw [keysAreIds_iff] at h ⊢
    exact ((handle_effect env hok e).keyed_iff h).trans (underId_iff env d e.packet)
  · rw [keysAreIds_iff]
    intro t k id a hne hat
    obtain ⟨x, hx, -⟩ := holdings_at.mp hat
    cases t with
    | tPlayer => exact absurd rfl hne
    | tSpawn | tDrop | tDoors => cases hx

/-- Two drops whose ids agree in the lower 16 bits. -/
theorem wide_drop_ids :
    ¬ ∀ (env : Env) (player : Player) (filterMgr : FilterMgr) (guildMgr : GuildMgr)
      (createUnknownSpawns : Bool) (es : List Event),
      ∀ d ∈ trace (Daemon.step env)
          (Daemon.init player filterMgr guildMgr createUnknownSpawns) es, d.shell.KeysAreIds := by
  intro h
  let es : List Event := [⟨.entries, .newGroundItem { dropId := 7 }⟩,
    ⟨.entries, .newGroundItem { dropId := 65543 }⟩]
  let start := Daemon.init { addr := 0, m_ID := 0 } .none (fun _ _ => []) false
  let sh := (es.foldl (Daemon.step .ascii) start).shell
  have hlast : sh.KeysAreIds := h .ascii { addr := 0, m_ID := 0 } .none (fun _ _ => []) false es
    (es.foldl (Daemon.step .ascii) start)
    ((mem_trace_iff (Daemon.step .ascii) start _ es).mpr ⟨es, [], by simp, rfl⟩)
  have hids : (sh.find .tDrop 7).map Item.id = some 7 ∧
    (sh.find .tDrop 65543).map Item.id = some 7 := by decide +kernel
  obtain ⟨x, hx, hxid⟩ := Option.map_eq_some_iff.mp hids.1
  obtain ⟨x', hx', hxid'⟩ := Option.map_eq_some_iff.mp hids.2
  exact absurd (hlast.distinct .tDrop 7 65543 x x' (by decide) hx hx' (hxid.trans hxid'.symm))
    (by decide)

/-! ## The player -/

/-- The player is held once, under its id, and no spawn has that id. -/
structure SpawnShell.TracksPlayer (sh : SpawnShell) : Prop where
  players : ∀ k, sh.find .tPlayer k =
    if k = idKey sh.m_player.m_ID then some (.player sh.m_player) else none
  spawns : sh.m_player.m_ID ≠ 0 → sh.m_spawns.lookup (idKey sh.m_player.m_ID) = none

/-- The same of the ids alone. -/
structure Holdings.TracksPlayer (h : Holdings) : Prop where
  players : ∀ k, h.at_ .tPlayer k = if k = idKey h.player.1 then some h.player else none
  spawns : h.player.1 ≠ 0 → h.at_ .tSpawn (idKey h.player.1) = none

theorem tracksPlayer_iff (sh : SpawnShell) : sh.TracksPlayer ↔ sh.holdings.TracksPlayer := by
  have hplayers : ∀ k, sh.find .tPlayer k =
      (if k = idKey sh.m_player.m_ID then some (.player sh.m_player) else none) ↔
      sh.holdings.at_ .tPlayer k =
        if k = idKey sh.m_player.m_ID then some sh.holdings.player else none := by
    intro k
    show (sh.m_players.lookup k).map _ = _ ↔
      ((sh.m_players.lookup k).map fun _ => Item.player sh.m_player).map Item.key = _
    cases sh.m_players.lookup k with
    | none => split <;> simp
    | some u =>
        split
        · exact iff_of_true rfl rfl
        · simp
  have hspawns : sh.m_spawns.lookup (idKey sh.m_player.m_ID) = none ↔
      sh.holdings.at_ .tSpawn (idKey sh.m_player.m_ID) = none := by
    show _ ↔ ((sh.m_spawns.lookup _).map Item.spawn).map Item.key = none
    rw [Option.map_eq_none_iff, Option.map_eq_none_iff]
  exact ⟨fun h => ⟨fun k => (hplayers k).mp (h.players k), fun hid => hspawns.mp (h.spawns hid)⟩,
    fun h => ⟨fun k => (hplayers k).mpr (h.players k), fun hid => hspawns.mpr (h.spawns hid)⟩⟩

/-- The effect leaves the player, whose id is `playerID`, tracked. -/
def Effect.KeepsPlayer (playerID : UInt16) : Effect → Prop
  | adds type k _ => type = .tSpawn → playerID ≠ 0 → k ≠ idKey playerID
  | clears id _ => id = 0
  | _ => True

namespace Holdings

theorem tracksPlayer_add_iff {h : Holdings} (ht : h.TracksPlayer) {type : SpawnItemType}
    (htype : type ≠ .tPlayer) (k : Int) (id : UInt16) :
    (h.add type k id).TracksPlayer ↔
      (type = .tSpawn → h.player.1 ≠ 0 → k ≠ idKey h.player.1) := by
  constructor
  · rintro hadd rfl hid rfl
    have hnone : (h.add .tSpawn (idKey h.player.1) id).at_ .tSpawn (idKey h.player.1) = none :=
      hadd.spawns hid
    rw [add_at, if_pos ⟨rfl, rfl⟩] at hnone
    cases hnone
  · intro hapart
    refine ⟨fun k' => (add_at_of_ne h htype.symm k k' id).trans (ht.players k'), fun hid => ?_⟩
    show (h.add type k id).at_ .tSpawn (idKey h.player.1) = none
    rw [add_at, if_neg fun hplace => hapart hplace.1.symm hid hplace.2.symm]
    exact ht.spawns hid

theorem TracksPlayer.remove {h : Holdings} (ht : h.TracksPlayer) {type : SpawnItemType}
    (htype : type ≠ .tPlayer) (k : Int) : (h.remove type k).TracksPlayer := by
  refine ⟨fun k' => (remove_at_of_ne h htype.symm k k').trans (ht.players k'), fun hid => ?_⟩
  show (h.remove type k).at_ .tSpawn (idKey h.player.1) = none
  rw [remove_at, ht.spawns hid, ite_self]

/-- A new id always puts things right. -/
theorem tracksPlayer_rename (h : Holdings) (new : UInt16) : (h.rename new).TracksPlayer :=
  ⟨fun _ => rfl, fun _ => if_pos rfl⟩

/-- `clear` puts the player under 0, whatever its id. -/
theorem tracksPlayer_clear_iff (h : Holdings) : h.clear.TracksPlayer ↔ h.player.1 = 0 := by
  constructor
  · intro ht
    have hzero : (if (0 : Int) = idKey h.player.1 then some h.player else none) = some h.player :=
      (ht.players 0).symm
    split at hzero
    · rename_i hkey
      exact (idKey_inj (show idKey 0 = idKey h.player.1 from hkey)).symm
    · cases hzero
  · intro hid
    have hkey : idKey h.player.1 = 0 := congrArg idKey hid
    refine ⟨fun k => ?_, fun hne => absurd hid hne⟩
    show (if SpawnItemType.tPlayer = .tPlayer ∧ k = 0 then some h.player else none) =
      if k = idKey h.player.1 then some h.player else none
    rw [hkey]
    simp only [true_and]

end Holdings

theorem Effect.Of.tracksPlayer_iff {sh : SpawnShell} {o : Out} {eff : Effect} (h : eff.Of sh o)
    (ht : sh.holdings.TracksPlayer) :
    o.1.holdings.TracksPlayer ↔ eff.KeepsPlayer sh.m_player.m_ID := by
  rw [h.refines]
  cases eff with
  | quiet => exact iff_of_true ht trivial
  | adds type k id => exact Holdings.tracksPlayer_add_iff ht (Adds.type_ne h) k id
  | removes type k x => exact iff_of_true (ht.remove (Removes.type_ne h) k) trivial
  | renames p => exact iff_of_true (Holdings.tracksPlayer_rename _ p.m_ID) trivial
  | clears id announced => exact Holdings.tracksPlayer_clear_iff _

/-- The packet does not announce a spawn under the id that the player has. -/
def SpawnShell.Apart (sh : SpawnShell) (s : SpawnStruct) : Prop :=
  s.npc = SPAWN_SELF ∨ sh.m_player.m_ID = 0 ∨ s.spawnId ≠ sh.m_player.m_ID

/-- No zone begins while the player has an id, and no spawn comes under it. -/
def Daemon.PlayerApart (env : Env) (d : Daemon) : Packet → Prop
  | .zonePlayer profile _ => d.zone.zoneChanged env profile = true → d.shell.m_player.m_ID = 0
  | .zoneCheckpoint cp _ => cp.short_zone_name ≠ [] → d.shell.m_player.m_ID = 0
  | .newSpawn s => d.zone.m_zoning = false → d.shell.Apart s
  | .zoneSpawn s => d.shell.Apart s
  | .zoneEntry s => d.shell.isSelf env s = false → d.shell.Apart s
  | _ => True

theorem keepsPlayer_ite {c : Prop} [Decidable c] {a b : Effect} {id : UInt16} :
    (if c then a else b).KeepsPlayer id ↔ (c → a.KeepsPlayer id) ∧ (¬ c → b.KeepsPlayer id) := by
  split
  · rename_i hc
    exact ⟨fun h => ⟨fun _ => h, fun hn => absurd hc hn⟩, fun h => h.1 hc⟩
  · rename_i hc
    exact ⟨fun h => ⟨fun hn => absurd hn hc, fun _ => h⟩, fun h => h.2 hc⟩

theorem newSpawn_keepsPlayer_iff {sh : SpawnShell} (ht : sh.TracksPlayer) (s : SpawnStruct) :
    (sh.newSpawnEffect s).KeepsPlayer sh.m_player.m_ID ↔ sh.Apart s := by
  unfold SpawnShell.newSpawnEffect
  rw [keepsPlayer_ite]
  constructor
  · rintro ⟨hadds, -⟩
    by_cases hself : s.npc = SPAWN_SELF
    · exact Or.inl hself
    · refine Or.inr (Decidable.or_iff_not_imp_left.mpr fun hid heq => ?_)
      -- the place is free, so the spawn is taken in
      have hfree : sh.m_spawns.lookup (idKey s.spawnId) = none := heq ▸ ht.spawns hid
      exact hadds ⟨hself, hfree⟩ rfl hid (congrArg idKey heq)
  · intro hapart
    refine ⟨fun hcreates _ hid hkey => ?_, fun _ => trivial⟩
    rcases hapart with hself | hzero | hne
    · exact hcreates.1 hself
    · exact hid hzero
    · exact hne (idKey_inj hkey)

theorem updateSpawn_keepsPlayer (sh : SpawnShell) (u : SpawnPositionUpdate) :
    (sh.updateSpawnEffect u).KeepsPlayer sh.m_player.m_ID := by
  unfold SpawnShell.updateSpawnEffect
  rw [keepsPlayer_ite]
  exact ⟨fun hcreates _ _ hkey => hcreates.1 (idKey_inj hkey), fun _ => trivial⟩

theorem keepsPlayer_iff (env : Env) {d : Daemon} (ht : d.shell.TracksPlayer) (packet : Packet) :
    (d.effect env packet).KeepsPlayer d.shell.m_player.m_ID ↔ d.PlayerApart env packet := by
  have hset : ∀ (p : Player) id, (p.setPlayerIDEffect id).KeepsPlayer d.shell.m_player.m_ID :=
    fun p id => keepsPlayer_ite.mpr ⟨fun _ => trivial, fun _ => trivial⟩
  have hfixture : ∀ (c : Prop) [Decidable c] (type : SpawnItemType) (k : Int) (id : UInt16),
      type ≠ .tSpawn → (if c then Effect.adds type k id else .quiet).KeepsPlayer
        d.shell.m_player.m_ID :=
    fun c _ type k id hne => keepsPlayer_ite.mpr ⟨fun _ heq => absurd heq hne, fun _ => trivial⟩
  have hdelete : ∀ t k, (d.shell.deleteItemEffect t k).KeepsPlayer d.shell.m_player.m_ID := by
    intro t k
    unfold SpawnShell.deleteItemEffect
    split <;> trivial
  cases packet with
  | zonePlayer profile loaded =>
      exact keepsPlayer_ite.trans ⟨fun h => h.1, fun h => ⟨h, fun _ => trivial⟩⟩
  | zoneCheckpoint cp loaded =>
      exact keepsPlayer_ite.trans ⟨fun h => h.2, fun h => ⟨fun _ => trivial, h⟩⟩
  | zoneChange zoneId dir =>
      exact iff_of_true (keepsPlayer_ite.mpr ⟨fun _ => rfl, fun _ => trivial⟩) trivial
  | playerCheckpoint cp => exact iff_of_true (hset _ _) trivial
  | newGroundItem ds =>
      exact iff_of_true (keepsPlayer_ite.mpr ⟨fun _ => trivial,
        fun _ => hfixture _ .tDrop _ _ (by decide)⟩) trivial
  | removeGroundItem dropId =>
      exact iff_of_true (keepsPlayer_ite.mpr ⟨fun _ => trivial, fun _ => hdelete _ _⟩) trivial
  | newDoorSpawn door => exact iff_of_true (hfixture _ .tDoors _ _ (by decide)) trivial
  | zoneEntry s =>
      refine keepsPlayer_ite.trans ⟨fun h hself => ?_, fun h => ⟨fun _ => hset _ _, fun hself => ?_⟩⟩
      · exact (newSpawn_keepsPlayer_iff ht s).mp (h.2 (ne_true_of_eq_false hself))
      · exact (newSpawn_keepsPlayer_iff ht s).mpr (h (Bool.eq_false_iff.mpr hself))
  | zoneSpawn s => exact newSpawn_keepsPlayer_iff ht s
  | newSpawn s =>
      refine keepsPlayer_ite.trans ⟨fun h hz => ?_, fun h => ⟨fun _ => trivial, fun hz => ?_⟩⟩
      · exact (newSpawn_keepsPlayer_iff ht s).mp (h.2 (ne_true_of_eq_false hz))
      · exact (newSpawn_keepsPlayer_iff ht s).mpr (h (Bool.eq_false_iff.mpr hz))
  | updateSpawn u =>
      exact iff_of_true (keepsPlayer_ite.mpr ⟨fun _ => trivial,
        fun _ => updateSpawn_keepsPlayer d.shell _⟩) trivial
  | clientUpdate dir u =>
      exact iff_of_true (keepsPlayer_ite.mpr ⟨fun _ => hset _ _, fun _ => keepsPlayer_ite.mpr
        ⟨fun _ => trivial, fun _ => updateSpawn_keepsPlayer d.shell u⟩⟩) trivial
  | deleteSpawn spawnId => exact iff_of_true (hdelete _ _) trivial
  | zoneEntryClient | zoneNew | updateNpcHP | illusionSpawn | updateSpawnAppearance | killSpawn
  | addGroupMember | removeGroupMember | filtersChanged | runtimeFiltersChanged | guildTagUpdated
  | subscribe => exact Iff.rfl

/-- In every state of a run the player is tracked once and alone under its id, exactly when no zone
    began while the player had an id, and no spawn came in under it. -/
theorem player_tracked_iff (env : Env) (player : Player) (hid : player.m_ID = 0)
    (filterMgr : FilterMgr) (guildMgr : GuildMgr) (createUnknownSpawns : Bool) (es : List Event) :
    (∀ d ∈ trace (Daemon.step env)
        (Daemon.init player filterMgr guildMgr createUnknownSpawns) es, d.shell.TracksPlayer) ↔
      StepsMeet (Daemon.step env) (fun d e => d.PlayerApart env e.packet)
        (Daemon.init player filterMgr guildMgr createUnknownSpawns) es := by
  refine trace_forall_iff_stepsMeet (Daemon.step env) (step_ok env) (fun d e hok h => ?_)
    (init_ok player filterMgr guildMgr createUnknownSpawns) ?_ es
  · refine Iff.trans ?_ (keepsPlayer_iff env h e.packet)
    rw [tracksPlayer_iff] at h ⊢
    exact (handle_effect env hok e).tracksPlayer_iff h
  · rw [tracksPlayer_iff]
    let sh := SpawnShell.init player filterMgr guildMgr createUnknownSpawns
    have hclear : sh.holdings = sh.holdings.clear := clear_holdings sh
    show sh.holdings.TracksPlayer
    rw [hclear]
    exact (Holdings.tracksPlayer_clear_iff sh.holdings).mpr hid

/-- The player gets the id 5 and loses it by the zone change of the server. -/
theorem player_tracked_zone_change :
    (List.foldl (Daemon.step .ascii) (Daemon.init { addr := 0, m_ID := 0 } .none (fun _ _ => []) false)
      [⟨.entries, .clientUpdate .client { spawnId := 5 }⟩, ⟨.entries, .zoneChange 2 .server⟩]
      ).shell.TracksPlayer :=
  (player_tracked_iff .ascii { addr := 0, m_ID := 0 } rfl .none (fun _ _ => []) false
    [⟨.entries, .clientUpdate .client { spawnId := 5 }⟩, ⟨.entries, .zoneChange 2 .server⟩]).mpr
    ⟨trivial, trivial, trivial⟩ _ ((mem_trace_iff (Daemon.step .ascii) _ _ _).mpr
      ⟨_, [], (List.append_nil _).symm, rfl⟩)

/-- The restored checkpoint gives the player its id first, and begins the zone then. -/
theorem checkpoint_loses_player :
    ¬ ∀ (env : Env) (player : Player) (filterMgr : FilterMgr) (guildMgr : GuildMgr)
      (createUnknownSpawns : Bool) (es : List Event), player.m_ID = 0 →
      ∀ d ∈ trace (Daemon.step env)
          (Daemon.init player filterMgr guildMgr createUnknownSpawns) es, d.shell.TracksPlayer := by
  intro h
  let cp : CheckpointData := {
    player_id := 5
    player_name := "Bob".toList
    player_last_name := []
    player_level := 1
    player_class := 1
    player_race := 1
    player_deity := 396
    short_zone_name := "qeynos".toList
    long_zone_name := "South Qeynos".toList }
  let es : List Event := [⟨.entries, .playerCheckpoint cp⟩, ⟨.entries, .zoneCheckpoint cp .none⟩]
  let start := Daemon.init { addr := 0, m_ID := 0 } .none (fun _ _ => []) false
  have hlast := h .ascii { addr := 0, m_ID := 0 } .none (fun _ _ => []) false es rfl
    (es.foldl (Daemon.step .ascii) start)
    ((mem_trace_iff (Daemon.step .ascii) start _ es).mpr ⟨es, [], by simp, rfl⟩)
  have hzero := hlast.players 0
  revert hzero
  decide +kernel

end ShoweqDaemon.Spawns
