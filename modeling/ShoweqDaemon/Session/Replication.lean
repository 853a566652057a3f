/-
  The client's map against the shell's items, in every run of the daemon.

  Every payload is an update of the client's map (`Payload.update`), every signal a few of them
  (`follow`). `Follows` says when an event leaves the client with exactly the shell's items: what
  is added must not have the id of something held, the player's new id must not be that of a drop
  or a door, and a zone change must be followed by the player. `replication_runs` proves that this
  is exact.
-/
import ShoweqDaemon.Daemon.Effect

namespace ShoweqDaemon.Spawns

open Replica (Mirrors Unambiguous)

/-! ## Payloads as updates -/

/-- The key under which a client takes a message, and the object that it stands for. -/
def SpawnMsg.entry (m : SpawnMsg) : UInt16 × Addr := (m.id, m.origin)

/-- What a payload does to a copy that only knows which object is under which key. -/
def Payload.update : Payload → Replica.Update UInt16 Addr
  | .snapshot _ _ _ spawns => .reset (spawns.map SpawnMsg.entry)
  | .spawnAdded spawn => .put spawn.id spawn.origin
  | .spawnUpdated .. => .keep
  | .spawnRemoved id => .remove id
  | .spawnKilled .. => .keep
  | .zoneChanged .. => .reset []
  | .playerStats => .keep

namespace Client

/-- Any reading of the messages of a snapshot. -/
theorem snapshot_map {α : Type} (f : SpawnMsg → α) (spawns : List SpawnMsg) :
    Option.map f ∘ (spawns.foldl put fun _ => none) =
      Replica.putAll (spawns.map fun m => (m.id, f m)) := by
  induction spawns using List.reverseRecOn with
  | nil => rfl
  | append_singleton spawns m ih =>
      rw [List.foldl_append, List.map_append]
      show Option.map f ∘ Client.put (spawns.foldl put fun _ => none) m =
        Replica.putAll ((spawns.map fun m => (m.id, f m)) ++ [(m.id, f m)])
      rw [Client.put, Function.comp_update, Replica.putAll_append, ih]
      rfl

/-- The client's map, reduced to ids and objects, follows the updates. -/
theorem origins_receive (c : Client) (p : Payload) :
    (c.receive p).origins = Replica.apply c.origins p.update := by
  cases p with
  | snapshot zone_short zone_long player_id spawns => exact snapshot_map SpawnMsg.origin spawns
  | spawnAdded spawn => exact Function.comp_update ..
  | spawnUpdated id pos hp_cur name =>
      refine (Function.comp_update (Option.map SpawnMsg.origin) c id _).trans ?_
      rw [Option.map_map]
      exact Function.update_eq_self id c.origins
  | spawnRemoved id => exact Function.comp_update ..
  | spawnKilled deceased_id killer_id => rfl
  | zoneChanged zone_short zone_long => rfl
  | playerStats => rfl

theorem origins_foldl (c : Client) (ps : List Payload) :
    (ps.foldl receive c).origins = (ps.map Payload.update).foldl Replica.apply c.origins := by
  induction ps generalizing c with
  | nil => rfl
  | cons p ps ih =>
      show (ps.foldl receive (c.receive p)).origins = _
      rw [ih, origins_receive]
      rfl

end Client

section
variable (env : Env) (order : Table.Order) (zone : ZoneMgr)

/-! ## Signals as updates -/

/-- What the payloads of the signals make of the client's map. -/
def follow (copy : UInt16 → Option Addr) (sigs : List Signal) : UInt16 → Option Addr :=
  ((sigs.flatMap (payloads env order zone)).map Payload.update).foldl Replica.apply copy

theorem follow_append (copy : UInt16 → Option Addr) (sigs sigs' : List Signal) :
    follow env order zone copy (sigs ++ sigs') =
      follow env order zone (follow env order zone copy sigs) sigs' := by
  unfold follow
  rw [List.flatMap_append, List.map_append, List.foldl_append]

@[simp] theorem fillSpawn_id (x : Item) : (fillSpawn env x).id = x.id := by
  cases x <;> rfl

@[simp] theorem fillSpawn_origin (x : Item) : (fillSpawn env x).origin = x.addr := by
  cases x <;> rfl

theorem follow_addItem (copy : UInt16 → Option Addr) (x : Item) :
    follow env order zone copy [.addItem x] = Replica.apply copy (.put x.id x.addr) := by
  show Replica.apply copy (.put (fillSpawn env x).id (fillSpawn env x).origin) = _
  rw [fillSpawn_id, fillSpawn_origin]

theorem follow_delItem (copy : UInt16 → Option Addr) (x : Item) :
    follow env order zone copy [.delItem x] = Replica.apply copy (.remove x.id) := rfl

/-- A changed player is announced twice. -/
theorem follow_announce (copy : UInt16 → Option Addr) (x : Item) :
    follow env order zone copy [.playerChangeItem x tSpawnChangedALL] =
      Replica.apply (Replica.apply copy (.put x.id x.addr)) (.put x.id x.addr) := by
  have hadded : onChangeItem env x tSpawnChangedALL = .spawnAdded (fillSpawn env x) :=
    if_pos (Or.inl (by decide))
  have hupdate : (onChangeItem env x tSpawnChangedALL).update = .put x.id x.addr := by
    rw [hadded]
    show Replica.Update.put (fillSpawn env x).id (fillSpawn env x).origin = _
    rw [fillSpawn_id, fillSpawn_origin]
  show Replica.apply (Replica.apply copy (onChangeItem env x tSpawnChangedALL).update)
    (onChangeItem env x tSpawnChangedALL).update = _
  rw [hupdate]

/-- `changeItem` puts the item again or leaves the map alone. -/
theorem onChangeItem_update (x : Item) (c : UInt32) :
    (onChangeItem env x c).update = .put x.id x.addr ∨ (onChangeItem env x c).update = .keep := by
  unfold onChangeItem
  split
  · left
    show Replica.Update.put (fillSpawn env x).id (fillSpawn env x).origin = _
    rw [fillSpawn_id, fillSpawn_origin]
  · right
    split <;> rfl

theorem onChangeItem_mirrors {copy : UInt16 → Option Addr} {h : Holdings}
    (hm : Mirrors copy h.Held) {x : Item} (hx : h.Held x.id x.addr) (c : UInt32) :
    Mirrors (Replica.apply copy (onChangeItem env x c).update) h.Held := by
  rcases onChangeItem_update env x c with heq | heq
  · rw [heq]
    exact hm.put_held hx
  · rw [heq]
    exact hm

theorem follow_quiet {copy : UInt16 → Option Addr} {h : Holdings} {sigs : List Signal}
    (hsigs : ∀ sg ∈ sigs, sg.Quiet h) (hm : Mirrors copy h.Held) :
    Mirrors (follow env order zone copy sigs) h.Held := by
  induction sigs generalizing copy with
  | nil => exact hm
  | cons sg sigs ih =>
      have hsg := hsigs sg (List.mem_cons_self ..)
      have hfirst : Mirrors (follow env order zone copy [sg]) h.Held := by
        cases sg with
        | changeItem x c => exact onChangeItem_mirrors env hm hsg c
        | playerChangeItem x c =>
            exact onChangeItem_mirrors env (onChangeItem_mirrors env hm hsg c) hsg c
        | killSpawn deceased killer killerId => exact hm
        | addItem x => exact hsg.elim
        | delItem x => exact hsg.elim
        | clearItems => exact hsg.elim
        | changedID sh => exact hsg.elim
        | zoneBegin shortName longName => exact hsg.elim
      rw [← List.singleton_append, follow_append]
      exact ih (fun sg' hsg' => hsigs sg' (List.mem_cons_of_mem sg hsg')) hfirst

/-! ## Snapshots -/

theorem mem_map_values {α : Type} (order : Table.Order) (m : Table Int α) (mk : α → Item)
    (x : Item) : x ∈ (order.visit m.values).map mk ↔ ∃ k, (m.lookup k).map mk = some x := by
  rw [List.mem_map]
  constructor
  · rintro ⟨y, hy, rfl⟩
    obtain ⟨k, hk⟩ := Table.mem_values.mp (order.mem_visit.mp hy)
    exact ⟨k, congrArg (Option.map mk) hk⟩
  · rintro ⟨k, hk⟩
    obtain ⟨y, hy, hx⟩ := Option.map_eq_some_iff.mp hk
    exact ⟨y, order.mem_visit.mpr (Table.mem_values.mpr ⟨k, hy⟩), hx⟩

/-- The four maps, one after the other. -/
theorem mem_maps {sh : SpawnShell} {x : Item} :
    x ∈ (order.visit sh.m_spawns.values).map Item.spawn ++
      (order.visit sh.m_drops.values).map .drop ++ (order.visit sh.m_doors.values).map .door ++
      ((order.visit sh.m_players.values).map fun _ => .player sh.m_player) ↔
      ∃ type k, sh.find type k = some x := by
  rw [List.mem_append, List.mem_append, List.mem_append, mem_map_values, mem_map_values,
    mem_map_values, mem_map_values]
  constructor
  · rintro (((⟨k, hk⟩ | ⟨k, hk⟩) | ⟨k, hk⟩) | ⟨k, hk⟩)
    · exact ⟨.tSpawn, k, hk⟩
    · exact ⟨.tDrop, k, hk⟩
    · exact ⟨.tDoors, k, hk⟩
    · exact ⟨.tPlayer, k, hk⟩
  · rintro ⟨type, k, hk⟩
    cases type with
    | tSpawn => exact Or.inl (Or.inl (Or.inl ⟨k, hk⟩))
    | tDrop => exact Or.inl (Or.inl (Or.inr ⟨k, hk⟩))
    | tDoors => exact Or.inl (Or.inr ⟨k, hk⟩)
    | tPlayer => exact Or.inr ⟨k, hk⟩

/-- A snapshot has the items of the four maps. The player is one of them. -/
theorem mem_snapshotItems {sh : SpawnShell} (hok : sh.holdings.Ok) (x : Item) :
    x ∈ snapshotItems order sh ↔ ∃ type k, sh.find type k = some x := by
  unfold snapshotItems
  dsimp only
  rw [List.mem_mergeSort]
  split
  · rw [List.mem_append, mem_maps, List.mem_singleton]
    refine ⟨fun hx => hx.elim id ?_, Or.inl⟩
    rintro rfl
    exact ⟨.tPlayer, find_player hok⟩
  · exact mem_maps order

theorem snapshot_update (sh : SpawnShell) : (snapshot env order zone sh).update =
    .reset ((snapshotItems order sh).map Item.key) := by
  show Replica.Update.reset (((snapshotItems order sh).map (fillSpawn env)).map SpawnMsg.entry) = _
  rw [List.map_map]
  congr 2
  funext x
  show ((fillSpawn env x).id, (fillSpawn env x).origin) = x.key
  rw [fillSpawn_id, fillSpawn_origin]
  rfl

/-- A snapshot serves the client unless two items have one id. -/
theorem snapshot_mirrors {sh : SpawnShell} (hok : sh.holdings.Ok) (copy : UInt16 → Option Addr) :
    Mirrors (Replica.apply copy (snapshot env order zone sh).update) sh.holdings.Held ↔
      Unambiguous sh.holdings.Held := by
  rw [snapshot_update]
  refine Replica.mirrors_reset (fun id a => ?_) copy
  rw [List.mem_map]
  constructor
  · rintro ⟨x, hx, hkey⟩
    obtain ⟨type, k, hk⟩ := (mem_snapshotItems order hok x).mp hx
    exact ⟨type, k, holdings_at.mpr ⟨x, hk, hkey⟩⟩
  · rintro ⟨type, k, hk⟩
    obtain ⟨x, hx, hkey⟩ := holdings_at.mp hk
    exact ⟨x, (mem_snapshotItems order hok x).mpr ⟨type, k, hx⟩, hkey⟩

end

/-! ## What is held after an operation -/

namespace Holdings

theorem held_add {h : Holdings} {type : SpawnItemType} {k : Int} {id : UInt16}
    (hfree : h.at_ type k = none) (id' : UInt16) (a' : Addr) :
    (h.add type k id).Held id' a' ↔ h.Held id' a' ∨ (id' = id ∧ a' = h.next) := by
  constructor
  · rintro ⟨t, k', hat⟩
    rw [add_at] at hat
    split at hat
    · obtain ⟨rfl, rfl⟩ := Prod.mk.inj (Option.some.inj hat)
      exact Or.inr ⟨rfl, rfl⟩
    · exact Or.inl ⟨t, k', hat⟩
  · rintro (⟨t, k', hat⟩ | ⟨rfl, rfl⟩)
    · refine ⟨t, k', ?_⟩
      rw [add_at, if_neg]
      · exact hat
      · rintro ⟨rfl, rfl⟩
        exact nomatch hat.symm.trans hfree
    · exact ⟨type, k, if_pos ⟨rfl, rfl⟩⟩

theorem Ok.held_remove {h : Holdings} (hok : h.Ok) {type : SpawnItemType} {k : Int} {id : UInt16}
    {a : Addr} (hat : h.at_ type k = some (id, a)) (id' : UInt16) (a' : Addr) :
    (h.remove type k).Held id' a' ↔ h.Held id' a' ∧ ¬ (id' = id ∧ a' = a) := by
  constructor
  · rintro ⟨t, k', hat'⟩
    rw [remove_at] at hat'
    split at hat'
    · cases hat'
    · rename_i hne
      refine ⟨⟨t, k', hat'⟩, fun heq => hne ?_⟩
      rw [heq.2] at hat'
      exact hok.addr_inj _ _ _ _ _ _ _ hat' hat
  · rintro ⟨⟨t, k', hat'⟩, hne⟩
    refine ⟨t, k', ?_⟩
    rw [remove_at, if_neg]
    · exact hat'
    · rintro ⟨rfl, rfl⟩
      exact hne (Prod.mk.inj (Option.some.inj (hat'.symm.trans hat)))

theorem held_clear (h : Holdings) (id : UInt16) (a : Addr) :
    h.clear.Held id a ↔ id = h.player.1 ∧ a = h.player.2 := by
  constructor
  · rintro ⟨t, k, hat⟩
    obtain ⟨-, -, hx⟩ := clear_at hat
    exact ⟨congrArg Prod.fst hx, congrArg Prod.snd hx⟩
  · rintro ⟨rfl, rfl⟩
    refine ⟨.tPlayer, 0, ?_⟩
    show (if SpawnItemType.tPlayer = .tPlayer ∧ (0 : Int) = 0 then some h.player else none) = _
    exact if_pos ⟨rfl, rfl⟩

/-- After a new id only drops and doors can get in the way: a spawn with that id is gone. -/
theorem Ok.unambiguous_rename {h : Holdings} (hok : h.Ok) (hun : Unambiguous h.Held)
    (new : UInt16) : Unambiguous (h.rename new).Held ↔
      ∀ k a, h.at_ .tDrop k ≠ some (new, a) ∧ h.at_ .tDoors k ≠ some (new, a) := by
  constructor
  · intro h' k a
    have hplayer : (h.rename new).Held new h.player.2 := ⟨.tPlayer, idKey new, if_pos rfl⟩
    constructor
    · intro hat
      obtain rfl := h' new a h.player.2 ⟨.tDrop, k, hat⟩ hplayer
      exact nomatch hok.player_addr hat
    · intro hat
      obtain rfl := h' new a h.player.2 ⟨.tDoors, k, hat⟩ hplayer
      exact nomatch hok.player_addr hat
  · intro hfixtures
    have hother : ∀ t k a, t ≠ .tPlayer → h.at_ t k = some (new, a) →
        (t = .tSpawn → k ≠ idKey new) → False := by
      intro t k a hne hat hkey
      cases t with
      | tSpawn => exact hkey rfl (hok.spawn_key k new a hat)
      | tDrop => exact (hfixtures k a).1 hat
      | tDoors => exact (hfixtures k a).2 hat
      | tPlayer => exact hne rfl
    rintro id a b ⟨t, k, ha⟩ ⟨t', k', hb⟩
    rcases rename_at ha with ⟨-, -, rfl, rfl⟩ | ⟨hne, hat, hkey⟩ <;>
      rcases rename_at hb with ⟨-, -, hid, rfl⟩ | ⟨hne', hat', hkey'⟩
    · rfl
    · exact (hother t' k' b hne' hat' hkey').elim
    · subst hid
      exact (hother t k a hne hat hkey).elim
    · exact hun id a b ⟨t, k, hat⟩ ⟨t', k', hat'⟩

end Holdings

/-! ## One event -/

/-- An item is in one of the four maps. -/
def SpawnShell.Holds (sh : SpawnShell) (x : Item) : Prop := ∃ type k, sh.find type k = some x

theorem held_iff {sh : SpawnShell} {id : UInt16} {a : Addr} :
    sh.holdings.Held id a ↔ ∃ x, sh.Holds x ∧ x.id = id ∧ x.addr = a := by
  constructor
  · rintro ⟨t, k, hat⟩
    obtain ⟨x, hx, hkey⟩ := holdings_at.mp hat
    exact ⟨x, ⟨t, k, hx⟩, congrArg Prod.fst hkey, congrArg Prod.snd hkey⟩
  · rintro ⟨x, ⟨t, k, hx⟩, rfl, rfl⟩
    exact ⟨t, k, holdings_at.mpr ⟨x, hx, rfl⟩⟩

/-- An address tells which item it is. -/
theorem eq_of_addr_eq {sh : SpawnShell} (hok : sh.holdings.Ok) {x y : Item} (hx : sh.Holds x)
    (hy : sh.Holds y) (h : x.addr = y.addr) : x = y := by
  obtain ⟨t, k, hx⟩ := hx
  obtain ⟨t', k', hy⟩ := hy
  have hatx : sh.holdings.at_ t k = some (x.id, x.addr) := holdings_at.mpr ⟨x, hx, rfl⟩
  have haty : sh.holdings.at_ t' k' = some (y.id, x.addr) :=
    holdings_at.mpr ⟨y, hy, congrArg (Prod.mk y.id) h.symm⟩
  obtain ⟨rfl, rfl⟩ := hok.addr_inj _ _ _ _ _ _ _ hatx haty
  exact Option.some.inj (hx.symm.trans hy)

theorem unambiguous_iff {sh : SpawnShell} (hok : sh.holdings.Ok) :
    Unambiguous sh.holdings.Held ↔
      ∀ x y, sh.Holds x → sh.Holds y → x.id = y.id → x = y := by
  constructor
  · intro h x y hx hy hid
    exact eq_of_addr_eq hok hx hy
      (h x.id x.addr y.addr (held_iff.mpr ⟨x, hx, rfl, rfl⟩) (held_iff.mpr ⟨y, hy, hid.symm, rfl⟩))
  · intro h id a b ha hb
    obtain ⟨x, hx, hid, rfl⟩ := held_iff.mp ha
    obtain ⟨y, hy, rfl, rfl⟩ := held_iff.mp hb
    rw [h x y hx hy hid]

/-- Does a client that has the shell's items still have them after this effect? -/
def SpawnShell.Follows (sh : SpawnShell) : Effect → Prop
  | .quiet | .removes .. => True
  | .adds _ _ id => ∀ x, sh.Holds x → x.id ≠ id
  | .renames p => ∀ k x, sh.find .tDrop k = some x ∨ sh.find .tDoors k = some x → x.id ≠ p.m_ID
  | .clears _ announced => announced = true

section
variable (env : Env) (order : Table.Order) (zone : ZoneMgr) {copy : UInt16 → Option Addr}
  {sh : SpawnShell} {o : Out}

theorem adds_mirrors_iff (hok : sh.holdings.Ok) (hm : Mirrors copy sh.holdings.Held)
    {type : SpawnItemType} {k : Int} {id : UInt16} (ho : Adds sh o type k id) :
    Mirrors (follow env order zone copy o.2) o.1.holdings.Held ↔
      sh.Follows (.adds type k id) := by
  obtain ⟨x, hsignals, hkey, -⟩ := ho.signals
  obtain ⟨rfl, haddr⟩ := Prod.mk.inj hkey
  have hheld : ∀ id' a', (sh.holdings.add type k x.id).Held id' a' ↔
      sh.holdings.Held id' a' ∨ (id' = x.id ∧ a' = sh.next) := Holdings.held_add ho.free
  rw [hsignals, follow_addItem, ho.holdings]
  constructor
  · intro hm' y hy hid
    have hold : sh.holdings.Held x.id y.addr := held_iff.mpr ⟨y, hy, hid, rfl⟩
    have heq : y.addr = sh.next := hm'.unambiguous x.id y.addr sh.next
      ((hheld x.id y.addr).mpr (Or.inl hold)) ((hheld x.id _).mpr (Or.inr ⟨rfl, rfl⟩))
    obtain ⟨t, k', hat⟩ := hold
    have hlt : y.addr < sh.next := hok.addr_lt t k' _ _ hat
    rw [heq] at hlt
    exact Nat.lt_irrefl _ hlt
  · intro hfree
    refine hm.put_new (fun a ha => ?_) fun id' a' => ?_
    · obtain ⟨y, hy, hid, -⟩ := held_iff.mp ha
      exact hfree y hy hid
    · rw [haddr]
      exact hheld id' a'

theorem removes_mirrors (hok : sh.holdings.Ok) (hm : Mirrors copy sh.holdings.Held)
    {type : SpawnItemType} {k : Int} {x : Item} (ho : Removes sh o type k x) :
    Mirrors (follow env order zone copy o.2) o.1.holdings.Held := by
  have hat : sh.holdings.at_ type k = some (x.id, x.addr) := holdings_at.mpr ⟨x, ho.found, rfl⟩
  rw [ho.signals, ho.holdings, follow_delItem]
  exact hm.remove ⟨type, k, hat⟩ (hok.held_remove hat)

theorem renames_mirrors_iff (hok : sh.holdings.Ok) (hm : Mirrors copy sh.holdings.Held)
    {p : Player} (ho : Renames sh o p) :
    Mirrors (follow env order zone copy o.2) o.1.holdings.Held ↔ sh.Follows (.renames p) := by
  have hok' : o.1.holdings.Ok := ho.holdings ▸ hok.rename p.m_ID
  obtain ⟨sh', rest, hsignals, hsame, hrest, -⟩ := ho.signals
  have hplayer : o.1.holdings.Held p.m_ID p.addr := by
    rw [ho.holdings, ho.addr]
    exact ⟨.tPlayer, idKey p.m_ID, if_pos rfl⟩
  -- whatever came before, the snapshot starts anew
  have hsplit : o.2 = ([.delItem (.player p)] ++ sh.evicted p.m_ID ++
      [.changeItem (.player p) tSpawnChangedALL]) ++ ([.changedID sh'] ++
        (.playerChangeItem (.player p) tSpawnChangedALL :: rest)) := by
    rw [hsignals]
    simp
  have hlater : ∀ sg ∈ Signal.playerChangeItem (.player p) tSpawnChangedALL :: rest,
      sg.Quiet o.1.holdings := by
    intro sg hsg
    rcases List.mem_cons.mp hsg with rfl | hsg
    · exact hplayer
    · exact hrest sg hsg
  have hexact : Mirrors (follow env order zone copy o.2) o.1.holdings.Held ↔
      Unambiguous o.1.holdings.Held := by
    refine ⟨Mirrors.unambiguous, fun hun => ?_⟩
    rw [hsplit, follow_append, follow_append]
    refine follow_quiet env order zone hlater ?_
    have hsnap := (snapshot_mirrors env order zone (hsame ▸ hok')
      (follow env order zone copy ([.delItem (.player p)] ++ sh.evicted p.m_ID ++
        [.changeItem (.player p) tSpawnChangedALL]))).mpr (hsame ▸ hun)
    rw [← hsame]
    exact hsnap
  rw [hexact, ho.holdings, hok.unambiguous_rename hm.unambiguous]
  constructor
  · rintro h k x (hx | hx) hid
    · exact (h k x.addr).1 (holdings_at.mpr ⟨x, hx, congrArg (fun id => (id, x.addr)) hid⟩)
    · exact (h k x.addr).2 (holdings_at.mpr ⟨x, hx, congrArg (fun id => (id, x.addr)) hid⟩)
  · intro h k a
    constructor
    · intro hat
      obtain ⟨x, hx, hkey⟩ := holdings_at.mp hat
      exact h k x (Or.inl hx) (congrArg Prod.fst hkey)
    · intro hat
      obtain ⟨x, hx, hkey⟩ := holdings_at.mp hat
      exact h k x (Or.inr hx) (congrArg Prod.fst hkey)

theorem clears_mirrors_iff {id : UInt16} {announced : Bool} (ho : Clears sh o id announced) :
    Mirrors (follow env order zone copy o.2) o.1.holdings.Held ↔
      sh.Follows (.clears id announced) := by
  obtain ⟨p, shortName, longName, hsignals⟩ := ho.signals
  have hheld := Holdings.held_clear { sh.holdings with player := (id, sh.m_player.addr) }
  have hempty : ∀ sigs, follow env order zone copy ([.clearItems,
      .changeItem (.player p) tSpawnChangedALL, .zoneBegin shortName longName] ++ sigs) =
      follow env order zone (fun _ => none) sigs := fun _ => rfl
  rw [hsignals, hempty, ho.holdings]
  cases announced with
  | false =>
      refine iff_of_false (fun hm => ?_) fun h => nomatch h
      exact nomatch (hm id sh.m_player.addr).mpr ((hheld _ _).mpr ⟨rfl, rfl⟩)
  | true =>
      refine iff_of_true ?_ rfl
      have hplayer : (Item.player o.1.m_player).key = (id, sh.m_player.addr) :=
        congrArg Holdings.player ho.holdings
      obtain ⟨hid, haddr⟩ := Prod.mk.inj hplayer
      have hnobody : Mirrors (fun _ : UInt16 => (none : Option Addr)) fun _ _ => False :=
        fun _ _ => ⟨fun h => (nomatch h), False.elim⟩
      rw [if_pos rfl, follow_announce, hid, haddr]
      have hput := hnobody.put_new (k := id) (a := sh.m_player.addr) (fun _ => not_false)
        fun id' a' => (hheld id' a').trans (by simp)
      exact hput.put_held ((hheld _ _).mpr ⟨rfl, rfl⟩)

theorem mirrors_iff_follows (hok : sh.holdings.Ok) (hm : Mirrors copy sh.holdings.Held)
    {eff : Effect} (ho : eff.Of sh o) :
    Mirrors (follow env order zone copy o.2) o.1.holdings.Held ↔ sh.Follows eff := by
  cases eff with
  | quiet =>
      refine iff_of_true ?_ trivial
      rw [Quiet.holdings ho]
      exact follow_quiet env order zone (Quiet.signals ho) hm
  | adds type k id => exact adds_mirrors_iff env order zone hok hm ho
  | removes type k x => exact iff_of_true (removes_mirrors env order zone hok hm ho) trivial
  | renames p => exact renames_mirrors_iff env order zone hok hm ho
  | clears id announced => exact clears_mirrors_iff env order zone ho

end

/-! ## Runs -/

namespace Daemon

/-- A subscribed client has an entry for each item that the shell holds, and no other. -/
def Replicated (d : Daemon) : Prop :=
  d.session.m_subscribed = true → ∀ id a,
    (Client.after d.session.sent).origins id = some a ↔ ∃ x, d.shell.Holds x ∧ x.id = id ∧ x.addr = a

/-- Before the Subscribe nothing matters; the Subscribe itself must not find an id twice. -/
def Follows (env : Env) (d : Daemon) (packet : Packet) : Prop :=
  if d.session.m_subscribed = true then d.shell.Follows (d.effect env packet)
  else
    match packet with
    | .subscribe => ∀ x y, d.shell.Holds x → d.shell.Holds y → x.id = y.id → x = y
    | _ => True

theorem replicated_iff (d : Daemon) : d.Replicated ↔ (d.session.m_subscribed = true →
    Mirrors (Client.after d.session.sent).origins d.shell.holdings.Held) := by
  unfold Replicated Mirrors
  simp only [held_iff]

/-- A subscribed session sends what its slots make of the signals. -/
theorem step_session (env : Env) {d : Daemon} (hsub : d.session.m_subscribed = true) (e : Event) :
    (d.step env e).session = { d.session with
      sent := d.session.sent ++
        (d.handle env e).2.flatMap (payloads env e.order (d.zoneAfter env e.packet)) } := by
  have hsame : d.sessionHandle env e = d.session := by
    unfold sessionHandle
    split
    · exact if_pos hsub
    · rfl
  show (d.sessionHandle env e).onSignals env e.order _ _ = _
  rw [hsame]
  exact if_pos hsub

/-- What a subscribed client has after the step. -/
theorem step_origins (env : Env) {d : Daemon} (hsub : d.session.m_subscribed = true) (e : Event) :
    (d.step env e).session.m_subscribed = true ∧
      (Client.after (d.step env e).session.sent).origins =
        follow env e.order (d.zoneAfter env e.packet) (Client.after d.session.sent).origins
          (d.handle env e).2 := by
  rw [step_session env hsub e]
  refine ⟨hsub, ?_⟩
  unfold Client.after follow
  rw [List.foldl_append, Client.origins_foldl]

/-- Without a subscription only a Subscribe sends something: the snapshot. -/
theorem step_unsubscribed (env : Env) {d : Daemon} (hsub : ¬ d.session.m_subscribed = true)
    (e : Event) : (e.packet = .subscribe ∧ (d.step env e).shell = d.shell ∧
        (d.step env e).session =
          { m_subscribed := true
            sent := d.session.sent ++ [snapshot env e.order d.zone d.shell, .playerStats] }) ∨
      (e.packet ≠ .subscribe ∧ ¬ (d.step env e).session.m_subscribed = true) := by
  obtain ⟨order, packet⟩ := e
  by_cases hpacket : packet = .subscribe
  · subst hpacket
    refine Or.inl ⟨rfl, rfl, ?_⟩
    show (d.session.subscribe env order d.zone d.shell).onSignals env order d.zone [] = _
    unfold Session.subscribe
    rw [if_neg hsub]
    show Session.mk true (_ ++ []) = _
    rw [List.append_nil]
  · have hsame : d.sessionHandle env ⟨order, packet⟩ = d.session := by
      unfold sessionHandle
      split
      · rename_i heq
        exact absurd heq hpacket
      · rfl
    refine Or.inr ⟨hpacket, ?_⟩
    show ¬ ((d.sessionHandle env ⟨order, packet⟩).onSignals env order _ _).m_subscribed = true
    rw [hsame]
    unfold Session.onSignals
    rw [if_neg hsub]
    exact hsub

/-- A client that subscribes has what the snapshot makes of its map. -/
theorem subscribed_origins (env : Env) (order : Table.Order) (d : Daemon) :
    (Client.after (d.session.sent ++ [snapshot env order d.zone d.shell, .playerStats])).origins =
      Replica.apply (Client.after d.session.sent).origins
        (snapshot env order d.zone d.shell).update := by
  unfold Client.after
  rw [List.foldl_append, Client.origins_foldl]
  rfl

theorem step_replicated_iff (env : Env) {d : Daemon} (hok : d.shell.holdings.Ok)
    (h : d.Replicated) (e : Event) : (d.step env e).Replicated ↔ d.Follows env e.packet := by
  rw [replicated_iff] at h ⊢
  unfold Follows
  by_cases hsub : d.session.m_subscribed = true
  · obtain ⟨hsub', horigins⟩ := step_origins env hsub e
    rw [if_pos hsub, horigins]
    have hexact := mirrors_iff_follows env e.order (d.zoneAfter env e.packet) hok (h hsub)
      (handle_effect env hok e)
    exact ⟨fun h' => hexact.mp (h' hsub'), fun h' _ => hexact.mpr h'⟩
  · rw [if_neg hsub]
    rcases step_unsubscribed env hsub e with ⟨hpacket, hshell, hsession⟩ | ⟨hpacket, hsub'⟩
    · rw [hpacket, hshell, hsession, subscribed_origins]
      have hexact := snapshot_mirrors env e.order d.zone hok (Client.after d.session.sent).origins
      rw [unambiguous_iff hok] at hexact
      exact ⟨fun h' => hexact.mp (h' rfl), fun h' _ => hexact.mpr h'⟩
    · refine iff_of_true (fun h' => absurd h' hsub') ?_
      split
      · rename_i heq
        exact absurd heq hpacket
      · trivial

end Daemon

/-- In a run of the daemon a subscribed client has exactly the items that the shell holds, after
    every event, exactly when every event lets it follow. -/
theorem replication_runs (env : Env) (player : Player) (filterMgr : FilterMgr)
    (guildMgr : GuildMgr) (createUnknownSpawns : Bool) (es : List Event) :
    (∀ d ∈ Machine.trace (Daemon.step env)
        (Daemon.init player filterMgr guildMgr createUnknownSpawns) es, d.Replicated) ↔
    Machine.StepsMeet (Daemon.step env) (fun d e => d.Follows env e.packet)
      (Daemon.init player filterMgr guildMgr createUnknownSpawns) es := by
  refine Machine.trace_forall_iff_stepsMeet (Daemon.step env) (step_ok env) (fun d e hok h => ?_)
    (init_ok player filterMgr guildMgr createUnknownSpawns) ?_ es
  · exact Daemon.step_replicated_iff env hok h e
  · exact fun hsub => nomatch hsub

/-- A spawn comes in under the id of a door and goes again: the client has lost the door. -/
theorem removed_spawn_hides_door :
    ¬ ∀ (env : Env) (player : Player) (filterMgr : FilterMgr) (guildMgr : GuildMgr)
      (createUnknownSpawns : Bool) (es : List Event),
      ∀ d ∈ Machine.trace (Daemon.step env)
          (Daemon.init player filterMgr guildMgr createUnknownSpawns) es, d.Replicated := by
  intro h
  let es : List Event := [⟨.entries, .subscribe⟩, ⟨.entries, .newDoorSpawn { doorId := 5 }⟩,
    ⟨.entries, .newSpawn { spawnId := 5, npc := SPAWN_NPC }⟩, ⟨.entries, .deleteSpawn 5⟩]
  let start := Daemon.init { addr := 0, m_ID := 0 } .none (fun _ _ => []) false
  let last := es.foldl (Daemon.step .ascii) start
  have hlast : last.Replicated := h .ascii { addr := 0, m_ID := 0 } .none (fun _ _ => []) false es
    last ((Machine.mem_trace_iff (Daemon.step .ascii) start last es).mpr ⟨es, [], by simp, rfl⟩)
  have hsub : last.session.m_subscribed = true := by decide +kernel
  have hdoor : (last.shell.find .tDoors 5).map Item.key = some (5, 1) := by decide +kernel
  have hgone : (Client.after last.session.sent).origins 5 = none := by decide +kernel
  obtain ⟨x, hx, hkey⟩ := Option.map_eq_some_iff.mp hdoor
  have hclient := (hlast hsub 5 1).mpr
    ⟨x, ⟨.tDoors, 5, hx⟩, congrArg Prod.fst hkey, congrArg Prod.snd hkey⟩
  exact nomatch hgone.symm.trans hclient

end ShoweqDaemon.Spawns
