/-
  Who is where: `SpawnShell` reduced to the ids and addresses of the items in its maps.

  `Holdings` is the abstract state, with its own operations; `Holdings.Ok` is the invariant of
  every run. The lemmas of the second half say, handler by handler, which operation it is:
  none (`Quiet`), one new item (`Adds`), one item less (`Removes`), `clear`, or the new id of the
  player (`Holdings.rename`).

  Proved:
  * `Ok.add`, `Ok.remove`, `clear_ok`, `Ok.rename`: each operation keeps the invariant.
  * `Ok.player_held`, `Ok.player_addr`: the player is held, and nothing else has its address.
  * `Sets.holdings`, `Sets.quiet`, `Sets.adds`: what putting an item at a place does to the
    holdings, where the same item was there and where none was.
-/
import ShoweqDaemon.Spawn.SpawnShell

namespace ShoweqDaemon.Spawns

/-- An item's id and address. -/
def Item.key (x : Item) : UInt16 × Addr := (x.id, x.addr)

/-- The items of the four maps, the player, and the next address. -/
@[ext] structure Holdings where
  at_ : SpawnItemType → Int → Option (UInt16 × Addr)
  player : UInt16 × Addr
  next : Addr

namespace Holdings

/-- A new object under a key. -/
def add (h : Holdings) (type : SpawnItemType) (k : Int) (id : UInt16) : Holdings :=
  { h with
    at_ := fun t k' => if t = type ∧ k' = k then some (id, h.next) else h.at_ t k'
    next := h.next + 1 }

/-- A key is empty. -/
def remove (h : Holdings) (type : SpawnItemType) (k : Int) : Holdings :=
  { h with at_ := fun t k' => if t = type ∧ k' = k then none else h.at_ t k' }

/-- Only the player's own key is left. -/
def clear (h : Holdings) : Holdings :=
  { h with at_ := fun t k => if t = .tPlayer ∧ k = 0 then some h.player else none }

/-- The player moves to the key `id`; a spawn with that id goes. -/
def rename (h : Holdings) (id : UInt16) : Holdings :=
  { h with
    player := (id, h.player.2)
    at_ := fun t k =>
      match t with
      | .tPlayer => if k = idKey id then some (id, h.player.2) else none
      | .tSpawn => if k = idKey id then none else h.at_ .tSpawn k
      | .tDrop => h.at_ .tDrop k
      | .tDoors => h.at_ .tDoors k }

theorem add_at (h : Holdings) (type : SpawnItemType) (k : Int) (id : UInt16) (t : SpawnItemType)
    (k' : Int) : (h.add type k id).at_ t k' =
      if t = type ∧ k' = k then some (id, h.next) else h.at_ t k' := rfl

theorem add_at_of_ne (h : Holdings) {type t : SpawnItemType} (hne : t ≠ type) (k k' : Int)
    (id : UInt16) : (h.add type k id).at_ t k' = h.at_ t k' :=
  if_neg fun heq => hne heq.1

theorem remove_at (h : Holdings) (type : SpawnItemType) (k : Int) (t : SpawnItemType) (k' : Int) :
    (h.remove type k).at_ t k' = if t = type ∧ k' = k then none else h.at_ t k' := rfl

theorem remove_at_of_ne (h : Holdings) {type t : SpawnItemType} (hne : t ≠ type) (k k' : Int) :
    (h.remove type k).at_ t k' = h.at_ t k' :=
  if_neg fun heq => hne heq.1

/-- An item with this id and address is held. -/
def Held (h : Holdings) (id : UInt16) (a : Addr) : Prop := ∃ t k, h.at_ t k = some (id, a)

/-- What every run keeps. -/
structure Ok (h : Holdings) : Prop where
  /-- Spawns lie under their ids. -/
  spawn_key : ∀ k id a, h.at_ .tSpawn k = some (id, a) → k = idKey id
  addr_lt : ∀ t k id a, h.at_ t k = some (id, a) → a < h.next
  /-- An object lies in one place only. -/
  addr_inj : ∀ t k id t' k' id' a, h.at_ t k = some (id, a) → h.at_ t' k' = some (id', a) →
    t = t' ∧ k = k'
  /-- The player lies under its id or under 0, and nothing else lies in its map. -/
  player_at : ∃ k, (∀ k', h.at_ .tPlayer k' = if k' = k then some h.player else none) ∧
    (k = 0 ∨ k = idKey h.player.1)

theorem Ok.player_held {h : Holdings} (hok : h.Ok) : h.Held h.player.1 h.player.2 := by
  obtain ⟨k, hk, -⟩ := hok.player_at
  exact ⟨.tPlayer, k, (hk k).trans (if_pos rfl)⟩

theorem Ok.player_lt {h : Holdings} (hok : h.Ok) : h.player.2 < h.next := by
  obtain ⟨t, k, hk⟩ := hok.player_held
  exact hok.addr_lt t k _ _ hk

/-- Nothing but the player has the player's address. -/
theorem Ok.player_addr {h : Holdings} (hok : h.Ok) {t : SpawnItemType} {k : Int} {id : UInt16}
    (hat : h.at_ t k = some (id, h.player.2)) : t = .tPlayer := by
  obtain ⟨k', hk', -⟩ := hok.player_at
  have hself : h.at_ .tPlayer k' = some (h.player.1, h.player.2) := (hk' k').trans (if_pos rfl)
  exact (hok.addr_inj t k id .tPlayer k' _ _ hat hself).1

theorem Ok.add {h : Holdings} (hok : h.Ok) {type : SpawnItemType} {k : Int} {id : UInt16}
    (htype : type ≠ .tPlayer) (hkey : type = .tSpawn → k = idKey id) : (h.add type k id).Ok where
  spawn_key k' id' a hat := by
    rw [add_at] at hat
    split at hat
    · rename_i heq
      obtain ⟨rfl, -⟩ := Prod.mk.inj (Option.some.inj hat)
      exact heq.2.trans (hkey heq.1.symm)
    · exact hok.spawn_key k' id' a hat
  addr_lt t k' id' a hat := by
    rw [add_at] at hat
    split at hat
    · obtain ⟨-, rfl⟩ := Prod.mk.inj (Option.some.inj hat)
      exact Nat.lt_succ_self _
    · exact Nat.lt_succ_of_lt (hok.addr_lt t k' id' a hat)
  addr_inj t k₁ id₁ t' k₂ id₂ a h₁ h₂ := by
    rw [add_at] at h₁ h₂
    split at h₁ <;> split at h₂
    · rename_i heq₁ heq₂
      exact ⟨heq₁.1.trans heq₂.1.symm, heq₁.2.trans heq₂.2.symm⟩
    · obtain ⟨-, rfl⟩ := Prod.mk.inj (Option.some.inj h₁)
      exact absurd (hok.addr_lt _ _ _ _ h₂) (Nat.lt_irrefl _)
    · obtain ⟨-, rfl⟩ := Prod.mk.inj (Option.some.inj h₂)
      exact absurd (hok.addr_lt _ _ _ _ h₁) (Nat.lt_irrefl _)
    · exact hok.addr_inj t k₁ id₁ t' k₂ id₂ a h₁ h₂
  player_at := by
    obtain ⟨kp, hkp, hkey'⟩ := hok.player_at
    exact ⟨kp, fun k' => (add_at_of_ne h htype.symm k k' id).trans (hkp k'), hkey'⟩

theorem Ok.remove {h : Holdings} (hok : h.Ok) {type : SpawnItemType} (htype : type ≠ .tPlayer)
    (k : Int) : (h.remove type k).Ok := by
  have hsub : ∀ {t k' x}, (h.remove type k).at_ t k' = some x → h.at_ t k' = some x := by
    intro t k' x hat
    rw [remove_at] at hat
    split at hat
    · cases hat
    · exact hat
  refine ⟨fun k' id a hat => hok.spawn_key k' id a (hsub hat),
    fun t k' id a hat => hok.addr_lt t k' id a (hsub hat),
    fun t k₁ id₁ t' k₂ id₂ a h₁ h₂ => hok.addr_inj t k₁ id₁ t' k₂ id₂ a (hsub h₁) (hsub h₂), ?_⟩
  obtain ⟨kp, hkp, hkey⟩ := hok.player_at
  exact ⟨kp, fun k' => (remove_at_of_ne h htype.symm k k').trans (hkp k'), hkey⟩

theorem clear_at {h : Holdings} {t : SpawnItemType} {k : Int} {x : UInt16 × Addr}
    (hat : h.clear.at_ t k = some x) : t = .tPlayer ∧ k = 0 ∧ x = h.player := by
  unfold Holdings.clear at hat
  dsimp only at hat
  split at hat
  · rename_i heq
    exact ⟨heq.1, heq.2, (Option.some.inj hat).symm⟩
  · cases hat

/-- After `clear` only the address of the player matters. -/
theorem clear_ok {h : Holdings} (hlt : h.player.2 < h.next) : h.clear.Ok where
  spawn_key k id a hat := nomatch (clear_at hat).1
  addr_lt t k id a hat := by
    obtain ⟨-, -, hx⟩ := clear_at hat
    rw [show a = h.player.2 from congrArg Prod.snd hx]
    exact hlt
  addr_inj t k id t' k' id' a h₁ h₂ := by
    obtain ⟨ht, hk, -⟩ := clear_at h₁
    obtain ⟨ht', hk', -⟩ := clear_at h₂
    exact ⟨ht.trans ht'.symm, hk.trans hk'.symm⟩
  player_at := ⟨0, fun k' => by simp [Holdings.clear], Or.inl rfl⟩

theorem rename_at {h : Holdings} {new id : UInt16} {t : SpawnItemType} {k : Int} {a : Addr}
    (hat : (h.rename new).at_ t k = some (id, a)) :
    (t = .tPlayer ∧ k = idKey new ∧ id = new ∧ a = h.player.2) ∨
      (t ≠ .tPlayer ∧ h.at_ t k = some (id, a) ∧ (t = .tSpawn → k ≠ idKey new)) := by
  unfold Holdings.rename at hat
  cases t with
  | tPlayer =>
      dsimp only at hat
      split at hat
      · rename_i hk
        obtain ⟨rfl, rfl⟩ := Prod.mk.inj (Option.some.inj hat)
        exact Or.inl ⟨rfl, hk, rfl, rfl⟩
      · cases hat
  | tSpawn =>
      dsimp only at hat
      split at hat
      · cases hat
      · rename_i hk
        exact Or.inr ⟨by decide, hat, fun _ => hk⟩
  | tDrop => exact Or.inr ⟨by decide, hat, fun heq => nomatch heq⟩
  | tDoors => exact Or.inr ⟨by decide, hat, fun heq => nomatch heq⟩

theorem Ok.rename {h : Holdings} (hok : h.Ok) (new : UInt16) : (h.rename new).Ok where
  spawn_key k id a hat := by
    rcases rename_at hat with ⟨ht, -⟩ | ⟨-, hat, -⟩
    · cases ht
    · exact hok.spawn_key k id a hat
  addr_lt t k id a hat := by
    rcases rename_at hat with ⟨-, -, -, rfl⟩ | ⟨-, hat, -⟩
    · exact hok.player_lt
    · exact hok.addr_lt t k id a hat
  addr_inj t k id t' k' id' a h₁ h₂ := by
    rcases rename_at h₁ with ⟨rfl, rfl, rfl, rfl⟩ | ⟨hne, h₁, -⟩ <;>
      rcases rename_at h₂ with ⟨rfl, rfl, -, ha⟩ | ⟨hne', h₂, -⟩
    · exact ⟨rfl, rfl⟩
    · exact absurd (hok.player_addr h₂) hne'
    · subst ha
      exact absurd (hok.player_addr h₁) hne
    · exact hok.addr_inj t k id t' k' id' a h₁ h₂
  player_at := ⟨idKey new, fun _ => rfl, Or.inr rfl⟩

end Holdings

/-! ## The reduction -/

/-- What the maps of the shell hold. -/
def SpawnShell.holdings (sh : SpawnShell) : Holdings where
  at_ := fun t k => (sh.find t k).map Item.key
  player := (Item.player sh.m_player).key
  next := sh.next

theorem holdings_at {sh : SpawnShell} {t : SpawnItemType} {k : Int} {id : UInt16} {a : Addr} :
    sh.holdings.at_ t k = some (id, a) ↔ ∃ x, sh.find t k = some x ∧ x.key = (id, a) :=
  Option.map_eq_some_iff

/-- A signal about items that are held, which adds and removes nothing. -/
def Signal.Quiet (h : Holdings) : Signal → Prop
  | .changeItem x _ | .playerChangeItem x _ => h.Held x.key.1 x.key.2
  | .killSpawn .. => True
  | _ => False

/-- The maps hold what they held, and no signal says otherwise. -/
structure Quiet (sh : SpawnShell) (o : Out) : Prop where
  holdings : o.1.holdings = sh.holdings
  signals : ∀ sg ∈ o.2, sg.Quiet sh.holdings

/-- The handler adds one new item, under the id `id` at a free place, and announces it. The item
    that is announced is the one that is stored. -/
structure Adds (sh : SpawnShell) (o : Out) (type : SpawnItemType) (k : Int) (id : UInt16) :
    Prop where
  type_ne : type ≠ .tPlayer
  key_eq : type = .tSpawn → k = idKey id
  free : sh.holdings.at_ type k = none
  holdings : o.1.holdings = sh.holdings.add type k id
  signals : ∃ x, o.2 = [.addItem x] ∧ x.key = (id, sh.next) ∧ (x.spawn?.isSome → type = .tSpawn)
  /-- The item that is announced is the one that is stored. -/
  stored : ∃ x, o.2 = [.addItem x] ∧ o.1.find type k = some x

/-- The handler removes the item that `find` gives, which is not the player, and announces it as it
    was. -/
structure Removes (sh : SpawnShell) (o : Out) (type : SpawnItemType) (k : Int) (x : Item) :
    Prop where
  type_ne : type ≠ .tPlayer
  found : sh.find type k = some x
  holdings : o.1.holdings = sh.holdings.remove type k
  signals : o.2 = [.delItem x]

theorem Quiet.refl (sh : SpawnShell) : Quiet sh (sh, []) := ⟨rfl, fun _ hsg => nomatch hsg⟩

theorem Quiet.single {sh sh' : SpawnShell} (h : sh'.holdings = sh.holdings) {sg : Signal}
    (hsg : sg.Quiet sh.holdings) : Quiet sh (sh', [sg]) := by
  refine ⟨h, fun sg' hsg' => ?_⟩
  rw [List.mem_singleton.mp hsg']
  exact hsg

theorem Quiet.andThen {sh : SpawnShell} {o : Out} {f : SpawnShell → Out} (h : Quiet sh o)
    (hf : Quiet o.1 (f o.1)) : Quiet sh (o.andThen f) := by
  refine ⟨hf.holdings.trans h.holdings, fun sg hsg => ?_⟩
  rcases List.mem_append.mp hsg with hsg | hsg
  · exact h.signals sg hsg
  · rw [← h.holdings]
    exact hf.signals sg hsg

/-! ### One place of a map -/

/-- `sh'` is `sh` with the item `x` at one place. -/
structure Sets (sh sh' : SpawnShell) (type : SpawnItemType) (k : Int) (x : Item) : Prop where
  find : ∀ t k', sh'.find t k' = if t = type ∧ k' = k then some x else sh.find t k'
  player : (Item.player sh'.m_player).key = (Item.player sh.m_player).key

theorem map_lookup_insert {α : Type} (m : Table Int α) (mk : α → Item) (t : SpawnItemType)
    (k k' : Int) (x : α) : (AList.lookup k' (AList.insert k x m)).map mk =
      if t = t ∧ k' = k then some (mk x) else (m.lookup k').map mk := by
  rw [Table.lookup_insert]
  by_cases h : k' = k
  · rw [if_pos h, if_pos ⟨rfl, h⟩]
    rfl
  · rw [if_neg h, if_neg fun h' => h h'.2]

theorem sets_spawn (sh : SpawnShell) (k : Int) (s : Spawn) (n : Addr) :
    Sets sh { sh with m_spawns := sh.m_spawns.insert k s, next := n } .tSpawn k (.spawn s) where
  find t k' := by
    cases t with
    | tSpawn => exact map_lookup_insert sh.m_spawns .spawn .tSpawn k k' s
    | tDrop => rfl
    | tDoors => rfl
    | tPlayer => rfl
  player := rfl

theorem sets_drop (sh : SpawnShell) (k : Int) (d : Drop) (n : Addr) :
    Sets sh { sh with m_drops := sh.m_drops.insert k d, next := n } .tDrop k (.drop d) where
  find t k' := by
    cases t with
    | tDrop => exact map_lookup_insert sh.m_drops .drop .tDrop k k' d
    | tSpawn => rfl
    | tDoors => rfl
    | tPlayer => rfl
  player := rfl

theorem sets_door (sh : SpawnShell) (k : Int) (d : Door) (n : Addr) :
    Sets sh { sh with m_doors := sh.m_doors.insert k d, next := n } .tDoors k (.door d) where
  find t k' := by
    cases t with
    | tDoors => exact map_lookup_insert sh.m_doors .door .tDoors k k' d
    | tSpawn => rfl
    | tDrop => rfl
    | tPlayer => rfl
  player := rfl

/-- An item replaced by one with the same id and address. -/
theorem Sets.holdings {sh sh' : SpawnShell} {type : SpawnItemType} {k : Int} {x x' : Item}
    (h : Sets sh sh' type k x') (hold : sh.find type k = some x) (hkey : x'.key = x.key)
    (hnext : sh'.next = sh.next) : sh'.holdings = sh.holdings := by
  refine Holdings.ext (funext fun t => funext fun k' => ?_) h.player hnext
  show (sh'.find t k').map Item.key = (sh.find t k').map Item.key
  rw [h.find]
  by_cases hplace : t = type ∧ k' = k
  · obtain ⟨rfl, rfl⟩ := hplace
    rw [if_pos ⟨rfl, rfl⟩, hold]
    exact congrArg some hkey
  · rw [if_neg hplace]

theorem held_of_find {sh : SpawnShell} {t : SpawnItemType} {k : Int} {x : Item}
    (h : sh.find t k = some x) : sh.holdings.Held x.key.1 x.key.2 :=
  ⟨t, k, holdings_at.mpr ⟨x, h, rfl⟩⟩

/-- The item at a place changes, keeps id and address, and is announced. -/
theorem Sets.quiet {sh sh' : SpawnShell} {type : SpawnItemType} {k : Int} {x x' : Item}
    (h : Sets sh sh' type k x') (hold : sh.find type k = some x) (hkey : x'.key = x.key)
    (hnext : sh'.next = sh.next) (c : UInt32) : Quiet sh (sh', [.changeItem x' c]) := by
  refine Quiet.single (h.holdings hold hkey hnext) ?_
  show sh.holdings.Held x'.key.1 x'.key.2
  rw [hkey]
  exact held_of_find hold

theorem Sets.adds {sh sh' : SpawnShell} {type : SpawnItemType} {k : Int} {x : Item}
    (h : Sets sh sh' type k x) (hfree : sh.find type k = none) (hnext : sh'.next = sh.next + 1)
    (haddr : x.addr = sh.next) (htype : type ≠ .tPlayer) (hkey : type = .tSpawn → k = idKey x.id)
    (hspawn : x.spawn?.isSome → type = .tSpawn) : Adds sh (sh', [.addItem x]) type k x.id where
  type_ne := htype
  key_eq := hkey
  free := congrArg (Option.map Item.key) hfree
  holdings := by
    refine Holdings.ext (funext fun t => funext fun k' => ?_) h.player hnext
    show (sh'.find t k').map Item.key = _
    rw [h.find, Holdings.add_at]
    by_cases hplace : t = type ∧ k' = k
    · rw [if_pos hplace, if_pos hplace]
      exact congrArg some (congrArg (Prod.mk x.id) haddr)
    · rw [if_neg hplace, if_neg hplace]
      rfl
  signals := ⟨x, rfl, congrArg (Prod.mk x.id) haddr, hspawn⟩
  stored := ⟨x, rfl, (h.find type k).trans (if_pos ⟨rfl, rfl⟩)⟩

/-- The player changes, not its id. -/
theorem holdings_setPlayer {sh : SpawnShell} {p : Player}
    (hkey : (Item.player p).key = (Item.player sh.m_player).key) :
    { sh with m_player := p }.holdings = sh.holdings := by
  refine Holdings.ext (funext fun t => funext fun k' => ?_) hkey rfl
  cases t with
  | tPlayer =>
      show ((sh.m_players.lookup k').map fun _ => Item.player p).map Item.key =
        ((sh.m_players.lookup k').map fun _ => Item.player sh.m_player).map Item.key
      cases sh.m_players.lookup k' with
      | none => rfl
      | some u => exact congrArg some hkey
  | tSpawn => rfl
  | tDrop => rfl
  | tDoors => rfl

theorem held_player {sh : SpawnShell} (hok : sh.holdings.Ok) {p : Player}
    (hkey : (Item.player p).key = (Item.player sh.m_player).key) :
    sh.holdings.Held (Item.player p).key.1 (Item.player p).key.2 := by
  rw [hkey]
  exact hok.player_held

theorem quiet_setPlayer {sh : SpawnShell} (hok : sh.holdings.Ok) {p : Player}
    (hkey : (Item.player p).key = (Item.player sh.m_player).key) (c : UInt32) :
    Quiet sh ({ sh with m_player := p }, [.changeItem (.player p) c]) :=
  Quiet.single (holdings_setPlayer hkey) (held_player hok hkey)

theorem quiet_setPlayer' {sh : SpawnShell} (hok : sh.holdings.Ok) {p : Player}
    (hkey : (Item.player p).key = (Item.player sh.m_player).key) (c : UInt32) :
    Quiet sh ({ sh with m_player := p }, [.playerChangeItem (.player p) c]) :=
  Quiet.single (holdings_setPlayer hkey) (held_player hok hkey)

/-- A kill leaves the holdings alone. -/
theorem quiet_kill {sh sh' : SpawnShell} (h : sh'.holdings = sh.holdings) (deceased : Item)
    (killer : Option Item) (killerId : UInt16) :
    Quiet sh (sh', [.killSpawn deceased killer killerId]) :=
  Quiet.single h trivial

theorem find_spawn {sh : SpawnShell} {k : Int} {s : Spawn} (h : sh.m_spawns.lookup k = some s) :
    sh.find .tSpawn k = some (.spawn s) :=
  congrArg (Option.map Item.spawn) h

theorem find_drop {sh : SpawnShell} {k : Int} {d : Drop} (h : sh.m_drops.lookup k = some d) :
    sh.find .tDrop k = some (.drop d) :=
  congrArg (Option.map Item.drop) h

theorem find_door {sh : SpawnShell} {k : Int} {d : Door} (h : sh.m_doors.lookup k = some d) :
    sh.find .tDoors k = some (.door d) :=
  congrArg (Option.map Item.door) h

end ShoweqDaemon.Spawns
