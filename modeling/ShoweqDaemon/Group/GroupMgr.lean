/-
  `GroupMgr`: the roster of six slots, each with a name and a pointer to a spawn.

  The pointers are set by name: when a member follows, and when a player spawn comes. They are
  cleared by the slots of `SpawnShell`'s `delItem` and `killSpawn`. Reading through a pointer
  gives nothing when what it points to was freed. `SpawnShell::clear` frees the spawns in the map;
  `deleteItem` only takes its spawn out of the map, so a pointer to that one still reads the spawn
  as it was when it left, although nobody owns it any more (`deleteItem_deref_isSome`).
-/
import ShoweqDaemon.Spawn.SpawnShell

namespace ShoweqDaemon.Spawns

/-- The members of a group, the player included. -/
def MAX_GROUP_MEMBERS : Nat := 6

/-- An index of the array of members. -/
abbrev Slot := Fin MAX_GROUP_MEMBERS

/-- All slots in order. -/
def slots : List Slot := List.finRange MAX_GROUP_MEMBERS

/-- `GroupMember`: a name, empty for a free slot, and the pointer to the spawn, null while it is not
    in zone. -/
structure GroupMember where
  m_name : QString
  m_spawn : Option Addr
  deriving DecidableEq, Repr

/-- `GroupMgr`: the array of members and the two counters, which are of the type `size_t`. -/
structure GroupMgr where
  m_members : Slot → GroupMember
  m_memberCount : UInt64
  m_membersInZoneCount : UInt64

/-! ## The shell's lookup by name -/

/-- `SpawnShell::findPlayerByDisplayName`: the first player spawn of that name in the order of the
    hash table, else the player. -/
def SpawnShell.findPlayerByDisplayName (sh : SpawnShell) (order : Table.Order) (name : QString) :
    Option Addr :=
  match (order.visit sh.m_spawns.values).find? fun s =>
      s.isPlayer && (name = s.m_name || name = (Item.spawn s).transformedName) with
  | some s => some s.addr
  | none =>
      let player := Item.player sh.m_player
      if name = player.name ∨ name = player.transformedName then some player.addr else none

/-- The object at an address, as long as it is not freed: the player, a spawn in the map, or one
    that was taken out of the map. -/
def SpawnShell.deref (sh : SpawnShell) (a : Addr) : Option Item :=
  if a = sh.m_player.addr then some (.player sh.m_player)
  else ((sh.m_spawns.values ++ sh.removed).find? fun s => s.addr = a).map .spawn

theorem SpawnShell.deref_isSome_iff (sh : SpawnShell) (a : Addr) :
    (sh.deref a).isSome ↔
      a = sh.m_player.addr ∨ ∃ s ∈ sh.m_spawns.values ++ sh.removed, s.addr = a := by
  unfold SpawnShell.deref
  by_cases hplayer : a = sh.m_player.addr
  · simp [hplayer]
  · rw [if_neg hplayer, Option.isSome_map, List.find?_isSome]
    simp [hplayer]

/-- A deletion frees nothing. -/
theorem deleteItem_deref_isSome (sh : SpawnShell) (type : SpawnItemType) (id : Int) (a : Addr) :
    ((sh.deleteItem type id).1.deref a).isSome ↔ (sh.deref a).isSome := by
  have hkept : ∀ s, s ∈ (sh.remove type id).m_spawns.values ++ (sh.remove type id).removed ↔
      s ∈ sh.m_spawns.values ++ sh.removed := by
    intro s
    cases type with
    | tSpawn =>
        simp only [SpawnShell.remove, List.mem_append, Table.mem_values, Table.lookup_erase,
          Option.mem_toList]
        constructor
        · rintro (⟨k, hk⟩ | hid | hgone)
          · by_cases hki : k = id
            · simp [hki] at hk
            · exact Or.inl ⟨k, by simpa [hki] using hk⟩
          · exact Or.inl ⟨id, hid⟩
          · exact Or.inr hgone
        · rintro (⟨k, hk⟩ | hgone)
          · by_cases hki : k = id
            · exact Or.inr (Or.inl (hki ▸ hk))
            · exact Or.inl ⟨k, by simpa [hki] using hk⟩
          · exact Or.inr (Or.inr hgone)
    | _ => rfl
  rcases deleteItem_cases sh type id with ⟨-, heq⟩ | ⟨item, -, heq⟩
  · rw [heq]
  · rw [heq]
    dsimp only
    rw [SpawnShell.deref_isSome_iff, SpawnShell.deref_isSome_iff, remove_player]
    simp only [hkept]

namespace GroupMgr

/-- The constructor: six free slots. -/
def init : GroupMgr where
  m_members := fun _ => { m_name := [], m_spawn := none }
  m_memberCount := 0
  m_membersInZoneCount := 0

/-- One member replaced. -/
def set (g : GroupMgr) (i : Slot) (m : GroupMember) : GroupMgr :=
  { g with m_members := Function.update g.m_members i m }

/-! ## Slots of the shell's signals -/

/-- The slot that `addItem`, `delItem` and `killSpawn` act on: the first one that has the item's
    raw or its display name, if the item is a player. -/
def slotOf (g : GroupMgr) (item : Item) : Option Slot :=
  match item.spawn? with
  | none => none
  | some s =>
      if s.isPlayer then
        slots.find? fun i =>
          let name := (g.m_members i).m_name
          name ≠ [] ∧ (name = item.name ∨ name = item.transformedName)
      else none

/-- `GroupMgr::addItem`: a spawn with the name of a member is that member, and counts as in zone. -/
def addItem (g : GroupMgr) (item : Item) : GroupMgr :=
  match g.slotOf item with
  | some i =>
      { g.set i { g.m_members i with m_spawn := some item.addr } with
        m_membersInZoneCount := g.m_membersInZoneCount + 1 }
  | none => g

/-- `delItem` and `killSpawn` have the same body: the slot of the spawn's name loses its pointer,
    and the counter goes down whether there was one or not. -/
def dropItem (g : GroupMgr) (item : Item) : GroupMgr :=
  match g.slotOf item with
  | some i =>
      { g.set i { g.m_members i with m_spawn := none } with
        m_membersInZoneCount := g.m_membersInZoneCount - 1 }
  | none => g

/-- `GroupMgr::delItem` -/
def delItem (g : GroupMgr) (item : Item) : GroupMgr := g.dropItem item

/-- `GroupMgr::killSpawn`, for the deceased. -/
def killSpawn (g : GroupMgr) (deceased : Item) : GroupMgr := g.dropItem deceased

/-- The slot that a signal of the shell runs. -/
def onSignal (g : GroupMgr) : Signal → GroupMgr
  | .addItem item => g.addItem item
  | .delItem item => g.delItem item
  | .killSpawn deceased _ _ => g.killSpawn deceased
  | _ => g

/-! ## Packets -/

/-- `OP_GroupFollow`: the name, at most 64 bytes of Latin-1, goes into the first free slot. -/
def addGroupMember (g : GroupMgr) (sh : SpawnShell) (order : Table.Order) (data : List UInt8) :
    GroupMgr :=
  let name : QString := ((data.take 64).takeWhile (· ≠ 0)).map fun b => Char.ofNat b.toNat
  if name = [] then g
  else
    match slots.find? fun i => (g.m_members i).m_name = [] with
    | some i =>
        let found := sh.findPlayerByDisplayName order name
        { g.set i { m_name := name, m_spawn := found } with
          m_memberCount := g.m_memberCount + 1
          m_membersInZoneCount :=
            if found.isSome then g.m_membersInZoneCount + 1 else g.m_membersInZoneCount }
    | none => g

/-- `OP_GroupDisband`: our own name empties the roster, another one its first slot. -/
def removeGroupMember (env : Env) (g : GroupMgr) (sh : SpawnShell) (order : Table.Order)
    (membername : List UInt8) : GroupMgr :=
  if membername = (env.toLatin1 sh.m_player.name).takeWhile (· ≠ 0) then init
  else
    match slots.find? fun i => (g.m_members i).m_name = env.fromUtf8 membername with
    | some i =>
        let found := sh.findPlayerByDisplayName order (g.m_members i).m_name
        { g.set i { m_name := [], m_spawn := none } with
          m_memberCount := g.m_memberCount - 1
          m_membersInZoneCount :=
            if found.isSome then g.m_membersInZoneCount - 1 else g.m_membersInZoneCount }
    | none => g

/-! ## Readers -/

/-- What slot `i` points to. The read has no result when the pointer dangles. -/
def slotItem (g : GroupMgr) (sh : SpawnShell) (i : Slot) : Option (Option Item) :=
  match (g.m_members i).m_spawn with
  | none => some none
  | some a => (sh.deref a).map some

/-- An `int` added to an `unsigned long`. -/
def addLevel (total : UInt64) (level : Int32) : UInt64 := total + level.toInt64.toUInt64

/-- `GroupMgr::totalLevels`: the sum of the levels of the members that are in zone, or the level of
    the player where that is 0. -/
def totalLevels (g : GroupMgr) (sh : SpawnShell) : Option UInt64 :=
  if g.m_memberCount = 0 then some (addLevel 0 sh.m_player.level)
  else do
    let total ← slots.foldlM (fun total i => do
      match ← g.slotItem sh i with
      | some item => pure (addLevel total item.level)
      | none => pure total) 0
    pure (if total = 0 then addLevel 0 sh.m_player.level else total)

/-- The loop of `memberByID`: the first slot whose spawn has the id. Every pointer on the way is
    read. -/
def findMember (g : GroupMgr) (sh : SpawnShell) (id : UInt16) : List Slot → Option (Option Item)
  | [] => some none
  | i :: is => do
      match ← g.slotItem sh i with
      | some item => if item.id = id then pure (some item) else g.findMember sh id is
      | none => g.findMember sh id is

/-- `GroupMgr::memberByID`, through the pointers of all slots. -/
def memberByID (g : GroupMgr) (sh : SpawnShell) (id : UInt16) : Option (Option Item) :=
  g.findMember sh id slots

/-- `GroupMgr::memberBySlot`, null behind the last slot. -/
def memberBySlot (g : GroupMgr) (sh : SpawnShell) (slot : UInt16) : Option (Option Item) :=
  if h : slot.toNat < MAX_GROUP_MEMBERS then g.slotItem sh ⟨slot.toNat, h⟩ else some none

/-- A row of the `GroupUpdate` message: a slot with its name, and what is read through its pointer
    if it has one. -/
structure MemberRow where
  slot : Nat
  name : QString
  in_zone : Bool
  spawn_id : UInt16 := 0
  level : Int32 := 0
  class_ : UInt8 := 0
  deriving DecidableEq, Repr

/-- `fillGroupUpdate`: a row for every slot, with what its pointer shows. -/
def fillGroupUpdate (g : GroupMgr) (sh : SpawnShell) : Option (List MemberRow) :=
  slots.mapM fun i => do
    let name := (g.m_members i).m_name
    match ← g.slotItem sh i with
    | some item =>
        pure
          { slot := i, name, in_zone := true, spawn_id := item.id, level := item.level
            class_ := item.classVal }
    | none => pure { slot := i, name, in_zone := false }

/-! ## Owned pointers -/

/-- Every pointer of the roster points to the player or to a spawn in the shell's map. -/
def RosterOwned (g : GroupMgr) (sh : SpawnShell) : Prop :=
  ∀ i a, (g.m_members i).m_spawn = some a →
    a = sh.m_player.addr ∨ ∃ k s, sh.m_spawns.lookup k = some s ∧ s.addr = a

/-- No reader meets a dangling pointer: each of them comes to a result from this roster and this
    shell. -/
structure ReadsSafe (g : GroupMgr) (sh : SpawnShell) : Prop where
  totalLevels : (g.totalLevels sh).isSome
  memberByID : ∀ id, (g.memberByID sh id).isSome
  memberBySlot : ∀ slot, (g.memberBySlot sh slot).isSome
  fillGroupUpdate : (g.fillGroupUpdate sh).isSome

theorem deref_isSome {sh : SpawnShell} {a : Addr}
    (h : a = sh.m_player.addr ∨ ∃ k s, sh.m_spawns.lookup k = some s ∧ s.addr = a) :
    ∃ item, sh.deref a = some item := by
  refine Option.isSome_iff_exists.mp ((sh.deref_isSome_iff a).mpr ?_)
  refine h.imp_right ?_
  rintro ⟨k, s, hs, haddr⟩
  exact ⟨s, List.mem_append_left _ (Table.mem_values.mpr ⟨k, hs⟩), haddr⟩

theorem slotItem_isSome {g : GroupMgr} {sh : SpawnShell} (h : g.RosterOwned sh) (i : Slot) :
    ∃ x, g.slotItem sh i = some x := by
  unfold slotItem
  cases hi : (g.m_members i).m_spawn with
  | none => exact ⟨none, rfl⟩
  | some a =>
      obtain ⟨item, hitem⟩ := deref_isSome (h i a hi)
      exact ⟨some item, congrArg (Option.map some) hitem⟩

/-- A fold in `Option` whose steps have results has one. -/
theorem foldlM_isSome {α β : Type} {f : β → α → Option β} (hf : ∀ b a, ∃ b', f b a = some b')
    (l : List α) (b : β) : ∃ b', l.foldlM f b = some b' := by
  induction l generalizing b with
  | nil => exact ⟨b, rfl⟩
  | cons a l ih =>
      obtain ⟨b', hb'⟩ := hf b a
      obtain ⟨b'', hb''⟩ := ih b'
      exact ⟨b'', by rw [List.foldlM_cons, hb']; exact hb''⟩

theorem mapM_isSome {α β : Type} {f : α → Option β} (hf : ∀ a, ∃ b, f a = some b) (l : List α) :
    ∃ bs, l.mapM f = some bs := by
  induction l with
  | nil => exact ⟨[], rfl⟩
  | cons a l ih =>
      obtain ⟨b, hb⟩ := hf a
      obtain ⟨bs, hbs⟩ := ih
      exact ⟨b :: bs, by rw [List.mapM_cons, hb, hbs]; rfl⟩

theorem findMember_isSome {g : GroupMgr} {sh : SpawnShell} (h : g.RosterOwned sh) (id : UInt16)
    (is : List Slot) : ∃ x, g.findMember sh id is = some x := by
  induction is with
  | nil => exact ⟨none, rfl⟩
  | cons i is ih =>
      obtain ⟨x, hx⟩ := slotItem_isSome h i
      unfold findMember
      rw [hx]
      cases x with
      | none => exact ih
      | some item =>
          by_cases hid : item.id = id
          · exact ⟨some item, by simp [hid]⟩
          · obtain ⟨y, hy⟩ := ih
            exact ⟨y, by simp [hid, hy]⟩

theorem RosterOwned.readsSafe {g : GroupMgr} {sh : SpawnShell} (h : g.RosterOwned sh) :
    g.ReadsSafe sh where
  totalLevels := by
    unfold GroupMgr.totalLevels
    split
    · rfl
    · have hstep : ∀ (total : UInt64) (i : Slot), ∃ total', (do
          match ← g.slotItem sh i with
          | some item => pure (addLevel total item.level)
          | none => pure total : Option UInt64) = some total' := by
        intro total i
        obtain ⟨x, hx⟩ := slotItem_isSome h i
        rw [hx]
        cases x <;> exact ⟨_, rfl⟩
      obtain ⟨total, htotal⟩ := foldlM_isSome hstep slots 0
      rw [htotal]
      rfl
  memberByID id := by
    obtain ⟨x, hx⟩ := findMember_isSome h id slots
    exact Option.isSome_iff_exists.mpr ⟨x, hx⟩
  memberBySlot slot := by
    unfold GroupMgr.memberBySlot
    split
    · exact Option.isSome_iff_exists.mpr (slotItem_isSome h _)
    · rfl
  fillGroupUpdate := by
    refine Option.isSome_iff_exists.mpr (mapM_isSome (fun i => ?_) slots)
    obtain ⟨x, hx⟩ := slotItem_isSome h i
    rw [hx]
    cases x <;> exact ⟨_, rfl⟩

end GroupMgr

end ShoweqDaemon.Spawns
