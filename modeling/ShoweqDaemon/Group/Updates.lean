/-
  When the last `GroupUpdate` shows the roster.

  `GroupMgr` signals `added` and `cleared` after the change and `removed` before it; `addItem`,
  `delItem` and `killSpawn` change the pointers without a signal. The shell may change between two
  operations, and with it what is read through the pointers. `keeps_iff_timely` is the exact
  condition on one operation, `group_fresh_iff` carries it through a run.

  The client sees of a slot its name and the id read through its pointer (`SlotView`). A spawn
  taken out of the maps can still be read; one that `clear` freed has no id.

  Proved:
  * `fillGroupUpdate_view`: the rows of a message show just this, where all pointers can be read.
  * `keeps_addGroupMember_iff`, `keeps_removeGroupMember_iff`, `keeps_addItem_iff`,
    `keeps_dropItem_iff`: the condition on each operation, for any two shells before and after it.
  * `group_fresh_iff`: over every run from a subscription on.
  * `removed_member_stays_shown`: a member who follows and disbands stays in the client's list.
-/
import ShoweqDaemon.Lib.Published
import ShoweqDaemon.Group.GroupMgr

namespace ShoweqDaemon.Spawns

open Published

/-! ## What is compared -/

/-- What a message shows of a slot: the name, and the id of the spawn the slot points to. A
    pointer to a spawn that was freed has no id. -/
structure SlotView where
  name : QString
  spawn : Option (Option UInt16)
  deriving DecidableEq, Repr

/-- What the client sees in a row. -/
def MemberRow.view (r : GroupMgr.MemberRow) : SlotView where
  name := r.name
  spawn := if r.in_zone then some (some r.spawn_id) else none

namespace GroupMgr

/-- What the slot says now, through its pointer. -/
def slotView (sh : SpawnShell) (m : GroupMember) : SlotView where
  name := m.m_name
  spawn := m.m_spawn.map fun a => (sh.deref a).map Item.id

/-- The slots in order, read through the shell. -/
def groupView (s : GroupMgr × SpawnShell) : List SlotView :=
  slots.map fun i => slotView s.2 (s.1.m_members i)

/-- A pointer that can be read shows the id of its item. -/
theorem slotItem_view {g : GroupMgr} {sh : SpawnShell} {i : Slot} {x : Option Item}
    (h : g.slotItem sh i = some x) :
    (slotView sh (g.m_members i)).spawn = x.map fun item => some item.id := by
  unfold slotItem at h
  show (g.m_members i).m_spawn.map _ = _
  cases hm : (g.m_members i).m_spawn with
  | none =>
      rw [hm] at h
      obtain rfl : none = x := Option.some.inj h
      rfl
  | some a =>
      rw [hm] at h
      obtain ⟨item, hitem, rfl⟩ := Option.map_eq_some_iff.mp h
      show some ((sh.deref a).map Item.id) = some (some item.id)
      rw [hitem]
      rfl

/-- The message's rows, where all pointers can be read, show just this. -/
theorem fillGroupUpdate_view {g : GroupMgr} {sh : SpawnShell} {rows : List MemberRow}
    (h : g.fillGroupUpdate sh = some rows) : rows.map MemberRow.view = groupView (g, sh) := by
  unfold fillGroupUpdate at h
  unfold groupView
  generalize slots = l at h ⊢
  induction l generalizing rows with
  | nil =>
      obtain rfl : [] = rows := Option.some.inj h
      rfl
  | cons i l ih =>
      rw [List.mapM_cons] at h
      obtain ⟨row, hrow, h⟩ := Option.bind_eq_some_iff.mp h
      obtain ⟨rows', hrows', h⟩ := Option.bind_eq_some_iff.mp h
      obtain rfl : row :: rows' = rows := Option.some.inj h
      have hview : MemberRow.view row = slotView sh (g.m_members i) := by
        obtain ⟨x, hx, hrow⟩ := Option.bind_eq_some_iff.mp hrow
        have hspawn := slotItem_view hx
        cases x with
        | none =>
            obtain rfl := Option.some.inj hrow
            exact congrArg (SlotView.mk _) hspawn.symm
        | some item =>
            obtain rfl := Option.some.inj hrow
            exact congrArg (SlotView.mk _) hspawn.symm
      rw [List.map_cons, List.map_cons, hview, ih hrows']

/-! ## Operations -/

/-- The name in a packet: at most 64 bytes of Latin-1. -/
def followName (data : List UInt8) : QString :=
  ((data.take 64).takeWhile (· ≠ 0)).map fun b => Char.ofNat b.toNat

/-- The first slot without a name. -/
def freeSlot (g : GroupMgr) : Option Slot := slots.find? fun i => (g.m_members i).m_name = []

/-- The name is our own. -/
def ownName (env : Env) (sh : SpawnShell) (membername : List UInt8) : Prop :=
  membername = (env.toLatin1 sh.m_player.name).takeWhile (· ≠ 0)

instance (env : Env) (sh : SpawnShell) (membername : List UInt8) :
    Decidable (ownName env sh membername) := inferInstanceAs (Decidable (_ = _))

/-- The first slot with that name. -/
def namedSlot (env : Env) (g : GroupMgr) (membername : List UInt8) : Option Slot :=
  slots.find? fun i => (g.m_members i).m_name = env.fromUtf8 membername

/-- What can happen to the group: the two packets, and the three signals of the shell that it is
    connected to. -/
inductive GroupEvent where
  | addGroupMember (order : Table.Order) (data : List UInt8)
  | removeGroupMember (order : Table.Order) (membername : List UInt8)
  | addItem (item : Item)
  | delItem (item : Item)
  | killSpawn (deceased : Item)

/-- The roster after an operation that finds the shell `sh`. -/
def after (env : Env) (g : GroupMgr) (sh : SpawnShell) : GroupEvent → GroupMgr
  | .addGroupMember order data => g.addGroupMember sh order data
  | .removeGroupMember order membername => g.removeGroupMember env sh order membername
  | .addItem item => g.addItem item
  | .delItem item => g.delItem item
  | .killSpawn deceased => g.killSpawn deceased

/-- The rosters that the slots of the operation's signals find: `added` and `cleared` go out
    after the change, `removed` before it. -/
def signals (env : Env) (g : GroupMgr) (sh : SpawnShell) : GroupEvent → List GroupMgr
  | .addGroupMember order data =>
      if followName data = [] then []
      else
        match g.freeSlot with
        | some _ => [g.addGroupMember sh order data]
        | none => []
  | .removeGroupMember _ membername =>
      if ownName env sh membername then [init]
      else
        match namedSlot env g membername with
        | some _ => [g]
        | none => []
  | _ => []

/-- An operation, in the shell it finds, with the messages that an attached session sends. -/
def sessionNext (env : Env) (s : GroupMgr × SpawnShell) (e : SpawnShell × GroupEvent) :
    (GroupMgr × SpawnShell) × List (List SlotView) :=
  ((s.1.after env e.1 e.2, e.1), (s.1.signals env e.1 e.2).map fun g => groupView (g, e.1))

/-- A subscribed session: the roster in its shell, and the message that the subscription sent. -/
def subscribed (s : GroupMgr × SpawnShell) : Watched (GroupMgr × SpawnShell) (List SlotView) where
  store := s
  shown := groupView s

/-! ## The condition -/

/-- What is read through the slot's pointer is the same in both shells. -/
def Unmoved (g : GroupMgr) (sh sh' : SpawnShell) (i : Slot) : Prop :=
  slotView sh' (g.m_members i) = slotView sh (g.m_members i)

/-- Slot `i` gets the pointer `a`, to the spawn that it shows already; the others are unmoved. -/
def Repoints (g : GroupMgr) (sh sh' : SpawnShell) (i : Slot) (a : Option Addr) : Prop :=
  slotView sh' { g.m_members i with m_spawn := a } = slotView sh (g.m_members i) ∧
    ∀ j, j ≠ i → g.Unmoved sh sh' j

/-- The operation changes nothing that it does not signal afterwards. -/
def Timely (env : Env) (s : GroupMgr × SpawnShell) : SpawnShell × GroupEvent → Prop
  | (sh', .addGroupMember _ data) =>
      followName data = [] ∨ s.1.freeSlot = none → ∀ i, s.1.Unmoved s.2 sh' i
  | (sh', .removeGroupMember _ membername) =>
      ownName env sh' membername ∨
        match namedSlot env s.1 membername with
        | some i => s.1.m_members i = { m_name := [], m_spawn := none }
        | none => ∀ i, s.1.Unmoved s.2 sh' i
  | (sh', .addItem item) =>
      match s.1.slotOf item with
      | some i => s.1.Repoints s.2 sh' i (some item.addr)
      | none => ∀ i, s.1.Unmoved s.2 sh' i
  | (sh', .delItem item) | (sh', .killSpawn item) =>
      match s.1.slotOf item with
      | some i => s.1.Repoints s.2 sh' i none
      | none => ∀ i, s.1.Unmoved s.2 sh' i

theorem groupView_eq_iff (s s' : GroupMgr × SpawnShell) :
    groupView s' = groupView s ↔
      ∀ i, slotView s'.2 (s'.1.m_members i) = slotView s.2 (s.1.m_members i) := by
  have hall : ∀ i, i ∈ slots := List.mem_finRange
  constructor
  · intro h i
    exact (List.map_inj_left.mp h) i (hall i)
  · intro h
    exact List.map_congr_left fun i _ => h i

theorem groupView_unmoved_iff (g : GroupMgr) (sh sh' : SpawnShell) :
    groupView (g, sh) = groupView (g, sh') ↔ ∀ i, g.Unmoved sh sh' i :=
  eq_comm.trans (groupView_eq_iff (g, sh) (g, sh'))

/-- A slot's pointer replaced. -/
theorem groupView_repoints_iff (g g' : GroupMgr) (sh sh' : SpawnShell) (i : Slot)
    (a : Option Addr)
    (h : g'.m_members = Function.update g.m_members i { g.m_members i with m_spawn := a }) :
    groupView (g, sh) = groupView (g', sh') ↔ g.Repoints sh sh' i a := by
  rw [eq_comm, groupView_eq_iff (g, sh) (g', sh'), h]
  constructor
  · intro hall
    refine ⟨by simpa using hall i, fun j hj => ?_⟩
    have hj' := hall j
    rwa [Function.update_of_ne hj] at hj'
  · intro hrep j
    by_cases hj : j = i
    · subst hj
      simpa using hrep.1
    · rw [Function.update_of_ne hj]
      exact hrep.2 j hj

/-! ## One operation -/

section

variable (env : Env) (g : GroupMgr) (sh sh' : SpawnShell)

/-- An operation that changes and signals nothing. -/
theorem keeps_unchanged {e : GroupEvent} (hafter : g.after env sh' e = g)
    (hsent : g.signals env sh' e = []) :
    Keeps (sessionNext env) id groupView (g, sh) (sh', e) ↔ ∀ i, g.Unmoved sh sh' i := by
  have hsilent : (sessionNext env (g, sh) (sh', e)).2 = [] := by simp [sessionNext, hsent]
  rw [keeps_silent hsilent, sessionNext, hafter]
  exact groupView_unmoved_iff g sh sh'

/-- An operation that signals nothing and gives slot `i` the pointer `a`. -/
theorem keeps_repoints {e : GroupEvent} {i : Slot} {a : Option Addr}
    (hafter : (g.after env sh' e).m_members =
      Function.update g.m_members i { g.m_members i with m_spawn := a })
    (hsent : g.signals env sh' e = []) :
    Keeps (sessionNext env) id groupView (g, sh) (sh', e) ↔ g.Repoints sh sh' i a := by
  have hsilent : (sessionNext env (g, sh) (sh', e)).2 = [] := by simp [sessionNext, hsent]
  rw [keeps_silent hsilent]
  exact groupView_repoints_iff g _ sh sh' i a hafter

/-- An operation with one signal. -/
theorem keeps_signal {e : GroupEvent} {g' : GroupMgr} (hsent : g.signals env sh' e = [g']) :
    Keeps (sessionNext env) id groupView (g, sh) (sh', e) ↔
      groupView (g', sh') = groupView (g.after env sh' e, sh') := by
  have hsingle : (sessionNext env (g, sh) (sh', e)).2 = [groupView (g', sh')] := by
    simp [sessionNext, hsent]
  exact keeps_single hsingle

theorem keeps_addGroupMember_iff (order : Table.Order) (data : List UInt8) :
    Keeps (sessionNext env) id groupView (g, sh) (sh', .addGroupMember order data) ↔
      Timely env (g, sh) (sh', .addGroupMember order data) := by
  by_cases hname : followName data = []
  · have hafter : g.after env sh' (.addGroupMember order data) = g := if_pos hname
    have hsent : g.signals env sh' (.addGroupMember order data) = [] := if_pos hname
    rw [keeps_unchanged env g sh sh' hafter hsent]
    exact ⟨fun h _ => h, fun h => h (Or.inl hname)⟩
  · cases hfree : g.freeSlot with
    | none =>
        have hafter : g.after env sh' (.addGroupMember order data) = g := by
          refine (if_neg hname).trans ?_
          rw [show (slots.find? fun i => (g.m_members i).m_name = []) = none from hfree]
        have hsent : g.signals env sh' (.addGroupMember order data) = [] := by
          refine (if_neg hname).trans ?_
          rw [hfree]
        rw [keeps_unchanged env g sh sh' hafter hsent]
        exact ⟨fun h _ => h, fun h => h (Or.inr hfree)⟩
    | some i =>
        have hsent : g.signals env sh' (.addGroupMember order data) =
            [g.addGroupMember sh' order data] := by
          refine (if_neg hname).trans ?_
          rw [hfree]
        rw [keeps_signal env g sh sh' hsent]
        refine iff_of_true rfl fun hquiet => ?_
        obtain hquiet | hquiet := hquiet
        · exact absurd hquiet hname
        · rw [hfree] at hquiet
          cases hquiet

/-- Only an empty slot shows what an empty slot shows. -/
theorem slotView_empty_iff (m : GroupMember) :
    slotView sh { m_name := [], m_spawn := none } = slotView sh m ↔
      m = { m_name := [], m_spawn := none } := by
  obtain ⟨name, spawn⟩ := m
  cases spawn <;> simp [slotView, eq_comm]

/-- The message with the slot still in it is right when the slot is empty. -/
theorem groupView_emptied_iff (g' : GroupMgr) (i : Slot)
    (h : g'.m_members = Function.update g.m_members i { m_name := [], m_spawn := none }) :
    groupView (g, sh) = groupView (g', sh) ↔
      g.m_members i = { m_name := [], m_spawn := none } := by
  rw [eq_comm, groupView_eq_iff (g, sh) (g', sh), h, ← slotView_empty_iff sh]
  constructor
  · intro hall
    simpa using hall i
  · intro hempty j
    by_cases hj : j = i
    · subst hj
      simpa using hempty
    · rw [Function.update_of_ne hj]

theorem keeps_removeGroupMember_iff (order : Table.Order) (membername : List UInt8) :
    Keeps (sessionNext env) id groupView (g, sh) (sh', .removeGroupMember order membername) ↔
      Timely env (g, sh) (sh', .removeGroupMember order membername) := by
  by_cases hown : ownName env sh' membername
  · have hafter : g.after env sh' (.removeGroupMember order membername) = init := if_pos hown
    have hsent : g.signals env sh' (.removeGroupMember order membername) = [init] := if_pos hown
    rw [keeps_signal env g sh sh' hsent, hafter]
    exact iff_of_true rfl (Or.inl hown)
  · cases hslot : namedSlot env g membername with
    | none =>
        have hafter : g.after env sh' (.removeGroupMember order membername) = g := by
          refine (if_neg hown).trans ?_
          rw [show (slots.find? fun i => (g.m_members i).m_name = env.fromUtf8 membername) = none
            from hslot]
        have hsent : g.signals env sh' (.removeGroupMember order membername) = [] := by
          refine (if_neg hown).trans ?_
          rw [hslot]
        rw [keeps_unchanged env g sh sh' hafter hsent, Timely, hslot]
        exact (or_iff_right hown).symm
    | some i =>
        have hafter : (g.after env sh' (.removeGroupMember order membername)).m_members =
            Function.update g.m_members i { m_name := [], m_spawn := none } := by
          refine (congrArg m_members (if_neg hown)).trans ?_
          rw [show (slots.find? fun i => (g.m_members i).m_name = env.fromUtf8 membername) = some i
            from hslot]
          rfl
        have hsent : g.signals env sh' (.removeGroupMember order membername) = [g] := by
          refine (if_neg hown).trans ?_
          rw [hslot]
        rw [keeps_signal env g sh sh' hsent, groupView_emptied_iff g sh' _ i hafter, Timely, hslot]
        exact (or_iff_right hown).symm

/-- The slots of `SpawnShell`'s signals: they change at most the pointer of one slot. -/
theorem keeps_slot_iff {e : GroupEvent} (item : Item) (a : Option Addr)
    (hsent : g.signals env sh' e = [])
    (hnone : g.slotOf item = none → g.after env sh' e = g)
    (hsome : ∀ i, g.slotOf item = some i → (g.after env sh' e).m_members =
      Function.update g.m_members i { g.m_members i with m_spawn := a }) :
    Keeps (sessionNext env) id groupView (g, sh) (sh', e) ↔
      match g.slotOf item with
      | some i => g.Repoints sh sh' i a
      | none => ∀ i, g.Unmoved sh sh' i := by
  cases hslot : g.slotOf item with
  | none => exact keeps_unchanged env g sh sh' (hnone hslot) hsent
  | some i => exact keeps_repoints env g sh sh' (hsome i hslot) hsent

theorem keeps_addItem_iff (item : Item) :
    Keeps (sessionNext env) id groupView (g, sh) (sh', .addItem item) ↔
      Timely env (g, sh) (sh', .addItem item) := by
  refine keeps_slot_iff env g sh sh' item (some item.addr) rfl (fun h => ?_) (fun i h => ?_)
  · show g.addItem item = g
    rw [addItem, h]
  · show (g.addItem item).m_members = _
    rw [addItem, h]
    rfl

theorem keeps_dropItem_iff {e : GroupEvent} (item : Item)
    (hafter : g.after env sh' e = g.dropItem item) (hsent : g.signals env sh' e = []) :
    Keeps (sessionNext env) id groupView (g, sh) (sh', e) ↔
      Timely env (g, sh) (sh', .delItem item) := by
  refine keeps_slot_iff env g sh sh' item none hsent (fun h => ?_) (fun i h => ?_)
  · rw [hafter, dropItem, h]
  · rw [hafter, dropItem, h]
    rfl

end

/-! ## Runs -/

/-- An operation keeps the watcher fresh exactly when it is timely. -/
theorem keeps_iff_timely (env : Env) (s : GroupMgr × SpawnShell) (e : SpawnShell × GroupEvent) :
    Keeps (sessionNext env) id groupView s e ↔ Timely env s e := by
  obtain ⟨g, sh⟩ := s
  obtain ⟨sh', e⟩ := e
  cases e with
  | addGroupMember order data => exact keeps_addGroupMember_iff env g sh sh' order data
  | removeGroupMember order name => exact keeps_removeGroupMember_iff env g sh sh' order name
  | addItem item => exact keeps_addItem_iff env g sh sh' item
  | delItem item => exact keeps_dropItem_iff env g sh sh' item rfl rfl
  | killSpawn deceased => exact keeps_dropItem_iff env g sh sh' deceased rfl rfl

/-- In a run from a subscription on, every operation leaves the last message showing the roster
    exactly when every operation is timely. -/
theorem group_fresh_iff (env : Env) (s : GroupMgr × SpawnShell)
    (es : List (SpawnShell × GroupEvent)) :
    (∀ w ∈ Machine.trace (step (sessionNext env)) (subscribed s) es,
        w.shown = groupView w.store) ↔
      Machine.StepsMeet (fun s e => (s.1.after env e.1 e.2, e.1)) (Timely env) s es :=
  trace_fresh_iff (w := subscribed s) (keeps_iff_timely env) rfl es

/-- A member who follows and disbands is still shown. -/
theorem removed_member_stays_shown :
    ¬ ∀ (env : Env) (s : GroupMgr × SpawnShell) (es : List (SpawnShell × GroupEvent)),
      ∀ w ∈ Machine.trace (step (sessionNext env)) (subscribed s) es,
        w.shown = groupView w.store := by
  intro h
  let sh := SpawnShell.init { addr := 0, m_ID := 9 } .none (fun _ _ => []) true
  let es : List (SpawnShell × GroupEvent) :=
    [(sh, .addGroupMember .entries [65]), (sh, .removeGroupMember .entries [65])]
  have hend := h .ascii (init, sh) es _
    ((Machine.mem_trace_iff _ _ _ _).mpr ⟨es, [], (List.append_nil es).symm, rfl⟩)
  exact absurd hend (by decide)

end GroupMgr

end ShoweqDaemon.Spawns
