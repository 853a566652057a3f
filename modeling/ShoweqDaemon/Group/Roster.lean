/-
  The roster's pointers in every run of the daemon.

  A pointer is alive when it points to the player or to a spawn in the shell's map. `Keeps` says
  when an event leaves all pointers alive: a deletion must find each slot that points to the
  spawn by the spawn's name, as a player; a `clear`, which tells nobody what it deletes, must find
  no pointers but those to the player. `roster_runs` proves that this is exact.

  `Effect` is what an event does to the shell: nothing, one item more, one less, `clear`, or a new
  id of the player.

  Proved:
  * `removes_owned_iff`, `renames_owned_iff`, `clears_owned_iff`: the condition for each effect.
  * `addGroupMember_owned`, `removeGroupMember_owned`: the packets of the group need none.
  * `roster_runs`: over every run of the daemon, and that all reads through the pointers are safe.
  * `zone_change_leaves_pointer`: Bob joins the group and the player zones.
-/
import ShoweqDaemon.Lib.Refs
import ShoweqDaemon.Daemon.Effect

namespace ShoweqDaemon.Spawns

/-! ## Owned addresses -/

namespace Holdings

/-- The player or a spawn in the map has this address. -/
def Owned (h : Holdings) (a : Addr) : Prop :=
  a = h.player.2 ∨ ∃ k id, h.at_ .tSpawn k = some (id, a)

theorem owned_congr {h h' : Holdings} (hplayer : h'.player.2 = h.player.2)
    (hat : ∀ k, h'.at_ .tSpawn k = h.at_ .tSpawn k) (a : Addr) : h'.Owned a ↔ h.Owned a := by
  unfold Owned
  rw [hplayer]
  simp only [hat]

theorem Ok.owned_remove {h : Holdings} (hok : h.Ok) {k : Int} {id : UInt16} {a : Addr}
    (hat : h.at_ .tSpawn k = some (id, a)) (a' : Addr) :
    (h.remove .tSpawn k).Owned a' ↔ h.Owned a' ∧ a' ≠ a := by
  have hplayer : h.player.2 ≠ a := by
    rintro rfl
    exact nomatch hok.player_addr hat
  constructor
  · rintro (rfl | ⟨k', id', hk'⟩)
    · exact ⟨Or.inl rfl, hplayer⟩
    · rw [remove_at] at hk'
      split at hk'
      · cases hk'
      · rename_i hne
        refine ⟨Or.inr ⟨k', id', hk'⟩, fun heq => hne ?_⟩
        subst heq
        exact hok.addr_inj _ _ _ _ _ _ _ hk' hat
  · rintro ⟨rfl | ⟨k', id', hk'⟩, hne⟩
    · exact Or.inl rfl
    · refine Or.inr ⟨k', id', ?_⟩
      rw [remove_at, if_neg]
      · exact hk'
      · rintro ⟨-, rfl⟩
        exact hne (congrArg Prod.snd (Option.some.inj (hk'.symm.trans hat)))

/-- To the spawns a new id of the player is a deletion under that id. -/
theorem owned_rename (h : Holdings) (new : UInt16) (a : Addr) :
    (h.rename new).Owned a ↔ (h.remove .tSpawn (idKey new)).Owned a := by
  have hplayer : (h.rename new).player.2 = (h.remove .tSpawn (idKey new)).player.2 := rfl
  refine owned_congr hplayer (fun k => ?_) a
  rw [remove_at]
  by_cases hk : k = idKey new
  · rw [if_pos ⟨rfl, hk⟩]
    exact if_pos hk
  · rw [if_neg fun heq => hk heq.2]
    exact if_neg hk

theorem owned_clear (h : Holdings) (a : Addr) : h.clear.Owned a ↔ a = h.player.2 := by
  constructor
  · rintro (heq | ⟨k, id, hk⟩)
    · exact heq
    · exact nomatch (clear_at hk).1
  · exact Or.inl

theorem Owned.add {h : Holdings} {a : Addr} (ha : h.Owned a) {type : SpawnItemType} {k : Int}
    {id : UInt16} (hfree : h.at_ type k = none) : (h.add type k id).Owned a := by
  rcases ha with heq | ⟨k', id', hk'⟩
  · exact Or.inl heq
  · refine Or.inr ⟨k', id', ?_⟩
    rw [add_at, if_neg]
    · exact hk'
    · rintro ⟨rfl, rfl⟩
      exact nomatch hk'.symm.trans hfree

end Holdings

/-! ## The roster's slots -/

namespace GroupMgr

/-- Where the slots point. -/
def refs (g : GroupMgr) (i : Slot) : Option Addr := (g.m_members i).m_spawn

theorem rosterOwned_iff (g : GroupMgr) (sh : SpawnShell) :
    g.RosterOwned sh ↔ Refs.Safe g.refs sh.holdings.Owned := by
  have howned : ∀ a, (a = sh.m_player.addr ∨ ∃ k s, sh.m_spawns.lookup k = some s ∧ s.addr = a) ↔
      sh.holdings.Owned a := by
    intro a
    refine or_congr_right ?_
    constructor
    · rintro ⟨k, s, hs, rfl⟩
      exact ⟨k, s.m_ID, holdings_at.mpr ⟨.spawn s, find_spawn hs, rfl⟩⟩
    · rintro ⟨k, id, hk⟩
      obtain ⟨x, hx, hkey⟩ := holdings_at.mp hk
      obtain ⟨s, hs, rfl⟩ := Option.map_eq_some_iff.mp hx
      exact ⟨k, s, hs, congrArg Prod.snd hkey⟩
  exact Refs.Safe.congr howned

theorem slotOf_congr {g g' : GroupMgr} (h : ∀ i, (g'.m_members i).m_name = (g.m_members i).m_name)
    (x : Item) : g'.slotOf x = g.slotOf x := by
  unfold slotOf
  simp only [h]

theorem refs_set (g : GroupMgr) (i : Slot) (m : GroupMember) :
    (g.set i m).refs = Function.update g.refs i m.m_spawn := by
  funext j
  show (Function.update g.m_members i m j).m_spawn = _
  by_cases h : j = i
  · subst h
    rw [Function.update_self, Function.update_self]
  · rw [Function.update_of_ne h, Function.update_of_ne h]
    rfl

theorem dropItem_names (g : GroupMgr) (x : Item) (i : Slot) :
    ((g.dropItem x).m_members i).m_name = (g.m_members i).m_name := by
  unfold dropItem
  split
  · rename_i j hj
    show (Function.update g.m_members j _ i).m_name = _
    by_cases h : i = j
    · subst h
      rw [Function.update_self]
    · rw [Function.update_of_ne h]
  · rfl

theorem dropItem_refs (g : GroupMgr) (x : Item) (i : Slot) :
    (g.dropItem x).refs i = if g.slotOf x = some i then none else g.refs i := by
  unfold dropItem
  split
  · rename_i j hj
    show (g.set j { g.m_members j with m_spawn := none }).refs i = _
    rw [refs_set, hj]
    by_cases h : i = j
    · subst h
      rw [Function.update_self, if_pos rfl]
    · rw [Function.update_of_ne h, if_neg fun heq => h (Option.some.inj heq).symm]
  · rename_i hnone
    rw [hnone, if_neg fun heq => nomatch heq]

theorem dropItem_fewer (g : GroupMgr) (x : Item) : Refs.Fewer (g.dropItem x).refs g.refs := by
  intro i a ha
  rw [dropItem_refs] at ha
  split at ha
  · cases ha
  · exact ha

/-- A spawn that is deleted leaves no pointer behind if its name leads to every slot that has it. -/
theorem dropItem_clears (g : GroupMgr) (x : Item) (a : Addr) :
    (∀ i a', (g.dropItem x).refs i = some a' → a' ≠ a) ↔
      ∀ i, g.refs i = some a → g.slotOf x = some i := by
  constructor
  · intro h i hi
    by_contra hslot
    exact h i a (by rw [dropItem_refs, if_neg hslot, hi]) rfl
  · intro h i a' hi heq
    subst heq
    have hslot := h i (dropItem_fewer g x i a' hi)
    rw [dropItem_refs, if_pos hslot] at hi
    cases hi

/-- An item that comes in takes the slot of its name. -/
theorem addItem_safe {g : GroupMgr} {owned : Addr → Prop} (h : Refs.Safe g.refs owned) {x : Item}
    (hx : x.spawn?.isSome → owned x.addr) : Refs.Safe (g.addItem x).refs owned := by
  unfold addItem
  split
  · rename_i i hi
    show Refs.Safe (g.set i { g.m_members i with m_spawn := some x.addr }).refs owned
    rw [refs_set]
    refine h.update fun a ha => ?_
    obtain rfl := Option.some.inj ha
    refine hx ?_
    unfold slotOf at hi
    split at hi
    · cases hi
    · rename_i s hs
      rw [hs]
      rfl
  · exact h

/-! ## Signals -/

/-- A signal of a quiet handler can only empty slots. -/
theorem onSignal_fewer {h : Holdings} (g : GroupMgr) {sg : Signal} (hsg : sg.Quiet h) :
    Refs.Fewer (g.onSignal sg).refs g.refs := by
  cases sg with
  | killSpawn deceased killer killerId => exact dropItem_fewer g deceased
  | changeItem x c => exact Refs.Fewer.refl g.refs
  | playerChangeItem x c => exact Refs.Fewer.refl g.refs
  | addItem x => exact hsg.elim
  | delItem x => exact hsg.elim
  | clearItems => exact hsg.elim
  | changedID sh => exact hsg.elim
  | zoneBegin shortName longName => exact hsg.elim

theorem onSignals_fewer {h : Holdings} (g : GroupMgr) {sigs : List Signal}
    (hsigs : ∀ sg ∈ sigs, sg.Quiet h) : Refs.Fewer (sigs.foldl onSignal g).refs g.refs := by
  induction sigs generalizing g with
  | nil => exact Refs.Fewer.refl g.refs
  | cons sg sigs ih =>
      have hrest := ih (g.onSignal sg) fun sg' hsg' => hsigs sg' (List.mem_cons_of_mem sg hsg')
      exact hrest.trans (onSignal_fewer g (hsigs sg (List.mem_cons_self ..)))

/-! ## One event -/

/-- Does the roster follow the shell through an event with this effect? -/
def Keeps (g : GroupMgr) (sh : SpawnShell) : Effect → Prop
  | .quiet | .adds .. => True
  | .removes type _ x => type = .tSpawn → ∀ i, g.refs i = some x.addr → g.slotOf x = some i
  | .renames p =>
      match sh.find .tSpawn (idKey p.m_ID) with
      | some x => ∀ i, g.refs i = some x.addr →
          g.slotOf (.player p) = some i ∨ g.slotOf x = some i
      | none => True
  | .clears .. => ∀ i a, g.refs i = some a → a = sh.m_player.addr

section
variable {g : GroupMgr} {sh : SpawnShell} {o : Out}

theorem quiet_owned (h : Refs.Safe g.refs sh.holdings.Owned) (ho : Quiet sh o) :
    Refs.Safe (o.2.foldl onSignal g).refs o.1.holdings.Owned := by
  rw [ho.holdings]
  exact h.fewer (onSignals_fewer g ho.signals)

theorem adds_owned (h : Refs.Safe g.refs sh.holdings.Owned) {type : SpawnItemType} {k : Int}
    {id : UInt16} (ho : Adds sh o type k id) :
    Refs.Safe (o.2.foldl onSignal g).refs o.1.holdings.Owned := by
  obtain ⟨x, hsignals, hkey, hspawn⟩ := ho.signals
  rw [hsignals, ho.holdings]
  refine addItem_safe (h.mono fun a ha => ha.add ho.free) fun hsome => ?_
  obtain rfl := hspawn hsome
  refine Or.inr ⟨k, id, ?_⟩
  rw [Holdings.add_at, if_pos ⟨rfl, rfl⟩, show x.addr = sh.next from congrArg Prod.snd hkey]
  rfl

/-- Drops and doors have no slot. -/
theorem removes_owned_iff (hok : sh.holdings.Ok) (h : Refs.Safe g.refs sh.holdings.Owned)
    {type : SpawnItemType} {k : Int} {x : Item} (ho : Removes sh o type k x) :
    Refs.Safe (o.2.foldl onSignal g).refs o.1.holdings.Owned ↔ g.Keeps sh (.removes type k x) := by
  rw [ho.signals, ho.holdings]
  show Refs.Safe (g.dropItem x).refs _ ↔
    (type = .tSpawn → ∀ i, g.refs i = some x.addr → g.slotOf x = some i)
  have hdrop := h.fewer (dropItem_fewer g x)
  by_cases htype : type = .tSpawn
  · subst htype
    have hat : sh.holdings.at_ .tSpawn k = some (x.id, x.addr) :=
      holdings_at.mpr ⟨x, ho.found, rfl⟩
    rw [hdrop.retain_iff (hok.owned_remove hat), dropItem_clears]
    exact ⟨fun h' _ => h', fun h' => h' rfl⟩
  · refine iff_of_true (hdrop.mono fun a ha => ?_) fun heq => absurd heq htype
    refine (Holdings.owned_congr ?_ (fun k' => ?_) a).mpr ha
    · rfl
    · exact Holdings.remove_at_of_ne sh.holdings (Ne.symm htype) k k'

/-- The slots of two deletions in a row. -/
theorem dropItem_dropItem_clears (g : GroupMgr) (x y : Item) (a : Addr) :
    (∀ i a', ((g.dropItem x).dropItem y).refs i = some a' → a' ≠ a) ↔
      ∀ i, g.refs i = some a → g.slotOf x = some i ∨ g.slotOf y = some i := by
  rw [dropItem_clears, slotOf_congr (dropItem_names g x)]
  refine forall_congr' fun i => ?_
  rw [dropItem_refs]
  by_cases hx : g.slotOf x = some i
  · simp [hx]
  · simp [hx]

theorem renames_owned_iff (hok : sh.holdings.Ok) (h : Refs.Safe g.refs sh.holdings.Owned)
    {p : Player} (ho : Renames sh o p) :
    Refs.Safe (o.2.foldl onSignal g).refs o.1.holdings.Owned ↔ g.Keeps sh (.renames p) := by
  obtain ⟨sh', rest, hsignals, -, -, hroster⟩ := ho.signals
  have howned := Holdings.owned_rename sh.holdings p.m_ID
  rw [hsignals, ho.holdings, Refs.Safe.congr howned, List.foldl_append, hroster,
    List.foldl_append, List.foldl_append]
  unfold SpawnShell.evicted Keeps
  dsimp only
  cases hx : sh.find .tSpawn (idKey p.m_ID) with
  | some x =>
      have hat : sh.holdings.at_ .tSpawn (idKey p.m_ID) = some (x.id, x.addr) :=
        holdings_at.mpr ⟨x, hx, rfl⟩
      have hdrop := (h.fewer (dropItem_fewer g (.player p))).fewer (dropItem_fewer _ x)
      show Refs.Safe ((g.dropItem (.player p)).dropItem x).refs _ ↔ _
      rw [hdrop.retain_iff (hok.owned_remove hat), dropItem_dropItem_clears]
  | none =>
      have hnone : sh.holdings.at_ .tSpawn (idKey p.m_ID) = none :=
        congrArg (Option.map Item.key) hx
      refine iff_of_true ((h.fewer (dropItem_fewer g (.player p))).mono fun a ha => ?_) trivial
      refine (Holdings.owned_congr ?_ (fun k => ?_) a).mpr ha
      · rfl
      · rw [Holdings.remove_at]
        split
        · rename_i heq
          rw [heq.2, hnone]
        · rfl

theorem clears_owned_iff (h : Refs.Safe g.refs sh.holdings.Owned) {id : UInt16} {announced : Bool}
    (ho : Clears sh o id announced) :
    Refs.Safe (o.2.foldl onSignal g).refs o.1.holdings.Owned ↔
      g.Keeps sh (.clears id announced) := by
  obtain ⟨p, shortName, longName, hsignals⟩ := ho.signals
  have hsilent : o.2.foldl onSignal g = g := by
    rw [hsignals]
    cases announced <;> rfl
  rw [hsilent, ho.holdings]
  refine h.retain_iff fun a => ?_
  rw [Holdings.owned_clear]
  constructor
  · rintro rfl
    exact ⟨Or.inl rfl, rfl⟩
  · exact fun ha => ha.2

theorem owned_iff_keeps (hok : sh.holdings.Ok) (h : Refs.Safe g.refs sh.holdings.Owned)
    {eff : Effect} (ho : eff.Of sh o) :
    Refs.Safe (o.2.foldl onSignal g).refs o.1.holdings.Owned ↔ g.Keeps sh eff := by
  cases eff with
  | quiet => exact iff_of_true (quiet_owned h ho) trivial
  | adds type k id => exact iff_of_true (adds_owned h ho) trivial
  | removes type k x => exact removes_owned_iff hok h ho
  | renames p => exact renames_owned_iff hok h ho
  | clears id announced => exact clears_owned_iff h ho

end

/-! ## Packets for the roster -/

theorem findPlayerByDisplayName_owned {sh : SpawnShell} {order : Table.Order} {name : QString}
    {a : Addr} (h : sh.findPlayerByDisplayName order name = some a) : sh.holdings.Owned a := by
  unfold SpawnShell.findPlayerByDisplayName at h
  split at h
  · rename_i s hs
    obtain rfl := Option.some.inj h
    have hmem : s ∈ sh.m_spawns.values := order.mem_visit.mp (List.mem_of_find?_eq_some hs)
    obtain ⟨k, hk⟩ := Table.mem_values.mp hmem
    exact Or.inr ⟨k, s.m_ID, holdings_at.mpr ⟨.spawn s, find_spawn hk, rfl⟩⟩
  · dsimp only at h
    split at h
    · obtain rfl := Option.some.inj h
      exact Or.inl rfl
    · cases h

theorem addGroupMember_owned {g : GroupMgr} {sh : SpawnShell}
    (h : Refs.Safe g.refs sh.holdings.Owned) (order : Table.Order) (data : List UInt8) :
    Refs.Safe (g.addGroupMember sh order data).refs sh.holdings.Owned := by
  unfold addGroupMember
  dsimp only
  split
  · exact h
  · split
    · rename_i i hi
      show Refs.Safe (g.set i _).refs _
      rw [refs_set]
      exact h.update fun a ha => findPlayerByDisplayName_owned ha
    · exact h

theorem removeGroupMember_owned (env : Env) {g : GroupMgr} {sh : SpawnShell}
    (h : Refs.Safe g.refs sh.holdings.Owned) (order : Table.Order) (membername : List UInt8) :
    Refs.Safe (g.removeGroupMember env sh order membername).refs sh.holdings.Owned := by
  unfold removeGroupMember
  split
  · exact fun i a ha => nomatch ha
  · split
    · rename_i i hi
      show Refs.Safe (g.set i { m_name := [], m_spawn := none }).refs _
      rw [refs_set]
      exact h.update fun a ha => nomatch ha
    · exact h

/-- The two packets leave the shell alone and point to what it holds. -/
theorem groupHandle_owned (env : Env) {d : Daemon}
    (h : Refs.Safe d.group.refs d.shell.holdings.Owned) (e : Event) :
    (d.effect env e.packet = .quiet ∧
        Refs.Safe (d.groupHandle env e).refs d.shell.holdings.Owned) ∨
      d.groupHandle env e = d.group := by
  obtain ⟨order, packet⟩ := e
  cases packet with
  | addGroupMember data => exact Or.inl ⟨rfl, addGroupMember_owned h order data⟩
  | removeGroupMember name => exact Or.inl ⟨rfl, removeGroupMember_owned env h order name⟩
  | _ => exact Or.inr rfl

theorem step_owned_iff (env : Env) {d : Daemon} (hok : d.shell.holdings.Ok)
    (h : d.group.RosterOwned d.shell) (e : Event) :
    (d.step env e).group.RosterOwned (d.step env e).shell ↔
      d.group.Keeps d.shell (d.effect env e.packet) := by
  have heffect := handle_effect env hok e
  rw [rosterOwned_iff] at h ⊢
  show Refs.Safe ((d.handle env e).2.foldl onSignal (d.groupHandle env e)).refs
    (d.handle env e).1.holdings.Owned ↔ _
  rcases groupHandle_owned env h e with ⟨hquiet, howned⟩ | hsame
  · rw [hquiet] at heffect ⊢
    exact iff_of_true (quiet_owned howned heffect) trivial
  · rw [hsame]
    exact owned_iff_keeps hok h heffect

end GroupMgr

/-! ## Runs -/

/-- In a run of the daemon all pointers of the roster stay alive, and so all reads through them are
    safe, exactly when every event leaves the roster's pointers alive. -/
theorem roster_runs (env : Env) (player : Player) (filterMgr : FilterMgr) (guildMgr : GuildMgr)
    (createUnknownSpawns : Bool) (es : List Event) :
    (∀ d ∈ Machine.trace (Daemon.step env)
        (Daemon.init player filterMgr guildMgr createUnknownSpawns) es,
      d.group.RosterOwned d.shell ∧ d.group.ReadsSafe d.shell) ↔
    Machine.StepsMeet (Daemon.step env)
      (fun d e => d.group.Keeps d.shell (d.effect env e.packet))
      (Daemon.init player filterMgr guildMgr createUnknownSpawns) es := by
  have hreads : ∀ d : Daemon, (d.group.RosterOwned d.shell ∧ d.group.ReadsSafe d.shell) ↔
      d.group.RosterOwned d.shell := fun d => ⟨fun h => h.1, fun h => ⟨h, h.readsSafe⟩⟩
  simp only [hreads]
  refine Machine.trace_forall_iff_stepsMeet (Daemon.step env) (step_ok env) (fun d e hok h => ?_)
    (init_ok player filterMgr guildMgr createUnknownSpawns) ?_ es
  · exact GroupMgr.step_owned_iff env hok h e
  · exact fun i a ha => nomatch ha

/-- Bob comes in and joins the group, then the player zones: the slot still points to Bob. -/
theorem zone_change_leaves_pointer :
    ¬ ∀ (env : Env) (player : Player) (filterMgr : FilterMgr) (guildMgr : GuildMgr)
      (createUnknownSpawns : Bool) (es : List Event),
      ∀ d ∈ Machine.trace (Daemon.step env)
          (Daemon.init player filterMgr guildMgr createUnknownSpawns) es,
        d.group.RosterOwned d.shell ∧ d.group.ReadsSafe d.shell := by
  intro h
  let bob : List UInt8 := [66, 111, 98]
  let es : List Event := [⟨.entries, .newSpawn { spawnId := 7, name := bob, npc := SPAWN_PLAYER }⟩,
    ⟨.entries, .addGroupMember bob⟩, ⟨.entries, .zoneChange 2 .server⟩]
  let start := Daemon.init { addr := 0, m_ID := 0 } .none (fun _ _ => []) false
  have hlast := h .ascii { addr := 0, m_ID := 0 } .none (fun _ _ => []) false es
    (es.foldl (Daemon.step .ascii) start)
    ((Machine.mem_trace_iff (Daemon.step .ascii) start _ es).mpr ⟨es, [], by simp, rfl⟩)
  have hreads := hlast.2.totalLevels
  revert hreads
  decide +kernel

end ShoweqDaemon.Spawns
