/-
  What each handler does to the client's entries of the spawns.

  `Exact sh o C` says that a client to which every spawn that is alone is shown has it so after the
  operation exactly when `C` holds. An operation on other items never matters: an item that shares
  its id with a spawn leaves it not alone. Most handlers announce in full what they change, or
  change no field. Those that do not have their condition here: `zoneEntry` for a spawn that is
  there, `updateSpawnAppearance`, `updateNpcHP`, `killSpawn`, and `removeGroundItem` for a drop
  under the id of a spawn.
-/
import ShoweqDaemon.Session.Fields

namespace ShoweqDaemon.Spawns

section
variable (env : Env)

/-- After the operation and its signals the spawns are shown exactly if `C` holds. -/
def Exact (sh : SpawnShell) (o : Out) (C : Prop) : Prop :=
  ∀ (order : Table.Order) (zone : ZoneMgr) (copy : FieldMap), Shown copy sh →
    (Shown (view env order zone copy o.2) o.1 ↔ C)

/-- A signal about an item that is held and no spawn, or one without fields. -/
def Signal.Aside (sh : SpawnShell) : Signal → Prop
  | .addItem x | .changeItem x _ | .playerChangeItem x _ => sh.Holds x ∧ ∀ s, x ≠ .spawn s
  | .killSpawn .. => True
  | _ => False

theorem Clears.not_holds {sh : SpawnShell} {o : Out} {id : UInt16} {announced : Bool}
    (h : Clears sh o id announced) (s : Spawn) : ¬ o.1.Holds (.spawn s) := by
  intro hs
  obtain ⟨k, hk⟩ := holds_cases hs
  have hat : o.1.holdings.at_ .tSpawn k = some (s.m_ID, s.addr) :=
    holdings_at.mpr ⟨.spawn s, find_spawn hk, rfl⟩
  rw [h.holdings] at hat
  cases (Holdings.clear_at hat).1

/-! ## Kinds of operations -/

namespace Exact

variable {env} {sh sh' : SpawnShell} {o : Out} {C C' : Prop}

theorem of_iff (h : Exact env sh o C) (hC : C ↔ C') : Exact env sh o C' :=
  fun order zone copy hshown => (h order zone copy hshown).trans hC

/-- Whatever the client had before. -/
theorem always (h : ∀ order zone copy, Shown (view env order zone copy o.2) o.1) :
    Exact env sh o True :=
  fun order zone copy _ => iff_of_true (h order zone copy) trivial

theorem refl (sh : SpawnShell) : Exact env sh (sh, []) True :=
  fun _ _ _ hshown => iff_of_true hshown trivial

theorem andThen {f : SpawnShell → Out} (h : Exact env sh o True)
    (hf : Exact env o.1 (f o.1) C) : Exact env sh (o.andThen f) C := by
  intro order zone copy hshown
  show Shown (view env order zone copy (o.2 ++ (f o.1).2)) (f o.1).1 ↔ C
  rw [view_append]
  exact hf order zone _ ((h order zone copy hshown).mpr trivial)

/-- No spawn is left. -/
theorem cleared {id : UInt16} {announced : Bool} (h : Clears sh o id announced) :
    Exact env sh o True :=
  always fun _ _ _ s hs => absurd hs (h.not_holds s)

/-- The spawns stay, and the signals are about other items that are held. -/
theorem aside (hok : sh.holdings.Ok) (hspawns : o.1.m_spawns = sh.m_spawns)
    (hheld : ∀ id a, sh.holdings.Held id a → o.1.holdings.Held id a)
    (hsigs : ∀ sg ∈ o.2, sg.Aside o.1) : Exact env sh o True := by
  intro order zone copy hshown
  refine iff_of_true (fun s hs halone => ?_) trivial
  obtain ⟨k, hk⟩ := holds_cases hs
  have hold : sh.Holds (.spawn s) := ⟨.tSpawn, k, find_spawn (hspawns ▸ hk)⟩
  rw [view_elsewhere env order zone (fun sg hsg => ?_) copy]
  · exact hshown s hold (alone_of_held hok hold rfl (fun a => hheld s.m_ID a) halone)
  · have haside := hsigs sg hsg
    cases sg with
    | addItem x => exact fun hid => haside.2 s (halone x haside.1 hid)
    | changeItem x c => exact fun hid => haside.2 s (halone x haside.1 hid)
    | playerChangeItem x c => exact fun hid => haside.2 s (halone x haside.1 hid)
    | killSpawn deceased killer killerId => trivial
    | delItem x => exact haside.elim
    | clearItems => exact haside.elim
    | changedID sh => exact haside.elim
    | zoneBegin shortName longName => exact haside.elim

/-- The player changes, not its id, and nothing or the player is announced. -/
theorem player (hok : sh.holdings.Ok) {p : Player}
    (hkey : (Item.player p).key = (Item.player sh.m_player).key) {sigs : List Signal}
    (hsigs : ∀ sg ∈ sigs, (∃ c, sg = .changeItem (.player p) c) ∨
      (∃ c, sg = .playerChangeItem (.player p) c) ∨ ∃ d k id, sg = .killSpawn d k id) :
    Exact env sh ({ sh with m_player := p }, sigs) True := by
  have hholdings : { sh with m_player := p }.holdings = sh.holdings := holdings_setPlayer hkey
  have hheld : { sh with m_player := p }.Holds (.player p) := holds_player (hholdings.symm ▸ hok)
  refine aside hok rfl (fun id a h => hholdings.symm ▸ h) fun sg hsg => ?_
  rcases hsigs sg hsg with ⟨c, rfl⟩ | ⟨c, rfl⟩ | ⟨d, k, id, rfl⟩
  · exact ⟨hheld, fun s heq => nomatch heq⟩
  · exact ⟨hheld, fun s heq => nomatch heq⟩
  · trivial

/-- A drop or a door comes or changes, and is announced. -/
theorem fixture (hok : sh.holdings.Ok) {type : SpawnItemType} {k : Int} {x : Item}
    (h : Sets sh sh' type k x) (hplace : ∀ y ∈ sh.find type k, x.key = y.key)
    (hspawns : sh'.m_spawns = sh.m_spawns) (hx : ∀ s, x ≠ .spawn s) {sg : Signal}
    (hsg : sg = .addItem x ∨ ∃ c, sg = .changeItem x c) : Exact env sh (sh', [sg]) True := by
  refine aside hok hspawns (fun id a => h.held hplace) fun sg' hsg' => ?_
  obtain rfl := List.mem_singleton.mp hsg'
  rcases hsg with rfl | ⟨c, rfl⟩
  · exact ⟨h.holds_self, hx⟩
  · exact ⟨h.holds_self, hx⟩

/-- A spawn in the map changes, not its id. If it is alone, the signals must make of its fields
    what it has now; they leave the others alone. -/
theorem edited (hok : sh.holdings.Ok) {k : Int} {item s : Spawn}
    (hitem : sh.m_spawns.lookup k = some item) (hkey : (Item.spawn s).key = (Item.spawn item).key)
    {sigs : List Signal} {v : SpawnFields}
    (hview : ∀ order zone copy, copy item.m_ID = some (Item.spawn item).fields →
      view env order zone copy sigs item.m_ID = some v)
    (helse : ∀ id, item.m_ID ≠ id → ∀ sg ∈ sigs, sg.Elsewhere id) :
    Exact env sh ({ sh with m_spawns := sh.m_spawns.insert k s }, sigs)
      (sh.Alone item → v = (Item.spawn s).fields) := by
  intro order zone copy hshown
  let sh' : SpawnShell := { sh with m_spawns := sh.m_spawns.insert k s }
  have hsets : Sets sh sh' .tSpawn k (.spawn s) := sets_spawn_here sh k s
  have hholdings : sh'.holdings = sh.holdings := hsets.holdings (find_spawn hitem) hkey rfl
  have hok' : sh'.holdings.Ok := hholdings.symm ▸ hok
  have hold : sh.Holds (.spawn item) := ⟨.tSpawn, k, find_spawn hitem⟩
  have hid : s.m_ID = item.m_ID := congrArg Prod.fst hkey
  have hboth : sh'.Alone s ↔ sh.Alone item :=
    ⟨alone_of_held hok hold hkey fun a h => hholdings.symm ▸ h,
      alone_of_held hok' hsets.holds_self hkey.symm fun a h => hholdings ▸ h⟩
  constructor
  · intro hshown' halone
    have hnew := hshown' s hsets.holds_self (hboth.mpr halone)
    rw [hid, hview order zone copy (hshown item hold halone)] at hnew
    exact Option.some.inj hnew
  · intro hC t ht halone
    by_cases hsame : item.m_ID = t.m_ID
    · obtain rfl := spawn_inj hok' ht hsets.holds_self (hsame.symm.trans hid.symm)
      have haloneItem := hboth.mp halone
      rw [hid, ← hC haloneItem]
      exact hview order zone copy (hshown item hold haloneItem)
    · have htold : sh.Holds (.spawn t) := by
        refine (hsets.holds ht).resolve_left fun heq => hsame ?_
        rw [Item.spawn.inj heq]
        exact hid.symm
      rw [view_elsewhere env order zone (helse t.m_ID hsame) copy]
      exact hshown t htold (alone_of_held hok htold rfl (fun a h => hholdings.symm ▸ h) halone)

theorem announced (hok : sh.holdings.Ok) {k : Int} {item s : Spawn}
    (hitem : sh.m_spawns.lookup k = some item) (hkey : (Item.spawn s).key = (Item.spawn item).key)
    (changeType : UInt32) :
    Exact env sh ({ sh with m_spawns := sh.m_spawns.insert k s },
        [.changeItem (.spawn s) changeType])
      (sh.Alone item →
        (Item.spawn s).touch changeType (Item.spawn item).fields = (Item.spawn s).fields) := by
  have hid : s.m_ID = item.m_ID := congrArg Prod.fst hkey
  refine edited hok hitem hkey (fun order zone copy hcopy => ?_) fun id hne sg hsg => ?_
  · rw [← hid] at hcopy ⊢
    rw [view_changeItem env order zone hcopy]
    exact Function.update_self ..
  · obtain rfl := List.mem_singleton.mp hsg
    exact hid.trans_ne hne

theorem full (hok : sh.holdings.Ok) {k : Int} {item s : Spawn}
    (hitem : sh.m_spawns.lookup k = some item) (hkey : (Item.spawn s).key = (Item.spawn item).key)
    {changeType : UInt32} (hfull : Spawns.full changeType) :
    Exact env sh ({ sh with m_spawns := sh.m_spawns.insert k s },
      [.changeItem (.spawn s) changeType]) True :=
  (announced hok hitem hkey changeType).of_iff
    (iff_of_true (fun _ => touch_full (.spawn s) hfull _) trivial)

/-- Nothing goes out, or a `SpawnKilled`, which carries no field. -/
theorem silent (hok : sh.holdings.Ok) {k : Int} {item s : Spawn}
    (hitem : sh.m_spawns.lookup k = some item) (hkey : (Item.spawn s).key = (Item.spawn item).key)
    {sigs : List Signal} (hsigs : ∀ sg ∈ sigs, ∃ d killer id, sg = .killSpawn d killer id) :
    Exact env sh ({ sh with m_spawns := sh.m_spawns.insert k s }, sigs)
      (sh.Alone item → (Item.spawn item).fields = (Item.spawn s).fields) := by
  have helse : ∀ id : UInt16, ∀ sg ∈ sigs, sg.Elsewhere id := by
    intro id sg hsg
    obtain ⟨d, killer, id', rfl⟩ := hsigs sg hsg
    trivial
  exact edited hok hitem hkey
    (fun order zone copy hcopy => (view_elsewhere env order zone (helse _) copy).trans hcopy)
    fun id _ => helse id

/-- A new spawn, under an id that no spawn has. -/
theorem added (hok : sh.holdings.Ok) {k : Int} {s : Spawn} (hfree : sh.m_spawns.lookup k = none)
    (hk : k = idKey s.m_ID) (haddr : s.addr = sh.next) :
    Exact env sh ({ sh with m_spawns := sh.m_spawns.insert k s, next := sh.next + 1 },
      [.addItem (.spawn s)]) True := by
  intro order zone copy hshown
  let sh' : SpawnShell := { sh with m_spawns := sh.m_spawns.insert k s, next := sh.next + 1 }
  have hsets : Sets sh sh' .tSpawn k (.spawn s) := sets_spawn sh k s (sh.next + 1)
  have hok' : sh'.holdings.Ok :=
    (hsets.adds (find_eq_none hfree) rfl haddr (by decide) (fun _ => hk) fun _ => rfl).holdings ▸
      hok.add (by decide) fun _ => hk
  have hplace : ∀ y ∈ sh.find .tSpawn k, (Item.spawn s).key = y.key := by
    rw [find_eq_none hfree]
    exact fun y hy => nomatch hy
  refine iff_of_true (fun t ht halone => ?_) trivial
  show view env order zone copy [.addItem (.spawn s)] t.m_ID = _
  rw [view_addItem]
  by_cases hsame : t.m_ID = s.m_ID
  · obtain rfl := spawn_inj hok' ht hsets.holds_self hsame
    exact Function.update_self ..
  · have hold : sh.Holds (.spawn t) := by
      refine (hsets.holds ht).resolve_left fun heq => hsame ?_
      rw [Item.spawn.inj heq]
    have halone' : sh.Alone t := alone_of_held hok hold rfl (fun a => hsets.held hplace) halone
    exact (Function.update_of_ne hsame ..).trans (hshown t hold halone')

end Exact

/-! ## Spawns -/

variable {sh : SpawnShell}

theorem newSpawn_exact (hok : sh.holdings.Ok) (s : SpawnStruct) :
    Exact env sh (sh.newSpawn env s) True := by
  unfold SpawnShell.newSpawn
  by_cases hself : s.npc = SPAWN_SELF
  · rw [if_pos hself]
    exact Exact.refl sh
  · rw [if_neg hself]
    let sh' : SpawnShell := { sh with m_dead := sh.m_dead.forget s.spawnId }
    have hok' : sh'.holdings.Ok := hok
    dsimp only
    cases hitem : sh.m_spawns.lookup (idKey s.spawnId) with
    | some item =>
        have hkey : (Item.spawn (sh'.labelled env (item.update env s))).key =
          (Item.spawn item).key := rfl
        have hfull : Exact env sh' _ True := Exact.full hok' hitem hkey full_ALL
        exact hfull
    | none =>
        have hadded : Exact env sh' _ True :=
          Exact.added (s := sh'.labelled env (Spawn.ofStruct env sh'.next s)) hok' hitem rfl rfl
        exact hadded

theorem updateSpawn_exact (hok : sh.holdings.Ok) (u : SpawnPositionUpdate) :
    Exact env sh (sh.updateSpawn env u) True := by
  unfold SpawnShell.updateSpawn
  by_cases hplayer : u.spawnId = sh.m_player.m_ID
  · rw [if_pos hplayer]
    refine Exact.player hok ?_ fun sg hsg => Or.inl ⟨_, List.mem_singleton.mp hsg⟩
    rfl
  · rw [if_neg hplayer]
    cases hitem : sh.m_spawns.lookup (idKey u.spawnId) with
    | some item =>
        have hkey : (Item.spawn (item.move u)).key = (Item.spawn item).key := rfl
        refine (Exact.announced hok hitem hkey tSpawnChangedPosition).of_iff
          (iff_of_true (fun _ => ?_) trivial)
        rw [touch_position]
        rfl
    | none =>
        dsimp only
        by_cases hcreate : sh.createUnknownSpawns = true
        · rw [if_pos hcreate]
          cases hdead : sh.m_dead.find u.spawnId with
          | some i => exact Exact.refl sh
          | none => exact Exact.added hok hitem rfl rfl
        · rw [if_neg hcreate]
          exact Exact.refl sh

theorem changeSpawn_exact (hok : sh.holdings.Ok) (k : Int) (f : Spawn → Spawn)
    (changeType : UInt32) (hf : ∀ s, (Item.spawn (f s)).key = (Item.spawn s).key) :
    Exact env sh (sh.changeSpawn k f changeType)
      (∀ item ∈ sh.m_spawns.lookup k, sh.Alone item →
        (Item.spawn (f item)).touch changeType (Item.spawn item).fields =
          (Item.spawn (f item)).fields) := by
  unfold SpawnShell.changeSpawn
  cases hitem : sh.m_spawns.lookup k with
  | some item => exact (Exact.announced hok hitem (hf item) changeType).of_iff (by simp)
  | none => exact (Exact.refl sh).of_iff (by simp)

theorem illusionSpawn_exact (hok : sh.holdings.Ok) (spawnId race : UInt32) :
    Exact env sh (sh.illusionSpawn spawnId race) True := by
  have hexact := changeSpawn_exact env hok (intKey spawnId)
    (fun s => { s with m_race := race.toUInt16 }) tSpawnChangedALL fun _ => rfl
  exact hexact.of_iff (iff_of_true (fun _ _ _ => touch_full _ full_ALL _) trivial)

/-- The level is set and the message about it carries nothing. -/
theorem updateSpawnAppearance_exact (hok : sh.holdings.Ok) (spawnId type : UInt16)
    (parameter : UInt32) : Exact env sh (sh.updateSpawnAppearance spawnId type parameter)
      (type = 1 → ∀ item ∈ sh.m_spawns.lookup (idKey spawnId), sh.Alone item →
        item.m_level = parameter.toInt32) := by
  unfold SpawnShell.updateSpawnAppearance
  by_cases htype : type = 1
  · rw [if_pos htype]
    have hexact := changeSpawn_exact env hok (idKey spawnId)
      (fun s => { s with m_level := parameter.toInt32 }) tSpawnChangedLevel fun _ => rfl
    refine hexact.of_iff ?_
    rw [forall_prop_of_true htype]
    refine forall_congr' fun item => imp_congr_right fun _ => imp_congr_right fun _ => ?_
    rw [touch_nothing _ (by decide) (by decide) (by decide)]
    constructor
    · intro h
      exact congrArg SpawnFields.level h
    · intro h
      show _ = { (Item.spawn item).fields with level := parameter.toInt32 }
      rw [← h]
      rfl
  · rw [if_neg htype]
    exact (Exact.refl sh).of_iff (by simp [htype])

/-- The message carries the current hit points alone. -/
theorem updateNpcHP_spawn_exact (hok : sh.holdings.Ok) (spawnId : UInt32) (curHP maxHP : Int32) :
    Exact env sh (sh.updateNpcHP spawnId curHP maxHP)
      (∀ item ∈ sh.m_spawns.lookup (intKey spawnId), sh.Alone item → item.m_maxHP = maxHP) := by
  have hexact := changeSpawn_exact env hok (intKey spawnId)
    (fun s => { s with m_curHP := curHP, m_maxHP := maxHP }) tSpawnChangedHP fun _ => rfl
  refine hexact.of_iff (forall_congr' fun item => imp_congr_right fun _ =>
    imp_congr_right fun _ => ?_)
  show { (Item.spawn item).fields with hp_cur := curHP } =
    { (Item.spawn item).fields with hp_cur := curHP, hp_max := maxHP } ↔ item.m_maxHP = maxHP
  constructor
  · intro h
    exact congrArg SpawnFields.hp_max h
  · intro h
    rw [← h]
    rfl

theorem playerUpdateNpcHP_exact (hok : sh.holdings.Ok) (spawnId : UInt32) (curHP maxHP : Int32) :
    Exact env sh (sh.playerUpdateNpcHP spawnId curHP maxHP) True := by
  unfold SpawnShell.playerUpdateNpcHP
  split
  · exact Exact.refl sh
  · refine Exact.player hok ?_ fun sg hsg => Or.inr (Or.inl ⟨_, List.mem_singleton.mp hsg⟩)
    rfl

theorem intKey_id (id : UInt16) : intKey id.toUInt32 = idKey id := by
  have hlt := id.toNat_lt
  unfold intKey idKey
  show (id.toUInt32.toBitVec).toInt = _
  rw [BitVec.toInt_eq_toNat_of_lt]
  · simp
  · simp
    omega

/-- A spawn under the player's id is not alone. -/
theorem not_alone_of_player (hok : sh.holdings.Ok) {s : Spawn} (hid : s.m_ID = sh.m_player.m_ID) :
    ¬ sh.Alone s := by
  intro halone
  cases halone (.player sh.m_player) (holds_player hok) hid.symm

/-- The spawn's maximum must be the one in the packet. The player's does not matter. -/
theorem updateNpcHP_exact (hok : sh.holdings.Ok) (spawnId : UInt32) (curHP maxHP : Int32) :
    Exact env sh ((sh.updateNpcHP spawnId curHP maxHP).andThen fun sh =>
        sh.playerUpdateNpcHP spawnId curHP maxHP)
      (∀ item ∈ sh.m_spawns.lookup (intKey spawnId), sh.Alone item → item.m_maxHP = maxHP) := by
  have hspawn := updateNpcHP_spawn_exact env hok spawnId curHP maxHP
  have hquiet := updateNpcHP_quiet sh spawnId curHP maxHP
  by_cases hid : spawnId = sh.m_player.m_ID.toUInt32
  · have hC : ∀ item ∈ sh.m_spawns.lookup (intKey spawnId), sh.Alone item →
        item.m_maxHP = maxHP := by
      intro item hitem halone
      rw [hid, intKey_id] at hitem
      have hkey : sh.m_player.m_ID = item.m_ID :=
        UInt16.toNat_inj.mp (Int.ofNat_inj.mp (spawn_key hok hitem))
      exact absurd halone (not_alone_of_player hok hkey.symm)
    refine ((hspawn.of_iff (iff_of_true hC trivial)).andThen ?_).of_iff (iff_of_true trivial hC)
    exact playerUpdateNpcHP_exact env (hquiet.holdings.symm ▸ hok) spawnId curHP maxHP
  · have hplayer : (sh.updateNpcHP spawnId curHP maxHP).1.m_player = sh.m_player := by
      unfold SpawnShell.updateNpcHP SpawnShell.changeSpawn
      split <;> rfl
    have hsecond : (sh.updateNpcHP spawnId curHP maxHP).1.playerUpdateNpcHP spawnId curHP maxHP =
        ((sh.updateNpcHP spawnId curHP maxHP).1, []) := by
      unfold SpawnShell.playerUpdateNpcHP
      rw [hplayer, if_pos hid]
    unfold Out.andThen
    dsimp only
    rw [hsecond, List.append_nil]
    exact hspawn

end

/-! ## Deaths -/

theorem cleanedName_append (name name' : QString) :
    cleanedName (name ++ name') = cleanedName name ++ cleanedName name' := by
  unfold cleanedName
  rw [List.filter_append, List.map_append]

/-- Moving an article to the end makes a name longer by one at most. -/
theorem transformedName_length (name : QString) :
    (cleanedName name).length ≤ (transformedName name).length ∧
      (transformedName name).length ≤ (cleanedName name).length + 1 := by
  have hlen : ∀ pre : QString, pre.isPrefixOf (cleanedName name) = true →
      pre.length ≤ (cleanedName name).length :=
    fun pre h => (List.isPrefixOf_iff_prefix.mp h).length_le
  unfold transformedName
  dsimp only
  split
  · rename_i h
    have h' := hlen _ h
    simp at h' ⊢
    omega
  · split
    · rename_i h
      have h' := hlen _ h
      simp at h' ⊢
      omega
    · split
      · rename_i h
        have h' := hlen _ h
        simp at h' ⊢
        omega
      · omega

/-- A corpse does not show the name it had. -/
theorem transformedName_corpse (name : QString) :
    transformedName (name ++ Spawn_Corpse_Designator) ≠ transformedName name := by
  intro h
  have hcorpse := (transformedName_length (name ++ Spawn_Corpse_Designator)).1
  have hname := (transformedName_length name).2
  have hsuffix : (cleanedName Spawn_Corpse_Designator).length = 9 := by decide
  rw [cleanedName_append, List.length_append, hsuffix, h] at hcorpse
  omega

/-- A corpse stays the kind of corpse it is. -/
theorem killSpawn_corpse {sp : Spawn} (h : sp.isCorpse = true) : sp.killSpawn.m_NPC = sp.m_NPC := by
  have hcorpse : sp.m_NPC = SPAWN_PC_CORPSE ∨ sp.m_NPC = SPAWN_NPC_CORPSE := by
    simpa [Spawn.isCorpse] using h
  show (if _ then _ else _) = _
  rcases hcorpse with heq | heq
  · rw [heq]
    rfl
  · rw [heq]
    rfl

theorem killSpawn_isCorpse (sp : Spawn) : sp.killSpawn.isCorpse = true := by
  unfold Spawn.isCorpse Spawn.killSpawn
  dsimp only
  split <;> decide

section
variable (env : Env) {sh : SpawnShell}

/-- Only `SpawnKilled` goes out: the client misses the corpse's name, its type and its flags. -/
theorem killSpawn_exact (hok : sh.holdings.Ok) (spawnId killerId : UInt16) :
    Exact env sh (sh.killSpawn env spawnId killerId)
      (∀ item ∈ sh.m_spawns.lookup (idKey spawnId), ¬ sh.Alone item) := by
  unfold SpawnShell.killSpawn
  dsimp only
  by_cases hplayer : spawnId = sh.m_player.m_ID
  · rw [if_pos hplayer]
    refine (Exact.player hok ?_ fun sg hsg =>
      Or.inr (Or.inr ⟨_, _, _, List.mem_singleton.mp hsg⟩)).of_iff (iff_of_true trivial ?_)
    · rfl
    · intro item hitem
      have hid : spawnId = item.m_ID :=
        UInt16.toNat_inj.mp (Int.ofNat_inj.mp (spawn_key hok hitem))
      exact not_alone_of_player hok (hid.symm.trans hplayer)
  · rw [if_neg hplayer]
    cases hitem : sh.m_spawns.lookup (idKey spawnId) with
    | none => exact (Exact.refl sh).of_iff (by simp)
    | some item =>
        let s := (item.killSpawn.updateFilterFlags env sh.m_filterMgr).updateRuntimeFilterFlags env
          sh.m_filterMgr
        let corpse : Spawn := { s with m_name := s.m_name ++ Spawn_Corpse_Designator }
        have hkey : (Item.spawn corpse).key = (Item.spawn item).key := rfl
        refine (Exact.silent hok hitem hkey fun sg hsg =>
          ⟨_, _, _, List.mem_singleton.mp hsg⟩).of_iff ?_
        have hfields : (Item.spawn item).fields ≠ (Item.spawn corpse).fields := by
          intro h
          have hnames : transformedName item.m_name =
              transformedName (item.m_name ++ Spawn_Corpse_Designator) :=
            congrArg SpawnFields.name h
          exact transformedName_corpse _ hnames.symm
        simp [hfields]

/-! ## The player -/

/-- Under a new id everything is sent anew. -/
theorem setPlayerID_shown (order : Table.Order) (zone : ZoneMgr) (hok : sh.holdings.Ok)
    {new : UInt16} (hne : sh.m_player.m_ID ≠ new) (copy : FieldMap) :
    Shown (view env order zone copy (sh.setPlayerID new).2) (sh.setPlayerID new).1 := by
  have hok' := (setPlayerID_effect hok new).ok hok
  obtain ⟨-, hplayer, hsignals⟩ := setPlayerID_of_ne hok hne
  generalize ({ sh.m_player with m_ID := new } : Player) = p at hplayer hsignals
  have hheld : (sh.setPlayerID new).1.Holds (.player p) := hplayer ▸ holds_player hok'
  let front : List Signal :=
    [Signal.delItem (.player p)] ++ sh.evicted new ++
      [Signal.changeItem (.player p) tSpawnChangedALL]
  have hsplit : (sh.setPlayerID new).2 = front ++ ([Signal.changedID (sh.setPlayerID new).1] ++
      [Signal.playerChangeItem (.player p) tSpawnChangedALL]) := by
    rw [hsignals]
    exact (List.append_assoc _ [_] _).symm
  rw [hsplit, view_append, view_append]
  -- whatever came before, the snapshot starts anew
  have hsnap := snapshot_shown env order zone hok' (view env order zone copy front)
  intro s hs halone
  rw [view_elsewhere env order zone fun sg hsg => ?_]
  · exact hsnap s hs halone
  · obtain rfl := List.mem_singleton.mp hsg
    intro hid
    cases halone (.player p) hheld hid

theorem setPlayerID_exact (hok : sh.holdings.Ok) (id : UInt16) :
    Exact env sh (sh.setPlayerID id) True := by
  by_cases hid : sh.m_player.m_ID = id
  · rw [setPlayerID_of_eq hid]
    exact Exact.refl sh
  · exact Exact.always fun order zone copy => setPlayerID_shown env order zone hok hid copy

/-- Without a new id the checkpoint is not announced; it is about the player alone. -/
theorem playerCheckpoint_exact (hok : sh.holdings.Ok) (cp : CheckpointData) :
    Exact env sh ({ sh with m_player := sh.m_player.restored cp }.setPlayerID cp.player_id)
      True := by
  let sh' : SpawnShell := { sh with m_player := sh.m_player.restored cp }
  have hkey : (Item.player (sh.m_player.restored cp)).key = (Item.player sh.m_player).key := rfl
  have hok' : sh'.holdings.Ok := (holdings_setPlayer hkey).symm ▸ hok
  have hfirst : Exact env sh (sh', []) True :=
    Exact.player hok hkey fun sg hsg => nomatch hsg
  exact hfirst.andThen (f := fun sh => sh.setPlayerID cp.player_id)
    (setPlayerID_exact env hok' cp.player_id)

theorem playerProfile_exact (hok : sh.holdings.Ok) (profile : CharProfileStruct) :
    Exact env sh (sh.playerProfile env profile) True := by
  refine Exact.player hok ?_ fun sg hsg => Or.inr (Or.inl ⟨_, List.mem_singleton.mp hsg⟩)
  rfl

/-! ## `OP_ZoneEntry` -/

/-- The struct shows what the spawn shows: an update with it leaves every field that the client has
    as it is. -/
def SpawnStruct.Repeats (s : SpawnStruct) (sp : Spawn) : Prop :=
  transformedName sp.m_name = transformedName (env.fromUtf8 s.name) ∧
    sp.m_level = s.level.toUInt32.toInt32 ∧ sp.m_race = s.race ∧ sp.m_class = s.class_ ∧
    sp.m_curHP = s.curHp.toInt32 ∧ sp.m_maxHP = 100 ∧
    typeFromItem (.spawn sp) = typeFromItem (.spawn { sp with m_NPC := s.storedNPC })

theorem update_fields_iff (s : SpawnStruct) (sp : Spawn) :
    (Item.spawn sp).fields = (Item.spawn (sp.update env s)).fields ↔ s.Repeats env sp := by
  show SpawnFields.mk (transformedName sp.m_name) sp.m_level sp.m_race sp.m_class sp.m_curHP
      sp.m_maxHP (typeFromItem (.spawn sp)) sp.m_filterFlags =
    SpawnFields.mk (transformedName (env.fromUtf8 s.name)) s.level.toUInt32.toInt32 s.race s.class_
      s.curHp.toInt32 100 (typeFromItem (.spawn { sp with m_NPC := s.storedNPC }))
      sp.m_filterFlags ↔ _
  simp [SpawnStruct.Repeats]

/-- The entry of a spawn that is there is not announced. -/
theorem zoneEntry_exact (hok : sh.holdings.Ok) (s : SpawnStruct) :
    Exact env sh (sh.zoneEntry env s)
      (sh.isSelf env s = false → ∀ item ∈ sh.m_spawns.lookup (idKey s.spawnId),
        sh.Alone item → s.Repeats env item) := by
  unfold SpawnShell.zoneEntry
  by_cases hself : sh.isSelf env s = true
  · rw [if_pos hself]
    have hok' := (setPlayerID_effect hok s.spawnId).ok hok
    refine ((setPlayerID_exact env hok s.spawnId).andThen ?_).of_iff
      (iff_of_true trivial fun h => absurd hself (by simp [h]))
    refine Exact.player hok' ?_ fun sg hsg => Or.inl ⟨_, List.mem_singleton.mp hsg⟩
    rfl
  · rw [if_neg hself]
    have hfalse : sh.isSelf env s = false := by simpa using hself
    cases hitem : sh.m_spawns.lookup (idKey s.spawnId) with
    | none => exact (newSpawn_exact env hok s).of_iff (by simp)
    | some item =>
        have hkey : (Item.spawn (item.update env s)).key = (Item.spawn item).key := rfl
        refine (Exact.silent hok hitem hkey fun _ hsg => absurd hsg List.not_mem_nil).of_iff ?_
        rw [forall_prop_of_true hfalse, update_fields_iff]
        simp

/-! ## `OP_ClientUpdate` -/

theorem moveSelf_exact (hok : sh.holdings.Ok) (u : SpawnPositionUpdate) :
    Exact env sh ({ sh with m_player := sh.m_player.moveSelf u },
      [.playerChangeItem (.player (sh.m_player.moveSelf u)) tSpawnChangedPosition]) True := by
  refine Exact.player hok ?_ fun sg hsg => Or.inr (Or.inl ⟨_, List.mem_singleton.mp hsg⟩)
  rfl

theorem clientUpdate_exact (hok : sh.holdings.Ok) (z : Bool) (dir : SpawnShell.Dir)
    (u : SpawnPositionUpdate) :
    Exact env sh ((sh.playerUpdateSelf env z dir u).andThen fun sh =>
      if z = true ∨ dir = .client then (sh, []) else sh.updateSpawn env u) True := by
  by_cases hset : dir = .client ∧ sh.m_player.m_ID = 0
  · obtain ⟨rfl, hid⟩ := hset
    rw [clientUpdate_client, playerUpdateSelf_first env hok z u hid]
    have hok' := (setPlayerID_effect hok u.spawnId).ok hok
    exact (setPlayerID_exact env hok u.spawnId).andThen (moveSelf_exact env hok' u)
  · by_cases hself : u.spawnId = sh.m_player.m_ID
    · rw [playerUpdateSelf_self env hset hself]
      refine (moveSelf_exact env hok u).andThen ?_
      dsimp only
      split
      · exact Exact.refl _
      · exact updateSpawn_exact env ((moveSelf_quiet hok u).holdings.symm ▸ hok) u
    · rw [clientUpdate_other env hset hself]
      split
      · exact Exact.refl sh
      · exact updateSpawn_exact env hok u

/-! ## Drops and doors -/

theorem newGroundItem_exact (hok : sh.holdings.Ok) (ds : MakeDropStruct) :
    Exact env sh (sh.newGroundItem env ds) True := by
  unfold SpawnShell.newGroundItem
  cases hitem : sh.m_drops.lookup (intKey ds.dropId) with
  | some item =>
      refine Exact.fixture hok (sets_drop sh (intKey ds.dropId) _ sh.next) (fun y hy => ?_) rfl
        (fun s heq => nomatch heq) (Or.inr ⟨_, rfl⟩)
      obtain rfl := Option.some.inj ((find_drop hitem).symm.trans hy)
      rfl
  | none =>
      have hfree : sh.find .tDrop (intKey ds.dropId) = none :=
        congrArg (Option.map Item.drop) hitem
      refine Exact.fixture hok (sets_drop sh (intKey ds.dropId) _ (sh.next + 1)) (fun y hy => ?_)
        rfl (fun s heq => nomatch heq) (Or.inl rfl)
      cases hfree.symm.trans hy

theorem newDoorSpawn_exact (hok : sh.holdings.Ok) (d : DoorStruct) :
    Exact env sh (sh.newDoorSpawn env d) True := by
  unfold SpawnShell.newDoorSpawn
  cases hitem : sh.m_doors.lookup (idKey d.doorId.toUInt16) with
  | some item =>
      refine Exact.fixture hok (sets_door sh (idKey d.doorId.toUInt16) _ sh.next) (fun y hy => ?_)
        rfl (fun s heq => nomatch heq) (Or.inr ⟨_, rfl⟩)
      obtain rfl := Option.some.inj ((find_door hitem).symm.trans hy)
      rfl
  | none =>
      have hfree : sh.find .tDoors (idKey d.doorId.toUInt16) = none :=
        congrArg (Option.map Item.door) hitem
      refine Exact.fixture hok (sets_door sh (idKey d.doorId.toUInt16) _ (sh.next + 1))
        (fun y hy => ?_) rfl (fun s heq => nomatch heq) (Or.inl rfl)
      cases hfree.symm.trans hy

/-! ## Deletions -/

/-- Of an item that goes, the client loses the entry of its id. -/
theorem remove_shown_iff (hok : sh.holdings.Ok) {type : SpawnItemType} {k : Int} {x : Item}
    (hx : sh.find type k = some x) : Exact env sh (sh.remove type k, [.delItem x])
      (∀ s, sh.Holds (.spawn s) → s.m_ID = x.id → x ≠ .spawn s →
        ∃ y, sh.Holds y ∧ y.id = x.id ∧ y ≠ x ∧ y ≠ .spawn s) := by
  intro order zone copy hshown
  have hholds := holds_remove hok hx
  have hview (id : UInt16) : view env order zone copy [.delItem x] id =
      Function.update copy x.id none id := rfl
  constructor
  · intro hshown' s hs hid hne
    by_contra hthird
    have halone : (sh.remove type k).Alone s := by
      intro y hy hys
      by_contra hney
      obtain ⟨hyold, hyx⟩ := (hholds y).mp hy
      exact hthird ⟨y, hyold, hys.trans hid, hyx, hney⟩
    have hentry := hshown' s ((hholds _).mpr ⟨hs, hne.symm⟩) halone
    rw [hview, hid, Function.update_self] at hentry
    cases hentry
  · intro hC s hs halone
    obtain ⟨hold, hne⟩ := (hholds _).mp hs
    rw [hview]
    by_cases hid : s.m_ID = x.id
    · obtain ⟨y, hy, hyx, hne', hnes⟩ := hC s hold hid hne.symm
      exact absurd (halone y ((hholds y).mpr ⟨hy, hne'⟩) (hyx.trans hid.symm)) hnes
    · rw [Function.update_of_ne hid]
      refine hshown s hold fun y hy hys => halone y ((hholds y).mpr ⟨hy, ?_⟩) hys
      rintro rfl
      exact hid hys.symm

/-- A drop under the id of a spawn takes the client's entry of the spawn with it. -/
def SpawnShell.Covers (sh : SpawnShell) (drop : Drop) : Prop :=
  ∃ s, sh.Holds (.spawn s) ∧ s.m_ID = drop.m_ID ∧
    ∀ y, sh.Holds y → y.id = drop.m_ID → y = .drop drop ∨ y = .spawn s

theorem removeGroundItem_exact (hok : sh.holdings.Ok) (dropId : UInt32) :
    Exact env sh (sh.removeGroundItem dropId)
      (∀ drop ∈ sh.m_drops.lookup (intKey dropId), ¬ sh.Covers drop) := by
  unfold SpawnShell.removeGroundItem
  cases hitem : sh.m_drops.lookup (intKey dropId) with
  | none =>
      have hnone : sh.find .tDrop (intKey dropId) = none := congrArg (Option.map Item.drop) hitem
      rw [deleteItem_of_none hnone]
      exact (Exact.refl sh).of_iff (by simp)
  | some drop =>
      rw [deleteItem_of_find (find_drop hitem)]
      refine (remove_shown_iff env hok (find_drop hitem)).of_iff ?_
      constructor
      · rintro h _ ⟨⟩ ⟨s, hs, hid, honly⟩
        obtain ⟨y, hy, hyid, hne, hnes⟩ := h s hs hid fun heq => nomatch heq
        exact (honly y hy hyid).elim hne hnes
      · intro h s hs hid _
        by_contra hthird
        refine h drop rfl ⟨s, hs, hid, fun y hy hyid => ?_⟩
        by_contra hboth
        obtain ⟨hne, hnes⟩ := not_or.mp hboth
        exact hthird ⟨y, hy, hyid, hne, hnes⟩

/-- No other spawn has the id of the one that goes. -/
theorem deleteSpawn_exact (hok : sh.holdings.Ok) (spawnId : UInt16) :
    Exact env sh (sh.deleteSpawn spawnId) True := by
  let sh' : SpawnShell := { sh with m_dead := sh.m_dead.push spawnId }
  have hok' : sh'.holdings.Ok := hok
  show Exact env sh' (sh'.deleteItem .tSpawn (idKey spawnId)) True
  rcases deleteItem_cases sh' .tSpawn (idKey spawnId) with ⟨-, heq⟩ | ⟨x, hx, heq⟩
  · rw [heq]
    exact Exact.refl sh'
  · rw [heq]
    refine (remove_shown_iff env hok' hx).of_iff (iff_of_true (fun s hs hid hne => ?_) trivial)
    obtain ⟨t, ht, rfl⟩ := Option.map_eq_some_iff.mp hx
    have hheld : sh'.Holds (.spawn t) := ⟨.tSpawn, _, hx⟩
    exact absurd (congrArg Item.spawn (spawn_inj hok' hheld hs hid.symm)) hne

end

end ShoweqDaemon.Spawns
