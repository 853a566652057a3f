/-
  The fields of the client's entries, and what a signal writes into them.

  The client's map, reduced to fields, is again a copy that follows updates: a full message sets
  all fields under an id, a partial one some of those that are there. A signal about an item acts
  on the item's id alone (`view_elsewhere`).

  A spawn is alone when nothing else that the shell holds has its id. `Shown` says that the
  client's entry of every such spawn has the daemon's values; where two items share an id the
  client has one entry for both, and nothing is asked of it. The second half says which spawns are
  alone after an item came, went or changed.
-/
import ShoweqDaemon.Session.Replication

namespace ShoweqDaemon.Spawns

/-! ## Fields -/

/-- The fields of an entry whose freshness is asked for. -/
structure SpawnFields where
  name : QString
  level : Int32
  race : UInt16
  class_ : UInt8
  hp_cur : Int32
  hp_max : Int32
  type : SpawnType
  filter_flags : UInt32
  deriving DecidableEq, Repr

/-- The fields that a message shows, of those that the client is to have as the daemon has them. -/
def SpawnMsg.fields (m : SpawnMsg) : SpawnFields where
  name := m.name
  level := m.level
  race := m.race
  class_ := m.class_
  hp_cur := m.hp_cur
  hp_max := m.hp_max
  type := m.type
  filter_flags := m.filter_flags

/-- The daemon's current values. A drop or a door has but a name and a type. -/
def Item.fields (x : Item) : SpawnFields where
  name := x.transformedName
  level := x.level
  race := x.race
  class_ := x.classVal
  hp_cur := (x.spawn?.map Spawn.m_curHP).getD 0
  hp_max := (x.spawn?.map Spawn.m_maxHP).getD 0
  type := typeFromItem x
  filter_flags := (x.spawn?.map Spawn.m_filterFlags).getD 0

@[simp] theorem fillSpawn_fields (env : Env) (x : Item) : (fillSpawn env x).fields = x.fields := by
  cases x <;> rfl

/-! ## Payloads on fields -/

/-- A map of the client's kind, reduced to fields. -/
abbrev FieldMap := UInt16 → Option SpawnFields

namespace Client

/-- The fields that a client shows under each id. -/
def fields (c : Client) : FieldMap := fun id => (c id).map SpawnMsg.fields

end Client

/-- What a payload makes of the fields: an update overwrites those it carries, which are two of
    them. -/
def Payload.paint (copy : FieldMap) : Payload → FieldMap
  | .snapshot _ _ _ spawns => Replica.putAll (spawns.map fun m => (m.id, m.fields))
  | .spawnAdded m => Function.update copy m.id (some m.fields)
  | .spawnUpdated id _ hp_cur name =>
      Function.update copy id ((copy id).map fun v =>
        { v with hp_cur := hp_cur.getD v.hp_cur, name := name.getD v.name })
  | .spawnRemoved id => Function.update copy id none
  | .zoneChanged _ _ => fun _ => none
  | .spawnKilled _ _ => copy
  | .playerStats => copy

namespace Client

theorem fields_receive (c : Client) (p : Payload) : (c.receive p).fields = p.paint c.fields := by
  cases p with
  | snapshot zone_short zone_long player_id spawns => exact snapshot_map SpawnMsg.fields spawns
  | spawnAdded m => exact Function.comp_update ..
  | spawnUpdated id pos hp_cur name =>
      refine (Function.comp_update (Option.map SpawnMsg.fields) c id _).trans ?_
      show _ = Function.update c.fields id ((c.fields id).map _)
      unfold fields
      cases c id <;> rfl
  | spawnRemoved id => exact Function.comp_update ..
  | spawnKilled deceased_id killer_id => rfl
  | zoneChanged zone_short zone_long => rfl
  | playerStats => rfl

theorem fields_foldl (c : Client) (ps : List Payload) :
    (ps.foldl receive c).fields = ps.foldl Payload.paint c.fields := by
  induction ps generalizing c with
  | nil => rfl
  | cons p ps ih =>
      show (ps.foldl receive (c.receive p)).fields = _
      rw [ih, fields_receive]
      rfl

/-- More payloads go on from where the client is. -/
theorem after_append_fields (sent ps : List Payload) :
    (after (sent ++ ps)).fields = ps.foldl Payload.paint (after sent).fields := by
  unfold after
  rw [List.foldl_append, fields_foldl]

end Client

/-! ## Signals on fields -/

/-- The message is a full one. -/
def full (changeType : UInt32) : Prop :=
  changeType &&& tSpawnChangedALL = tSpawnChangedALL ∨
    changeType &&& (tSpawnChangedFilter ||| tSpawnChangedRuntimeFilter) ≠ 0

instance (changeType : UInt32) : Decidable (full changeType) := inferInstanceAs (Decidable (_ ∨ _))

theorem full_ALL : full tSpawnChangedALL := by decide

theorem full_filter : full tSpawnChangedFilter := by decide

theorem full_runtimeFilter : full tSpawnChangedRuntimeFilter := by decide

/-- What a `changeItem` about `x` makes of the fields that the client has. -/
def Item.touch (x : Item) (changeType : UInt32) (v : SpawnFields) : SpawnFields :=
  if full changeType then x.fields
  else
    match x.spawn? with
    | some sp =>
        { v with
          hp_cur := if changeType &&& tSpawnChangedHP ≠ 0 then sp.m_curHP else v.hp_cur
          name := if changeType &&& tSpawnChangedName ≠ 0 then x.name else v.name }
    | none => v

theorem touch_full (x : Item) {changeType : UInt32} (h : full changeType) (v : SpawnFields) :
    x.touch changeType v = x.fields := if_pos h

/-- A position and a level leave the fields of the entry alone. -/
theorem touch_nothing (x : Item) {changeType : UInt32} (hfull : ¬ full changeType)
    (hhp : changeType &&& tSpawnChangedHP = 0) (hname : changeType &&& tSpawnChangedName = 0)
    (v : SpawnFields) : x.touch changeType v = v := by
  unfold Item.touch
  rw [if_neg hfull]
  split
  · rw [if_neg (not_not.mpr hhp), if_neg (not_not.mpr hname)]
  · rfl

theorem touch_position (x : Item) (v : SpawnFields) : x.touch tSpawnChangedPosition v = v :=
  touch_nothing x (by decide) (by decide) (by decide) v

theorem onChangeItem_full (env : Env) (x : Item) {changeType : UInt32} (h : full changeType) :
    onChangeItem env x changeType = .spawnAdded (fillSpawn env x) := if_pos h

theorem paint_spawnAdded (env : Env) (x : Item) (copy : FieldMap) :
    (Payload.spawnAdded (fillSpawn env x)).paint copy =
      Function.update copy x.id (some x.fields) := by
  show Function.update copy (fillSpawn env x).id (some (fillSpawn env x).fields) = _
  rw [fillSpawn_id, fillSpawn_fields]

theorem paint_onChangeItem (env : Env) {copy : FieldMap} {x : Item} {v : SpawnFields}
    (hv : copy x.id = some v) (changeType : UInt32) :
    (onChangeItem env x changeType).paint copy =
      Function.update copy x.id (some (x.touch changeType v)) := by
  by_cases hfull : full changeType
  · rw [onChangeItem_full env x hfull, touch_full x hfull]
    exact paint_spawnAdded env x copy
  · have hpart : x.touch changeType v = _ := if_neg hfull
    unfold full at hfull
    unfold onChangeItem
    rw [hpart, if_neg hfull]
    cases x.spawn? with
    | none =>
        show Function.update copy x.id ((copy x.id).map _) = _
        rw [hv]
        rfl
    | some sp =>
        show Function.update copy x.id ((copy x.id).map _) = _
        rw [hv]
        by_cases hhp : changeType &&& tSpawnChangedHP ≠ 0 <;>
          by_cases hname : changeType &&& tSpawnChangedName ≠ 0 <;> simp [hhp, hname]

/-- Whatever the client has under the item's id, the entries of other ids stay. -/
theorem paint_onChangeItem_of_ne (env : Env) (copy : FieldMap) {x : Item} {id : UInt16}
    (h : x.id ≠ id) (changeType : UInt32) :
    (onChangeItem env x changeType).paint copy id = copy id := by
  unfold onChangeItem
  split
  · rw [paint_spawnAdded]
    exact Function.update_of_ne h.symm ..
  · split <;> exact Function.update_of_ne h.symm ..

/-- The signal is about an item with another id, or carries no field. -/
def Signal.Elsewhere (id : UInt16) : Signal → Prop
  | .addItem x | .delItem x | .changeItem x _ | .playerChangeItem x _ => x.id ≠ id
  | .killSpawn .. => True
  | _ => False

section
variable (env : Env) (order : Table.Order) (zone : ZoneMgr)

/-- What the payloads of the signals make of the client's fields. -/
def view (copy : FieldMap) (sigs : List Signal) : FieldMap :=
  (sigs.flatMap (payloads env order zone)).foldl Payload.paint copy

theorem view_append (copy : FieldMap) (sigs sigs' : List Signal) :
    view env order zone copy (sigs ++ sigs') =
      view env order zone (view env order zone copy sigs) sigs' := by
  unfold view
  rw [List.flatMap_append, List.foldl_append]

theorem view_changeItem {copy : FieldMap} {x : Item} {v : SpawnFields}
    (hv : copy x.id = some v) (changeType : UInt32) :
    view env order zone copy [.changeItem x changeType] =
      Function.update copy x.id (some (x.touch changeType v)) :=
  paint_onChangeItem env hv changeType

theorem view_addItem (copy : FieldMap) (x : Item) :
    view env order zone copy [.addItem x] = Function.update copy x.id (some x.fields) :=
  paint_spawnAdded env x copy

/-- An entry that no signal is about stays. -/
theorem view_elsewhere {id : UInt16} {sigs : List Signal} (h : ∀ sg ∈ sigs, sg.Elsewhere id)
    (copy : FieldMap) : view env order zone copy sigs id = copy id := by
  induction sigs generalizing copy with
  | nil => rfl
  | cons sg sigs ih =>
      have hsg := h sg (List.mem_cons_self ..)
      have hfirst : view env order zone copy [sg] id = copy id := by
        cases sg with
        | addItem x =>
            rw [view_addItem]
            exact Function.update_of_ne (Ne.symm hsg) ..
        | delItem x => exact Function.update_of_ne (Ne.symm hsg) ..
        | changeItem x c => exact paint_onChangeItem_of_ne env copy hsg c
        | playerChangeItem x c =>
            exact (paint_onChangeItem_of_ne env _ hsg c).trans
              (paint_onChangeItem_of_ne env copy hsg c)
        | killSpawn deceased killer killerId => rfl
        | clearItems => exact hsg.elim
        | changedID sh => exact hsg.elim
        | zoneBegin shortName longName => exact hsg.elim
      rw [← List.singleton_append, view_append,
        ih (fun sg' hsg' => h sg' (List.mem_cons_of_mem _ hsg')), hfirst]

/-- What a full message puts. -/
def Signal.entry : Signal → List (UInt16 × SpawnFields)
  | .changeItem x _ => [(x.id, x.fields)]
  | _ => []

theorem view_full {sigs : List Signal}
    (hsigs : ∀ sg ∈ sigs, ∃ x c, full c ∧ sg = .changeItem x c) (copy : FieldMap) :
    view env order zone copy sigs = Replica.putOn copy (sigs.flatMap Signal.entry) := by
  induction sigs generalizing copy with
  | nil => rfl
  | cons sg sigs ih =>
      obtain ⟨x, c, hc, rfl⟩ := hsigs sg (List.mem_cons_self ..)
      have hput : view env order zone copy [.changeItem x c] =
          Function.update copy x.id (some x.fields) := by
        show (onChangeItem env x c).paint copy = _
        rw [onChangeItem_full env x hc]
        exact paint_spawnAdded env x copy
      rw [← List.singleton_append, view_append, hput,
        ih fun sg' hsg' => hsigs sg' (List.mem_cons_of_mem _ hsg')]
      rfl

end

/-! ## Where items are held -/

section
variable {sh sh' : SpawnShell}

/-- Where an item of its kind is held. -/
theorem holds_cases {x : Item} (h : sh.Holds x) :
    match x with
    | .spawn s => ∃ k, sh.m_spawns.lookup k = some s
    | .drop d => ∃ k, sh.m_drops.lookup k = some d
    | .door d => ∃ k, sh.m_doors.lookup k = some d
    | .player p => p = sh.m_player := by
  obtain ⟨t, k, h⟩ := h
  cases t <;> obtain ⟨y, hy, rfl⟩ := Option.map_eq_some_iff.mp h
  · exact ⟨k, hy⟩
  · exact ⟨k, hy⟩
  · exact ⟨k, hy⟩
  · rfl

theorem holds_player (hok : sh.holdings.Ok) : sh.Holds (.player sh.m_player) :=
  ⟨.tPlayer, find_player hok⟩

/-- Spawns lie under their ids. -/
theorem spawn_key (hok : sh.holdings.Ok) {k : Int} {s : Spawn}
    (h : sh.m_spawns.lookup k = some s) : k = idKey s.m_ID :=
  hok.spawn_key k s.m_ID s.addr (holdings_at.mpr ⟨.spawn s, find_spawn h, rfl⟩)

theorem holds_spawn (hok : sh.holdings.Ok) {s : Spawn} :
    sh.Holds (.spawn s) ↔ sh.m_spawns.lookup (idKey s.m_ID) = some s := by
  constructor
  · intro h
    obtain ⟨k, hk⟩ := holds_cases h
    rwa [← spawn_key hok hk]
  · exact fun h => ⟨.tSpawn, _, find_spawn h⟩

/-- No two spawns share an id. -/
theorem spawn_inj (hok : sh.holdings.Ok) {s t : Spawn} (hs : sh.Holds (.spawn s))
    (ht : sh.Holds (.spawn t)) (hid : s.m_ID = t.m_ID) : s = t := by
  rw [holds_spawn hok] at hs ht
  rw [hid] at hs
  exact Option.some.inj (hs.symm.trans ht)

/-! ## Spawns that are alone -/

/-- Nothing else that is held has the spawn's id. -/
def SpawnShell.Alone (sh : SpawnShell) (s : Spawn) : Prop :=
  ∀ x, sh.Holds x → x.id = s.m_ID → x = .spawn s

theorem alone_iff (hok : sh.holdings.Ok) {s : Spawn} (hs : sh.Holds (.spawn s)) :
    sh.Alone s ↔ ∀ a, sh.holdings.Held s.m_ID a → a = s.addr := by
  constructor
  · intro h a ha
    obtain ⟨x, hx, hid, rfl⟩ := held_iff.mp ha
    rw [h x hx hid]
    rfl
  · intro h x hx hid
    exact eq_of_addr_eq hok hx hs (h x.addr (held_iff.mpr ⟨x, hx, hid, rfl⟩))

/-- A spawn that is alone was alone, unless something with its id went. -/
theorem alone_of_held (hok : sh.holdings.Ok) {s t : Spawn} (hs : sh.Holds (.spawn s))
    (hkey : (Item.spawn t).key = (Item.spawn s).key)
    (hheld : ∀ a, sh.holdings.Held s.m_ID a → sh'.holdings.Held s.m_ID a)
    (h : sh'.Alone t) : sh.Alone s := by
  obtain ⟨hid, haddr⟩ := Prod.mk.inj hkey
  refine (alone_iff hok hs).mpr fun a ha => ?_
  obtain ⟨y, hy, hys, rfl⟩ := held_iff.mp (hheld a ha)
  obtain rfl := h y hy (hys.trans hid.symm)
  exact haddr

/-- The client's entry of every spawn that is alone has the daemon's values. -/
def Shown (copy : FieldMap) (sh : SpawnShell) : Prop :=
  ∀ s, sh.Holds (.spawn s) → sh.Alone s → copy s.m_ID = some (Item.spawn s).fields

/-- A snapshot shows every spawn that is alone. -/
theorem snapshot_shown (env : Env) (order : Table.Order) (zone : ZoneMgr)
    (hok : sh.holdings.Ok) (copy : FieldMap) :
    Shown ((snapshot env order zone sh).paint copy) sh := by
  intro s hs halone
  show Replica.putAll (((snapshotItems order sh).map (fillSpawn env)).map
    fun m => (m.id, m.fields)) s.m_ID = _
  rw [List.map_map]
  obtain ⟨hfrom, hsome⟩ := Replica.putAll_spec ((snapshotItems order sh).map
    ((fun m : SpawnMsg => (m.id, m.fields)) ∘ fillSpawn env)) s.m_ID
  have hmem : (s.m_ID, (Item.spawn s).fields) ∈ (snapshotItems order sh).map
      ((fun m : SpawnMsg => (m.id, m.fields)) ∘ fillSpawn env) :=
    List.mem_map.mpr ⟨.spawn s, (mem_snapshotItems order hok _).mpr hs, rfl⟩
  obtain ⟨v, hv⟩ := hsome _ hmem
  obtain ⟨x, hx, hentry⟩ := List.mem_map.mp (hfrom v hv)
  obtain ⟨hid, rfl⟩ := Prod.mk.inj hentry
  obtain rfl := halone x ((mem_snapshotItems order hok x).mp hx)
    ((fillSpawn_id env x).symm.trans hid)
  exact hv.trans (congrArg some (fillSpawn_fields env (.spawn s)))

/-- Items that are held are announced in full; a spawn that is alone is shown already or is among
    them. -/
theorem announced_shown (env : Env) (order : Table.Order) (zone : ZoneMgr) {copy : FieldMap}
    {sigs : List Signal} (hsigs : ∀ sg ∈ sigs, ∃ x c, sh.Holds x ∧ full c ∧ sg = .changeItem x c)
    (hspawn : ∀ s, sh.Holds (.spawn s) → sh.Alone s →
      copy s.m_ID = some (Item.spawn s).fields ∨ ∃ c, .changeItem (.spawn s) c ∈ sigs) :
    Shown (view env order zone copy sigs) sh := by
  intro s hs halone
  rw [view_full env order zone fun sg hsg => by
    obtain ⟨x, c, -, hc, heq⟩ := hsigs sg hsg
    exact ⟨x, c, hc, heq⟩, Replica.putOn_eq]
  obtain ⟨hfrom, hsome⟩ := Replica.putAll_spec (sigs.flatMap Signal.entry) s.m_ID
  cases hput : Replica.putAll (sigs.flatMap Signal.entry) s.m_ID with
  | some v =>
      obtain ⟨sg, hsg, hentry⟩ := List.mem_flatMap.mp (hfrom v hput)
      obtain ⟨x, c, hx, -, rfl⟩ := hsigs sg hsg
      obtain ⟨hid, rfl⟩ := Prod.mk.inj (List.mem_singleton.mp hentry)
      obtain rfl := halone x hx hid.symm
      rfl
  | none =>
      refine (hspawn s hs halone).resolve_right fun ⟨c, hmem⟩ => ?_
      obtain ⟨v, hv⟩ := hsome (Item.spawn s).fields
        (List.mem_flatMap.mpr ⟨_, hmem, List.mem_singleton.mpr rfl⟩)
      cases hput.symm.trans hv

/-! ## One place of a map -/

theorem sets_spawn_here (sh : SpawnShell) (k : Int) (s : Spawn) :
    Sets sh { sh with m_spawns := sh.m_spawns.insert k s } .tSpawn k (.spawn s) :=
  sets_spawn sh k s sh.next

/-- What is held when one place of a map is set. -/
theorem Sets.holds {type : SpawnItemType} {k : Int} {x y : Item} (h : Sets sh sh' type k x)
    (hy : sh'.Holds y) : y = x ∨ sh.Holds y := by
  obtain ⟨t, k', hy⟩ := hy
  rw [h.find] at hy
  split at hy
  · exact Or.inl (Option.some.inj hy).symm
  · exact Or.inr ⟨t, k', hy⟩

theorem Sets.holds_self {type : SpawnItemType} {k : Int} {x : Item} (h : Sets sh sh' type k x) :
    sh'.Holds x := ⟨type, k, (h.find type k).trans (if_pos ⟨rfl, rfl⟩)⟩

/-- No id and no address goes when the item that is set has those of the one before it. -/
theorem Sets.held {type : SpawnItemType} {k : Int} {x : Item} (h : Sets sh sh' type k x)
    (hplace : ∀ y ∈ sh.find type k, x.key = y.key) {id : UInt16} {a : Addr}
    (hheld : sh.holdings.Held id a) : sh'.holdings.Held id a := by
  obtain ⟨t, k', hat⟩ := hheld
  obtain ⟨y, hy, hkey⟩ := holdings_at.mp hat
  refine ⟨t, k', holdings_at.mpr ?_⟩
  rw [h.find]
  split
  · rename_i heq
    obtain ⟨rfl, rfl⟩ := heq
    exact ⟨x, rfl, (hplace y hy).trans hkey⟩
  · exact ⟨y, hy, hkey⟩

/-- What is held when an item is gone. -/
theorem holds_remove (hok : sh.holdings.Ok) {type : SpawnItemType} {k : Int} {x : Item}
    (hx : sh.find type k = some x) (y : Item) :
    (sh.remove type k).Holds y ↔ sh.Holds y ∧ y ≠ x := by
  constructor
  · rintro ⟨t, k', hy⟩
    rw [find_remove] at hy
    split at hy
    · cases hy
    · rename_i hplace
      refine ⟨⟨t, k', hy⟩, ?_⟩
      rintro rfl
      exact hplace (hok.addr_inj _ _ y.id _ _ y.id y.addr (holdings_at.mpr ⟨y, hy, rfl⟩)
        (holdings_at.mpr ⟨y, hx, rfl⟩))
  · rintro ⟨⟨t, k', hy⟩, hne⟩
    refine ⟨t, k', ?_⟩
    rw [find_remove, if_neg]
    · exact hy
    · rintro ⟨rfl, rfl⟩
      exact hne (Option.some.inj (hy.symm.trans hx))

end

end ShoweqDaemon.Spawns
