/-
  How often `ZoneMgr` announces the zone the player stays in.

  The profile comes again and again, and is announced only if the zone name it stands for is
  not the current one. `zoneNew` gives an unnamed zone the name on the wire; the next
  profile puts the table's name back, and announces the zone once more. `zone_after` is
  the name at any point of a stay, `zoneBegin_once_iff` the exact condition on the zone and on
  the names that come in.
-/
import ShoweqDaemon.Lib.Run
import ShoweqDaemon.Daemon.Wiring

namespace ShoweqDaemon.Spawns

open Machine

/-! ## Names -/

/-- No short name, or one made up for a zone that the table does not have. -/
def Unnamed (name : QString) : Prop := name = [] ∨ "unk".toList.isPrefixOf name

instance (name : QString) : Decidable (Unnamed name) := inferInstanceAs (Decidable (_ ∨ _))

/-- The short name that `zoneNew` reads off the packet. -/
def wireName (env : Env) (shortName : List UInt8) : QString :=
  dropSuffix (dropSuffix (dropSuffix (dropNumber (env.fromUtf8 shortName)) "_progress".toList)
    "_int".toList) "_errand".toList

/-- The short name after some `zoneNew` packets: an unnamed zone takes the name that comes in. -/
def settle (name : QString) (names : List QString) : QString :=
  names.foldl (fun current n => if Unnamed current then n else current) name

/-- The names come in and the last of them is `name` again, none of them a name to keep. -/
def Restored (name : QString) (names : List QString) : Prop :=
  (∀ n ∈ names, Unnamed n) ∧ ∀ last ∈ names.getLast?, last = name

theorem settle_named {name : QString} (h : ¬ Unnamed name) (names : List QString) :
    settle name names = name := by
  induction names with
  | nil => rfl
  | cons n names ih =>
      unfold settle at ih ⊢
      rw [List.foldl_cons, if_neg h]
      exact ih

theorem settle_unnamed {name current : QString} (hname : Unnamed name) (h : Unnamed current)
    (names : List QString) :
    settle current names = name ↔
      (∀ n ∈ names, Unnamed n) ∧ names.getLast?.getD current = name := by
  induction names generalizing current with
  | nil => simp [settle]
  | cons n names ih =>
      have hcons : settle current (n :: names) = settle n names := by
        unfold settle
        rw [List.foldl_cons, if_pos h]
      have hlast : (n :: names).getLast?.getD current = names.getLast?.getD n := by
        rw [List.getLast?_cons]
        rfl
      rw [hcons, hlast]
      by_cases hn : Unnamed n
      · rw [ih hn]
        simp [hn]
      · -- a name to keep, and so not `name`
        rw [settle_named hn]
        refine iff_of_false (fun h' => hn (h' ▸ hname)) fun h' => hn (h'.1 n List.mem_cons_self)

/-- The name stands when the zone has one, or when the names that come in end where they began. -/
theorem settle_eq_iff (name : QString) (names : List QString) :
    settle name names = name ↔ ¬ Unnamed name ∨ Restored name names := by
  by_cases h : Unnamed name
  · rw [settle_unnamed h h]
    simp only [h, not_true, false_or, Restored]
    cases names.getLast? <;> simp
  · simp [settle_named h, h]

/-! ## A stay -/

/-- The packet does not take the player to another zone: no entry, no zone change, no zone from a
    checkpoint, and every profile has the zone's id. -/
def Stays (zoneId : UInt32) : Packet → Prop
  | .zonePlayer profile _ => profile.zoneId = zoneId
  | .zoneEntryClient => False
  | .zoneChange _ _ => False
  | .zoneCheckpoint cp _ => cp.short_zone_name = []
  | _ => True

/-- The packet is a profile. -/
def Packet.isProfile : Packet → Bool
  | .zonePlayer _ _ => true
  | _ => false

/-- A profile that announces its zone, and what happens until the player leaves. -/
structure Stay (env : Env) where
  start : Daemon
  order : Table.Order
  profile : CharProfileStruct
  loaded : FilterMgr
  announced : start.zone.zoneChanged env profile = true
  events : List Event
  stays : ∀ e ∈ events, Stays profile.zoneId e.packet

/-- `ZoneMgr` emits `zoneBegin`. -/
def ZoneMgr.emitsZoneBegin (env : Env) (z : ZoneMgr) : Packet → Bool
  | .zonePlayer profile _ => z.zoneChanged env profile
  | .zoneCheckpoint cp _ => cp.short_zone_name ≠ []
  | _ => false

section
variable {env : Env}

namespace Stay

variable (stay : Stay env)

/-- The profile that begins the stay. -/
def announcement : Event := { order := stay.order, packet := .zonePlayer stay.profile stay.loaded }

/-- The daemon once the zone is announced. -/
def begun : Daemon := stay.start.step env stay.announcement

/-- The table's name of the zone. -/
def tableName : QString := env.zoneNameFromID stay.profile.zoneId.toUInt16

/-- How often `zoneBegin` is emitted, the announcement included. -/
def zoneBegins : Nat :=
  (outputs (Daemon.step env) (fun d e => d.zone.emitsZoneBegin env e.packet) stay.start
    (stay.announcement :: stay.events)).count true

/-- The zone is announced once, and no later profile clears the shell. -/
def AnnouncedOnce : Prop :=
  stay.zoneBegins ≤ 1 ∧
    ∀ pre e post, stay.events = pre ++ e :: post → e.packet.isProfile = true →
      Signal.clearItems ∉ ((pre.foldl (Daemon.step env) stay.begun).handle env e).2

end Stay

/-- The events since the last profile. -/
def sinceProfile (events : List Event) : List Event :=
  (events.reverse.takeWhile (fun e => !e.packet.isProfile)).reverse

/-- The names of the `OP_NewZone` packets. -/
def newNames (env : Env) (events : List Event) : List QString :=
  events.filterMap fun e =>
    match e.packet with
    | .zoneNew shortName _ => some (wireName env shortName)
    | _ => none

/-- The table has a name for the zone, or whenever a profile comes, the names that came since the
    last one end with the table's again. -/
def Stay.KeepsName (stay : Stay env) : Prop :=
  ¬ Unnamed stay.tableName ∨
    ∀ pre e post, stay.events = pre ++ e :: post → e.packet.isProfile = true →
      Restored stay.tableName (newNames env (sinceProfile pre))

/-! ## The name during a stay -/

theorem sinceProfile_profile (events : List Event) {e : Event} (h : e.packet.isProfile = true) :
    sinceProfile (events ++ [e]) = [] := by
  simp [sinceProfile, h]

theorem sinceProfile_other (events : List Event) {e : Event} (h : e.packet.isProfile = false) :
    sinceProfile (events ++ [e]) = sinceProfile events ++ [e] := by
  simp [sinceProfile, h]

/-- The zone fields that the announcement looks at. -/
def ZoneMgr.At (z : ZoneMgr) (name : QString) : Prop := z.m_shortZoneName = name ∧ z.m_zoning = false

theorem zoneNew_at {z : ZoneMgr} {name : QString} (h : z.At name) (shortName longName : List UInt8) :
    (z.zoneNew env shortName longName).At (settle name [wireName env shortName]) := by
  obtain ⟨hname, -⟩ := h
  refine ⟨?_, rfl⟩
  subst hname
  rfl

/-- What a packet of a stay does to the zone: a profile puts the table's name back, `zoneNew`
    may rename it, nothing else touches it. -/
theorem zoneAfter_cases (env : Env) (d : Daemon) {zoneId : UInt32} {packet : Packet}
    (h : Stays zoneId packet) :
    (packet.isProfile = true ∧
      (d.zoneAfter env packet).At (env.zoneNameFromID zoneId.toUInt16)) ∨
    (∃ shortName longName, packet = .zoneNew shortName longName) ∨
    (packet.isProfile = false ∧ (∀ shortName longName, packet ≠ .zoneNew shortName longName) ∧
      d.zoneAfter env packet = d.zone) := by
  cases packet with
  | zonePlayer profile loaded =>
      have hid : profile.zoneId = zoneId := h
      refine Or.inl ⟨rfl, ?_, rfl⟩
      rw [← hid]
      rfl
  | zoneNew shortName longName => exact Or.inr (Or.inl ⟨shortName, longName, rfl⟩)
  | zoneEntryClient => exact absurd h id
  | zoneChange zoneId dir => exact absurd h id
  | zoneCheckpoint cp loaded =>
      refine Or.inr (Or.inr ⟨rfl, (fun _ _ hne => nomatch hne), ?_⟩)
      exact if_pos h
  | _ => exact Or.inr (Or.inr ⟨rfl, (fun _ _ hne => nomatch hne), rfl⟩)

theorem newNames_append (events events' : List Event) :
    newNames env (events ++ events') = newNames env events ++ newNames env events' :=
  List.filterMap_append

theorem newNames_other {e : Event}
    (h : ∀ shortName longName, e.packet ≠ .zoneNew shortName longName) :
    newNames env [e] = [] := by
  unfold newNames
  rw [List.filterMap_cons]
  split
  · rfl
  · rename_i hname
    split at hname
    · rename_i hp
      exact absurd hp (h _ _)
    · cases hname

theorem settle_append (name : QString) (names names' : List QString) :
    settle name (names ++ names') = settle (settle name names) names' :=
  List.foldl_append

/-- Where the name stands after any part of a stay: the table's name, settled by what came in
    since the last profile. -/
theorem zone_after (env : Env) {d : Daemon} {zoneId : UInt32}
    (hd : d.zone.At (env.zoneNameFromID zoneId.toUInt16)) (events : List Event)
    (hstays : ∀ e ∈ events, Stays zoneId e.packet) :
    (events.foldl (Daemon.step env) d).zone.At
      (settle (env.zoneNameFromID zoneId.toUInt16) (newNames env (sinceProfile events))) := by
  induction events using List.reverseRecOn with
  | nil => exact hd
  | append_singleton events e ih =>
      have hat := ih fun e' he' => hstays e' (by simp [he'])
      rw [List.foldl_append]
      show (Daemon.zoneAfter env (events.foldl (Daemon.step env) d) e.packet).At _
      obtain ⟨hprofile, hname⟩ | ⟨shortName, longName, hnew⟩ | ⟨hprofile, hnew, hsame⟩ :=
        zoneAfter_cases env (events.foldl (Daemon.step env) d) (hstays e (by simp))
      · rw [sinceProfile_profile events hprofile]
        exact hname
      · have hprofile : e.packet.isProfile = false := by
          rw [hnew]
          rfl
        have hnames : newNames env [e] = [wireName env shortName] := by
          simp [newNames, hnew]
        rw [sinceProfile_other events hprofile, newNames_append, settle_append, hnames, hnew]
        exact zoneNew_at hat shortName longName
      · rw [sinceProfile_other events hprofile, newNames_append, newNames_other hnew,
          List.append_nil, hsame]
        exact hat

/-! ## Announcements -/

theorem zoneChanged_at {z : ZoneMgr} {name : QString} (h : z.At name)
    (profile : CharProfileStruct) :
    z.zoneChanged env profile = true ↔ name ≠ env.zoneNameFromID profile.zoneId.toUInt16 := by
  obtain ⟨hname, hzoning⟩ := h
  unfold ZoneMgr.zoneChanged
  rw [hname, hzoning, Bool.or_false, decide_eq_true_eq]
  exact ne_comm

/-- A profile that is not announced leaves the items alone, one that is clears them. -/
theorem clearItems_mem_handle_iff (d : Daemon) {e : Event} {profile : CharProfileStruct}
    {loaded : FilterMgr} (h : e.packet = .zonePlayer profile loaded) :
    Signal.clearItems ∈ (d.handle env e).2 ↔ d.zone.zoneChanged env profile = true := by
  unfold Daemon.handle
  rw [h]
  cases hc : d.zone.zoneChanged env profile
  · simp [Out.andThen, SpawnShell.playerProfile, hc]
  · simp [Out.andThen, SpawnShell.playerProfile, SpawnShell.zoneBegin, SpawnShell.clear, hc]

namespace Stay

variable (stay : Stay env)

theorem begun_at : stay.begun.zone.At stay.tableName := ⟨rfl, rfl⟩

/-- A profile of the stay is announced when the name is not the table's at that point. -/
theorem announces_iff {pre post : List Event} {e : Event} (h : stay.events = pre ++ e :: post)
    {profile : CharProfileStruct} {loaded : FilterMgr} (hp : e.packet = .zonePlayer profile loaded) :
    (pre.foldl (Daemon.step env) stay.begun).zone.zoneChanged env profile = true ↔
      ¬ (¬ Unnamed stay.tableName ∨ Restored stay.tableName (newNames env (sinceProfile pre))) := by
  have hid : profile.zoneId = stay.profile.zoneId := by
    have hstay := stay.stays e (by simp [h])
    rw [hp] at hstay
    exact hstay
  have hat := zone_after env stay.begun_at pre fun e' he' => stay.stays e' (by simp [h, he'])
  rw [zoneChanged_at hat, hid, ← settle_eq_iff]
  exact Iff.rfl

/-- Only a profile can announce the zone of a stay. -/
theorem emits_profile {e : Event} (he : e ∈ stay.events) {z : ZoneMgr}
    (h : z.emitsZoneBegin env e.packet = true) :
    ∃ profile loaded, e.packet = .zonePlayer profile loaded := by
  have hstay := stay.stays e he
  cases hp : e.packet with
  | zonePlayer profile loaded => exact ⟨profile, loaded, rfl⟩
  | zoneCheckpoint cp loaded =>
      rw [hp] at h hstay
      have hempty : cp.short_zone_name = [] := hstay
      simp [ZoneMgr.emitsZoneBegin, hempty] at h
  | _ =>
      rw [hp] at h
      cases h

theorem zoneBegins_le_one_iff :
    stay.zoneBegins ≤ 1 ↔
      ∀ pre e post, stay.events = pre ++ e :: post →
        (pre.foldl (Daemon.step env) stay.begun).zone.emitsZoneBegin env e.packet = false := by
  have hfirst : stay.start.zone.emitsZoneBegin env stay.announcement.packet = true := stay.announced
  unfold zoneBegins
  rw [outputs, hfirst, List.count_cons_self]
  show (outputs _ _ stay.begun stay.events).count true + 1 ≤ 1 ↔ _
  have hzero : (outputs (Daemon.step env) (fun d e => d.zone.emitsZoneBegin env e.packet) stay.begun
      stay.events).count true + 1 ≤ 1 ↔ true ∉ outputs (Daemon.step env)
        (fun d e => d.zone.emitsZoneBegin env e.packet) stay.begun stay.events := by
    rw [← List.count_eq_zero]
    omega
  rw [hzero, mem_outputs_iff]
  constructor
  · intro hno pre e post hsplit
    by_contra hyes
    exact hno ⟨pre, e, post, hsplit, by simpa using Ne.symm hyes⟩
  · rintro hno ⟨pre, e, post, hsplit, htrue⟩
    rw [hno pre e post hsplit] at htrue
    cases htrue

end Stay

/-- The zone of a stay is announced once, and no later profile clears the shell, exactly when
    the table names the zone or the names on the wire always end with the table's. -/
theorem zoneBegin_once_iff (stay : Stay env) : stay.AnnouncedOnce ↔ stay.KeepsName := by
  unfold Stay.AnnouncedOnce
  rw [stay.zoneBegins_le_one_iff]
  have hquiet : ∀ pre e post, stay.events = pre ++ e :: post → e.packet.isProfile = true →
      (Signal.clearItems ∈ ((pre.foldl (Daemon.step env) stay.begun).handle env e).2 ↔
        ¬ (¬ Unnamed stay.tableName ∨
          Restored stay.tableName (newNames env (sinceProfile pre)))) := by
    intro pre e post hsplit hprofile
    cases hp : e.packet with
    | zonePlayer profile loaded =>
        rw [clearItems_mem_handle_iff _ hp]
        exact stay.announces_iff hsplit hp
    | _ =>
        rw [hp] at hprofile
        cases hprofile
  constructor
  · rintro ⟨-, hclear⟩
    by_cases hname : Unnamed stay.tableName
    · refine Or.inr fun pre e post hsplit hprofile => ?_
      have hkept := not_not.mp (mt (hquiet pre e post hsplit hprofile).mpr
        (hclear pre e post hsplit hprofile))
      exact hkept.resolve_left (not_not.mpr hname)
    · exact Or.inl hname
  · intro hkeeps
    have hall : ∀ pre e post, stay.events = pre ++ e :: post → e.packet.isProfile = true →
        ¬ Unnamed stay.tableName ∨ Restored stay.tableName (newNames env (sinceProfile pre)) :=
      fun pre e post hsplit hprofile => hkeeps.imp_right fun h => h pre e post hsplit hprofile
    constructor
    · intro pre e post hsplit
      by_contra hyes
      have hemits := Bool.eq_true_of_not_eq_false hyes
      obtain ⟨profile, loaded, hp⟩ := stay.emits_profile (by simp [hsplit]) hemits
      rw [hp] at hemits
      have hprofile : e.packet.isProfile = true := by
        rw [hp]
        rfl
      exact (stay.announces_iff hsplit hp).mp hemits (hall pre e post hsplit hprofile)
    · intro pre e post hsplit hprofile
      exact mt (hquiet pre e post hsplit hprofile).mp
        (not_not.mpr (hall pre e post hsplit hprofile))

end

/-- Zone 3000 is not in the table. `OP_NewZone` names it, and the next profile, the same as the
    first, announces it again. -/
theorem unknown_zone_announced_again :
    let env : Env :=
      { Env.ascii with
        zoneNameFromID := fun id => "unk_zone_".toList ++ Nat.toDigits 10 id.toNat
        zoneLongNameFromID := fun id => "unk_zone_".toList ++ Nat.toDigits 10 id.toNat }
    let profile : CharProfileStruct := { zoneId := 3000 }
    let events : List Event :=
      [⟨.entries, .zoneNew [110, 101, 119] [78, 101, 119]⟩, ⟨.entries, .zonePlayer profile .none⟩]
    ∃ stay : Stay env, stay.profile = profile ∧ stay.events = events ∧ stay.zoneBegins = 2 ∧
      ¬ stay.AnnouncedOnce := by
  intro env profile events
  let stay : Stay env :=
    { start := Daemon.init { addr := 0, m_ID := 0 } .none (fun _ _ => []) false
      order := .entries
      profile := profile
      loaded := .none
      announced := by decide +kernel
      events := events
      stays := by
        intro e he
        simp only [events, List.mem_cons, List.not_mem_nil, or_false] at he
        obtain rfl | rfl := he
        · trivial
        · rfl }
  have htwice : stay.zoneBegins = 2 := by decide +kernel
  exact ⟨stay, rfl, rfl, htwice, fun h => absurd h.1 (by rw [htwice]; decide)⟩

end ShoweqDaemon.Spawns
