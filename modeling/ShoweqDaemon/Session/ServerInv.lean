/-
  The invariant of `WsServer`.

  `ServerInv` says which socket, adapter, sink and timer belong to which session, and that a doomed
  adapter's sink is gone. Every handler keeps it (`serverInv_step`). The clauses about the sockets
  are a part of their own (`SocketInv`), with one lemma for each thing that can happen to a socket.
  A new session, a detach and a resume each put one session in the place of what its id had
  (`Replaces`); that this keeps the clauses about the objects is proved once
  (`ServerInv.replace`). The other handlers only give objects back.
-/
import ShoweqDaemon.Session.Server

namespace ShoweqDaemon.Ws

open Function (update update_apply update_self update_of_ne)

/-- A session and the objects it owns: its adapter holds its live sink and is not doomed; attached,
    it is found by its socket, through which the sink sends, and no timer runs; detached, the sink
    drops everything and an armed timer is its own. -/
structure SessionOk (w : WsServer) (id : String) (s : Session) : Prop where
  owns : w.adapters s.adapter = some { m_sink := s.liveSink, sessionId := id, doomed := false }
  attached : ∀ k, s.sock = some k → w.m_socketToSession k = some id ∧
    w.sinks s.liveSink = some (.webSocket k) ∧ s.pruneTimer = none
  detached : s.sock = none → w.sinks s.liveSink = some .noop ∧ ∃ t, s.pruneTimer = some t ∧
    w.timers t = some { session := id, armed := true, doomed := false }

/-- A live socket waits for its first frame or has a session, never both. -/
structure SocketInv (w : WsServer) : Prop where
  socket_lt : ∀ k, w.sockets k = true → k < w.next
  live_iff : ∀ k, w.sockets k = true ↔ w.m_pending k = true ∨ (w.m_socketToSession k).isSome
  not_both : ∀ k, w.m_pending k = true → w.m_socketToSession k = none

/-- What every run keeps of the maps and the objects: who owns what, and that nothing deleted is
    still in use but the sinks of adapters that wait for their deletion. -/
structure ServerInv (w : WsServer) : Prop extends SocketInv w where
  mapped : ∀ k id, w.m_socketToSession k = some id →
    ∃ s, w.m_sessions id = some s ∧ s.sock = some k
  session : ∀ id s, w.m_sessions id = some s → SessionOk w id s
  distinct_sinks : ∀ id s id' s', w.m_sessions id = some s → w.m_sessions id' = some s' →
    s.liveSink = s'.liveSink → id = id'
  adapter_lt : ∀ a obj, w.adapters a = some obj → a < w.next ∧ obj.m_sink < w.next
  owned : ∀ a obj, w.adapters a = some obj → obj.doomed = false →
    ∃ s, w.m_sessions obj.sessionId = some s ∧ s.adapter = a
  doomed_sink : ∀ a obj, w.adapters a = some obj → obj.doomed = true →
    w.sinks obj.m_sink = none
  timer_lt : ∀ t tm, w.timers t = some tm → t < w.next
  armed : ∀ t tm, w.timers t = some tm → tm.armed = true →
    ∃ s, w.m_sessions tm.session = some s ∧ s.pruneTimer = some t

theorem serverInv_init : ServerInv WsServer.init := by
  constructor
  case toSocketInv => constructor <;> simp [WsServer.init]
  all_goals simp [WsServer.init]

/-- The objects of a session have names that are used up. -/
theorem ServerInv.session_lt {w : WsServer} (h : ServerInv w) (id : String) (s : Session)
    (hs : w.m_sessions id = some s) : s.adapter < w.next ∧ s.liveSink < w.next :=
  h.adapter_lt s.adapter _ (h.session id s hs).owns

/-- A session whose objects are untouched. -/
theorem SessionOk.congr {w w' : WsServer} {id : String} {s : Session} (h : SessionOk w id s)
    (hadapter : w'.adapters s.adapter = w.adapters s.adapter)
    (hsink : w'.sinks s.liveSink = w.sinks s.liveSink)
    (hmap : ∀ k, s.sock = some k → w'.m_socketToSession k = w.m_socketToSession k)
    (htimer : ∀ t, s.sock = none → s.pruneTimer = some t → w'.timers t = w.timers t) :
    SessionOk w' id s := by
  constructor
  · exact hadapter.trans h.owns
  · intro k hk
    obtain ⟨hid, hlive, hidle⟩ := h.attached k hk
    exact ⟨(hmap k hk).trans hid, hsink.trans hlive, hidle⟩
  · intro hnone
    obtain ⟨hnoop, t, ht, harmed⟩ := h.detached hnone
    exact ⟨hsink.trans hnoop, t, ht, (htimer t hnone ht).trans harmed⟩

/-! ## Sockets -/

namespace SocketInv

variable {w w' : WsServer} (h : SocketInv w)
include h

/-- A name that was never used is no socket, and in neither map. -/
theorem fresh_socket {k : Nat} (hk : w.next ≤ k) :
    w.sockets k = false ∧ w.m_pending k = false ∧ w.m_socketToSession k = none := by
  have hdead : ¬ w.sockets k = true := fun hlive => absurd (h.socket_lt k hlive) (by omega)
  have hboth := mt (h.live_iff k).mpr hdead
  simpa using And.intro hdead (not_or.mp hboth)

theorem congr (hsockets : w'.sockets = w.sockets) (hpending : w'.m_pending = w.m_pending)
    (hmap : w'.m_socketToSession = w.m_socketToSession) (hnext : w.next ≤ w'.next) :
    SocketInv w' := by
  constructor
  · intro k hk
    rw [hsockets] at hk
    exact Nat.lt_of_lt_of_le (h.socket_lt k hk) hnext
  · intro k
    rw [hsockets, hpending, hmap]
    exact h.live_iff k
  · rw [hpending, hmap]
    exact h.not_both

theorem connect : SocketInv w.onNewConnection := by
  obtain ⟨-, -, hmap⟩ := h.fresh_socket (Nat.le_refl w.next)
  constructor
  all_goals
    intro k
    simp only [WsServer.onNewConnection, update_apply]
    by_cases hk : k = w.next
    case pos => simp [hk, hmap]
    simp only [if_neg hk]
  · exact fun hlive => Nat.lt_succ_of_lt (h.socket_lt k hlive)
  · exact h.live_iff k
  · exact h.not_both k

/-- A pending socket gets a session. -/
theorem take {sock : Nat} {id : String} (hpend : w.m_pending sock = true)
    (hsockets : w'.sockets = w.sockets) (hpending : w'.m_pending = update w.m_pending sock false)
    (hmap : w'.m_socketToSession = update w.m_socketToSession sock (some id))
    (hnext : w.next ≤ w'.next) : SocketInv w' := by
  have hlive : w.sockets sock = true := (h.live_iff sock).mpr (Or.inl hpend)
  constructor
  · intro k hk
    rw [hsockets] at hk
    exact Nat.lt_of_lt_of_le (h.socket_lt k hk) hnext
  all_goals
    intro k
    simp only [hsockets, hpending, hmap, update_apply]
    by_cases hk : k = sock
    case pos => simp [hk, hlive]
    simp only [if_neg hk]
  · exact h.live_iff k
  · exact h.not_both k

/-- A socket is gone from all the maps. -/
theorem close (sock : Nat) (hsockets : w'.sockets = update w.sockets sock false)
    (hpending : w'.m_pending = update w.m_pending sock false)
    (hmap : w'.m_socketToSession = update w.m_socketToSession sock none)
    (hnext : w.next ≤ w'.next) : SocketInv w' := by
  constructor
  all_goals
    intro k
    simp only [hsockets, hpending, hmap, update_apply]
    by_cases hk : k = sock
    case pos => simp [hk]
    simp only [if_neg hk]
  · exact fun hlive => Nat.lt_of_lt_of_le (h.socket_lt k hlive) hnext
  · exact h.live_iff k
  · exact h.not_both k

end SocketInv

/-! ## One session in the place of another -/

/-- The id gets the session `s`, on the socket `sock` or off it. Its adapter, which only the session
    before it may have had, gets a new sink, and the sink of that session may be gone. What belongs
    to other ids is untouched. -/
structure Replaces (w w' : WsServer) (sock : Nat) (id : String) (s : Session) : Prop where
  sessions : w'.m_sessions = update w.m_sessions id (some s)
  adapters : w'.adapters =
    update w.adapters s.adapter (some { m_sink := w.next, sessionId := id, doomed := false })
  reuses : ∀ old, w.m_sessions id = some old → old.adapter = s.adapter
  unused : ∀ obj, w.adapters s.adapter = some obj → obj.sessionId = id
  adapter_lt : s.adapter < w'.next
  liveSink : s.liveSink = w.next
  next_lt : w.next < w'.next
  sinks : ∀ k < w.next, w'.sinks k = w.sinks k ∨
    w'.sinks k = none ∧ ∃ old, w.m_sessions id = some old ∧ old.liveSink = k
  mapped : w'.m_socketToSession = update w.m_socketToSession sock (s.sock.map fun _ => id)
  on_sock : ∀ k, s.sock = some k → k = sock
  alone : ∀ k, k ≠ sock → w.m_socketToSession k ≠ some id
  free : ∀ id', w.m_socketToSession sock = some id' → id' = id
  timers : ∀ t tm, w.timers t = some tm → tm.session ≠ id → w'.timers t = some tm
  timer_lt : ∀ t tm, w'.timers t = some tm → t < w'.next
  armed : ∀ t tm, w'.timers t = some tm → tm.armed = true →
    tm.session = id ∧ s.pruneTimer = some t ∨ tm.session ≠ id ∧ w.timers t = some tm

section
variable {w w' : WsServer} {sock : Nat} {id : String} {s : Session}

theorem Replaces.session_self (hr : Replaces w w' sock id s) : w'.m_sessions id = some s := by
  rw [hr.sessions, update_self]

theorem Replaces.session_other (hr : Replaces w w' sock id s) {id' : String} (hid : id' ≠ id) :
    w'.m_sessions id' = w.m_sessions id' := by
  rw [hr.sessions, update_of_ne hid]

/-- The sessions of other ids keep what they own. -/
theorem Replaces.sessionOk_other (hr : Replaces w w' sock id s) (h : ServerInv w) {id' : String}
    {s' : Session} (hid : id' ≠ id) (hs' : w.m_sessions id' = some s') : SessionOk w' id' s' := by
  have hok := h.session id' s' hs'
  refine hok.congr ?_ ?_ ?_ ?_
  · have hadapter : s'.adapter ≠ s.adapter := by
      intro heq
      exact hid (hr.unused _ (heq ▸ hok.owns))
    rw [hr.adapters, update_of_ne hadapter]
  · rcases hr.sinks s'.liveSink (h.session_lt id' s' hs').2 with hsame | ⟨-, old, hold, hsink⟩
    · exact hsame
    · exact absurd (h.distinct_sinks id' s' id old hs' hold hsink.symm) hid
  · intro k hk
    have hne : k ≠ sock := by
      rintro rfl
      exact hid (hr.free id' (hok.attached k hk).1)
    rw [hr.mapped, update_of_ne hne]
  · intro t hnone ht
    obtain ⟨-, t', ht', htimer⟩ := hok.detached hnone
    obtain rfl : t' = t := Option.some.inj (ht'.symm.trans ht)
    exact (hr.timers t' _ htimer hid).trans htimer.symm

/-- The clauses about the objects, once for every handler that attaches or detaches. -/
theorem ServerInv.replace (h : ServerInv w) (sock : Nat) (id : String) (s : Session)
    (hr : Replaces w w' sock id s) (hsockets : SocketInv w') (hok : SessionOk w' id s) :
    ServerInv w' := by
  have hlast : ∀ {a obj}, w'.adapters a = some obj → a = s.adapter ∧
      obj = { m_sink := w.next, sessionId := id, doomed := false } ∨
        a ≠ s.adapter ∧ w.adapters a = some obj := by
    intro a obj ha
    rw [hr.adapters, update_apply] at ha
    split at ha
    · exact Or.inl ⟨‹_›, (Option.some.inj ha).symm⟩
    · exact Or.inr ⟨‹_›, ha⟩
  constructor
  case toSocketInv => exact hsockets
  case mapped =>
    intro k id' hk
    rw [hr.mapped, update_apply] at hk
    split at hk
    · obtain ⟨k', hk', rfl⟩ := Option.map_eq_some_iff.mp hk
      rename_i hsock
      exact ⟨s, hr.session_self, by rw [hk', hr.on_sock k' hk', hsock]⟩
    · rename_i hsock
      have hid : id' ≠ id := by
        rintro rfl
        exact hr.alone k hsock hk
      rw [hr.session_other hid]
      exact h.mapped k id' hk
  case session =>
    intro id' s' hs'
    by_cases hid : id' = id
    · subst hid
      rw [hr.session_self] at hs'
      rwa [← Option.some.inj hs']
    · rw [hr.session_other hid] at hs'
      exact hr.sessionOk_other h hid hs'
  case distinct_sinks =>
    intro id₁ s₁ id₂ s₂ hs₁ hs₂ heq
    rw [hr.sessions, update_apply] at hs₁ hs₂
    split at hs₁ <;> split at hs₂
    · exact ‹id₁ = id›.trans ‹id₂ = id›.symm
    · have hlt := (h.session_lt id₂ s₂ hs₂).2
      rw [← heq, ← Option.some.inj hs₁, hr.liveSink] at hlt
      exact absurd hlt (Nat.lt_irrefl _)
    · have hlt := (h.session_lt id₁ s₁ hs₁).2
      rw [heq, ← Option.some.inj hs₂, hr.liveSink] at hlt
      exact absurd hlt (Nat.lt_irrefl _)
    · exact h.distinct_sinks id₁ s₁ id₂ s₂ hs₁ hs₂ heq
  case adapter_lt =>
    intro a obj ha
    rcases hlast ha with ⟨rfl, rfl⟩ | ⟨-, ha⟩
    · exact ⟨hr.adapter_lt, hr.next_lt⟩
    · obtain ⟨halt, hslt⟩ := h.adapter_lt a obj ha
      exact ⟨Nat.lt_trans halt hr.next_lt, Nat.lt_trans hslt hr.next_lt⟩
  case owned =>
    intro a obj ha halive
    rcases hlast ha with ⟨rfl, rfl⟩ | ⟨hne, ha⟩
    · exact ⟨s, hr.session_self, rfl⟩
    · obtain ⟨old, hold, hadapter⟩ := h.owned a obj ha halive
      have hid : obj.sessionId ≠ id := by
        intro heq
        exact hne (hadapter.symm.trans (hr.reuses old (heq ▸ hold)))
      exact ⟨old, (hr.session_other hid).trans hold, hadapter⟩
  case doomed_sink =>
    intro a obj ha hdoomed
    rcases hlast ha with ⟨rfl, rfl⟩ | ⟨-, ha⟩
    · exact absurd hdoomed Bool.false_ne_true
    · have hgone := h.doomed_sink a obj ha hdoomed
      rcases hr.sinks obj.m_sink (h.adapter_lt a obj ha).2 with hsame | ⟨hnone, -⟩
      · exact hsame.trans hgone
      · exact hnone
  case timer_lt => exact hr.timer_lt
  case armed =>
    intro t tm ht harmed
    rcases hr.armed t tm ht harmed with ⟨rfl, hprune⟩ | ⟨hid, hold⟩
    · exact ⟨s, hr.session_self, hprune⟩
    · rw [hr.session_other hid]
      exact h.armed t tm hold harmed

end

/-! ## Handlers -/

/-- The objects are untouched, whatever happened to sockets without a session. -/
theorem ServerInv.congr {w w' : WsServer} (h : ServerInv w) (hsockets : SocketInv w')
    (hmap : w'.m_socketToSession = w.m_socketToSession) (hsessions : w'.m_sessions = w.m_sessions)
    (hadapters : w'.adapters = w.adapters) (hsinks : w'.sinks = w.sinks)
    (htimers : w'.timers = w.timers) (hnext : w.next ≤ w'.next) : ServerInv w' := by
  constructor
  case toSocketInv => exact hsockets
  case mapped =>
    rw [hmap, hsessions]
    exact h.mapped
  case session =>
    intro id s hs
    rw [hsessions] at hs
    exact (h.session id s hs).congr (congrFun hadapters _) (congrFun hsinks _)
      (fun k _ => congrFun hmap k) fun t _ _ => congrFun htimers t
  case distinct_sinks =>
    rw [hsessions]
    exact h.distinct_sinks
  case adapter_lt =>
    intro a obj ha
    obtain ⟨halt, hslt⟩ := h.adapter_lt a obj (hadapters ▸ ha)
    exact ⟨Nat.lt_of_lt_of_le halt hnext, Nat.lt_of_lt_of_le hslt hnext⟩
  case owned =>
    rw [hadapters, hsessions]
    exact h.owned
  case doomed_sink =>
    rw [hadapters, hsinks]
    exact h.doomed_sink
  case timer_lt =>
    intro t tm ht
    exact Nat.lt_of_lt_of_le (h.timer_lt t tm (htimers ▸ ht)) hnext
  case armed =>
    rw [htimers, hsessions]
    exact h.armed

theorem serverInv_newConnection {w : WsServer} (h : ServerInv w) :
    ServerInv w.onNewConnection :=
  h.congr h.toSocketInv.connect rfl rfl rfl rfl rfl (Nat.le_succ _)

theorem serverInv_attach {w : WsServer} (h : ServerInv w) {sock : Nat} {id : String}
    (hpend : w.m_pending sock = true) (hfree : w.m_sessions id = none) :
    ServerInv ({ w with m_pending := update w.m_pending sock false }.attachNewSession sock id) := by
  have hunmapped : ∀ k, w.m_socketToSession k ≠ some id := by
    intro k hk
    obtain ⟨s, hs, -⟩ := h.mapped k id hk
    exact Option.some_ne_none s (hs.symm.trans hfree)
  have hnone := h.not_both sock hpend
  have hlater : w.next ≤ w.next + 2 := Nat.le_add_right _ _
  refine h.replace sock id
    { adapter := w.next + 1, liveSink := w.next, sock := some sock, pruneTimer := none }
    ?_ (h.toSocketInv.take hpend rfl rfl rfl hlater) ?_
  · constructor
    case sessions => rfl
    case adapters => rfl
    case reuses => exact fun old hold => absurd (hold.symm.trans hfree) (Option.some_ne_none old)
    case unused =>
      intro obj hobj
      exact absurd (h.adapter_lt (w.next + 1) obj hobj).1 (by omega)
    case adapter_lt => exact Nat.lt_succ_self _
    case liveSink => rfl
    case next_lt => exact Nat.lt_add_of_pos_right (by omega)
    case sinks => exact fun k hk => Or.inl (update_of_ne (Nat.ne_of_lt hk) _ _)
    case mapped => rfl
    case on_sock => exact fun k hk => (Option.some.inj hk).symm
    case alone => exact fun k _ => hunmapped k
    case free => exact fun id' hid' => absurd (hid'.symm.trans hnone) (Option.some_ne_none id')
    case timers => exact fun _ _ ht _ => ht
    case timer_lt => exact fun t tm ht => Nat.lt_of_lt_of_le (h.timer_lt t tm ht) hlater
    case armed =>
      intro t tm ht harmed
      obtain ⟨s, hs, -⟩ := h.armed t tm ht harmed
      refine Or.inr ⟨?_, ht⟩
      rintro rfl
      exact Option.some_ne_none s (hs.symm.trans hfree)
  · constructor
    · exact update_self ..
    · intro k hk
      obtain rfl := Option.some.inj hk
      exact ⟨update_self .., update_self .., rfl⟩
    · exact nofun

/-- The adapter of a session says whose it is. -/
theorem SessionOk.adapter_names {w : WsServer} {id : String} {s : Session} (h : SessionOk w id s)
    {obj : AdapterObj} (hobj : w.adapters s.adapter = some obj) : obj.sessionId = id := by
  rw [← Option.some.inj (h.owns.symm.trans hobj)]

/-- `swapSink` makes a sink and deletes the one that the session had. -/
theorem swapped_sinks {w : WsServer} {id : String} {s : Session} (hs : w.m_sessions id = some s)
    (kind : SinkKind) (k : Nat) (hk : k < w.next) :
    update (update w.sinks w.next (some kind)) s.liveSink none k = w.sinks k ∨
    update (update w.sinks w.next (some kind)) s.liveSink none k = none ∧
      ∃ old, w.m_sessions id = some old ∧ old.liveSink = k := by
  by_cases hold : k = s.liveSink
  · subst hold
    exact Or.inr ⟨update_self .., s, hs, rfl⟩
  · exact Or.inl ((update_of_ne hold ..).trans (update_of_ne (Nat.ne_of_lt hk) ..))

/-- A detach: the adapter gets a no-op sink, and the session an armed timer. -/
theorem detachSession_eq {w : WsServer} (h : ServerInv w) (sock : Nat) {id : String} {s : Session}
    (hs : w.m_sessions id = some s) :
    { w with
      sockets := update w.sockets sock false
      m_socketToSession := update w.m_socketToSession sock none }.detachSession id s =
    { w with
      sockets := update w.sockets sock false
      m_socketToSession := update w.m_socketToSession sock none
      sinks := update (update w.sinks w.next (some .noop)) s.liveSink none
      adapters := update w.adapters s.adapter
        (some { m_sink := w.next, sessionId := id, doomed := false })
      timers := update w.timers (w.next + 1)
        (some { session := id, armed := true, doomed := false })
      m_sessions := update w.m_sessions id
        (some { s with liveSink := w.next, sock := none, pruneTimer := some (w.next + 1) })
      next := w.next + 2 } := by
  simp [WsServer.detachSession, WsServer.swapSink, (h.session id s hs).owns]

theorem serverInv_detach {w : WsServer} (h : ServerInv w) {sock : Nat} {id : String} {s : Session}
    (hmap : w.m_socketToSession sock = some id) (hs : w.m_sessions id = some s) :
    ServerInv ({ w with
      sockets := update w.sockets sock false
      m_socketToSession := update w.m_socketToSession sock none }.detachSession id s) := by
  have hsock : ∀ k, w.m_socketToSession k = some id → s.sock = some k := by
    intro k hk
    obtain ⟨s', hs', hk'⟩ := h.mapped k id hk
    rwa [Option.some.inj (hs.symm.trans hs')]
  have hidle : update w.m_pending sock false = w.m_pending := by
    rw [Function.update_eq_self_iff]
    cases hpend : w.m_pending sock with
    | false => rfl
    | true => exact absurd (hmap.symm.trans (h.not_both sock hpend)) (Option.some_ne_none id)
  have hok := h.session id s hs
  obtain ⟨hlt, hslt⟩ := h.session_lt id s hs
  obtain ⟨-, -, hprune⟩ := hok.attached sock (hsock sock hmap)
  have hlater : w.next ≤ w.next + 2 := Nat.le_add_right _ _
  rw [detachSession_eq h sock hs]
  refine h.replace sock id
    { s with liveSink := w.next, sock := none, pruneTimer := some (w.next + 1) }
    ?_ (h.toSocketInv.close sock rfl hidle.symm rfl hlater) ?_
  · constructor
    case sessions => rfl
    case adapters => rfl
    case reuses => exact fun old hold => by rw [Option.some.inj (hold.symm.trans hs)]
    case unused => exact fun obj hobj => (h.session id s hs).adapter_names hobj
    case adapter_lt => exact Nat.lt_of_lt_of_le hlt hlater
    case liveSink => rfl
    case next_lt => exact Nat.lt_add_of_pos_right (by omega)
    case sinks => exact swapped_sinks hs _
    case mapped => rfl
    case on_sock => exact nofun
    case alone =>
      intro k hk hid
      exact hk (Option.some.inj ((hsock k hid).symm.trans (hsock sock hmap)))
    case free => exact fun id' hid' => Option.some.inj (hid'.symm.trans hmap)
    case timers =>
      intro t tm ht _
      have hne : t ≠ w.next + 1 := Nat.ne_of_lt (Nat.lt_succ_of_lt (h.timer_lt t tm ht))
      exact (update_of_ne hne ..).trans ht
    case timer_lt =>
      intro t tm ht
      by_cases hnew : t = w.next + 1
      · rw [hnew]
        exact Nat.lt_succ_self _
      · exact Nat.lt_of_lt_of_le (h.timer_lt t tm ((update_of_ne hnew ..).symm.trans ht)) hlater
    case armed =>
      intro t tm ht harmed
      by_cases hnew : t = w.next + 1
      · subst hnew
        dsimp only at ht
        rw [update_self] at ht
        exact Or.inl ⟨by rw [← Option.some.inj ht], rfl⟩
      · have hold := (update_of_ne hnew ..).symm.trans ht
        obtain ⟨s', hs', ht'⟩ := h.armed t tm hold harmed
        refine Or.inr ⟨?_, hold⟩
        rintro rfl
        rw [← Option.some.inj (hs.symm.trans hs'), hprune] at ht'
        exact Option.some_ne_none t ht'.symm
  · constructor
    · exact update_self ..
    · exact nofun
    · intro _
      have hne : w.next ≠ s.liveSink := Nat.ne_of_gt hslt
      exact ⟨(update_of_ne hne ..).trans (update_self ..), w.next + 1, rfl, update_self ..⟩

/-- A resume: the timer stops, the adapter gets the socket's sink, the session the socket. -/
theorem resumeSession_eq {w : WsServer} (h : ServerInv w) (sock : Nat) {id : String} {s : Session}
    (hs : w.m_sessions id = some s) (hsock : s.sock = none) :
    ∃ t, s.pruneTimer = some t ∧
      w.timers t = some { session := id, armed := true, doomed := false } ∧
      { w with m_pending := update w.m_pending sock false }.resumeSession id s sock =
        { w with
          m_pending := update w.m_pending sock false
          sinks := update (update w.sinks w.next (some (.webSocket sock))) s.liveSink none
          adapters := update w.adapters s.adapter
            (some { m_sink := w.next, sessionId := id, doomed := false })
          timers := update w.timers t (some { session := id, armed := false, doomed := true })
          m_sessions := update w.m_sessions id
            (some { s with liveSink := w.next, sock := some sock, pruneTimer := none })
          m_socketToSession := update w.m_socketToSession sock (some id)
          next := w.next + 1 } := by
  obtain ⟨howns, -, hdet⟩ := h.session id s hs
  obtain ⟨-, t, ht, htimer⟩ := hdet hsock
  refine ⟨t, ht, htimer, ?_⟩
  simp [WsServer.resumeSession, WsServer.stopTimer, WsServer.swapSink, ht, htimer, howns]

theorem serverInv_resume {w : WsServer} (h : ServerInv w) {sock : Nat} {id : String} {s : Session}
    (hpend : w.m_pending sock = true) (hs : w.m_sessions id = some s) (hsock : s.sock = none) :
    ServerInv ({ w with m_pending := update w.m_pending sock false }.resumeSession id s sock) := by
  have hunmapped : ∀ k, w.m_socketToSession k ≠ some id := by
    intro k hk
    obtain ⟨s', hs', hk'⟩ := h.mapped k id hk
    rw [← Option.some.inj (hs.symm.trans hs'), hsock] at hk'
    exact Option.some_ne_none k hk'.symm
  have hnone := h.not_both sock hpend
  have hok := h.session id s hs
  obtain ⟨hlt, hslt⟩ := h.session_lt id s hs
  have hlater : w.next ≤ w.next + 1 := Nat.le_succ _
  obtain ⟨t, ht, htimer, heq⟩ := resumeSession_eq h sock hs hsock
  rw [heq]
  refine h.replace sock id
    { s with liveSink := w.next, sock := some sock, pruneTimer := none }
    ?_ (h.toSocketInv.take hpend rfl rfl rfl hlater) ?_
  · constructor
    case sessions => rfl
    case adapters => rfl
    case reuses => exact fun old hold => by rw [Option.some.inj (hold.symm.trans hs)]
    case unused => exact fun obj hobj => (h.session id s hs).adapter_names hobj
    case adapter_lt => exact Nat.lt_succ_of_lt hlt
    case liveSink => rfl
    case next_lt => exact Nat.lt_succ_self _
    case sinks => exact swapped_sinks hs _
    case mapped => rfl
    case on_sock => exact fun k hk => (Option.some.inj hk).symm
    case alone => exact fun k _ => hunmapped k
    case free => exact fun id' hid' => absurd (hid'.symm.trans hnone) (Option.some_ne_none id')
    case timers =>
      intro t' tm ht' hid
      have hne : t' ≠ t := by
        rintro rfl
        rw [← Option.some.inj (htimer.symm.trans ht')] at hid
        exact hid rfl
      exact (update_of_ne hne ..).trans ht'
    case timer_lt =>
      intro t' tm ht'
      by_cases hstop : t' = t
      · rw [hstop]
        exact Nat.lt_succ_of_lt (h.timer_lt t _ htimer)
      · exact Nat.lt_succ_of_lt (h.timer_lt t' tm ((update_of_ne hstop ..).symm.trans ht'))
    case armed =>
      intro t' tm ht' harmed
      by_cases hstop : t' = t
      · subst hstop
        dsimp only at ht'
        rw [update_self] at ht'
        rw [← Option.some.inj ht'] at harmed
        exact absurd harmed Bool.false_ne_true
      · have hold := (update_of_ne hstop ..).symm.trans ht'
        obtain ⟨s', hs', hprune⟩ := h.armed t' tm hold harmed
        refine Or.inr ⟨?_, hold⟩
        rintro rfl
        rw [← Option.some.inj (hs.symm.trans hs'), ht] at hprune
        exact hstop (Option.some.inj hprune).symm
  · constructor
    · exact update_self ..
    · intro k hk
      obtain rfl := Option.some.inj hk
      have hne : w.next ≠ s.liveSink := Nat.ne_of_gt hslt
      exact ⟨update_self .., (update_of_ne hne ..).trans (update_self ..), rfl⟩
    · exact nofun

/-- An armed timer belongs to a detached session, and prunes it when it expires: the sink goes,
    the adapter stays until its deferred deletion. -/
theorem timerExpired_armed {w : WsServer} (h : ServerInv w) {t : Nat} {tm : Timer}
    (ht : w.timers t = some tm) (harmed : tm.armed = true) :
    ∃ s, w.m_sessions tm.session = some s ∧ s.sock = none ∧ s.pruneTimer = some t ∧
      w.timerExpired t =
        { w with
          adapters := update w.adapters s.adapter
            (some { m_sink := s.liveSink, sessionId := tm.session, doomed := true })
          sinks := update w.sinks s.liveSink none
          timers := update w.timers t (some { tm with armed := false, doomed := true })
          m_sessions := update w.m_sessions tm.session none } := by
  obtain ⟨s, hs, hst⟩ := h.armed t tm ht harmed
  have hok := h.session tm.session s hs
  have hsock : s.sock = none := by
    cases hc : s.sock with
    | none => rfl
    | some k => simp [(hok.attached k hc).2.2] at hst
  refine ⟨s, hs, hsock, hst, ?_⟩
  simp [WsServer.timerExpired, ht, harmed, WsServer.pruneSession, hs, hsock, hst, hok.owns]

theorem timerExpired_idle {w : WsServer} {t : Nat}
    (h : ∀ tm, w.timers t = some tm → tm.armed = false) : w.timerExpired t = w := by
  unfold WsServer.timerExpired
  cases ht : w.timers t with
  | none => rfl
  | some tm => simp [h tm ht]

theorem serverInv_expired {w : WsServer} (h : ServerInv w) {t : Nat} {tm : Timer}
    (ht : w.timers t = some tm) (harmed : tm.armed = true) :
    ServerInv (w.timerExpired t) := by
  obtain ⟨s, hs, hsock, hst, heq⟩ := timerExpired_armed h ht harmed
  have hok := h.session tm.session s hs
  have hother : ∀ {id s'}, update w.m_sessions tm.session none id = some s' →
      id ≠ tm.session ∧ w.m_sessions id = some s' := by
    intro id s' hs'
    rw [update_apply] at hs'
    split at hs'
    · exact absurd hs'.symm (Option.some_ne_none s')
    · exact ⟨‹_›, hs'⟩
  rw [heq]
  constructor
  case toSocketInv => exact h.toSocketInv.congr rfl rfl rfl (Nat.le_refl _)
  case mapped =>
    intro k id hk
    obtain ⟨s', hs', hk'⟩ := h.mapped k id hk
    have hid : id ≠ tm.session := by
      rintro rfl
      rw [← Option.some.inj (hs.symm.trans hs'), hsock] at hk'
      exact Option.some_ne_none k hk'.symm
    exact ⟨s', (update_of_ne hid ..).trans hs', hk'⟩
  case session =>
    intro id s' hs'
    obtain ⟨hid, hs'⟩ := hother hs'
    have hok' := h.session id s' hs'
    refine hok'.congr (update_of_ne ?_ ..) (update_of_ne ?_ ..) (fun _ _ => rfl) ?_
    · intro hadapter
      have hboth := hok'.owns.symm.trans (hadapter ▸ hok.owns)
      exact hid (congrArg AdapterObj.sessionId (Option.some.inj hboth))
    · exact fun hsink => hid (h.distinct_sinks id s' tm.session s hs' hs hsink)
    · intro t' hnone ht'
      obtain ⟨-, t'', ht'', htimer⟩ := hok'.detached hnone
      refine update_of_ne ?_ ..
      rintro rfl
      rw [Option.some.inj (ht''.symm.trans ht'), ht] at htimer
      exact hid (congrArg Timer.session (Option.some.inj htimer)).symm
  case distinct_sinks =>
    intro id₁ s₁ id₂ s₂ hs₁ hs₂
    exact h.distinct_sinks id₁ s₁ id₂ s₂ (hother hs₁).2 (hother hs₂).2
  case adapter_lt =>
    intro a obj ha
    dsimp only at ha
    rw [update_apply] at ha
    split at ha
    · rename_i hadapter
      rw [hadapter, ← Option.some.inj ha]
      exact h.session_lt tm.session s hs
    · exact h.adapter_lt a obj ha
  case owned =>
    intro a obj ha halive
    dsimp only at ha
    rw [update_apply] at ha
    split at ha
    · rw [← Option.some.inj ha] at halive
      exact absurd halive.symm Bool.false_ne_true
    · rename_i hadapter
      obtain ⟨s', hs', hown⟩ := h.owned a obj ha halive
      have hid : obj.sessionId ≠ tm.session := by
        intro hid
        rw [hid] at hs'
        exact hadapter (by rw [← hown, Option.some.inj (hs'.symm.trans hs)])
      exact ⟨s', (update_of_ne hid ..).trans hs', hown⟩
  case doomed_sink =>
    intro a obj ha hdoomed
    dsimp only at ha ⊢
    rw [update_apply] at ha ⊢
    split at ha
    · rw [← Option.some.inj ha, if_pos rfl]
    · split
      · rfl
      · exact h.doomed_sink a obj ha hdoomed
  case timer_lt =>
    intro t' tm' ht'
    by_cases hfired : t' = t
    · rw [hfired]
      exact h.timer_lt t tm ht
    · exact h.timer_lt t' tm' ((update_of_ne hfired ..).symm.trans ht')
  case armed =>
    intro t' tm' ht' harmed'
    dsimp only at ht'
    rw [update_apply] at ht'
    split at ht'
    · rw [← Option.some.inj ht'] at harmed'
      exact absurd harmed' Bool.false_ne_true
    · rename_i hfired
      obtain ⟨s', hs', hprune⟩ := h.armed t' tm' ht' harmed'
      have hid : tm'.session ≠ tm.session := by
        intro hid
        rw [hid] at hs'
        rw [← Option.some.inj (hs.symm.trans hs'), hst] at hprune
        exact hfired (Option.some.inj hprune).symm
      exact ⟨s', (update_of_ne hid ..).trans hs', hprune⟩

theorem serverInv_firstBinary {w : WsServer} (h : ServerInv w) (sock : Nat)
    (content : WsServer.ClientFrame) (draws : List String) :
    ServerInv (w.onPendingFirstBinary sock content draws) := by
  obtain heq | ⟨hpend, id, hfree, heq⟩ | ⟨hpend, id, s, hs, hsock, heq⟩ :=
    firstBinary_cases w sock content draws
  · rwa [heq]
  · rw [heq]
    exact serverInv_attach h hpend hfree
  · rw [heq]
    exact serverInv_resume h hpend hs hsock

/-- A disconnect ends a session's attachment, or only forgets the socket. -/
theorem disconnected_cases {w : WsServer} (h : ServerInv w) (sock : Nat) :
    (w.m_socketToSession sock = none ∧ w.onSocketDisconnected sock =
      { w with
        sockets := update w.sockets sock false
        m_pending := update w.m_pending sock false }) ∨
    (∃ id s, w.m_socketToSession sock = some id ∧ w.m_sessions id = some s ∧
      w.onSocketDisconnected sock =
        { w with
          sockets := update w.sockets sock false
          m_socketToSession := update w.m_socketToSession sock none }.detachSession id s) := by
  unfold WsServer.onSocketDisconnected
  by_cases hpend : w.m_pending sock = true
  · exact Or.inl ⟨h.not_both sock hpend, by simp [hpend]⟩
  · have hidle : update w.m_pending sock false = w.m_pending := by
      rw [Function.update_eq_self_iff]
      simpa using hpend
    cases hmap : w.m_socketToSession sock with
    | none => exact Or.inl ⟨rfl, by simp [hpend, hmap, hidle]⟩
    | some id =>
        obtain ⟨s, hs, -⟩ := h.mapped sock id hmap
        exact Or.inr ⟨id, s, rfl, hs, by simp [hpend, hmap, hs]⟩

theorem serverInv_disconnected {w : WsServer} (h : ServerInv w) (sock : Nat) :
    ServerInv (w.onSocketDisconnected sock) := by
  obtain ⟨hmap, heq⟩ | ⟨id, s, hmap, hs, heq⟩ := disconnected_cases h sock
  case inr =>
    rw [heq]
    exact serverInv_detach h hmap hs
  have hidle : update w.m_socketToSession sock none = w.m_socketToSession := by
    rw [Function.update_eq_self_iff]
    exact hmap.symm
  rw [heq]
  have hsockets : SocketInv { w with
      sockets := update w.sockets sock false
      m_pending := update w.m_pending sock false } :=
    h.toSocketInv.close sock rfl rfl hidle.symm (Nat.le_refl _)
  exact h.congr hsockets rfl rfl rfl rfl rfl (Nat.le_refl _)

theorem serverInv_timeout {w : WsServer} (h : ServerInv w) (t : Nat) :
    ServerInv (w.timerExpired t) := by
  by_cases harmed : ∃ tm, w.timers t = some tm ∧ tm.armed = true
  · obtain ⟨tm, ht, harmed⟩ := harmed
    exact serverInv_expired h ht harmed
  · rwa [timerExpired_idle fun tm ht => by
      cases hc : tm.armed with
      | false => rfl
      | true => exact absurd ⟨tm, ht, hc⟩ harmed]

/-- What is left when one entry is given back. -/
theorem of_update_none {α : Type} {f : Nat → Option α} {a k : Nat} {x : α}
    (h : update f a none k = some x) : f k = some x := by
  by_cases hk : k = a
  · subst hk
    rw [update_self] at h
    exact absurd h.symm (Option.some_ne_none x)
  · rwa [update_of_ne hk] at h

/-- Only a doomed adapter is deleted, and no session has one. -/
theorem serverInv_deleteAdapter {w : WsServer} (h : ServerInv w) (a : Nat) :
    ServerInv (w.deleteAdapter a) := by
  unfold WsServer.deleteAdapter
  cases ha : w.adapters a with
  | none => exact h
  | some obj =>
      dsimp only
      split
      case isFalse => exact h
      rename_i hdoomed
      constructor
      case toSocketInv => exact h.toSocketInv.congr rfl rfl rfl (Nat.le_refl _)
      case mapped => exact h.mapped
      case session =>
        intro id s hs
        have hok := h.session id s hs
        refine hok.congr (update_of_ne ?_ ..) rfl (fun _ _ => rfl) fun _ _ _ => rfl
        rintro rfl
        rw [← Option.some.inj (hok.owns.symm.trans ha)] at hdoomed
        exact Bool.false_ne_true hdoomed
      case distinct_sinks => exact h.distinct_sinks
      case adapter_lt => exact fun a' obj' ha' => h.adapter_lt a' obj' (of_update_none ha')
      case owned => exact fun a' obj' ha' => h.owned a' obj' (of_update_none ha')
      case doomed_sink => exact fun a' obj' ha' => h.doomed_sink a' obj' (of_update_none ha')
      case timer_lt => exact h.timer_lt
      case armed => exact h.armed

/-- The timer that a detached session waits for is not doomed. -/
theorem serverInv_deleteTimer {w : WsServer} (h : ServerInv w) (t : Nat) :
    ServerInv (w.deleteTimer t) := by
  unfold WsServer.deleteTimer
  cases ht : w.timers t with
  | none => exact h
  | some tm =>
      dsimp only
      split
      case isFalse => exact h
      rename_i hdoomed
      constructor
      case toSocketInv => exact h.toSocketInv.congr rfl rfl rfl (Nat.le_refl _)
      case mapped => exact h.mapped
      case session =>
        intro id s hs
        have hok := h.session id s hs
        refine hok.congr rfl rfl (fun _ _ => rfl) fun t' hnone ht' => update_of_ne ?_ ..
        rintro rfl
        obtain ⟨-, t', hprune, htimer⟩ := hok.detached hnone
        rw [Option.some.inj (hprune.symm.trans ht'), ht] at htimer
        rw [Option.some.inj htimer] at hdoomed
        exact Bool.false_ne_true hdoomed
      case distinct_sinks => exact h.distinct_sinks
      case adapter_lt => exact h.adapter_lt
      case owned => exact h.owned
      case doomed_sink => exact h.doomed_sink
      case timer_lt => exact fun t' tm' ht' => h.timer_lt t' tm' (of_update_none ht')
      case armed => exact fun t' tm' ht' => h.armed t' tm' (of_update_none ht')

theorem serverInv_managerSignal {w : WsServer} (h : ServerInv w) (a : Nat) :
    ServerInv (w.managerSignal a) := by
  unfold WsServer.managerSignal
  split
  · split
    · exact h
    · have hsockets : SocketInv { w with freedSends := w.freedSends + 1 } :=
        h.toSocketInv.congr rfl rfl rfl (Nat.le_refl _)
      exact h.congr hsockets rfl rfl rfl rfl rfl (Nat.le_refl _)
  · exact h

theorem serverInv_step (w : WsServer) (e : WsEvent) (h : ServerInv w) : ServerInv (w.step e) := by
  cases e with
  | newConnection => exact serverInv_newConnection h
  | frame sock content draws => exact serverInv_firstBinary h sock content draws
  | disconnected sock => exact serverInv_disconnected h sock
  | timeout t => exact serverInv_timeout h t
  | deleteAdapter a => exact serverInv_deleteAdapter h a
  | deleteTimer t => exact serverInv_deleteTimer h t
  | managerSignal a => exact serverInv_managerSignal h a

end ShoweqDaemon.Ws
