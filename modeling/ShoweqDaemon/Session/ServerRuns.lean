/-
  Runs of `WsServer`.

  In every state of every run the maps agree (`SocketsOk`, `SessionsOk`, `DetachedOk`), and a
  session is pruned only after being detached since its timer was armed
  (`detachedSince`). That every adapter holds a live sink fails for exactly the adapters that
  wait for their deferred deletion: `pruneSession` deletes the sink under them. So it
  holds throughout a run exactly when no prune timer expires in it (`server_runs`).
-/
import Mathlib.Data.List.Induction
import ShoweqDaemon.Session.ServerInv

namespace ShoweqDaemon.Ws

open Function (update update_apply)

/-! ## What every state satisfies -/

/-- Each live socket is in exactly one of the two maps. -/
def SocketsOk (w : WsServer) : Prop :=
  ∀ k, w.sockets k = true →
    (w.m_pending k = true ∧ w.m_socketToSession k = none) ∨
      (w.m_pending k = false ∧ (w.m_socketToSession k).isSome = true)

/-- A session and its socket point to each other, and to nothing else. -/
def SessionsOk (w : WsServer) : Prop :=
  (∀ id s k, w.m_sessions id = some s → (s.sock = some k ↔ w.m_socketToSession k = some id)) ∧
  (∀ k id, w.m_socketToSession k = some id → (w.m_sessions id).isSome = true) ∧
  (∀ k k' id, w.m_socketToSession k = some id → w.m_socketToSession k' = some id → k = k')

/-- A session without socket has the no-op sink and an armed prune timer, one with a socket
    does not have both. -/
def DetachedOk (w : WsServer) : Prop :=
  ∀ id s, w.m_sessions id = some s →
    (s.sock = none ↔
      (∃ a, w.adapters s.adapter = some a ∧ w.sinks a.m_sink = some .noop) ∧
        ∃ t tm, s.pruneTimer = some t ∧ w.timers t = some tm ∧ tm.armed = true)

/-- Every adapter that is not destroyed holds a sink that is alive. -/
def SinksAlive (w : WsServer) : Prop :=
  ∀ a obj, w.adapters a = some obj → (w.sinks obj.m_sink).isSome = true

theorem ServerInv.socketsOk {w : WsServer} (h : ServerInv w) : SocketsOk w := by
  intro k hk
  have hboth := h.not_both k
  rcases (h.live_iff k).mp hk with hp | hm
  · exact Or.inl ⟨hp, hboth hp⟩
  · refine Or.inr ⟨?_, hm⟩
    cases hp : w.m_pending k with
    | false => rfl
    | true => simp [hboth hp] at hm

theorem ServerInv.sessionsOk {w : WsServer} (h : ServerInv w) : SessionsOk w := by
  refine ⟨fun id s k hs => ⟨fun hk => ((h.session id s hs).attached k hk).1, fun hk => ?_⟩,
    fun k id hk => ?_, fun k k' id hk hk' => ?_⟩
  · obtain ⟨s', hs', hk'⟩ := h.mapped k id hk
    rw [hs] at hs'
    obtain rfl := Option.some.inj hs'
    exact hk'
  · obtain ⟨s, hs, -⟩ := h.mapped k id hk
    simp [hs]
  · obtain ⟨s, hs, hsk⟩ := h.mapped k id hk
    obtain ⟨s', hs', hsk'⟩ := h.mapped k' id hk'
    rw [hs] at hs'
    obtain rfl := Option.some.inj hs'
    exact Option.some.inj (hsk.symm.trans hsk')

theorem ServerInv.detachedOk {w : WsServer} (h : ServerInv w) : DetachedOk w := by
  intro id s hs
  have hok := h.session id s hs
  constructor
  · intro hsock
    obtain ⟨hsink, t, ht, htm⟩ := hok.detached hsock
    exact ⟨⟨_, hok.owns, hsink⟩, t, _, ht, htm, rfl⟩
  · rintro ⟨-, t, tm, ht, -⟩
    cases hsock : s.sock with
    | none => rfl
    | some k => simp [(hok.attached k hsock).2.2] at ht

/-- The sinks of doomed adapters are gone, those of all others are there. -/
theorem ServerInv.sinksAlive_iff {w : WsServer} (h : ServerInv w) :
    SinksAlive w ↔ ∀ a obj, w.adapters a = some obj → obj.doomed = false := by
  constructor
  · intro halive a obj ha
    cases hd : obj.doomed with
    | false => rfl
    | true =>
        have hs := halive a obj ha
        simp [h.doomed_sink a obj ha hd] at hs
  · intro hnone a obj ha
    obtain ⟨s, hs, rfl⟩ := h.owned a obj ha (hnone a obj ha)
    have hok := h.session obj.sessionId s hs
    have hsink : obj.m_sink = s.liveSink := by
      have howns := hok.owns
      rw [ha] at howns
      exact congrArg AdapterObj.m_sink (Option.some.inj howns)
    rw [hsink]
    cases hsock : s.sock with
    | none => simp [(hok.detached hsock).1]
    | some k => simp [(hok.attached k hsock).2.1]

/-- A prune timer expires. -/
def Expires (w : WsServer) (e : WsEvent) : Prop :=
  ∃ t tm, e = .timeout t ∧ w.timers t = some tm ∧ tm.armed = true

/-! ## Pruning -/

/-- A new sink changes nothing about whether an adapter waits for its deletion. -/
theorem doomed_of_swap {adapters : Nat → Option AdapterObj} {i sink a : Nat} {id : String}
    {obj : AdapterObj}
    (ha : update adapters i (some { m_sink := sink, sessionId := id, doomed := false }) a =
      some obj)
    (hd : obj.doomed = true) : adapters a = some obj := by
  rw [update_apply] at ha
  by_cases hi : a = i
  · rw [if_pos hi] at ha
    rw [← Option.some.inj ha] at hd
    cases hd
  · rw [if_neg hi] at ha
    exact ha

/-- Only an expiring timer dooms an adapter. -/
theorem doomed_of_step {w : WsServer} (h : ServerInv w) {e : WsEvent} (he : ¬ Expires w e)
    {a : Nat} {obj : AdapterObj} (ha : (w.step e).adapters a = some obj)
    (hd : obj.doomed = true) : ∃ obj', w.adapters a = some obj' ∧ obj'.doomed = true := by
  cases e with
  | newConnection => exact ⟨obj, ha, hd⟩
  | frame sock content draws =>
      obtain heq | ⟨-, id, -, heq⟩ | ⟨-, id, s, hs, hsock, heq⟩ :=
        firstBinary_cases w sock content draws
      · exact ⟨obj, by rwa [WsServer.step, heq] at ha, hd⟩
      · rw [WsServer.step, heq] at ha
        exact ⟨obj, doomed_of_swap ha hd, hd⟩
      · obtain ⟨t, -, -, hresume⟩ := resumeSession_eq h sock hs hsock
        rw [WsServer.step, heq, hresume] at ha
        exact ⟨obj, doomed_of_swap ha hd, hd⟩
  | disconnected sock =>
      obtain ⟨-, heq⟩ | ⟨id, s, -, hs, heq⟩ := disconnected_cases h sock
      · exact ⟨obj, by rwa [WsServer.step, heq] at ha, hd⟩
      · rw [WsServer.step, heq, detachSession_eq h sock hs] at ha
        exact ⟨obj, doomed_of_swap ha hd, hd⟩
  | timeout t =>
      have hidle := timerExpired_idle (w := w) (t := t) fun tm ht => by
        cases hc : tm.armed with
        | false => rfl
        | true => exact absurd ⟨t, tm, rfl, ht, hc⟩ he
      exact ⟨obj, by rwa [WsServer.step, hidle] at ha, hd⟩
  | deleteAdapter a' =>
      simp only [WsServer.step, WsServer.deleteAdapter] at ha
      split at ha
      · split at ha
        · simp only [update_apply] at ha
          grind
        · exact ⟨obj, ha, hd⟩
      · exact ⟨obj, ha, hd⟩
  | deleteTimer t =>
      simp only [WsServer.step, WsServer.deleteTimer] at ha
      split at ha
      · split at ha <;> exact ⟨obj, ha, hd⟩
      · exact ⟨obj, ha, hd⟩
  | managerSignal a' =>
      simp only [WsServer.step, WsServer.managerSignal] at ha
      split at ha
      · split at ha <;> exact ⟨obj, ha, hd⟩
      · exact ⟨obj, ha, hd⟩

/-- The adapter of the session whose timer expires is doomed. -/
theorem doomed_of_expires {w : WsServer} (h : ServerInv w) {e : WsEvent} (he : Expires w e) :
    ∃ a obj, (w.step e).adapters a = some obj ∧ obj.doomed = true := by
  obtain ⟨t, tm, rfl, ht, harmed⟩ := he
  obtain ⟨s, -, -, -, heq⟩ := timerExpired_armed h ht harmed
  refine ⟨s.adapter, { m_sink := s.liveSink, sessionId := tm.session, doomed := true }, ?_, rfl⟩
  simp [WsServer.step, heq]

theorem sinksAlive_step {w : WsServer} (h : ServerInv w) (halive : SinksAlive w) (e : WsEvent) :
    SinksAlive (w.step e) ↔ ¬ Expires w e := by
  rw [(serverInv_step w e h).sinksAlive_iff]
  constructor
  · intro hnone he
    obtain ⟨a, obj, ha, hd⟩ := doomed_of_expires h he
    rw [hnone a obj ha] at hd
    cases hd
  · intro he a obj ha
    cases hd : obj.doomed with
    | false => rfl
    | true =>
        obtain ⟨obj', ha', hd'⟩ := doomed_of_step h he ha hd
        rw [h.sinksAlive_iff.mp halive a obj' ha'] at hd'
        cases hd'

/-- What a step does to one session: nothing, or one of four things. -/
theorem sessions_of_step {w : WsServer} (h : ServerInv w) (e : WsEvent) (id : String) :
    (w.step e).m_sessions id = w.m_sessions id ∨
    (∃ s, (w.step e).m_sessions id = some s ∧ s.sock ≠ none) ∨
    (∃ k s, e = .disconnected k ∧ w.m_socketToSession k = some id ∧
      (w.step e).m_sessions id = some s ∧ s.pruneTimer = some (w.next + 1)) ∨
    (∃ t s, e = .timeout t ∧ w.m_sessions id = some s ∧ s.sock = none ∧
      s.pruneTimer = some t ∧ (w.step e).m_sessions id = none) := by
  cases e with
  | newConnection => exact Or.inl rfl
  | frame sock content draws =>
      obtain heq | ⟨-, id', -, heq⟩ | ⟨-, id', s, hs, hsock, heq⟩ :=
        firstBinary_cases w sock content draws
      · exact Or.inl (by rw [WsServer.step, heq])
      · simp only [WsServer.step, heq, WsServer.attachNewSession, update_apply]
        by_cases hid : id = id'
        · exact Or.inr (Or.inl ⟨_, if_pos hid, by simp⟩)
        · exact Or.inl (if_neg hid)
      · obtain ⟨t, -, -, hresume⟩ := resumeSession_eq h sock hs hsock
        simp only [WsServer.step, heq, hresume, update_apply]
        by_cases hid : id = id'
        · exact Or.inr (Or.inl ⟨_, if_pos hid, by simp⟩)
        · exact Or.inl (if_neg hid)
  | disconnected sock =>
      obtain ⟨-, heq⟩ | ⟨id', s, hmap, hs, heq⟩ := disconnected_cases h sock
      · exact Or.inl (by rw [WsServer.step, heq])
      · simp only [WsServer.step, heq, detachSession_eq h sock hs, update_apply]
        by_cases hid : id = id'
        · subst hid
          exact Or.inr (Or.inr (Or.inl ⟨sock, _, rfl, hmap, if_pos rfl, rfl⟩))
        · exact Or.inl (if_neg hid)
  | timeout t =>
      by_cases harmed : ∃ tm, w.timers t = some tm ∧ tm.armed = true
      · obtain ⟨tm, ht, harmed⟩ := harmed
        obtain ⟨s, hs, hsock, hst, heq⟩ := timerExpired_armed h ht harmed
        simp only [WsServer.step, heq, update_apply]
        by_cases hid : id = tm.session
        · exact Or.inr (Or.inr (Or.inr ⟨t, s, rfl, hid ▸ hs, hsock, hst, if_pos hid⟩))
        · exact Or.inl (if_neg hid)
      · have hidle := timerExpired_idle (w := w) (t := t) fun tm ht => by
          cases hc : tm.armed with
          | false => rfl
          | true => exact absurd ⟨tm, ht, hc⟩ harmed
        exact Or.inl (by rw [WsServer.step, hidle])
  | deleteAdapter a =>
      refine Or.inl ?_
      simp only [WsServer.step, WsServer.deleteAdapter]
      repeat' split
      all_goals rfl
  | deleteTimer t =>
      refine Or.inl ?_
      simp only [WsServer.step, WsServer.deleteTimer]
      repeat' split
      all_goals rfl
  | managerSignal a =>
      refine Or.inl ?_
      simp only [WsServer.step, WsServer.managerSignal]
      repeat' split
      all_goals rfl

/-- A detached session was so before, or has just lost its socket and got a new timer. -/
theorem detached_of_step {w : WsServer} (h : ServerInv w) (e : WsEvent) {id : String}
    {s : Session} (hs : (w.step e).m_sessions id = some s) (hsock : s.sock = none) :
    w.m_sessions id = some s ∨
      ∃ k t, e = .disconnected k ∧ w.m_socketToSession k = some id ∧ s.pruneTimer = some t ∧
        w.timers t = none := by
  obtain hsame | ⟨s', hs', hne⟩ | ⟨k, s', he, hmap, hs', ht⟩ | ⟨t, s', -, -, -, -, hnone⟩ :=
    sessions_of_step h e id
  · exact Or.inl (hsame ▸ hs)
  · rw [hs] at hs'
    obtain rfl := Option.some.inj hs'
    exact absurd hsock hne
  · rw [hs] at hs'
    obtain rfl := Option.some.inj hs'
    refine Or.inr ⟨k, w.next + 1, he, hmap, ht, ?_⟩
    cases hfree : w.timers (w.next + 1) with
    | none => rfl
    | some tm =>
        have hlt := h.timer_lt _ tm hfree
        omega
  · rw [hnone] at hs
    cases hs

/-- Only an expiring timer removes a session. -/
theorem removed_of_step {w : WsServer} (h : ServerInv w) {e : WsEvent} {id : String} {s : Session}
    (hs : w.m_sessions id = some s) (hnone : (w.step e).m_sessions id = none) :
    ∃ t, s.sock = none ∧ s.pruneTimer = some t ∧ e = .timeout t := by
  obtain hsame | ⟨s', hs', -⟩ | ⟨-, s', -, -, hs', -⟩ | ⟨t, s', he, hs', hsock, ht, -⟩ :=
    sessions_of_step h e id
  · rw [hnone, hs] at hsame
    cases hsame
  · rw [hnone] at hs'
    cases hs'
  · rw [hnone] at hs'
    cases hs'
  · rw [hs] at hs'
    obtain rfl := Option.some.inj hs'
    exact ⟨t, hsock, ht, he⟩

/-- The state after a run from the start. -/
def WsServer.run (es : List WsEvent) : WsServer := es.foldl WsServer.step WsServer.init

theorem serverInv_run (es : List WsEvent) : ServerInv (WsServer.run es) :=
  Machine.foldl_invariant WsServer.step serverInv_step serverInv_init es

/-- In the run `es`, timer `t` was armed for session `id` when the session lost its socket, and
    it has been detached with that timer armed ever since. -/
def DetachedSince (es : List WsEvent) (id : String) (t : Nat) : Prop :=
  ∃ pre k since, es = pre ++ .disconnected k :: since ∧
    (WsServer.run pre).m_socketToSession k = some id ∧ (WsServer.run pre).timers t = none ∧
    ∀ mid rest, since = mid ++ rest →
      ∃ s, (WsServer.run (pre ++ .disconnected k :: mid)).m_sessions id = some s ∧
        s.sock = none ∧ s.pruneTimer = some t ∧
        (WsServer.run (pre ++ .disconnected k :: mid)).timers t =
          some { session := id, armed := true, doomed := false }

theorem detachedSince (es : List WsEvent) {id : String} {s : Session} {t : Nat}
    (hs : (WsServer.run es).m_sessions id = some s) (hsock : s.sock = none)
    (ht : s.pruneTimer = some t) : DetachedSince es id t := by
  induction es using List.reverseRecOn generalizing s with
  | nil => simp [WsServer.run, WsServer.init] at hs
  | append_singleton es e ih =>
      have hrun : WsServer.run (es ++ [e]) = (WsServer.run es).step e := by
        simp [WsServer.run]
      have htimer : (WsServer.run (es ++ [e])).timers t =
          some { session := id, armed := true, doomed := false } := by
        obtain ⟨-, t', ht', htm⟩ := ((serverInv_run (es ++ [e])).session id s hs).detached hsock
        rw [ht] at ht'
        obtain rfl := Option.some.inj ht'
        exact htm
      have hnow : ∃ s, (WsServer.run (es ++ [e])).m_sessions id = some s ∧ s.sock = none ∧
          s.pruneTimer = some t ∧ (WsServer.run (es ++ [e])).timers t =
            some { session := id, armed := true, doomed := false } :=
        ⟨s, hs, hsock, ht, htimer⟩
      rw [hrun] at hs
      rcases detached_of_step (serverInv_run es) e hs hsock with hold | ⟨k, t', rfl, hk, ht', hfree⟩
      · obtain ⟨pre, k, since, rfl, hk, hfree, hsince⟩ := ih hold hsock ht
        refine ⟨pre, k, since ++ [e], by simp, hk, hfree, fun mid rest hmid => ?_⟩
        rcases List.eq_nil_or_concat rest with rfl | ⟨rest, e', rfl⟩
        · rw [List.append_nil] at hmid
          rw [← hmid]
          simpa using hnow
        · have hsplit : since = mid ++ rest := by
            rw [List.concat_eq_append, ← List.append_assoc] at hmid
            exact (List.append_inj' hmid rfl).1
          exact hsince mid rest hsplit
      · rw [ht] at ht'
        obtain rfl := Option.some.inj ht'
        refine ⟨es, k, [], rfl, hk, hfree, fun mid rest hmid => ?_⟩
        obtain ⟨rfl, -⟩ := List.append_eq_nil_iff.mp hmid.symm
        exact hnow

/-- Every run: three of the clauses about states hold throughout, sessions are pruned only after
    being detached since their timer was armed, and every adapter's sink is alive throughout
    exactly when no prune timer expires. -/
theorem server_runs (es : List WsEvent) :
    (∀ w ∈ Machine.trace WsServer.step WsServer.init es,
      SocketsOk w ∧ SessionsOk w ∧ DetachedOk w) ∧
    (∀ pre e post id s, es = pre ++ e :: post → (WsServer.run pre).m_sessions id = some s →
      (WsServer.run (pre ++ [e])).m_sessions id = none →
      ∃ t, s.pruneTimer = some t ∧ e = .timeout t ∧ DetachedSince pre id t) ∧
    ((∀ w ∈ Machine.trace WsServer.step WsServer.init es, SinksAlive w) ↔
      Machine.StepsMeet WsServer.step (fun w e => ¬ Expires w e) WsServer.init es) := by
  have hinv := Machine.trace_invariant WsServer.step serverInv_step serverInv_init es
  refine ⟨fun w hw => ⟨(hinv w hw).socketsOk, (hinv w hw).sessionsOk, (hinv w hw).detachedOk⟩,
    fun pre e post id s _ hs hnone => ?_, ?_⟩
  · have hrun : WsServer.run (pre ++ [e]) = (WsServer.run pre).step e := by
      simp [WsServer.run]
    rw [hrun] at hnone
    obtain ⟨t, hsock, ht, he⟩ := removed_of_step (serverInv_run pre) hs hnone
    exact ⟨t, ht, he, detachedSince pre hs hsock ht⟩
  · refine Machine.trace_forall_iff_stepsMeet WsServer.step serverInv_step
      (fun w e h halive => sinksAlive_step h halive e) serverInv_init ?_ es
    intro a obj ha
    cases ha

/-- A client disconnects and its prune timer expires. -/
def prunedRun : List WsEvent :=
  [.newConnection, .frame 0 (.subscribe "a") [], .disconnected 0, .timeout 4]

/-- After the pruning the adapter holds a deleted sink, and a signal that comes before its deferred
    deletion makes it send there. -/
theorem pruned_adapter_sends :
    (¬ ∀ es, ∀ w ∈ Machine.trace WsServer.step WsServer.init es, SinksAlive w) ∧
    (WsServer.run (prunedRun ++ [.managerSignal 2])).freedSends = 1 := by
  refine ⟨fun h => ?_, by decide⟩
  have hlast : WsServer.run prunedRun ∈ Machine.trace WsServer.step WsServer.init prunedRun :=
    (Machine.mem_trace_iff ..).mpr ⟨prunedRun, [], rfl, rfl⟩
  have hadapter : (WsServer.run prunedRun).adapters 2 =
      some { m_sink := 3, sessionId := "a", doomed := true } := by decide
  have hsink : (WsServer.run prunedRun).sinks 3 = none := by decide
  have halive := h prunedRun _ hlast 2 _ hadapter
  rw [hsink] at halive
  cases halive

end ShoweqDaemon.Ws
