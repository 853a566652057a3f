/-
  `WsServer`: sockets, sessions, their adapters and sinks, and the prune timers.

  The state holds the three maps of the server and the objects they point to. Objects are
  named by numbers that are never used twice; a sink that was deleted has no entry any more, an
  adapter after `deleteLater` keeps its entry until its deferred deletion. An event is one signal
  that Qt delivers; the handlers are the functions of the source.
-/
import Mathlib.Logic.Function.Basic
import Mathlib.Order.Defs.LinearOrder
import ShoweqDaemon.Lib.Run

namespace ShoweqDaemon.Ws

open Function (update update_apply)

/-! ## Objects -/

/-- The two kinds of sinks: one that drops what it gets, and one that sends it through a socket. -/
inductive SinkKind where
  | noop
  | webSocket (sock : Nat)
  deriving DecidableEq, Repr

/-- What the server knows of a `SessionAdapter`. `doomed` is set by `deleteLater`. -/
structure AdapterObj where
  m_sink : Nat
  sessionId : String
  doomed : Bool
  deriving DecidableEq, Repr

/-- A single-shot prune timer with the id its slot captured. -/
structure Timer where
  session : String
  armed : Bool
  doomed : Bool
  deriving DecidableEq, Repr

/-- What the server keeps for a session: its adapter, the sink that the adapter has, the socket and
    the prune timer. -/
structure Session where
  adapter : Nat
  liveSink : Nat
  /-- `none` while detached. -/
  sock : Option Nat
  pruneTimer : Option Nat
  deriving DecidableEq, Repr

/-- The maps of the server and the objects that they name. -/
structure WsServer where
  m_pending : Nat → Bool
  m_sessions : String → Option Session
  m_socketToSession : Nat → Option String
  /-- Sockets that are connected or closing, until `deleteLater`. -/
  sockets : Nat → Bool
  sinks : Nat → Option SinkKind
  adapters : Nat → Option AdapterObj
  timers : Nat → Option Timer
  /-- The next object's name. -/
  next : Nat
  /-- Sends that went to a deleted sink. -/
  freedSends : Nat

/-- The server before the first connection. -/
def WsServer.init : WsServer where
  m_pending := fun _ => false
  m_sessions := fun _ => none
  m_socketToSession := fun _ => none
  sockets := fun _ => false
  sinks := fun _ => none
  adapters := fun _ => none
  timers := fun _ => none
  next := 0
  freedSends := 0

/-! ## Handlers -/

namespace WsServer

/-- A connection, as one turn of the loop of `onNewConnection`. -/
def onNewConnection (w : WsServer) : WsServer :=
  { w with
    m_pending := update w.m_pending w.next true
    sockets := update w.sockets w.next true
    next := w.next + 1 }

/-- `new` sink, `setSink`, `delete oldSink`, in this order, so that the adapter never holds a sink
    that is gone. -/
def swapSink (w : WsServer) (s : Session) (kind : SinkKind) : WsServer :=
  { w with
    sinks := update (update w.sinks w.next (some kind)) s.liveSink none
    adapters := update w.adapters s.adapter
      ((w.adapters s.adapter).map fun a => { a with m_sink := w.next })
    next := w.next + 1 }

/-- `stop` and `deleteLater` on the prune timer, if there is one. -/
def stopTimer (w : WsServer) (t : Option Nat) : WsServer :=
  match t with
  | some t =>
      { w with
        timers := update w.timers t
          ((w.timers t).map fun tm => { tm with armed := false, doomed := true }) }
  | none => w

/-- `resumeSession`: the session of a client that comes back gets the new socket, and its timer
    stops. -/
def resumeSession (w : WsServer) (id : String) (s : Session) (sock : Nat) : WsServer :=
  let w := w.stopTimer s.pruneTimer
  let sink := w.next
  let w := w.swapSink s (.webSocket sock)
  { w with
    m_sessions := update w.m_sessions id
      (some { s with liveSink := sink, sock := some sock, pruneTimer := none })
    -- keyed by what the adapter says its session is
    m_socketToSession := update w.m_socketToSession sock ((w.adapters s.adapter).map (·.sessionId)) }

/-- `attachNewSession`: a session of its own with an adapter and a sink of its own. -/
def attachNewSession (w : WsServer) (sock : Nat) (sessionId : String) : WsServer :=
  let sink := w.next
  let adapter := w.next + 1
  { w with
    sinks := update w.sinks sink (some (.webSocket sock))
    adapters := update w.adapters adapter (some { m_sink := sink, sessionId, doomed := false })
    m_sessions := update w.m_sessions sessionId
      (some { adapter, liveSink := sink, sock := some sock, pruneTimer := none })
    m_socketToSession := update w.m_socketToSession sock (some sessionId)
    next := w.next + 2 }

/-- A first frame, as far as `onPendingFirstBinary` looks at it. -/
inductive ClientFrame where
  | malformed
  | other
  | subscribe (session_id : String)
  deriving DecidableEq, Repr

/-- `draws` are the ids that `generateSessionId` returns, in order. The loop takes the first
    candidate that is free; it does not come to an end on draws that are all taken. -/
def freeId (w : WsServer) (clientSessionId : String) (draws : List String) : Option String :=
  let candidates := if clientSessionId = "" then draws else clientSessionId :: draws
  candidates.find? fun id => (w.m_sessions id).isNone

/-- The path to a session of its own. -/
def freshSession (w : WsServer) (sock : Nat) (clientSessionId : String) (draws : List String) :
    WsServer :=
  match w.freeId clientSessionId draws with
  | some id => { w with m_pending := update w.m_pending sock false }.attachNewSession sock id
  | none => w

/-- `onPendingFirstBinary`: a subscription takes up the session that it names while that has no
    socket; any other gets a session of its own. -/
def onPendingFirstBinary (w : WsServer) (sock : Nat) (frame : ClientFrame) (draws : List String) :
    WsServer :=
  if w.m_pending sock then
    match frame with
    -- `sock->close()`: nothing changes until the socket reports its disconnect
    | .malformed => w
    | .other => w
    | .subscribe clientSessionId =>
        if clientSessionId = "" then w.freshSession sock clientSessionId draws
        else
          match w.m_sessions clientSessionId with
          | some s =>
              if s.sock = none then
                { w with m_pending := update w.m_pending sock false }.resumeSession
                  clientSessionId s sock
              else w.freshSession sock clientSessionId draws
          | none => w.freshSession sock clientSessionId draws
  else w

/-- The session loses its socket: no-op sink, armed prune timer. -/
def detachSession (w : WsServer) (id : String) (s : Session) : WsServer :=
  let sink := w.next
  let w := w.swapSink s .noop
  let timer := w.next
  { w with
    timers := update w.timers timer (some { session := id, armed := true, doomed := false })
    m_sessions := update w.m_sessions id
      (some { s with liveSink := sink, sock := none, pruneTimer := some timer })
    next := w.next + 1 }

/-- `onSocketDisconnected`: a socket without a session is forgotten, one with a session leaves it
    detached. -/
def onSocketDisconnected (w : WsServer) (sock : Nat) : WsServer :=
  let w := { w with sockets := update w.sockets sock false }
  if w.m_pending sock then { w with m_pending := update w.m_pending sock false }
  else
    match w.m_socketToSession sock with
    | none => w
    | some id =>
        let w := { w with m_socketToSession := update w.m_socketToSession sock none }
        match w.m_sessions id with
        | none => w
        | some s => w.detachSession id s

/-- `pruneSession`, when the timer has run out: a session that was taken up meanwhile stays, another
    one goes with its sink and, later, its adapter. -/
def pruneSession (w : WsServer) (id : String) : WsServer :=
  match w.m_sessions id with
  | none => w
  | some s =>
      if s.sock ≠ none then w
      else
        { w with
          adapters := update w.adapters s.adapter
            ((w.adapters s.adapter).map fun a => { a with doomed := true })
          sinks := update w.sinks s.liveSink none
          timers :=
            match s.pruneTimer with
            | some t => update w.timers t ((w.timers t).map fun tm => { tm with doomed := true })
            | none => w.timers
          m_sessions := update w.m_sessions id none }

/-- An armed timer fires once: it is no longer armed, and its session is pruned. A timer that was
    stopped, or deleted, does nothing. -/
def timerExpired (w : WsServer) (t : Nat) : WsServer :=
  match w.timers t with
  | some tm =>
      if tm.armed then
        { w with timers := update w.timers t (some { tm with armed := false }) }.pruneSession
          tm.session
      else w
  | none => w

/-- The deferred deletion of an adapter. -/
def deleteAdapter (w : WsServer) (a : Nat) : WsServer :=
  match w.adapters a with
  | some obj => if obj.doomed then { w with adapters := update w.adapters a none } else w
  | none => w

/-- The deferred deletion of a timer. -/
def deleteTimer (w : WsServer) (t : Nat) : WsServer :=
  match w.timers t with
  | some tm => if tm.doomed then { w with timers := update w.timers t none } else w
  | none => w

/-- A state manager's signal reaches an adapter, which sends an envelope. -/
def managerSignal (w : WsServer) (a : Nat) : WsServer :=
  match w.adapters a with
  | some obj =>
      match w.sinks obj.m_sink with
      | some _ => w
      | none => { w with freedSends := w.freedSends + 1 }
  | none => w

end WsServer

/-! ## Runs -/

/-- What Qt can deliver to the server, one at a time. -/
inductive WsEvent where
  | newConnection
  /-- A binary frame. Once a socket has a session, its frames go to the adapter. -/
  | frame (sock : Nat) (content : WsServer.ClientFrame) (draws : List String)
  | disconnected (sock : Nat)
  | timeout (timer : Nat)
  | deleteAdapter (adapter : Nat)
  | deleteTimer (timer : Nat)
  | managerSignal (adapter : Nat)
  deriving DecidableEq, Repr

/-- The server after an event: one signal that Qt delivers, or one deferred deletion, goes to its
    handler. -/
def WsServer.step (w : WsServer) : WsEvent → WsServer
  | .newConnection => w.onNewConnection
  | .frame sock content draws => w.onPendingFirstBinary sock content draws
  | .disconnected sock => w.onSocketDisconnected sock
  | .timeout t => w.timerExpired t
  | .deleteAdapter a => w.deleteAdapter a
  | .deleteTimer t => w.deleteTimer t
  | .managerSignal a => w.managerSignal a

/-! ## What the handlers can do -/

theorem freshSession_cases (w : WsServer) (sock : Nat) (clientSessionId : String)
    (draws : List String) :
    w.freshSession sock clientSessionId draws = w ∨
    ∃ id, w.m_sessions id = none ∧ w.freshSession sock clientSessionId draws =
      { w with m_pending := update w.m_pending sock false }.attachNewSession sock id := by
  unfold WsServer.freshSession
  cases hid : w.freeId clientSessionId draws with
  | none => exact Or.inl rfl
  | some id =>
      have hfree : w.m_sessions id = none := by simpa using List.find?_some hid
      exact Or.inr ⟨id, hfree, rfl⟩

theorem firstBinary_cases (w : WsServer) (sock : Nat) (content : WsServer.ClientFrame)
    (draws : List String) :
    w.onPendingFirstBinary sock content draws = w ∨
    (w.m_pending sock = true ∧ ∃ id, w.m_sessions id = none ∧
      w.onPendingFirstBinary sock content draws =
        { w with m_pending := update w.m_pending sock false }.attachNewSession sock id) ∨
    (w.m_pending sock = true ∧ ∃ id s, w.m_sessions id = some s ∧ s.sock = none ∧
      w.onPendingFirstBinary sock content draws =
        { w with m_pending := update w.m_pending sock false }.resumeSession id s sock) := by
  unfold WsServer.onPendingFirstBinary
  by_cases hpend : w.m_pending sock = true
  case neg => exact Or.inl (if_neg hpend)
  rw [if_pos hpend]
  cases content with
  | malformed => exact Or.inl rfl
  | other => exact Or.inl rfl
  | subscribe clientSessionId =>
      have hfresh := freshSession_cases w sock clientSessionId draws
      dsimp only
      split
      · exact hfresh.imp_right fun h => Or.inl ⟨hpend, h⟩
      · split
        · rename_i s hs
          by_cases hsock : s.sock = none
          · rw [if_pos hsock]
            exact Or.inr (Or.inr ⟨hpend, clientSessionId, s, hs, hsock, rfl⟩)
          · rw [if_neg hsock]
            exact hfresh.imp_right fun h => Or.inl ⟨hpend, h⟩
        · exact hfresh.imp_right fun h => Or.inl ⟨hpend, h⟩

end ShoweqDaemon.Ws
