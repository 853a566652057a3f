/-
  The envelope stream of one `SessionAdapter`, and its resume buffer.

  `emitEnvelope` numbers an envelope, sends it through the current sink and keeps it in the
  ring. The sink is swapped for a no-op sink while the client is away; `replaySince` sends what
  the ring still holds past a sequence number.

  `m_seq` and the numbers of the envelopes are natural numbers here and have 64 bits in the source.
  They are the same in every run that emits fewer than 2^64 envelopes, which is every run that
  there is time for; the results speak of those runs.

  `StreamInv` is the invariant of every run: the stream is numbered from 1, the ring is its
  end, and the ring keeps what is recent enough. `session_stream` adds the law of resume: a
  client that has the first `L` envelopes and resumes while the next one is still in the ring
  ends up with the stream, each envelope once and in order.
-/
import Mathlib.Algebra.Group.Int.Defs
import ShoweqDaemon.Lib.Run
import ShoweqDaemon.Lib.Window

namespace ShoweqDaemon.Session

universe u

/-! ## Envelopes -/

/-- The bounds of the resume buffer: how many envelopes, and how old they may be. -/
def kMaxEntries : Nat := 10000
def kWindowMs : Int64 := 30 * 1000

/-- A reading of `currentMSecsSinceEpoch`. The clock does not lie so far in the past that
    `kWindowMs` before it falls out of the 64-bit range. -/
structure Clock where
  ms : Int64
  in_range : 30000 - 2 ^ 63 ≤ ms.toInt

/-- What `emitEnvelope` sends: a payload with its number in the stream and the time of the server.
    -/
structure Envelope (α : Type u) where
  /-- `uint64` in the source, see the header. -/
  seq : Nat
  server_ts_ms : UInt64
  payload : α

variable {α : Type u}

/-- `env` is older than the window that ends at `last`. -/
def expired (env last : Envelope α) : Bool :=
  let cutoff := (last.server_ts_ms - kWindowMs.toUInt64).toInt64
  env.server_ts_ms.toInt64 < cutoff

/-! ## The adapter -/

/-- Where envelopes go. A live sink is a client's socket, with what was sent through it. -/
inductive Sink (α : Type u) where
  | noop
  | live (sent : List (Envelope α))

/-- An envelope goes through the sink. -/
def Sink.send (env : Envelope α) : Sink α → Sink α
  | noop => noop
  | live sent => live (sent ++ [env])

/-- `SessionAdapter`, as far as envelopes go: the number of the last one, the resume buffer and the
    sink. -/
structure SessionAdapter (α : Type u) where
  /-- The number of the last envelope; `uint64_t` in the source. -/
  m_seq : Nat
  m_ringBuffer : List (Envelope α)
  m_sink : Sink α

namespace SessionAdapter

/-- The envelope that `emitEnvelope` makes of a payload. -/
def nextEnvelope (a : SessionAdapter α) (payload : α) (now : Clock) : Envelope α :=
  { seq := a.m_seq + 1, server_ts_ms := now.ms.toUInt64, payload }

/-- `SessionAdapter::emitEnvelope`: the envelope is sent and kept, and what has become too old or
    too much leaves the buffer. -/
def emitEnvelope (a : SessionAdapter α) (payload : α) (now : Clock) : SessionAdapter α :=
  { m_seq := a.m_seq + 1
    m_sink := a.m_sink.send (a.nextEnvelope payload now)
    m_ringBuffer :=
      Window.push expired kMaxEntries a.m_ringBuffer (a.nextEnvelope payload now) }

/-- `SessionAdapter::setSink` -/
def setSink (a : SessionAdapter α) (sink : Sink α) : SessionAdapter α := { a with m_sink := sink }

/-- `SessionAdapter::replaySince`: what the buffer has behind a number is sent again, in order. -/
def replaySince (a : SessionAdapter α) (lastSeq : Nat) : SessionAdapter α :=
  { a with
    m_sink := (a.m_ringBuffer.filter (fun env => lastSeq < env.seq)).foldl
      (fun sink env => sink.send env) a.m_sink }

end SessionAdapter

/-! ## Runs -/

/-- What happens to an adapter: an envelope is emitted, or the server changes its sink or replays
    the ring for a client that resumes. -/
inductive Op (α : Type u) where
  | emit (payload : α) (now : Clock)
  /-- The socket is gone: the sink is a no-op. -/
  | detach
  /-- A new socket, nothing sent through it yet. -/
  | attach
  | replaySince (lastSeq : Nat)

/-- The adapter, with everything it ever emitted. -/
structure Stream (α : Type u) where
  adapter : SessionAdapter α
  emitted : List (Envelope α)

namespace Stream

/-- A new session, attached to its first socket. -/
def init : Stream α :=
  { adapter := { m_seq := 0, m_ringBuffer := [], m_sink := .live [] }, emitted := [] }

/-- The adapter after an operation, with all that it has emitted. -/
def step (s : Stream α) : Op α → Stream α
  | .emit payload now =>
      { adapter := s.adapter.emitEnvelope payload now
        emitted := s.emitted ++ [s.adapter.nextEnvelope payload now] }
  | .detach => { s with adapter := s.adapter.setSink .noop }
  | .attach => { s with adapter := s.adapter.setSink (.live []) }
  | .replaySince lastSeq => { s with adapter := s.adapter.replaySince lastSeq }

end Stream

/-- The clock values of the emissions. -/
def clocks (ops : List (Op α)) : List Int :=
  ops.filterMap fun
    | .emit _ now => some now.ms.toInt
    | _ => none

/-- Any number of emissions, sink swaps and replays, on a clock that does not run backwards. -/
structure SessionRun (α : Type u) where
  ops : List (Op α)
  nondecreasing : (clocks ops).Pairwise (· ≤ ·)

/-- The state at the end of a run. -/
def SessionRun.final (r : SessionRun α) : Stream α := r.ops.foldl Stream.step Stream.init

/-- The time stamp of an envelope, as a signed number. -/
def Envelope.ts (env : Envelope α) : Int := env.server_ts_ms.toInt64.toInt

/-! ## The ring -/

theorem expired_iff (env last : Envelope α) (hlast : 30000 - 2 ^ 63 ≤ last.ts) :
    expired env last = true ↔ env.ts + 30000 < last.ts := by
  have hlt := last.server_ts_ms.toInt64.toInt_lt
  have hk : kWindowMs.toUInt64.toInt64.toInt = 30000 := by decide
  unfold Envelope.ts at *
  unfold expired
  rw [decide_eq_true_iff, UInt64.toInt64_sub, Int64.lt_iff_toInt_lt, Int64.toInt_sub, hk,
    Int.bmod_eq_of_le (by omega) (by omega)]
  omega

/-- What every run keeps. -/
structure StreamInv (s : Stream α) : Prop where
  numbered : s.emitted.map Envelope.seq = List.range' 1 s.emitted.length
  counted : s.adapter.m_seq = s.emitted.length
  suffix : s.adapter.m_ringBuffer <:+ s.emitted
  bounded : s.adapter.m_ringBuffer.length ≤ kMaxEntries
  /-- What fits the capacity and the window is in the ring. -/
  recent : ∀ env l, env :: l <:+ s.emitted → (env :: l).length ≤ kMaxEntries →
    (∀ last ∈ s.emitted.getLast?, last.ts ≤ env.ts + 30000) → env :: l <:+ s.adapter.m_ringBuffer

/-- No envelope is stamped after `now`. -/
def StampedBefore (s : Stream α) (now : Int) : Prop := ∀ env ∈ s.emitted, env.ts ≤ now

theorem nextEnvelope_ts (a : SessionAdapter α) (payload : α) (now : Clock) :
    (a.nextEnvelope payload now).ts = now.ms.toInt := by
  simp [Envelope.ts, SessionAdapter.nextEnvelope]

theorem streamInv_init : StreamInv (Stream.init : Stream α) where
  numbered := rfl
  counted := rfl
  suffix := List.suffix_refl _
  bounded := Nat.zero_le _
  recent := fun _ _ h _ _ => h

theorem step_emit_ring (s : Stream α) (payload : α) (now : Clock) :
    (s.step (.emit payload now)).adapter.m_ringBuffer =
      Window.push expired kMaxEntries s.adapter.m_ringBuffer
        (s.adapter.nextEnvelope payload now) := by
  simp only [Stream.step, SessionAdapter.emitEnvelope]

theorem step_emit_emitted (s : Stream α) (payload : α) (now : Clock) :
    (s.step (.emit payload now)).emitted =
      s.emitted ++ [s.adapter.nextEnvelope payload now] := rfl

theorem streamInv_emit {s : Stream α} (h : StreamInv s) (payload : α) (now : Clock)
    (hnow : StampedBefore s now.ms.toInt) : StreamInv (s.step (.emit payload now)) := by
  have hring := step_emit_ring s payload now
  have hemitted := step_emit_emitted s payload now
  have hts := nextEnvelope_ts s.adapter payload now
  have hseq : (s.adapter.nextEnvelope payload now).seq = 1 + s.emitted.length := by
    rw [← h.counted, Nat.add_comm]
    rfl
  generalize s.adapter.nextEnvelope payload now = env at hring hemitted hts hseq
  have hfresh (e : Envelope α) (he : now.ms.toInt ≤ e.ts + 30000) : expired e env = false := by
    have hrange := now.in_range
    rw [Bool.eq_false_iff]
    intro hexp
    have hold := (expired_iff e env (by omega)).mp hexp
    omega
  refine ⟨?_, ?_, ?_, ?_, ?_⟩
  · rw [hemitted, List.map_append, h.numbered, List.length_append, List.map_singleton, hseq]
    simp [List.range'_concat]
  · rw [hemitted, List.length_append, ← h.counted]
    rfl
  · rw [hring, hemitted]
    obtain ⟨pre, hpre⟩ := h.suffix
    refine (Window.push_suffix _ _ _ _).trans ⟨pre, ?_⟩
    rw [← hpre, List.append_assoc]
  · rw [hring]
    exact Window.length_push_le _ _ _ _
  · intro e l hsuf hlen hlast
    rw [hring]
    rw [hemitted] at hsuf hlast
    have hwindow : now.ms.toInt ≤ e.ts + 30000 := by
      rw [← hts]
      exact hlast env (by simp)
    refine Window.suffix_push _ _ ?_ (hfresh e hwindow) hlen
    -- the suffix without the new envelope was in the ring before
    rcases List.suffix_concat_iff.mp hsuf with hnil | ⟨t, ht, hold⟩
    · cases hnil
    · cases t with
      | nil =>
          rw [ht]
          exact List.suffix_append _ _
      | cons e' t =>
          obtain ⟨rfl, rfl⟩ := List.cons.inj ht
          have hprev : ∀ last ∈ s.emitted.getLast?, last.ts ≤ e.ts + 30000 := by
            intro last hl
            exact Int.le_trans (hnow last (List.mem_of_getLast? hl)) hwindow
          have hlen' : (e :: t).length ≤ kMaxEntries := by
            rw [List.append_eq, List.length_cons, List.length_append] at hlen
            rw [List.length_cons]
            omega
          obtain ⟨pre, hpre⟩ := h.recent e t hold hlen' hprev
          exact ⟨pre, by rw [← hpre]; simp⟩

theorem stampedBefore_emit {s : Stream α} {t : Int} (payload : α) (now : Clock)
    (h : StampedBefore s t) (hnow : now.ms.toInt ≤ t) :
    StampedBefore (s.step (.emit payload now)) t := by
  intro env henv
  rcases List.mem_append.mp henv with henv | henv
  · exact h env henv
  · rw [List.mem_singleton.mp henv, nextEnvelope_ts]
    exact hnow

/-- The invariant along a run whose clock does not run backwards. -/
theorem streamInv_foldl (ops : List (Op α)) {s : Stream α} (h : StreamInv s)
    (hnow : ∀ t ∈ clocks ops, StampedBefore s t) (hclock : (clocks ops).Pairwise (· ≤ ·)) :
    StreamInv (ops.foldl Stream.step s) := by
  induction ops generalizing s with
  | nil => exact h
  | cons op ops ih =>
      cases op with
      | emit payload now =>
          have hcons : clocks (.emit payload now :: ops) = now.ms.toInt :: clocks ops := rfl
          rw [hcons] at hnow hclock
          obtain ⟨hle, hclock⟩ := List.pairwise_cons.mp hclock
          obtain ⟨hnow, hlater⟩ := List.forall_mem_cons.mp hnow
          exact ih (streamInv_emit h payload now hnow)
            (fun t ht => stampedBefore_emit payload now (hlater t ht) (hle t ht)) hclock
      | detach => exact ih ⟨h.numbered, h.counted, h.suffix, h.bounded, h.recent⟩ hnow hclock
      | attach => exact ih ⟨h.numbered, h.counted, h.suffix, h.bounded, h.recent⟩ hnow hclock
      | replaySince lastSeq =>
          exact ih ⟨h.numbered, h.counted, h.suffix, h.bounded, h.recent⟩ hnow hclock

theorem SessionRun.inv (r : SessionRun α) : StreamInv r.final :=
  streamInv_foldl r.ops streamInv_init (fun _ _ _ h => by cases h) r.nondecreasing

/-! ## Resuming -/

/-- Out of consecutive numbers from `k` on, the filter of `replaySince` keeps those past `L`. -/
theorem filter_numbered {l : List (Envelope α)} {k L : Nat}
    (h : l.map Envelope.seq = List.range' k l.length) :
    l.filter (fun env => L < env.seq) = l.drop (L + 1 - k) := by
  induction l generalizing k with
  | nil => simp
  | cons env l ih =>
      rw [List.map_cons, List.length_cons, List.range'_succ] at h
      obtain ⟨hseq, hrest⟩ := List.cons.inj h
      by_cases hlt : L < env.seq
      · have hzero : L + 1 - k = 0 := by omega
        have hzero' : L + 1 - (k + 1) = 0 := by omega
        rw [List.filter_cons_of_pos (by simpa using hlt), ih hrest, hzero, hzero']
        rfl
      · obtain ⟨n, hn⟩ : ∃ n, L + 1 - k = n + 1 := ⟨L - k, by omega⟩
        have hn' : L + 1 - (k + 1) = n := by omega
        rw [List.filter_cons_of_neg (by simpa using hlt), ih hrest, hn, hn', List.drop_succ_cons]

theorem foldl_send (envs sent : List (Envelope α)) :
    envs.foldl (fun sink env => sink.send env) (Sink.live sent) = Sink.live (sent ++ envs) := by
  induction envs generalizing sent with
  | nil => simp
  | cons env envs ih =>
      have hsend : Sink.send env (Sink.live sent) = Sink.live (sent ++ [env]) := rfl
      rw [List.foldl_cons, hsend, ih, List.append_assoc]
      rfl

/-- What a new socket gets when it resumes after `L` and the ring reaches back that far. -/
theorem resume_sink {s : Stream α} (h : StreamInv s) {L : Nat}
    (hL : L + 1 ∈ s.adapter.m_ringBuffer.map Envelope.seq ∨ L = s.emitted.length) :
    ((s.step .attach).step (.replaySince L)).adapter.m_sink = .live (s.emitted.drop L) := by
  obtain ⟨pre, hpre⟩ := h.suffix
  have hlen : s.emitted.length = pre.length + s.adapter.m_ringBuffer.length := by
    rw [← hpre, List.length_append]
  -- the ring is numbered from behind the envelopes it dropped
  have hring : s.adapter.m_ringBuffer.map Envelope.seq =
      List.range' (pre.length + 1) s.adapter.m_ringBuffer.length := by
    have hnum := h.numbered
    rw [hlen, ← hpre, List.map_append, ← List.range'_append] at hnum
    have hpart := (List.append_inj hnum (by simp)).2
    simpa [Nat.add_comm] using hpart
  have hle : pre.length ≤ L := by
    rcases hL with hmem | rfl
    · rw [hring, List.mem_range'_1] at hmem
      omega
    · omega
  have hsink : ((s.step .attach).step (.replaySince L)).adapter.m_sink =
      (s.adapter.m_ringBuffer.filter (fun env => L < env.seq)).foldl
        (fun sink env => sink.send env) (Sink.live []) := rfl
  rw [hsink, filter_numbered hring, foldl_send, List.nil_append, ← hpre]
  have hoff : L + 1 - (pre.length + 1) = L - pre.length := by omega
  rw [hoff, List.drop_append, List.drop_eq_nil_of_le hle, List.nil_append]

/-- The emissions of `sends`. -/
def emissionsOf (sends : List (α × Clock)) : List (Op α) := sends.map fun x => .emit x.1 x.2

/-- A live sink gets what is emitted. -/
theorem emit_sink (sends : List (α × Clock)) {s : Stream α} {sent : List (Envelope α)}
    (h : s.adapter.m_sink = .live sent) :
    ∃ new, ((emissionsOf sends).foldl Stream.step s).adapter.m_sink = .live (sent ++ new) ∧
      ((emissionsOf sends).foldl Stream.step s).emitted = s.emitted ++ new := by
  induction sends generalizing s sent with
  | nil => exact ⟨[], by simpa [emissionsOf] using h, by simp [emissionsOf]⟩
  | cons x sends ih =>
      have hstep : (s.step (.emit x.1 x.2)).adapter.m_sink =
          .live (sent ++ [s.adapter.nextEnvelope x.1 x.2]) := by
        simp [Stream.step, SessionAdapter.emitEnvelope, h, Sink.send]
      obtain ⟨new, hsink, hemitted⟩ := ih hstep
      refine ⟨s.adapter.nextEnvelope x.1 x.2 :: new, ?_, ?_⟩
      · rw [List.append_assoc] at hsink
        exact hsink
      · rw [Stream.step, List.append_assoc] at hemitted
        exact hemitted

/-- In every run the envelopes are numbered from 1 without a gap, and the ring is the end of the
    stream, not empty once something was sent, and within its capacity. A client that has the first
    `L` envelopes and resumes while the next one is in the ring, or has them all, gets the others in
    order and once each, whatever is sent behind the replay; and an envelope among the last 10000
    that is at most thirty seconds older than the last one is in the ring. -/
theorem session_stream (r : SessionRun α) :
    r.final.emitted.map Envelope.seq = List.range' 1 r.final.emitted.length ∧
    (r.final.emitted ≠ [] → r.final.adapter.m_ringBuffer ≠ []) ∧
    r.final.adapter.m_ringBuffer <:+ r.final.emitted ∧
    r.final.adapter.m_ringBuffer.length ≤ kMaxEntries ∧
    (∀ L sends, L ≤ r.final.emitted.length →
      (L + 1 ∈ r.final.adapter.m_ringBuffer.map Envelope.seq ∨ L = r.final.emitted.length) →
      ∃ sent, ((.attach :: .replaySince L :: emissionsOf sends).foldl Stream.step
          r.final).adapter.m_sink = .live sent ∧
        r.final.emitted.take L ++ sent =
          ((.attach :: .replaySince L :: emissionsOf sends).foldl Stream.step r.final).emitted) ∧
    (∀ L env, r.final.emitted[L]? = some env → r.final.emitted.length - L ≤ kMaxEntries →
      (∀ last ∈ r.final.emitted.getLast?, last.ts ≤ env.ts + 30000) →
      L + 1 ∈ r.final.adapter.m_ringBuffer.map Envelope.seq) := by
  have h := r.inv
  have hrecent {L : Nat} {env : Envelope α} (henv : r.final.emitted[L]? = some env)
      (hcap : r.final.emitted.length - L ≤ kMaxEntries)
      (hwindow : ∀ last ∈ r.final.emitted.getLast?, last.ts ≤ env.ts + 30000) :
      L + 1 ∈ r.final.adapter.m_ringBuffer.map Envelope.seq := by
    obtain ⟨hL, hget⟩ := List.getElem?_eq_some_iff.mp henv
    have hdrop : r.final.emitted.drop L = env :: r.final.emitted.drop (L + 1) := by
      rw [List.drop_eq_getElem_cons hL, hget]
    have hkept := h.recent env (r.final.emitted.drop (L + 1)) (hdrop ▸ List.drop_suffix _ _)
      (by rw [← hdrop, List.length_drop]; exact hcap) hwindow
    have hseq : env.seq = L + 1 := by
      have hnum := congrArg (fun l => l[L]?) h.numbered
      simp only [List.getElem?_map, henv, Option.map_some] at hnum
      rw [List.getElem?_range' hL] at hnum
      simpa [Nat.add_comm] using hnum
    rw [← hseq]
    exact List.mem_map_of_mem (hkept.subset (by simp))
  refine ⟨h.numbered, ?_, h.suffix, h.bounded, ?_, ?_⟩
  · intro hne hnil
    -- the last envelope is always kept
    have hpos := List.length_pos_iff.mpr hne
    have hlast : r.final.emitted[r.final.emitted.length - 1]? =
        some (r.final.emitted.getLast hne) := by
      rw [← List.getLast?_eq_getElem?, List.getLast?_eq_some_getLast]
    have hmem := hrecent hlast (by unfold kMaxEntries; omega) (by
      intro last hl
      rw [List.getLast?_eq_some_getLast hne] at hl
      obtain rfl := Option.some.inj hl
      omega)
    rw [hnil] at hmem
    cases hmem
  · intro L sends _ hL
    obtain ⟨new, hsink, hemitted⟩ := emit_sink sends (resume_sink h hL)
    refine ⟨r.final.emitted.drop L ++ new, hsink, ?_⟩
    rw [← List.append_assoc, List.take_append_drop]
    exact hemitted.symm
  · exact fun L env => hrecent

end ShoweqDaemon.Session
