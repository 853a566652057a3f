/-
  A store that a watcher follows through the messages the store's steps send.

  A step gives the next store and the messages sent during the step, in order; a message may
  be sent in the middle of the step, when the store is not yet what it will be. The watcher
  keeps the last message. It is fresh when the message shows what the store's view is.
  `fresh_step_iff` is the exact condition on one step, `trace_fresh_iff` carries it through a
  run; `fresh_run_iff` says when the watcher is fresh in the end.
-/
import ShoweqDaemon.Lib.Run
import Mathlib.Data.List.Induction

namespace Published

universe u v w x

variable {σ : Type u} {ε : Type v} {ω : Type w} {κ : Type x}

/-- A store and the last message that was sent about it. -/
structure Watched (σ : Type u) (ω : Type w) where
  store : σ
  shown : ω

/-- The last message sent, `shown` when none is. -/
def lastSent (shown : ω) (sent : List ω) : ω := sent.getLast?.getD shown

@[simp] theorem lastSent_nil (shown : ω) : lastSent shown [] = shown := rfl

@[simp] theorem lastSent_cons (shown m : ω) (sent : List ω) :
    lastSent shown (m :: sent) = lastSent m sent := by
  simp [lastSent, List.getLast?_cons]

variable (next : σ → ε → σ × List ω)

/-- One step of the store, seen by the watcher. -/
def step (w : Watched σ ω) (e : ε) : Watched σ ω where
  store := (next w.store e).1
  shown := lastSent w.shown (next w.store e).2

variable (read : ω → κ) (view : σ → κ)

/-- What the last message shows is the view of the store. -/
def Fresh (w : Watched σ ω) : Prop := read w.shown = view w.store

/-- The last message of the step shows the view after it; a step that sends none leaves the
    view as it was. -/
def Keeps (s : σ) (e : ε) : Prop :=
  ((next s e).2.map read).getLast?.getD (view s) = view (next s e).1

variable {next read view}

theorem read_lastSent (read : ω → κ) (shown : ω) (sent : List ω) :
    read (lastSent shown sent) = (sent.map read).getLast?.getD (read shown) := by
  rw [lastSent, List.getLast?_map]
  cases sent.getLast? <;> rfl

/-- A step whose messages show the view before it, if it sends any. -/
theorem keeps_before {s : σ} {e : ε} (h : ∀ m ∈ (next s e).2, read m = view s) :
    Keeps next read view s e ↔ view s = view (next s e).1 := by
  rw [Keeps, List.getLast?_map]
  cases hlast : (next s e).2.getLast? with
  | none => rfl
  | some m =>
    have hm : read m = view s := h m (List.mem_of_getLast? hlast)
    rw [Option.map_some, Option.getD_some, hm]

/-- A step that sends nothing. -/
theorem keeps_silent {s : σ} {e : ε} (h : (next s e).2 = []) :
    Keeps next read view s e ↔ view s = view (next s e).1 := by
  refine keeps_before ?_
  rw [h]
  exact fun m hm => absurd hm List.not_mem_nil

/-- Of what a step sends, the last message decides. -/
theorem keeps_last {s : σ} {e : ε} {sent : List ω} {m : ω} (h : (next s e).2 = sent ++ [m]) :
    Keeps next read view s e ↔ read m = view (next s e).1 := by
  rw [Keeps, h, List.map_append, List.map_singleton, List.getLast?_concat, Option.getD_some]

/-- A step that sends one message. -/
theorem keeps_single {s : σ} {e : ε} {m : ω} (h : (next s e).2 = [m]) :
    Keeps next read view s e ↔ read m = view (next s e).1 := by
  rw [← List.nil_append [m]] at h
  exact keeps_last h

/-- Any last message of a step will do that shows what the watcher saw before or the view. -/
theorem keeps_iff {s : σ} {e : ε} {shown : ω} (h : read shown = view s) :
    Keeps next read view s e ↔
      read (lastSent shown (next s e).2) = view (next s e).1 := by
  rw [Keeps, read_lastSent read, h]

/-- A fresh watcher stays fresh exactly when the step keeps it so. -/
theorem fresh_step_iff {w : Watched σ ω} (hw : Fresh read view w) (e : ε) :
    Fresh read view (step next w e) ↔ Keeps next read view w.store e :=
  (keeps_iff hw).symm

/-- A fresh watcher stays fresh all along a run exactly when every step keeps it so. -/
theorem trace_fresh_iff {cond : σ → ε → Prop}
    (hcond : ∀ s e, Keeps next read view s e ↔ cond s e) {w : Watched σ ω}
    (hw : Fresh read view w) (es : List ε) :
    (∀ t ∈ Machine.trace (step next) w es, Fresh read view t) ↔
      Machine.StepsMeet (fun s e => (next s e).1) cond w.store es := by
  have hexact : ∀ w e, True → Fresh read view w →
      (Fresh read view (step next w e) ↔ cond w.store e) :=
    fun w e _ h => (fresh_step_iff h e).trans (hcond w.store e)
  rw [Machine.trace_forall_iff_stepsMeet (step next) (fun _ _ _ => trivial) hexact trivial hw]
  exact Machine.stepsMeet_map (step next) Watched.store (fun _ _ => rfl) w es

/-! ## The last message of a run -/

variable (next) in
/-- The step sends something. -/
def Sends (s : σ) (e : ε) : Prop := (next s e).2 ≠ []

variable (next read view) in
/-- The step sends something, and in the end it has shown another view than there is. -/
def Misses (s : σ) (e : ε) : Prop :=
  ∃ m, (next s e).2.getLast? = some m ∧ read m ≠ view (next s e).1

variable (next) in
/-- The store alone. -/
def stores (s : σ) (e : ε) : σ := (next s e).1

variable (next) in
theorem run_store (w : Watched σ ω) (es : List ε) :
    (es.foldl (step next) w).store = es.foldl (stores next) w.store := by
  induction es generalizing w with
  | nil => rfl
  | cons e es ih => exact ih (step next w e)

/-- An element of a list is its last one, or it stands in front of that. -/
theorem concat_eq_append_cons {es pre post : List ε} {e e₀ : ε} (h : es ++ [e] = pre ++ e₀ :: post) :
    pre = es ∧ e₀ = e ∧ post = [] ∨ ∃ post', post = post' ++ [e] ∧ es = pre ++ e₀ :: post' := by
  rcases List.eq_nil_or_concat post with rfl | ⟨post', e₁, rfl⟩
  · obtain ⟨hpre, hlast⟩ := List.append_inj' h rfl
    exact Or.inl ⟨hpre.symm, (List.singleton_inj.mp hlast).symm, rfl⟩
  · rw [List.concat_eq_append, ← List.cons_append, ← List.append_assoc] at h
    obtain ⟨hes, hlast⟩ := List.append_inj' h rfl
    obtain rfl := List.singleton_inj.mp hlast
    exact Or.inr ⟨post', List.concat_eq_append, hes⟩

variable (next read view) in
/-- Behind each miss of the run there is a later message. -/
def MadeUp (s : σ) (es : List ε) : Prop :=
  ∀ pre e post, es = pre ++ e :: post → Misses next read view (pre.foldl (stores next) s) e →
    ∃ mid e' post', post = mid ++ e' :: post' ∧
      Sends next ((pre ++ e :: mid).foldl (stores next) s) e'

/-- A step that sends nothing misses nothing and makes up for nothing. -/
theorem madeUp_concat_silent {s : σ} {es : List ε} {e : ε}
    (hnil : (next (es.foldl (stores next) s) e).2 = []) :
    MadeUp next read view s (es ++ [e]) ↔ MadeUp next read view s es := by
  constructor
  · rintro h pre e₀ post rfl hmiss
    obtain ⟨mid, e', post', heq, hsends⟩ := h pre e₀ (post ++ [e]) (by simp) hmiss
    rcases concat_eq_append_cons heq with ⟨rfl, rfl, rfl⟩ | ⟨post'', -, hpost⟩
    · exact absurd hnil hsends
    · exact ⟨mid, e', post'', hpost, hsends⟩
  · intro h pre e₀ post heq hmiss
    rcases concat_eq_append_cons heq with ⟨rfl, rfl, rfl⟩ | ⟨post', rfl, hes⟩
    · obtain ⟨m, hm, -⟩ := hmiss
      rw [hnil] at hm
      exact absurd hm.symm (Option.some_ne_none m)
    · obtain ⟨mid, e', post'', rfl, hsends⟩ := h pre e₀ post' hes hmiss
      exact ⟨mid, e', post'' ++ [e], by simp, hsends⟩

/-- A step that sends something makes up for all misses, unless it is one. -/
theorem madeUp_concat_sends {s : σ} {es : List ε} {e : ε}
    (hsends : Sends next (es.foldl (stores next) s) e) :
    MadeUp next read view s (es ++ [e]) ↔
      ¬ Misses next read view (es.foldl (stores next) s) e := by
  constructor
  · intro h hmiss
    obtain ⟨mid, e', post', heq, -⟩ := h es e [] rfl hmiss
    exact absurd heq.symm (List.append_ne_nil_of_right_ne_nil mid (List.cons_ne_nil _ _))
  · intro hno pre e₀ post heq hmiss
    rcases concat_eq_append_cons heq with ⟨rfl, rfl, rfl⟩ | ⟨post', rfl, rfl⟩
    · exact absurd hmiss hno
    · exact ⟨post', e, [], rfl, hsends⟩

/-- When only steps that send something change the view, the watcher is up to date exactly if the
    last step that sent something was no miss. -/
theorem fresh_run_iff (hsilent : ∀ s e, (next s e).2 = [] → view (next s e).1 = view s)
    {w : Watched σ ω} (hw : Fresh read view w) (es : List ε) :
    Fresh read view (es.foldl (step next) w) ↔ MadeUp next read view w.store es := by
  induction es using List.reverseRecOn with
  | nil =>
      refine iff_of_true hw fun pre e post heq => ?_
      exact absurd heq.symm (List.append_ne_nil_of_right_ne_nil pre (List.cons_ne_nil e post))
  | append_singleton es e ih =>
      have hstore := run_store next w es
      have hfresh : Fresh read view ((es ++ [e]).foldl (step next) w) ↔
          read (lastSent (es.foldl (step next) w).shown
            (next (es.foldl (stores next) w.store) e).2) =
              view (next (es.foldl (stores next) w.store) e).1 := by
        rw [List.foldl_append, ← hstore]
        rfl
      rw [hfresh]
      by_cases hnil : (next (es.foldl (stores next) w.store) e).2 = []
      · rw [madeUp_concat_silent hnil, ← ih, hnil, hsilent _ e hnil, lastSent_nil, ← hstore]
        rfl
      · rw [madeUp_concat_sends hnil]
        obtain ⟨m, hm⟩ := Option.ne_none_iff_exists'.mp (mt List.getLast?_eq_none_iff.mp hnil)
        rw [lastSent, hm, Option.getD_some]
        constructor
        · rintro hshown ⟨m', hm', hother⟩
          obtain rfl := Option.some.inj (hm.symm.trans hm')
          exact hother hshown
        · intro hno
          by_contra hother
          exact hno ⟨m, hm, hother⟩

end Published
