/-
  Runs of a deterministic machine `step : σ → ε → σ` on a list of events.

  `List.foldl step s es` is the state after the run; `trace` lists the states it passes
  through, the first included, `outputs` what its steps give out. `foldl_invariant` and
  `trace_invariant` carry an invariant through a run. `StepsMeet` says that every step of a
  run meets a condition on the state before it; `trace_forall_iff_stepsMeet` turns a condition
  that is exact for one step into one that is exact for a whole run.
-/
import Mathlib.Data.List.Basic

namespace Machine

universe u v w

variable {σ : Type u} {ε : Type v} (step : σ → ε → σ)

/-- The states of the run of `es` from `s`, in order, `s` included. -/
def trace (s : σ) : List ε → List σ
  | [] => [s]
  | e :: es => s :: trace (step s e) es

/-- What each step of the run gives out, in order; `out` reads it off the state before. -/
def outputs {ω : Type w} (out : σ → ε → ω) (s : σ) : List ε → List ω
  | [] => []
  | e :: es => out s e :: outputs out (step s e) es

/-- Every step of the run of `es` from `s` meets `cond` in the state before it. -/
def StepsMeet (cond : σ → ε → Prop) (s : σ) : List ε → Prop
  | [] => True
  | e :: es => cond s e ∧ StepsMeet cond (step s e) es

instance decStepsMeet (cond : σ → ε → Prop) [∀ s e, Decidable (cond s e)] (s : σ) :
    (es : List ε) → Decidable (StepsMeet step cond s es)
  | [] => isTrue trivial
  | e :: es => @instDecidableAnd _ _ _ (decStepsMeet cond (step s e) es)

theorem mem_trace_self (s : σ) (es : List ε) : s ∈ trace step s es := by
  cases es <;> simp [trace]

/-- The states of a run are the states after its prefixes. -/
theorem mem_trace_iff (s t : σ) (es : List ε) :
    t ∈ trace step s es ↔ ∃ pre post, es = pre ++ post ∧ t = pre.foldl step s := by
  induction es generalizing s with
  | nil =>
      constructor
      · intro ht
        exact ⟨[], [], rfl, by simpa [trace] using ht⟩
      · rintro ⟨pre, post, he, rfl⟩
        obtain ⟨rfl, rfl⟩ := List.append_eq_nil_iff.mp he.symm
        exact mem_trace_self step s []
  | cons e es ih =>
      simp only [trace, List.mem_cons, ih]
      constructor
      · rintro (rfl | ⟨pre, post, rfl, rfl⟩)
        · exact ⟨[], e :: es, rfl, rfl⟩
        · exact ⟨e :: pre, post, rfl, rfl⟩
      · rintro ⟨pre, post, he, rfl⟩
        cases pre with
        | nil => exact Or.inl rfl
        | cons e' pre =>
            obtain ⟨rfl, rfl⟩ := List.cons.inj he
            exact Or.inr ⟨pre, post, rfl, rfl⟩

theorem outputs_append {ω : Type w} (out : σ → ε → ω) (s : σ) (es es' : List ε) :
    outputs step out s (es ++ es') =
      outputs step out s es ++ outputs step out (es.foldl step s) es' := by
  induction es generalizing s with
  | nil => rfl
  | cons e es ih => simp [outputs, ih]

theorem outputs_take {ω : Type w} (out : σ → ε → ω) (s : σ) (es : List ε) (n : ℕ) :
    outputs step out s (es.take n) = (outputs step out s es).take n := by
  induction es generalizing s n with
  | nil => simp [outputs]
  | cons e es ih =>
      cases n with
      | zero => rfl
      | succ n => exact congrArg (List.cons _) (ih (step s e) n)

/-- What a run gives out is given out after one of its prefixes. -/
theorem mem_outputs_iff {ω : Type w} (out : σ → ε → ω) (s : σ) (es : List ε) (o : ω) :
    o ∈ outputs step out s es ↔
      ∃ pre e post, es = pre ++ e :: post ∧ o = out (pre.foldl step s) e := by
  induction es generalizing s with
  | nil => simp [outputs]
  | cons e es ih =>
      rw [outputs, List.mem_cons, ih]
      constructor
      · rintro (rfl | ⟨pre, e', post, rfl, rfl⟩)
        · exact ⟨[], e, es, rfl, rfl⟩
        · exact ⟨e :: pre, e', post, rfl, rfl⟩
      · rintro ⟨pre, e', post, he, rfl⟩
        cases pre with
        | nil =>
            obtain ⟨rfl, rfl⟩ := List.cons.inj he
            exact Or.inl rfl
        | cons e'' pre =>
            obtain ⟨rfl, rfl⟩ := List.cons.inj he
            exact Or.inr ⟨pre, e', post, rfl, rfl⟩

theorem stepsMeet_append {cond : σ → ε → Prop} (s : σ) (es es' : List ε) :
    StepsMeet step cond s (es ++ es') ↔
      StepsMeet step cond s es ∧ StepsMeet step cond (es.foldl step s) es' := by
  induction es generalizing s with
  | nil => simp [StepsMeet]
  | cons e es ih => simp [StepsMeet, ih, and_assoc]

theorem stepsMeet_congr {cond cond' : σ → ε → Prop} (h : ∀ s e, cond s e ↔ cond' s e) (s : σ)
    (es : List ε) : StepsMeet step cond s es ↔ StepsMeet step cond' s es := by
  induction es generalizing s with
  | nil => rfl
  | cons e es ih => exact and_congr (h s e) (ih (step s e))

/-- A condition on a part of the state that moves as a machine of its own. -/
theorem stepsMeet_map {τ : Type w} {step' : τ → ε → τ} {cond : τ → ε → Prop} (f : σ → τ)
    (hf : ∀ s e, f (step s e) = step' (f s) e) (s : σ) (es : List ε) :
    StepsMeet step (fun s e => cond (f s) e) s es ↔ StepsMeet step' cond (f s) es := by
  induction es generalizing s with
  | nil => rfl
  | cons e es ih => rw [StepsMeet, StepsMeet, ih (step s e), hf]

/-- What a step keeps when it meets `cond` holds all along a run whose steps all do. -/
theorem trace_of_stepsMeet {P : σ → Prop} {cond : σ → ε → Prop}
    (hstep : ∀ s e, cond s e → P s → P (step s e)) {s : σ} (hs : P s) {es : List ε}
    (h : StepsMeet step cond s es) : ∀ t ∈ trace step s es, P t := by
  induction es generalizing s with
  | nil =>
      intro t ht
      rw [List.mem_singleton.mp ht]
      exact hs
  | cons e es ih =>
      intro t ht
      obtain rfl | ht := List.mem_cons.mp ht
      · exact hs
      · exact ih (hstep s e h.1 hs) h.2 t ht

theorem foldl_invariant {Inv : σ → Prop} (hstep : ∀ s e, Inv s → Inv (step s e)) {s : σ}
    (hs : Inv s) (es : List ε) : Inv (es.foldl step s) := by
  induction es generalizing s with
  | nil => exact hs
  | cons e es ih => exact ih (hstep s e hs)

theorem trace_invariant {Inv : σ → Prop} (hstep : ∀ s e, Inv s → Inv (step s e)) {s : σ}
    (hs : Inv s) (es : List ε) : ∀ t ∈ trace step s es, Inv t := by
  intro t ht
  obtain ⟨pre, _, _, rfl⟩ := (mem_trace_iff step s t es).mp ht
  exact foldl_invariant step hstep hs pre

/-- States and steps together: when a step keeps `P` and does `Q` exactly if it meets `cond`, a run
    keeps `P` and all its steps do `Q` exactly if every step meets `cond`. -/
theorem trace_forall_and_iff_stepsMeet {Inv P : σ → Prop} {Q cond : σ → ε → Prop}
    (hInv : ∀ s e, Inv s → Inv (step s e))
    (hexact : ∀ s e, Inv s → P s → (P (step s e) ∧ Q s e ↔ cond s e))
    {s : σ} (hs : Inv s) (hP : P s) (es : List ε) :
    (∀ t ∈ trace step s es, P t) ∧ StepsMeet step Q s es ↔ StepsMeet step cond s es := by
  induction es generalizing s with
  | nil => simpa [trace, StepsMeet] using hP
  | cons e es ih =>
      simp only [trace, List.forall_mem_cons, StepsMeet]
      constructor
      · rintro ⟨⟨-, hrest⟩, hq, hqs⟩
        have hnext : P (step s e) := hrest _ (mem_trace_self step (step s e) es)
        exact ⟨(hexact s e hs hP).mp ⟨hnext, hq⟩, (ih (hInv s e hs) hnext).mp ⟨hrest, hqs⟩⟩
      · rintro ⟨hc, hrest⟩
        obtain ⟨hnext, hq⟩ := (hexact s e hs hP).mpr hc
        obtain ⟨hps, hqs⟩ := (ih (hInv s e hs) hnext).mpr hrest
        exact ⟨⟨hP, hps⟩, hq, hqs⟩

/-- A property that holds at the start of a run, and that one step keeps exactly when the
    step meets `cond`, holds all along the run exactly when every step meets `cond`. -/
theorem trace_forall_iff_stepsMeet {Inv P : σ → Prop} {cond : σ → ε → Prop}
    (hInv : ∀ s e, Inv s → Inv (step s e))
    (hexact : ∀ s e, Inv s → P s → (P (step s e) ↔ cond s e))
    {s : σ} (hs : Inv s) (hP : P s) (es : List ε) :
    (∀ t ∈ trace step s es, P t) ↔ StepsMeet step cond s es := by
  have htrue : ∀ s : σ, StepsMeet step (fun _ _ => True) s es := by
    induction es with
    | nil => exact fun _ => trivial
    | cons e es ih => exact fun s => ⟨trivial, ih (step s e)⟩
  have hboth := trace_forall_and_iff_stepsMeet step (Q := fun _ _ => True) hInv
    (fun s e hs hP => (and_iff_left trivial).trans (hexact s e hs hP)) hs hP es
  exact (and_iff_left (htrue s)).symm.trans hboth

/-- The whole run of a step that does nothing but push its event on a list of the state, which `get`
    reads and `put` writes. -/
theorem foldl_push (get : σ → List ε) (put : σ → List ε → σ)
    (hstep : ∀ s e, step s e = put s (e :: get s)) (hget : ∀ s l, get (put s l) = l)
    (hput : ∀ s l l', put (put s l) l' = put s l') (hsame : ∀ s, put s (get s) = s)
    (es : List ε) (s : σ) : es.foldl step s = put s (es.reverse ++ get s) := by
  induction es generalizing s with
  | nil => exact (hsame s).symm
  | cons e es ih =>
      calc (e :: es).foldl step s = es.foldl step (put s (e :: get s)) := by
            rw [List.foldl_cons, hstep]
        _ = put s (es.reverse ++ (e :: get s)) := by rw [ih, hput, hget]
        _ = put s ((e :: es).reverse ++ get s) := by
            rw [List.reverse_cons, List.append_assoc, List.singleton_append]

end Machine
