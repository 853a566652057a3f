/-
  A machine that serves many flows, and the flows on their own.

  Each event belongs to one flow. `Separates` says that a step of the whole machine is a step
  of its event's flow: the flow's part moves as a machine of its own would, every other part
  stays, and the step gives out what the flow's own machine gives out. `part_foldl` and
  `outputsOf_eq` carry this through a run of any interleaving: a flow sees its own events and
  nothing else. `part_foldl_alone` and `outputsOf_alone` compare two runs of the whole machine.
-/
import ShoweqDaemon.Lib.Run

namespace Machine

universe u v w x y

variable {σ : Type u} {ε : Type v} {ω : Type w} {κ : Type x} {τ : Type y}

/-- The whole machine `step`, `out` splits into machines `lstep`, `lout`, one for each flow.
    `part` reads the state of a flow off the whole, `Inv` holds all along. -/
structure Separates (Inv : σ → Prop) (step : σ → ε → σ) (out : σ → ε → ω) (flow : ε → κ)
    (part : σ → κ → τ) (lstep : τ → ε → τ) (lout : τ → ε → ω) : Prop where
  inv : ∀ s e, Inv s → Inv (step s e)
  own : ∀ s e, Inv s → part (step s e) (flow e) = lstep (part s (flow e)) e
  other : ∀ s e k, Inv s → flow e ≠ k → part (step s e) k = part s k
  out : ∀ s e, Inv s → out s e = lout (part s (flow e)) e

variable [DecidableEq κ]

/-- The events of one flow, in order. -/
def ofFlow (flow : ε → κ) (k : κ) (es : List ε) : List ε := es.filter (fun e => flow e = k)

/-- What the steps of one flow give out in a run of the whole machine, in order. -/
def outputsOf (step : σ → ε → σ) (out : σ → ε → ω) (flow : ε → κ) (k : κ) (s : σ) :
    List ε → List ω
  | [] => []
  | e :: es =>
      if flow e = k then out s e :: outputsOf step out flow k (step s e) es
      else outputsOf step out flow k (step s e) es

theorem ofFlow_ofFlow (flow : ε → κ) (k : κ) (es : List ε) :
    ofFlow flow k (ofFlow flow k es) = ofFlow flow k es := by
  simp [ofFlow]

/-- In a run of one flow alone every step is a step of the flow. -/
theorem outputsOf_ofFlow (step : σ → ε → σ) (out : σ → ε → ω) (flow : ε → κ) (k : κ) (s : σ)
    (es : List ε) :
    outputsOf step out flow k s (ofFlow flow k es) = outputs step out s (ofFlow flow k es) := by
  induction es generalizing s with
  | nil => rfl
  | cons e es ih =>
      by_cases he : flow e = k
      · have hcons : ofFlow flow k (e :: es) = e :: ofFlow flow k es := by simp [ofFlow, he]
        rw [hcons, outputsOf, if_pos he, outputs, ih]
      · have hcons : ofFlow flow k (e :: es) = ofFlow flow k es := by simp [ofFlow, he]
        rw [hcons, ih]

namespace Separates

variable {Inv : σ → Prop} {step : σ → ε → σ} {out : σ → ε → ω} {flow : ε → κ}
  {part : σ → κ → τ} {lstep : τ → ε → τ} {lout : τ → ε → ω}

/-- The part of a flow after any interleaving is what its own events make of it. -/
theorem part_foldl (h : Separates Inv step out flow part lstep lout) {s : σ} (hs : Inv s)
    (k : κ) (es : List ε) :
    part (es.foldl step s) k = (ofFlow flow k es).foldl lstep (part s k) := by
  induction es generalizing s with
  | nil => rfl
  | cons e es ih =>
      rw [List.foldl_cons, ih (h.inv s e hs)]
      by_cases he : flow e = k
      · have hown : part (step s e) k = lstep (part s k) e := by
          rw [← he]
          exact h.own s e hs
        simp [ofFlow, he, hown]
      · simp [ofFlow, he, h.other s e k hs he]

/-- What a flow gives out in any interleaving is what its own machine gives out. -/
theorem outputsOf_eq (h : Separates Inv step out flow part lstep lout) {s : σ} (hs : Inv s)
    (k : κ) (es : List ε) :
    outputsOf step out flow k s es = outputs lstep lout (part s k) (ofFlow flow k es) := by
  induction es generalizing s with
  | nil => rfl
  | cons e es ih =>
      rw [outputsOf, ih (h.inv s e hs)]
      by_cases he : flow e = k
      · have hown : part (step s e) k = lstep (part s k) e := by
          rw [← he]
          exact h.own s e hs
        have hcons : ofFlow flow k (e :: es) = e :: ofFlow flow k es := by simp [ofFlow, he]
        rw [if_pos he, hcons, outputs, hown, h.out s e hs, he]
      · have hcons : ofFlow flow k (e :: es) = ofFlow flow k es := by simp [ofFlow, he]
        rw [if_neg he, hcons, h.other s e k hs he]

/-- Two runs: the interleaving leaves a flow where the flow's events alone leave it. -/
theorem part_foldl_alone (h : Separates Inv step out flow part lstep lout) {s : σ} (hs : Inv s)
    (k : κ) (es : List ε) :
    part (es.foldl step s) k = part ((ofFlow flow k es).foldl step s) k := by
  rw [h.part_foldl hs, h.part_foldl hs, ofFlow_ofFlow]

/-- Two runs: a flow gives out in the interleaving what its events alone give out. -/
theorem outputsOf_alone (h : Separates Inv step out flow part lstep lout) {s : σ} (hs : Inv s)
    (k : κ) (es : List ε) :
    outputsOf step out flow k s es = outputs step out s (ofFlow flow k es) := by
  rw [← outputsOf_ofFlow, h.outputsOf_eq hs, h.outputsOf_eq hs, ofFlow_ofFlow]

end Separates

end Machine
