/-
  Loops over a counter of eight bits.

  `forLoop cond body` is `for (; cond c; c++) body` with a bound on the number of rounds. Where the
  condition is `c < bound`, the loop ends for `bound ≤ 255` and has then counted up to there
  (`forLoop_ends`); a greater bound is never reached, since the counter wraps around
  (`forLoop_never`). `Ends` carries the first through loops that follow each other. `findLoop` is a
  loop up to and with its bound that returns what it is looking for.
-/
import Mathlib.Algebra.Order.Group.Int
import ShoweqDaemon.Lib.Audit

namespace CounterLoop

open Audit

variable {ε σ α β : Type}

/-- From counter `c` on; nothing when `fuel` runs out. -/
def forLoop (cond : UInt8 → Bool) (body : UInt8 → σ → Noted ε σ) :
    ℕ → UInt8 → σ → OptionT (Noted ε) (UInt8 × σ)
  | 0, _, _ => OptionT.mk (pure none)
  | fuel + 1, c, s =>
      if cond c then do
        let s ← OptionT.lift (body c s)
        forLoop cond body fuel (c + 1) s
      else pure (c, s)

/-! ## Runs that end -/

/-- The run does only what is allowed, what it returns has `P`, and `enough` fuel is enough. -/
structure Ends (ok : ε → Prop) (enough : ℕ) (run : ℕ → OptionT (Noted ε) α) (P : α → Prop) :
    Prop where
  allowed : ∀ fuel, (run fuel).run.Allowed ok
  holds : ∀ fuel a, (run fuel).run.val = some a → P a
  ends : ∀ fuel, enough ≤ fuel → (run fuel).run.val.isSome

variable {ok : ε → Prop} {enough : ℕ} {P : α → Prop} {Q : β → Prop}

theorem run_bind (x : OptionT (Noted ε) α) (f : α → OptionT (Noted ε) β) :
    (x >>= f).run = x.run >>= fun o => o.elim (pure none) fun a => (f a).run := by
  have hf : (fun o : Option α => o.elim (pure none) fun a => (f a).run) = fun o =>
      match o with
      | some a => (f a).run
      | none => pure none := by
    funext o
    cases o <;> rfl
  rw [hf]
  rfl

theorem val_bind (x : OptionT (Noted ε) α) (f : α → OptionT (Noted ε) β) :
    (x >>= f).run.val = x.run.val.bind fun a => (f a).run.val := by
  rw [run_bind, Noted.val_bind]
  cases x.run.val <;> rfl

theorem allowed_bind (x : OptionT (Noted ε) α) (f : α → OptionT (Noted ε) β) :
    (x >>= f).run.Allowed ok ↔
      x.run.Allowed ok ∧ ∀ a, x.run.val = some a → (f a).run.Allowed ok := by
  rw [run_bind, Noted.allowed_bind]
  cases x.run.val with
  | none => simp
  | some a => simp

/-- A run that comes to its end by what is allowed: so does its first part, and then the rest. -/
theorem split_bind {x : OptionT (Noted ε) α} {f : α → OptionT (Noted ε) β}
    (h : (x >>= f).run.val.isSome ∧ (x >>= f).run.Allowed ok) :
    x.run.Allowed ok ∧ ∃ a, (f a).run.val.isSome ∧ (f a).run.Allowed ok := by
  obtain ⟨hsome, hallowed⟩ := h
  rw [val_bind] at hsome
  obtain ⟨hx, hf⟩ := (allowed_bind x f).mp hallowed
  cases hval : x.run.val with
  | none =>
      rw [hval] at hsome
      cases hsome
  | some a =>
      rw [hval] at hsome
      exact ⟨hx, a, hsome, hf a hval⟩

theorem val_lift (x : Noted ε α) :
    (OptionT.lift x : OptionT (Noted ε) α).run.val = some x.val := rfl

theorem allowed_lift (x : Noted ε α) :
    (OptionT.lift x : OptionT (Noted ε) α).run.Allowed ok ↔ x.Allowed ok := by
  have hlift : (OptionT.lift x : OptionT (Noted ε) α).run = x >>= fun a => pure (some a) := rfl
  rw [hlift, Noted.allowed_bind]
  exact and_iff_left (Noted.allowed_pure ok _)

theorem Ends.bind {run : ℕ → OptionT (Noted ε) α} {f : α → ℕ → OptionT (Noted ε) β}
    (h : Ends ok enough run P) (hf : ∀ a, P a → Ends ok enough (f a) Q) :
    Ends ok enough (fun fuel => run fuel >>= fun a => f a fuel) Q := by
  refine ⟨fun fuel => ?_, fun fuel b hb => ?_, fun fuel hfuel => ?_⟩
  · refine (allowed_bind _ _).mpr ⟨h.allowed fuel, fun a ha => ?_⟩
    exact (hf a (h.holds fuel a ha)).allowed fuel
  · rw [val_bind] at hb
    obtain ⟨a, ha, hfa⟩ := Option.bind_eq_some_iff.mp hb
    exact (hf a (h.holds fuel a ha)).holds fuel b hfa
  · obtain ⟨a, ha⟩ := Option.isSome_iff_exists.mp (h.ends fuel hfuel)
    rw [val_bind, ha]
    exact (hf a (h.holds fuel a ha)).ends fuel hfuel

theorem Ends.mono {P' : α → Prop} {run : ℕ → OptionT (Noted ε) α} (h : Ends ok enough run P)
    (hP : ∀ a, P a → P' a) : Ends ok enough run P' :=
  ⟨h.allowed, fun fuel a ha => hP a (h.holds fuel a ha), h.ends⟩

theorem Ends.lift {x : Noted ε α} (h : x.Allowed ok) (hx : P x.val) :
    Ends ok enough (fun _ => OptionT.lift x) P := by
  refine ⟨fun _ => (allowed_lift x).mpr h, fun _ a ha => ?_, fun _ _ => rfl⟩
  rw [← Option.some.inj ((val_lift x).symm.trans ha)]
  exact hx

theorem Ends.total {run : ℕ → OptionT (Noted Element) α} {P : α → Prop}
    (h : Ends Element.Inside enough run P) : Total fun fuel => (run fuel).run :=
  ⟨⟨enough, h.ends enough le_rfl⟩, h.allowed⟩

/-! ## Runs that do not end -/

theorem never_of_first {x : OptionT (Noted ε) α} (f : α → OptionT (Noted ε) β)
    (h : x.run.val = none) : (x >>= f).run.val = none := by
  rw [val_bind, h]
  rfl

theorem never_of_next (x : OptionT (Noted ε) α) {f : α → OptionT (Noted ε) β}
    (h : ∀ a, (f a).run.val = none) : (x >>= f).run.val = none := by
  rw [val_bind]
  cases x.run.val with
  | none => rfl
  | some a => exact h a

/-! ## The loop -/

theorem toNat_succ (c : UInt8) (h : c.toNat < 255) : (c + 1).toNat = c.toNat + 1 := by
  rw [UInt8.toNat_add]
  exact Nat.mod_eq_of_lt (by show c.toNat + 1 < 256; omega)

variable {cond : UInt8 → Bool} {bound : ℤ} (body : UInt8 → σ → Noted ε σ)

/-- A counter that reaches its bound: it counts up to there. -/
theorem forLoop_ends (hcond : ∀ c, cond c = decide ((c.toNat : ℤ) < bound)) (hbound : bound ≤ 255)
    (hbody : ∀ (c : UInt8) s, (c.toNat : ℤ) < bound → (body c s).Allowed ok) (c : UInt8) (s : σ) :
    Ends ok 256 (fun fuel => forLoop cond body fuel c s)
      fun r => (r.1.toNat : ℤ) = max (c.toNat : ℤ) bound := by
  refine ⟨fun fuel => ?_, fun fuel r hr => ?_, fun fuel hfuel => ?_⟩
  · induction fuel generalizing c s with
    | zero => exact Noted.allowed_pure ok _
    | succ fuel ih =>
        unfold forLoop
        by_cases hc : cond c = true
        · rw [if_pos hc, allowed_bind, allowed_lift]
          exact ⟨hbody c s (of_decide_eq_true ((hcond c).symm.trans hc)), fun a _ => ih (c + 1) a⟩
        · rw [if_neg hc]
          exact Noted.allowed_pure ok _
  · induction fuel generalizing c s with
    | zero => cases hr
    | succ fuel ih =>
        unfold forLoop at hr
        by_cases hc : cond c = true
        · rw [if_pos hc, val_bind, val_lift] at hr
          have hlt : (c.toNat : ℤ) < bound := of_decide_eq_true ((hcond c).symm.trans hc)
          have hsucc := toNat_succ c (by omega)
          have hrec := ih (c + 1) _ hr
          omega
        · rw [if_neg hc] at hr
          have hge : ¬ (c.toNat : ℤ) < bound := fun h => hc ((hcond c).trans (decide_eq_true h))
          have hr' : r = (c, s) := (Option.some.inj hr).symm
          rw [hr']
          exact (max_eq_left (le_of_not_gt hge)).symm
  · have hlt := c.toNat_lt
    have henough : 255 - c.toNat < fuel := by omega
    clear hfuel
    induction fuel generalizing c s with
    | zero => omega
    | succ fuel ih =>
        unfold forLoop
        by_cases hc : cond c = true
        · rw [if_pos hc, val_bind, val_lift]
          have hlt' : (c.toNat : ℤ) < bound := of_decide_eq_true ((hcond c).symm.trans hc)
          have hsucc := toNat_succ c (by omega)
          exact ih (c + 1) _ (c + 1).toNat_lt (by omega)
        · rw [if_neg hc]
          rfl

/-- A bound that no counter reaches: the loop goes round and round. -/
theorem forLoop_never (hcond : ∀ c, cond c = decide ((c.toNat : ℤ) < bound)) (hbound : 256 ≤ bound)
    (fuel : ℕ) (c : UInt8) (s : σ) : (forLoop cond body fuel c s).run.val = none := by
  induction fuel generalizing c s with
  | zero => rfl
  | succ fuel ih =>
      have hlt := c.toNat_lt
      have htrue : cond c = true := by
        rw [hcond, decide_eq_true_iff]
        omega
      unfold forLoop
      rw [if_pos htrue, val_bind, val_lift]
      exact ih (c + 1) _

/-! ## Loops that search -/

/-- `for (; c <= bound; c++) if (found(c)) return c;`. Nothing when `fuel` runs out, and nothing
    inside when the loop ends without a find. -/
def findLoop (bound : UInt8) (found : UInt8 → Bool) : ℕ → UInt8 → Option (Option UInt8)
  | 0, _ => none
  | fuel + 1, c =>
      if c ≤ bound then
        if found c then some (some c) else findLoop bound found fuel (c + 1)
      else some none

/-- The first one up to the bound. -/
structure IsFirst (bound : UInt8) (found : UInt8 → Bool) (r : UInt8) : Prop where
  within : r ≤ bound
  hit : found r = true
  first : ∀ d, d < r → found d = false

variable {last : UInt8} {found : UInt8 → Bool}

/-- The counter can pass its bound: the loop ends. -/
theorem findLoop_from (fuel : ℕ) (hlast : last.toNat < 255) {c : UInt8}
    (hc : c.toNat ≤ last.toNat + 1) (hfuel : last.toNat + 1 < fuel + c.toNat)
    (hbefore : ∀ d, d < c → found d = false) :
    (findLoop last found fuel c = some none ∧ ∀ d, d ≤ last → found d = false) ∨
      ∃ r, findLoop last found fuel c = some (some r) ∧ IsFirst last found r := by
  induction fuel generalizing c with
  | zero => omega
  | succ fuel ih =>
      unfold findLoop
      by_cases hle : c ≤ last
      · rw [if_pos hle]
        have hnat : c.toNat ≤ last.toNat := UInt8.le_iff_toNat_le.mp hle
        by_cases hfound : found c = true
        · rw [if_pos hfound]
          exact Or.inr ⟨c, rfl, hle, hfound, hbefore⟩
        · rw [if_neg hfound]
          have hsucc := toNat_succ c (by omega)
          refine ih (by omega) (by omega) fun d hd => ?_
          have hd' : d.toNat < (c + 1).toNat := UInt8.lt_iff_toNat_lt.mp hd
          by_cases hdc : d = c
          · rw [hdc]
            exact Bool.eq_false_iff.mpr hfound
          · have hne : d.toNat ≠ c.toNat := mt UInt8.toNat_inj.mp hdc
            exact hbefore d (UInt8.lt_iff_toNat_lt.mpr (by omega))
      · rw [if_neg hle]
        refine Or.inl ⟨rfl, fun d hd => hbefore d ?_⟩
        have hgt : ¬ c.toNat ≤ last.toNat := mt UInt8.le_iff_toNat_le.mpr hle
        have hd' := UInt8.le_iff_toNat_le.mp hd
        exact UInt8.lt_iff_toNat_lt.mpr (by omega)

theorem findLoop_add {fuel : ℕ} {c : UInt8} {r : Option UInt8}
    (h : findLoop last found fuel c = some r) (more : ℕ) :
    findLoop last found (fuel + more) c = some r := by
  induction fuel generalizing c with
  | zero => cases h
  | succ fuel ih =>
      rw [Nat.succ_add]
      unfold findLoop at h ⊢
      by_cases hle : c ≤ last
      · rw [if_pos hle] at h ⊢
        by_cases hfound : found c = true
        · rw [if_pos hfound] at h ⊢
          exact h
        · rw [if_neg hfound] at h ⊢
          exact ih h
      · rw [if_neg hle] at h ⊢
        exact h

/-- From 0 on, with fuel for all counters. -/
theorem findLoop_ends (found : UInt8 → Bool) (hlast : last.toNat < 255) :
    ∃ r, (∀ fuel, 256 ≤ fuel → findLoop last found fuel 0 = some r) ∧
      (r = none ∧ (∀ d, d ≤ last → found d = false) ∨ ∃ c, r = some c ∧ IsFirst last found c) := by
  have hzero : (0 : UInt8).toNat = 0 := rfl
  have henough : ∀ r, findLoop last found 256 0 = some r →
      ∀ fuel, 256 ≤ fuel → findLoop last found fuel 0 = some r := by
    intro r hr fuel hfuel
    obtain ⟨more, rfl⟩ := Nat.exists_eq_add_of_le hfuel
    exact findLoop_add hr more
  have hbefore : ∀ d, d < 0 → found d = false := by
    intro d hd
    have hd' := UInt8.lt_iff_toNat_lt.mp hd
    omega
  obtain ⟨hr, hnone⟩ | ⟨c, hr, hfirst⟩ :=
    findLoop_from 256 hlast (by omega) (by omega) hbefore
  · exact ⟨none, henough none hr, Or.inl ⟨rfl, hnone⟩⟩
  · exact ⟨some c, henough (some c) hr, Or.inr ⟨c, rfl, hfirst⟩⟩

/-- A bound of 255 is never passed: without a find the loop goes round and round. -/
theorem findLoop_never (hlast : last.toNat = 255) (hfound : ∀ d, found d = false) (fuel : ℕ)
    (c : UInt8) : findLoop last found fuel c = none := by
  induction fuel generalizing c with
  | zero => rfl
  | succ fuel ih =>
      have hle : c ≤ last := by
        have hlt := c.toNat_lt
        exact UInt8.le_iff_toNat_le.mpr (by omega)
      unfold findLoop
      rw [if_pos hle, hfound c, if_neg Bool.false_ne_true]
      exact ih (c + 1)

end CounterLoop
