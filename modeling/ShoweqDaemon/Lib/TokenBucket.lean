/-
  A token bucket over an ordered field.

  The bucket gains `rate` tokens for each unit of time up to `cap`, and each request takes one
  token or is refused. `served` lists the requests that are not refused.

  * `served_within`: in any interval a bucket serves at most its cap and what it gains there.
  * `served_eq_self`: a full bucket refuses nothing of a traffic within that bound.
-/
import Mathlib.Algebra.Order.Field.Basic
import Mathlib.Data.Nat.Cast.Order.Field
import Mathlib.Data.List.Basic
import Mathlib.Tactic.Linarith
import Mathlib.Tactic.Ring

namespace TokenBucket

universe u

/-! ## Counting -/

section

variable {K : Type u} [LinearOrder K]

/-- The number of requests up to time `t`. -/
def upTo (as : List K) (t : K) : ℕ := as.countP fun a => a ≤ t

/-- The number of requests in the interval from `s` to `t`. -/
def within (as : List K) (s t : K) : ℕ := as.countP fun a => s ≤ a ∧ a ≤ t

theorem upTo_cons_of_le {a t : K} (as : List K) (h : a ≤ t) : upTo (a :: as) t = upTo as t + 1 :=
  List.countP_cons_of_pos (by simpa using h)

theorem upTo_eq_zero {as : List K} {t : K} (h : ∀ a ∈ as, t < a) : upTo as t = 0 := by
  refine List.countP_eq_zero.mpr fun a ha => ?_
  simpa using h a ha

theorem within_eq_upTo {as : List K} {s : K} (h : ∀ a ∈ as, s ≤ a) (t : K) :
    within as s t = upTo as t := by
  refine List.countP_congr fun a ha => ?_
  simp [h a ha]

theorem within_cons_of_lt {a s : K} (as : List K) (t : K) (h : a < s) :
    within (a :: as) s t = within as s t :=
  List.countP_cons_of_neg (by simp [not_le.mpr h])

theorem within_le_cons (a : K) (as : List K) (s t : K) : within as s t ≤ within (a :: as) s t :=
  List.Sublist.countP_le (List.sublist_cons_self a as)

end

variable {K : Type u} [Field K] [LinearOrder K] (rate cap : K)

/-- In each interval the traffic has at most the cap and what a bucket gains there. -/
def Conforms (as : List K) : Prop := ∀ s t, s ≤ t → (within as s t : K) ≤ cap + rate * (t - s)

/-- The tokens that were left by the last request. -/
structure Bucket (K : Type u) where
  tokens : K
  last : K

/-- The tokens that a request at time `now` finds. -/
def Bucket.level (b : Bucket K) (now : K) : K := min cap (b.tokens + rate * (now - b.last))

/-- The bucket after a request at time `now`. -/
def Bucket.offer (b : Bucket K) (now : K) : Bucket K where
  tokens := if 1 ≤ b.level rate cap now then b.level rate cap now - 1 else b.level rate cap now
  last := now

/-- The requests that the bucket serves, in order. -/
def served (b : Bucket K) : List K → List K
  | [] => []
  | a :: as =>
      if 1 ≤ b.level rate cap a then a :: served (b.offer rate cap a) as
      else served (b.offer rate cap a) as

theorem served_sublist (b : Bucket K) (as : List K) : (served rate cap b as).Sublist as := by
  induction as generalizing b with
  | nil => exact List.Sublist.refl []
  | cons a as ih =>
      unfold served
      split
      · exact (ih _).cons_cons a
      · exact (ih _).cons a

theorem served_forall {p : K → Prop} {b : Bucket K} {as : List K} (h : ∀ a ∈ as, p a) :
    ∀ a ∈ served rate cap b as, p a :=
  fun a ha => h a ((served_sublist rate cap b as).subset ha)

/-! ## Traffic within the bound -/

variable {rate cap}

theorem Bucket.offer_tokens {b : Bucket K} {now : K} (h : 1 ≤ b.level rate cap now) :
    (b.offer rate cap now).tokens = b.level rate cap now - 1 := if_pos h

/-- Since a time `s` at which it was full the bucket has served `n` requests, and the traffic to
    come leaves tokens for all of its requests. -/
def Backed (rate cap : K) (b : Bucket K) (as : List K) : Prop :=
  ∃ (s : K) (n : ℕ), cap + rate * (b.last - s) - n ≤ b.tokens ∧
    ∀ t, b.last ≤ t → (n : K) + upTo as t ≤ cap + rate * (t - s)

theorem backed_full {as : List K} {b : Bucket K} (hfull : b.tokens = cap)
    (hlast : ∀ a ∈ as, b.last ≤ a) (h : Conforms rate cap as) : Backed rate cap b as := by
  refine ⟨b.last, 0, ?_, fun t ht => ?_⟩
  · simp [hfull]
  · have hbound := h b.last t ht
    rw [within_eq_upTo hlast] at hbound
    simpa using hbound

variable [IsStrictOrderedRing K]

theorem Conforms.tail {a : K} {as : List K} (h : Conforms rate cap (a :: as)) :
    Conforms rate cap as := by
  intro s t hst
  have hle : (within as s t : K) ≤ within (a :: as) s t := Nat.cast_le.mpr (within_le_cons a as s t)
  exact le_trans hle (h s t hst)

/-! ## The tokens -/

namespace Bucket

theorem level_nonneg (hrate : 0 ≤ rate) (hcap : 0 ≤ cap) {b : Bucket K} {now : K}
    (hb : 0 ≤ b.tokens) (hnow : b.last ≤ now) : 0 ≤ b.level rate cap now := by
  have hgain : 0 ≤ rate * (now - b.last) := mul_nonneg hrate (sub_nonneg.mpr hnow)
  exact le_min hcap (add_nonneg hb hgain)

theorem offer_nonneg (hrate : 0 ≤ rate) (hcap : 0 ≤ cap) {b : Bucket K} {now : K}
    (hb : 0 ≤ b.tokens) (hnow : b.last ≤ now) : 0 ≤ (b.offer rate cap now).tokens := by
  have hlevel := level_nonneg hrate hcap hb hnow
  unfold offer
  dsimp only
  split <;> linarith

theorem offer_le_cap (b : Bucket K) (now : K) : (b.offer rate cap now).tokens ≤ cap := by
  have hlevel : b.level rate cap now ≤ cap := min_le_left _ _
  unfold offer
  dsimp only
  split <;> linarith

end Bucket

/-! ## What is served -/

/-- Up to time `t` the bucket serves at most the tokens it has and gains. -/
theorem served_upTo (hrate : 0 ≤ rate) (hcap : 0 ≤ cap) {as : List K} {b : Bucket K}
    (hb : 0 ≤ b.tokens) (hlast : ∀ a ∈ as, b.last ≤ a) (hmono : as.Pairwise (· ≤ ·)) {t : K}
    (ht : b.last ≤ t) :
    (upTo (served rate cap b as) t : K) ≤ b.tokens + rate * (t - b.last) := by
  induction as generalizing b with
  | nil =>
      have hgain : 0 ≤ rate * (t - b.last) := mul_nonneg hrate (sub_nonneg.mpr ht)
      simpa [served, upTo] using add_nonneg hb hgain
  | cons a as ih =>
      obtain ⟨hfirst, hrest⟩ := List.pairwise_cons.mp hmono
      have hnow : b.last ≤ a := hlast a List.mem_cons_self
      by_cases hat : a ≤ t
      · have hgain : b.level rate cap a ≤ b.tokens + rate * (a - b.last) := min_le_right _ _
        have hnext : 0 ≤ (b.offer rate cap a).tokens := Bucket.offer_nonneg hrate hcap hb hnow
        have ih' : (upTo (served rate cap (b.offer rate cap a) as) t : K) ≤
            (b.offer rate cap a).tokens + rate * (t - a) := ih hnext hfirst hrest hat
        have hsplit : rate * (t - b.last) = rate * (a - b.last) + rate * (t - a) := by ring
        by_cases htake : 1 ≤ b.level rate cap a
        · have htokens := Bucket.offer_tokens htake
          rw [served, if_pos htake, upTo_cons_of_le _ hat, Nat.cast_add, Nat.cast_one]
          linarith
        · have htokens : (b.offer rate cap a).tokens = b.level rate cap a := if_neg htake
          rw [served, if_neg htake]
          linarith
      · -- The requests come in order, so none of them is up to `t`.
        have hlate : ∀ x ∈ a :: as, t < x := List.forall_mem_cons.mpr
          ⟨not_le.mp hat, fun x hx => lt_of_lt_of_le (not_le.mp hat) (hfirst x hx)⟩
        have hgain : 0 ≤ rate * (t - b.last) := mul_nonneg hrate (sub_nonneg.mpr ht)
        rw [upTo_eq_zero (served_forall rate cap hlate), Nat.cast_zero]
        exact add_nonneg hb hgain

/-- In an interval a bucket serves at most its cap and what it gains there: at the first request
    of the interval there are at most `cap` tokens. -/
theorem served_within (hrate : 0 ≤ rate) (hcap : 0 ≤ cap) {as : List K} {b : Bucket K}
    (hb : 0 ≤ b.tokens) (hlast : ∀ a ∈ as, b.last ≤ a) (hmono : as.Pairwise (· ≤ ·)) :
    Conforms rate cap (served rate cap b as) := by
  intro s t hst
  have hgain : 0 ≤ rate * (t - s) := mul_nonneg hrate (sub_nonneg.mpr hst)
  induction as generalizing b with
  | nil => simpa [served, within] using add_nonneg hcap hgain
  | cons a as ih =>
      obtain ⟨hfirst, hrest⟩ := List.pairwise_cons.mp hmono
      have hnow : b.last ≤ a := hlast a List.mem_cons_self
      by_cases hsa : s ≤ a
      · -- The bucket as it would be, were it full at the time `s`.
        have hfull : b.level rate cap a ≤ cap := min_le_left _ _
        have hlevel : 0 ≤ b.level rate cap a := Bucket.level_nonneg hrate hcap hb hnow
        have hall : ∀ x ∈ a :: as, s ≤ x := List.forall_mem_cons.mpr
          ⟨hsa, fun x hx => le_trans hsa (hfirst x hx)⟩
        rw [within_eq_upTo (served_forall rate cap hall)]
        by_cases hat : a ≤ t
        · have hupTo : (upTo (served rate cap b (a :: as)) t : K) ≤
              b.level rate cap a + rate * (t - a) := by
            have hsame : Bucket.level rate cap ⟨b.level rate cap a, a⟩ a = b.level rate cap a := by
              simp [Bucket.level]
            have hserved : served rate cap ⟨b.level rate cap a, a⟩ (a :: as) =
                served rate cap b (a :: as) := by
              simp only [served, Bucket.offer, hsame]
            rw [← hserved]
            exact served_upTo hrate hcap hlevel
              (List.forall_mem_cons.mpr ⟨le_refl a, hfirst⟩) hmono hat
          have hlonger : rate * (t - a) ≤ rate * (t - s) :=
            mul_le_mul_of_nonneg_left (by linarith) hrate
          linarith
        · have hlate : ∀ x ∈ a :: as, t < x := List.forall_mem_cons.mpr
            ⟨not_le.mp hat, fun x hx => lt_of_lt_of_le (not_le.mp hat) (hfirst x hx)⟩
          rw [upTo_eq_zero (served_forall rate cap hlate), Nat.cast_zero]
          exact add_nonneg hcap hgain
      · have hnext : 0 ≤ (b.offer rate cap a).tokens := Bucket.offer_nonneg hrate hcap hb hnow
        have ih' := ih hnext hfirst hrest
        unfold served
        split
        · rw [within_cons_of_lt _ _ (not_le.mp hsa)]
          exact ih'
        · exact ih'

/-- The request finds a token, and what follows is still backed: since the same time, or since now
    if the bucket is full again. -/
theorem Backed.serves {a : K} {as : List K} {b : Bucket K} (h : Backed rate cap b (a :: as))
    (hconforms : Conforms rate cap (a :: as)) (hnow : b.last ≤ a) (hfirst : ∀ x ∈ as, a ≤ x) :
    1 ≤ b.level rate cap a ∧ Backed rate cap (b.offer rate cap a) as := by
  obtain ⟨s, n, htokens, hrest⟩ := h
  have hall : ∀ x ∈ a :: as, a ≤ x := List.forall_mem_cons.mpr ⟨le_refl a, hfirst⟩
  have hcons : ∀ t, a ≤ t → (upTo (a :: as) t : K) = upTo as t + 1 := by
    intro t hat
    rw [upTo_cons_of_le as hat, Nat.cast_add, Nat.cast_one]
  have hnonneg : (0 : K) ≤ upTo as a := Nat.cast_nonneg _
  have hgain : cap + rate * (a - s) - n ≤ b.tokens + rate * (a - b.last) := by
    have hsplit : rate * (a - s) = rate * (b.last - s) + rate * (a - b.last) := by ring
    linarith
  by_cases hclamp : cap ≤ b.tokens + rate * (a - b.last)
  · have hlevel : b.level rate cap a = cap := min_eq_left hclamp
    have htake : 1 ≤ b.level rate cap a := by
      have hbound := hconforms a a le_rfl
      rw [within_eq_upTo hall, hcons a le_rfl, sub_self, mul_zero, add_zero] at hbound
      linarith
    refine ⟨htake, a, 1, ?_, fun t hat => ?_⟩
    · have hnow' : (b.offer rate cap a).last = a := rfl
      rw [Bucket.offer_tokens htake, hnow', hlevel, Nat.cast_one]
      linarith
    · have hbound := hconforms a t hat
      rw [within_eq_upTo hall, hcons t hat] at hbound
      rw [Nat.cast_one]
      linarith
  · have hlevel : b.level rate cap a = b.tokens + rate * (a - b.last) :=
      min_eq_right (le_of_not_ge hclamp)
    have htake : 1 ≤ b.level rate cap a := by
      have hbound := hrest a hnow
      rw [hcons a le_rfl] at hbound
      linarith
    refine ⟨htake, s, n + 1, ?_, fun t hat => ?_⟩
    · have hnow' : (b.offer rate cap a).last = a := rfl
      rw [Bucket.offer_tokens htake, hnow', Nat.cast_add, Nat.cast_one]
      linarith
    · have hbound := hrest t (le_trans hnow hat)
      rw [hcons t hat] at hbound
      rw [Nat.cast_add, Nat.cast_one]
      linarith

theorem Backed.served_eq {as : List K} {b : Bucket K} (h : Backed rate cap b as)
    (hconforms : Conforms rate cap as) (hlast : ∀ a ∈ as, b.last ≤ a)
    (hmono : as.Pairwise (· ≤ ·)) : served rate cap b as = as := by
  induction as generalizing b with
  | nil => rfl
  | cons a as ih =>
      obtain ⟨hfirst, hrest⟩ := List.pairwise_cons.mp hmono
      obtain ⟨htake, hbacked⟩ := h.serves hconforms (hlast a List.mem_cons_self) hfirst
      rw [served, if_pos htake, ih hbacked hconforms.tail hfirst hrest]

/-- A full bucket serves a traffic within its bound wholly. -/
theorem served_eq_self {as : List K} {b : Bucket K} (hfull : b.tokens = cap)
    (hlast : ∀ a ∈ as, b.last ≤ a) (hmono : as.Pairwise (· ≤ ·)) (h : Conforms rate cap as) :
    served rate cap b as = as :=
  (backed_full hfull hlast h).served_eq h hlast hmono

end TokenBucket
