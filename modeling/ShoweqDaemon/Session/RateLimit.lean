/-
  The rate limit in front of a client's messages.

  `SessionAdapter::handleClientBinary` keeps a leaky bucket of at most 60 tokens that gains 30 each
  second. The first message fills it. The tokens are exact rationals here, the clock is in
  milliseconds. `rateLimit_runs` bounds the tokens and what is let through, and says that a client
  within the bound is never cut off.

  The bucket is `TokenBucket` with these two numbers, for times above 0: a time of 0 is what the
  source takes as a sign that no message has come yet.

  Proved:
  * `handleClientBinary_last`, `Finds.handle`: a step is an offer to the bucket at that time.
  * `trace_bounded`: the tokens stay between 0 and 60.
  * `accepted_eq`: what is let through is what the bucket serves.
  * `rateLimit_runs`: for all times in order, over every interval, of rational length as well.
-/
import Mathlib.Algebra.Order.Field.Rat
import Mathlib.Tactic.NormNum
import ShoweqDaemon.Lib.Run
import ShoweqDaemon.Lib.TokenBucket

namespace ShoweqDaemon.Session

/-- The requests that a client may send in a second in the long run. -/
def kTokensPerSec : ℚ := 30

/-- The requests that it may send at once. -/
def kBucketCap : ℚ := 60

/-- The members of `SessionAdapter` that the limit reads and writes. -/
structure RateLimit where
  m_bucketLastMs : ℤ := 0
  m_bucketTokens : ℚ := 0
  m_rateLimitWarned : Bool := false

namespace RateLimit

/-- The bucket when a message comes at time `now`, before its token is taken. -/
def refill (s : RateLimit) (now : ℤ) : RateLimit :=
  if s.m_bucketLastMs = 0 then { s with m_bucketLastMs := now, m_bucketTokens := kBucketCap }
  else
    let tokens := s.m_bucketTokens + (now - s.m_bucketLastMs) * kTokensPerSec / 1000
    { s with
      m_bucketTokens := if tokens > kBucketCap then kBucketCap else tokens
      m_bucketLastMs := now }

/-- The message at time `now` is parsed and handled. -/
def Accepts (s : RateLimit) (now : ℤ) : Prop := ¬ (s.refill now).m_bucketTokens < 1

instance (s : RateLimit) (now : ℤ) : Decidable (s.Accepts now) := inferInstanceAs (Decidable (¬ _))

/-- `handleClientBinary`, as far as the limit goes. A dropped message ends here. -/
def handleClientBinary (s : RateLimit) (now : ℤ) : RateLimit :=
  if s.Accepts now then
    { s.refill now with
      m_bucketTokens := (s.refill now).m_bucketTokens - 1
      m_rateLimitWarned := false }
  else { s.refill now with m_rateLimitWarned := true }

/-- The times of the messages that get past the limit, in order. -/
def accepted (s : RateLimit) : List ℤ → List ℤ
  | [] => []
  | now :: times =>
      if s.Accepts now then now :: (s.handleClientBinary now).accepted times
      else (s.handleClientBinary now).accepted times

/-- In every interval there are at most 60 messages and 30 more for each second of it. -/
def WithinRate (times : List ℤ) : Prop :=
  ∀ s t : ℚ, s ≤ t →
    (times.countP fun now : ℤ => s ≤ now ∧ (now : ℚ) ≤ t : ℚ) ≤ 60 + 30 * (t - s) / 1000

/-! ## The limit is a token bucket -/

open TokenBucket (Bucket Conforms served)

/-- Tokens gained each millisecond. -/
def perMs : ℚ := kTokensPerSec / 1000

/-- The bucket of a session that has had a message. -/
def bucket (s : RateLimit) : Bucket ℚ where
  tokens := s.m_bucketTokens
  last := s.m_bucketLastMs

/-- The bucket that the session's first message finds. -/
def full (now : ℤ) : Bucket ℚ where
  tokens := kBucketCap
  last := now

/-- What the next message finds: a bucket that was filled before, or one that it fills. -/
def Finds (s : RateLimit) (b : Bucket ℚ) (now : ℤ) : Prop :=
  (s.m_bucketLastMs ≠ 0 ∧ b = s.bucket) ∨ (s.m_bucketLastMs = 0 ∧ b = full now)

variable {s : RateLimit} {b : Bucket ℚ} {now : ℤ}

theorem Finds.refill (h : s.Finds b now) :
    (s.refill now).m_bucketTokens = b.level perMs kBucketCap now := by
  unfold RateLimit.refill Bucket.level
  obtain ⟨hlast, rfl⟩ | ⟨hlast, rfl⟩ := h
  · have hgain : (now - s.m_bucketLastMs) * kTokensPerSec / 1000 =
        perMs * (now - s.m_bucketLastMs) := by unfold perMs; ring
    rw [if_neg hlast, hgain]
    dsimp only [bucket]
    rw [min_def]
    split <;> split <;> first | rfl | linarith
  · simp [hlast, full]

theorem Finds.accepts_iff (h : s.Finds b now) :
    s.Accepts now ↔ 1 ≤ b.level perMs kBucketCap now := by
  unfold Accepts
  rw [h.refill, not_lt]

theorem refill_last (s : RateLimit) (now : ℤ) : (s.refill now).m_bucketLastMs = now := by
  unfold RateLimit.refill
  split <;> rfl

theorem handleClientBinary_last (s : RateLimit) (now : ℤ) :
    (s.handleClientBinary now).m_bucketLastMs = now := by
  unfold handleClientBinary
  split <;> exact refill_last s now

theorem Finds.handle (h : s.Finds b now) :
    (s.handleClientBinary now).bucket = b.offer perMs kBucketCap now := by
  have hlast : ((s.handleClientBinary now).m_bucketLastMs : ℚ) = now := by
    rw [handleClientBinary_last]
  have htokens : (s.handleClientBinary now).m_bucketTokens =
      (b.offer perMs kBucketCap now).tokens := by
    unfold handleClientBinary Bucket.offer
    simp only [h.accepts_iff]
    split
    · exact congrArg (· - 1) h.refill
    · exact h.refill
  unfold bucket Bucket.offer at *
  rw [hlast, htokens]

/-- After a message at a positive time the bucket stays filled. -/
theorem Finds.next (h : s.Finds b now) (hnow : 0 < now) (next : ℤ) :
    (s.handleClientBinary now).Finds (b.offer perMs kBucketCap now) next := by
  refine Or.inl ⟨?_, h.handle.symm⟩
  rw [handleClientBinary_last]
  omega

/-- The times as the bucket sees them. -/
def onBucket (times : List ℤ) : List ℚ := times.map fun now : ℤ => (now : ℚ)

theorem withinRate_iff (times : List ℤ) :
    WithinRate times ↔ Conforms perMs kBucketCap (onBucket times) := by
  refine forall_congr' fun i => forall_congr' fun t => imp_congr_right fun _ => ?_
  have hcount : TokenBucket.within (onBucket times) i t =
      times.countP fun now : ℤ => i ≤ now ∧ (now : ℚ) ≤ t := List.countP_map
  have hbound : kBucketCap + perMs * (t - i) = 60 + 30 * (t - i) / 1000 := by
    unfold kBucketCap perMs kTokensPerSec
    ring
  rw [hcount, hbound]

theorem Finds.accepted {times : List ℤ} (h : ∀ now ∈ times.head?, s.Finds b now)
    (hpos : ∀ now ∈ times, 0 < now) :
    onBucket (s.accepted times) = served perMs kBucketCap b (onBucket times) := by
  induction times generalizing s b with
  | nil => rfl
  | cons now times ih =>
      have hfinds : s.Finds b now := h now rfl
      have hnext := ih (fun next _ => hfinds.next (hpos now List.mem_cons_self) next)
        fun next hmem => hpos next (List.mem_cons_of_mem now hmem)
      show onBucket (RateLimit.accepted s (now :: times)) = served _ _ b ((now : ℚ) :: onBucket times)
      rw [RateLimit.accepted, served, ← hnext]
      simp only [← hfinds.accepts_iff]
      split <;> rfl

theorem onBucket_injective : Function.Injective onBucket :=
  List.map_injective_iff.mpr Int.cast_injective

/-! ## Runs -/

/-- There are no fewer tokens than none and no more than the cap. -/
def Bounded (s : RateLimit) : Prop := 0 ≤ s.m_bucketTokens ∧ s.m_bucketTokens ≤ 60

theorem handleClientBinary_bounded (h : s.Bounded) (hlast : s.m_bucketLastMs ≤ now) :
    (s.handleClientBinary now).Bounded := by
  have hrate : 0 ≤ perMs := by norm_num [perMs, kTokensPerSec]
  have hcap : 0 ≤ kBucketCap := by norm_num [kBucketCap]
  have hbucket : ∃ b, s.Finds b now ∧ 0 ≤ b.tokens ∧ b.last ≤ now := by
    by_cases hfirst : s.m_bucketLastMs = 0
    · exact ⟨full now, Or.inr ⟨hfirst, rfl⟩, hcap, le_rfl⟩
    · exact ⟨s.bucket, Or.inl ⟨hfirst, rfl⟩, h.1, Int.cast_le.mpr hlast⟩
  obtain ⟨b, hfinds, htokens, hb⟩ := hbucket
  have hafter : (s.handleClientBinary now).m_bucketTokens =
      (b.offer perMs kBucketCap now).tokens := congrArg Bucket.tokens hfinds.handle
  unfold Bounded
  rw [hafter]
  exact ⟨Bucket.offer_nonneg hrate hcap htokens hb, b.offer_le_cap now⟩

theorem trace_bounded {times : List ℤ} (h : s.Bounded)
    (hlast : ∀ now ∈ times, s.m_bucketLastMs ≤ now) (hmono : times.Pairwise (· ≤ ·)) :
    ∀ t ∈ Machine.trace handleClientBinary s times, t.Bounded := by
  induction times generalizing s with
  | nil =>
      intro t ht
      rwa [List.mem_singleton.mp ht]
  | cons now times ih =>
      obtain ⟨hfirst, hrest⟩ := List.pairwise_cons.mp hmono
      have hnext : (s.handleClientBinary now).Bounded :=
        handleClientBinary_bounded h (hlast now List.mem_cons_self)
      have hlater : ∀ later ∈ times, (s.handleClientBinary now).m_bucketLastMs ≤ later := by
        rw [handleClientBinary_last]
        exact hfirst
      intro t ht
      obtain rfl | ht := List.mem_cons.mp ht
      · exact h
      · exact ih hnext hlater hrest t ht

/-- A session's messages go through the bucket that its first message fills. -/
theorem accepted_eq {now : ℤ} {times : List ℤ} (hpos : ∀ t ∈ now :: times, 0 < t) :
    onBucket (RateLimit.accepted {} (now :: times)) =
      served perMs kBucketCap (full now) (onBucket (now :: times)) := by
  refine Finds.accepted (fun t ht => ?_) hpos
  obtain rfl := Option.some.inj ht
  exact Or.inr ⟨rfl, rfl⟩

/-- For messages at positive times in order the tokens stay between 0 and 60, in every interval at
    most 60 messages and 30 more for each second get through, and all do if no interval has more. -/
theorem rateLimit_runs (times : List ℤ) (hpos : ∀ now ∈ times, 0 < now)
    (hmono : times.Pairwise (· ≤ ·)) :
    (∀ s ∈ Machine.trace handleClientBinary {} times,
      0 ≤ s.m_bucketTokens ∧ s.m_bucketTokens ≤ 60) ∧
    WithinRate (RateLimit.accepted {} times) ∧
    (WithinRate times → RateLimit.accepted {} times = times) := by
  have hrate : 0 ≤ perMs := by norm_num [perMs, kTokensPerSec]
  have hcap : 0 ≤ kBucketCap := by norm_num [kBucketCap]
  have hstart : RateLimit.Bounded {} := ⟨le_rfl, by norm_num⟩
  refine ⟨trace_bounded hstart (fun now hnow => (hpos now hnow).le) hmono, ?_⟩
  cases times with
  | nil =>
      have hnone : Conforms perMs kBucketCap (served perMs kBucketCap (full 0) []) :=
        TokenBucket.served_within hrate hcap hcap (fun _ ha => nomatch ha) List.Pairwise.nil
      exact ⟨(withinRate_iff []).mpr hnone, fun _ => rfl⟩
  | cons now times =>
      have hfirst : ∀ a ∈ onBucket (now :: times), (full now).last ≤ a := by
        intro a ha
        obtain ⟨t, ht, rfl⟩ := List.mem_map.mp ha
        obtain rfl | ht := List.mem_cons.mp ht
        · exact le_rfl
        · exact Int.cast_le.mpr ((List.pairwise_cons.mp hmono).1 t ht)
      have hordered : (onBucket (now :: times)).Pairwise (· ≤ ·) :=
        hmono.map _ fun _ _ => Int.cast_le.mpr
      constructor
      · rw [withinRate_iff, accepted_eq hpos]
        exact TokenBucket.served_within hrate hcap hcap hfirst hordered
      · intro hwithin
        refine onBucket_injective ((accepted_eq hpos).trans ?_)
        exact TokenBucket.served_eq_self rfl hfirst hordered ((withinRate_iff _).mp hwithin)

/-- Two messages at once. -/
theorem rateLimit_runs_twice :
    (∀ s ∈ Machine.trace handleClientBinary {} [1000, 1000],
      0 ≤ s.m_bucketTokens ∧ s.m_bucketTokens ≤ 60) ∧
    WithinRate (RateLimit.accepted {} [1000, 1000]) ∧
    (WithinRate [1000, 1000] → RateLimit.accepted {} [1000, 1000] = [1000, 1000]) :=
  rateLimit_runs [1000, 1000] (by decide) (by decide)

end RateLimit

end ShoweqDaemon.Session
