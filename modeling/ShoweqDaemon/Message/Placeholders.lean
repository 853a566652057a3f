/-
  What `formatMessage` makes of the placeholders (%1) of a format string.

  Each should become the argument with its number, or nothing if there is none, all at once: this is
  `expand`. The loop goes on from the end of the last match, and where there was no argument this is
  too far, for the placeholder is gone by then: as many units behind it are passed over. Where the
  search would go on within a surrogate pair it ends, and all the rest is passed over. This is so
  behind an argument that begins with a character of two units, and where the units that are passed
  over end within one. `formatMessage_expand_iff` says when that does no harm.
-/
import ShoweqDaemon.Lib.Delimited
import ShoweqDaemon.Message.FormatMessage

namespace ShoweqDaemon.Messages

open Spawns (QString)
open Utf16 (encode decode beginsLow)
open Delimited

/-! ## What it should do -/

/-- The unit of `%`. -/
def percent : QChar := 0x25

/-- The text of the argument with that number, none if there is no such argument. -/
def argumentAt (args : List QString) (n : ℕ) : List QChar := encode ((args[n - 1]?).getD [])

/-- What comes for a placeholder at the beginning, and how many digits it has. The numbers begin
    with 1. -/
def placeholder (args : List QString) (s : List QChar) : Option (List QChar × ℕ) :=
  let digits := digitsAt argumentMarker s
  if capturedNumber digits = 0 then none
  else some (argumentAt args (capturedNumber digits), digits.length)

/-- All placeholders replaced by their arguments. -/
def expand (args : List QString) (s : List QChar) : List QChar :=
  replaceAll (placeholder args) 0 s

/-- Where the search goes on after the placeholder at `p`: behind the first unit of its argument,
    or, if it has none, behind as many units as it has itself. -/
def resumed (args : List QString) (s : List QChar) (p : ℕ) : List QChar :=
  let digits := digitsAt argumentMarker (s.drop p)
  let rest := s.drop (p + (digits.length + 1))
  if capturedNumber digits ≤ args.length then
    (argumentAt args (capturedNumber digits) ++ rest).drop 1
  else rest.drop (digits.length + 1)

/-- `q` is behind the placeholder at `p`, and either that has no argument and `q` is one of the
    units behind it, as many as it has itself, or the search ends there, within a character. -/
def PassedOver (args : List QString) (s : List QChar) (p q : ℕ) : Prop :=
  let digits := digitsAt argumentMarker (s.drop p)
  capturedNumber digits ≠ 0 ∧ p + (digits.length + 1) ≤ q ∧
    (args.length < capturedNumber digits ∧ q < p + 2 * (digits.length + 1) ∨
      beginsLow (resumed args s p) = true)

/-- The placeholders that are passed over are those with the number 0. -/
def Apart (args : List QString) (s : List QChar) : Prop :=
  ∀ q, digitsAt argumentMarker (s.drop q) ≠ [] →
    (capturedNumber (digitsAt argumentMarker (s.drop q)) = 0 ↔ ∃ p, PassedOver args s p q)

/-! ## Placeholders -/

theorem digitsAt_percent (s : List QChar) :
    digitsAt argumentMarker (percent :: s) = (s.takeWhile isDigit).take 3 := by
  have hhead : argumentMarker <+: percent :: s := List.prefix_append [percent] s
  rw [digitsAt, if_pos hhead]
  rfl

theorem percent_of_digitsAt {s : List QChar} (h : digitsAt argumentMarker s ≠ []) :
    ∃ t, s = percent :: t := by
  unfold digitsAt at h
  by_cases hhead : argumentMarker <+: s
  · obtain ⟨t, rfl⟩ := hhead
    exact ⟨t, rfl⟩
  · exact absurd (if_neg hhead) h

theorem digitsAt_ne_nil {s : List QChar} (h : capturedNumber (digitsAt argumentMarker s) ≠ 0) :
    digitsAt argumentMarker s ≠ [] := by
  intro hnil
  rw [hnil] at h
  exact h rfl

theorem digitsAt_nil (marker : List QChar) : digitsAt marker [] = [] := by
  unfold digitsAt
  rw [List.drop_nil]
  split_ifs <;> rfl

theorem findPlaceholder_none {marker s : List QChar} (h : findPlaceholder marker s = none) (q : ℕ) :
    digitsAt marker (s.drop q) = [] := by
  induction s generalizing q with
  | nil => rw [List.drop_nil, digitsAt_nil]
  | cons c cs ih =>
      rw [findPlaceholder] at h
      split_ifs at h with hhere
      cases q with
      | zero => exact not_not.mp hhere
      | succ q => exact ih (Option.map_eq_none_iff.mp h) q

/-- The first placeholder is where there is one and in front of which there is none. -/
theorem findPlaceholder_first {marker s ds : List QChar} {i : ℕ}
    (h : findPlaceholder marker s = some (i, ds)) :
    digitsAt marker (s.drop i) = ds ∧ ∀ q < i, digitsAt marker (s.drop q) = [] := by
  induction s generalizing i with
  | nil => cases h
  | cons c cs ih =>
      rw [findPlaceholder] at h
      split_ifs at h with hhere
      · obtain ⟨rfl, rfl⟩ := Prod.mk.inj (Option.some.inj h)
        exact ⟨rfl, fun q hq => absurd hq (Nat.not_lt_zero q)⟩
      · obtain ⟨⟨j, ds'⟩, hfound, heq⟩ := Option.map_eq_some_iff.mp h
        obtain ⟨rfl, rfl⟩ := Prod.mk.inj heq
        obtain ⟨hdigits, hbefore⟩ := ih hfound
        refine ⟨hdigits, fun q hq => ?_⟩
        cases q with
        | zero => exact not_not.mp hhere
        | succ q => exact hbefore q (Nat.lt_of_succ_lt_succ hq)

/-- The text behind the mark begins with the digits. -/
theorem take_digitsAt (t : List QChar) :
    t.take (digitsAt argumentMarker (percent :: t)).length = digitsAt argumentMarker (percent :: t) := by
  rw [digitsAt_percent]
  have hprefix : (t.takeWhile isDigit).take 3 <+: t :=
    (List.take_prefix 3 _).trans (List.takeWhile_prefix isDigit)
  exact (List.prefix_iff_eq_take.mp hprefix).symm

theorem percent_not_mem (s : List QChar) : percent ∉ digitsAt argumentMarker s := by
  intro h
  exact absurd (isDigit_of_mem_digitsAt h) (by decide)

/-- There is no placeholder within another one. -/
theorem digitsAt_within_digits {s ds : List QChar} {i q : ℕ}
    (h : findPlaceholder argumentMarker s = some (i, ds)) (hq : q < i + 1 + ds.length) (hne : q ≠ i) :
    digitsAt argumentMarker (s.drop q) = [] := by
  obtain ⟨hdigits, hbefore⟩ := findPlaceholder_first h
  by_cases hlt : q < i
  · exact hbefore q hlt
  · obtain ⟨j, rfl⟩ := Nat.exists_eq_add_of_lt (show i < q by omega)
    by_contra hsome
    have hds : digitsAt argumentMarker (s.drop i) ≠ [] := hdigits ▸ (findPlaceholder_spec h).1
    obtain ⟨t, ht⟩ := percent_of_digitsAt hds
    obtain ⟨u, hu⟩ := percent_of_digitsAt hsome
    have hbehind : t.drop j = percent :: u := by
      rw [← hu, show i + j + 1 = i + (j + 1) from rfl, ← List.drop_drop, ht, List.drop_succ_cons]
    have hget : t[j]? = some percent := by
      have hhead : (t.drop j)[0]? = some percent := by rw [hbehind]; rfl
      rwa [List.getElem?_drop, Nat.add_zero] at hhead
    have hmem : percent ∈ t.take ds.length := by
      refine List.mem_of_getElem? (i := j) ?_
      rw [List.getElem?_take_of_lt (by omega)]
      exact hget
    rw [ht] at hdigits
    rw [← hdigits, take_digitsAt] at hmem
    exact percent_not_mem _ hmem

/-- A text without the mark that is put in. -/
theorem percent_not_mem_encode {arg : QString} (h : '%' ∉ arg) : percent ∉ encode arg := by
  rw [Utf16.mem_encode_iff (by decide)]
  exact h

theorem percent_not_mem_argumentAt {args : List QString} (hargs : ∀ arg ∈ args, '%' ∉ arg)
    (n : ℕ) : percent ∉ argumentAt args n := by
  unfold argumentAt
  cases harg : args[n - 1]? with
  | none => exact List.not_mem_nil
  | some arg => exact percent_not_mem_encode (hargs arg (List.mem_of_getElem? harg))

theorem placeholder_marked {args : List QString} (hargs : ∀ arg ∈ args, '%' ∉ arg) :
    Marked percent (placeholder args) := by
  intro c s r n h
  unfold placeholder at h
  dsimp only at h
  split_ifs at h with hzero
  obtain ⟨rfl, rfl⟩ := Prod.mk.inj (Option.some.inj h)
  obtain ⟨t, ht⟩ := percent_of_digitsAt (digitsAt_ne_nil hzero)
  obtain ⟨rfl, rfl⟩ := List.cons.inj ht
  refine ⟨rfl, percent_not_mem_argumentAt hargs _, ?_⟩
  rw [take_digitsAt]
  exact percent_not_mem _

/-- Each placeholder takes one mark with it. -/
theorem count_behind_lt {s ds : List QChar} {i : ℕ}
    (h : findPlaceholder argumentMarker s = some (i, ds)) :
    (s.drop (i + 1 + ds.length)).count percent < s.count percent := by
  obtain ⟨hdigits, -⟩ := findPlaceholder_first h
  obtain ⟨t, ht⟩ := percent_of_digitsAt (hdigits ▸ (findPlaceholder_spec h).1)
  have hbehind : s.drop (i + 1 + ds.length) = t.drop ds.length := by
    rw [Nat.add_assoc, ← List.drop_drop, ht, Nat.add_comm 1, List.drop_succ_cons]
  have hhere : (s.drop i).count percent = t.count percent + 1 := by
    rw [ht, List.count_cons_self]
  have hle := (List.drop_sublist ds.length t).count_le percent
  have hle' := (List.drop_sublist i s).count_le percent
  rw [hbehind]
  omega

/-! ## The placeholders of a text and of its end -/

theorem resumed_add (args : List QString) (s : List QChar) (a p : ℕ) :
    resumed args s (a + p) = resumed args (s.drop a) p := by
  unfold resumed
  simp only [List.drop_drop, Nat.add_assoc]

theorem passedOver_add {args : List QString} {s : List QChar} {a p q : ℕ} :
    PassedOver args s (a + p) (a + q) ↔ PassedOver args (s.drop a) p q := by
  unfold PassedOver
  rw [resumed_add, List.drop_drop]
  dsimp only
  refine and_congr_right fun _ => and_congr (by omega) (or_congr_left (and_congr_right fun _ => ?_))
  omega

theorem not_passedOver_of_nil {args : List QString} {s : List QChar} {p : ℕ}
    (h : digitsAt argumentMarker (s.drop p) = []) (q : ℕ) : ¬ PassedOver args s p q := by
  unfold PassedOver
  rw [h]
  exact fun hover => hover.1 rfl

theorem apart_drop {args : List QString} {a : ℕ} {s : List QChar}
    (hlow : ∀ q < a, digitsAt argumentMarker (s.drop q) ≠ [] →
      (capturedNumber (digitsAt argumentMarker (s.drop q)) = 0 ↔ ∃ p, PassedOver args s p q))
    (hcross : ∀ p < a, ∀ q, a ≤ q → ¬ PassedOver args s p q) :
    Apart args s ↔ Apart args (s.drop a) := by
  have hhigh (q : ℕ) :
      (∃ p, PassedOver args s p (a + q)) ↔ ∃ p, PassedOver args (s.drop a) p q := by
    constructor
    · rintro ⟨p, hp⟩
      have hle : a ≤ p := not_lt.mp fun hlt => hcross p hlt (a + q) (Nat.le_add_right a q) hp
      obtain ⟨p, rfl⟩ := Nat.exists_eq_add_of_le hle
      exact ⟨p, passedOver_add.mp hp⟩
    · rintro ⟨p, hp⟩
      exact ⟨a + p, passedOver_add.mpr hp⟩
  constructor
  · intro h q hq
    rw [List.drop_drop] at hq ⊢
    exact (h (a + q) hq).trans (hhigh q)
  · intro h q hq
    by_cases hlt : q < a
    · exact hlow q hlt hq
    · obtain ⟨q, rfl⟩ := Nat.exists_eq_add_of_le (not_lt.mp hlt)
      have hrest := h q
      rw [List.drop_drop] at hrest
      exact (hrest hq).trans (hhigh q).symm

/-- Plain text in front does not matter. -/
theorem apart_append {args : List QString} {u : List QChar} (hu : percent ∉ u)
    (v : List QChar) : Apart args (u ++ v) ↔ Apart args v := by
  have hnone : ∀ q < u.length, digitsAt argumentMarker ((u ++ v).drop q) = [] := by
    intro q hq
    by_contra hsome
    obtain ⟨t, ht⟩ := percent_of_digitsAt hsome
    rw [List.drop_append_of_le_length hq.le, List.drop_eq_getElem_cons hq] at ht
    obtain ⟨hhead, -⟩ := List.cons.inj ht
    exact hu (hhead ▸ List.getElem_mem hq)
  have hdrop : Apart args (u ++ v) ↔ Apart args ((u ++ v).drop u.length) := apart_drop
    (fun q hq hsome => absurd (hnone q hq) hsome)
    (fun p hp q _ => not_passedOver_of_nil (hnone p hp) q)
  rwa [List.drop_left] at hdrop

theorem apart_plain {args : List QString} {s : List QChar}
    (h : findPlaceholder argumentMarker s = none) : Apart args s :=
  fun q hq => absurd (findPlaceholder_none h q) hq

/-- Without a number the text stays. -/
theorem expand_of_zero {args : List QString} {s : List QChar}
    (h : ∀ q, capturedNumber (digitsAt argumentMarker (s.drop q)) = 0) : expand args s = s := by
  have hnone : ∀ q < s.length, placeholder args (s.drop q) = none := fun q _ => if_pos (h q)
  rw [expand, replaceAll_skip hnone, List.take_length, List.drop_length]
  exact List.append_nil s

theorem expand_plain {args : List QString} {s : List QChar}
    (h : findPlaceholder argumentMarker s = none) : expand args s = s := by
  refine expand_of_zero fun q => ?_
  rw [findPlaceholder_none h q]
  rfl

section
variable {args : List QString} {s ds : List QChar} {i : ℕ}
  (h : findPlaceholder argumentMarker s = some (i, ds))
include h

theorem resumed_first (args : List QString) : resumed args s i =
    if capturedNumber ds ≤ args.length then
      (argumentAt args (capturedNumber ds) ++ s.drop (i + 1 + ds.length)).drop 1
    else (s.drop (i + 1 + ds.length)).drop (ds.length + 1) := by
  have hbehind : i + 1 + ds.length = i + (ds.length + 1) := by omega
  unfold resumed
  rw [(findPlaceholder_first h).1, hbehind]

/-- In front of the first placeholder and within it none is passed over by another one. -/
theorem not_passedOver_first {p q : ℕ} (hq : q < i + 1 + ds.length) : ¬ PassedOver args s p q := by
  intro hover
  by_cases hpi : p = i
  · obtain ⟨hdigits, -⟩ := findPlaceholder_first h
    have hle := hover.2.1
    rw [hpi, hdigits] at hle
    omega
  · have hle := hover.2.1
    exact not_passedOver_of_nil (digitsAt_within_digits h (by omega) hpi) q hover

/-- The first placeholder itself is one that should be found. -/
theorem apart_upTo_first (hzero : capturedNumber ds ≠ 0) (q : ℕ) (hq : q < i + 1 + ds.length)
    (hsome : digitsAt argumentMarker (s.drop q) ≠ []) :
    capturedNumber (digitsAt argumentMarker (s.drop q)) = 0 ↔ ∃ p, PassedOver args s p q := by
  by_cases hqi : q = i
  · rw [hqi, (findPlaceholder_first h).1]
    exact iff_of_false hzero fun ⟨p, hp⟩ => not_passedOver_first h (by omega) hp
  · exact absurd (digitsAt_within_digits h hq hqi) hsome

/-- A placeholder that is met and has an argument. -/
theorem apart_present (hzero : capturedNumber ds ≠ 0) (hn : capturedNumber ds ≤ args.length)
    (hgo : beginsLow (resumed args s i) = false) :
    Apart args s ↔ Apart args (s.drop (i + 1 + ds.length)) := by
  obtain ⟨hdigits, -⟩ := findPlaceholder_first h
  refine apart_drop (apart_upTo_first h hzero) fun p hp q _ hover => ?_
  by_cases hpi : p = i
  · unfold PassedOver at hover
    rw [hpi, hdigits, hgo] at hover
    rcases hover.2.2 with hmissing | hlow
    · omega
    · cases hlow
  · exact not_passedOver_of_nil (digitsAt_within_digits h hp hpi) q hover

/-- A placeholder that is met and has the number 0. -/
theorem not_apart_zero (hzero : capturedNumber ds = 0) : ¬ Apart args s := by
  obtain ⟨hdigits, -⟩ := findPlaceholder_first h
  intro hapart
  have hmet := hapart i (hdigits ▸ (findPlaceholder_spec h).1)
  rw [hdigits] at hmet
  obtain ⟨p, hp⟩ := hmet.mp hzero
  exact not_passedOver_first h (by omega) hp

/-- A placeholder that is met and has no argument. -/
theorem apart_missing (hn : args.length < capturedNumber ds)
    (hgo : beginsLow (resumed args s i) = false) :
    Apart args s ↔
      (∀ q < ds.length + 1,
        capturedNumber (digitsAt argumentMarker ((s.drop (i + 1 + ds.length)).drop q)) = 0) ∧
      Apart args ((s.drop (i + 1 + ds.length)).drop (ds.length + 1)) := by
  obtain ⟨hdigits, -⟩ := findPlaceholder_first h
  have hzero : capturedNumber ds ≠ 0 := by omega
  have hover {q : ℕ} (hq : q < ds.length + 1) :
      PassedOver args s i (i + 1 + ds.length + q) := by
    unfold PassedOver
    rw [hdigits]
    dsimp only
    exact ⟨hzero, by omega, .inl ⟨hn, by omega⟩⟩
  by_cases hzone : ∀ q < ds.length + 1,
      capturedNumber (digitsAt argumentMarker ((s.drop (i + 1 + ds.length)).drop q)) = 0
  · rw [and_iff_right hzone, List.drop_drop]
    have hnumber : ∀ q < i + 1 + ds.length + (ds.length + 1), q ≠ i →
        capturedNumber (digitsAt argumentMarker (s.drop q)) = 0 := by
      intro q hq hqi
      by_cases hlt : q < i + 1 + ds.length
      · rw [digitsAt_within_digits h hlt hqi]
        rfl
      · obtain ⟨j, rfl⟩ := Nat.exists_eq_add_of_le (not_lt.mp hlt)
        have hj := hzone j (by omega)
        rwa [List.drop_drop] at hj
    have hpassed : ∀ p < i + 1 + ds.length + (ds.length + 1), ∀ q, PassedOver args s p q →
        p = i := by
      intro p hp q hpq
      by_contra hpi
      exact hpq.1 (hnumber p hp hpi)
    refine apart_drop ?_ ?_
    · intro q hq hsome
      by_cases hlt : q < i + 1 + ds.length
      · exact apart_upTo_first h hzero q hlt hsome
      · refine iff_of_true (hnumber q hq (by omega)) ⟨i, ?_⟩
        obtain ⟨j, rfl⟩ := Nat.exists_eq_add_of_le (not_lt.mp hlt)
        exact hover (by omega)
    · intro p hp q hq hpq
      obtain rfl := hpassed p hp q hpq
      unfold PassedOver at hpq
      rw [hdigits, hgo] at hpq
      rcases hpq.2.2 with hmissing | hlow
      · omega
      · cases hlow
  · refine iff_of_false (fun hapart => ?_) fun hboth => hzone hboth.1
    obtain ⟨q, hq, hnumber⟩ := not_forall₂.mp hzone
    rw [List.drop_drop] at hnumber
    exact hnumber ((hapart _ (digitsAt_ne_nil hnumber)).mpr ⟨i, hover hq⟩)

/-- A placeholder that is met and behind which the search ends. -/
theorem apart_stopped (hzero : capturedNumber ds ≠ 0)
    (hstop : beginsLow (resumed args s i) = true) :
    Apart args s ↔
      ∀ q, capturedNumber (digitsAt argumentMarker ((s.drop (i + 1 + ds.length)).drop q)) = 0 := by
  obtain ⟨hdigits, -⟩ := findPlaceholder_first h
  have hover (q : ℕ) : PassedOver args s i (i + 1 + ds.length + q) := by
    unfold PassedOver
    rw [hdigits]
    dsimp only
    exact ⟨hzero, by omega, .inr hstop⟩
  constructor
  · intro hapart q
    rw [List.drop_drop]
    by_contra hnumber
    exact hnumber ((hapart _ (digitsAt_ne_nil hnumber)).mpr ⟨i, hover q⟩)
  · intro hnumber q hsome
    by_cases hlt : q < i + 1 + ds.length
    · exact apart_upTo_first h hzero q hlt hsome
    · obtain ⟨j, rfl⟩ := Nat.exists_eq_add_of_le (not_lt.mp hlt)
      have hj := hnumber j
      rw [List.drop_drop] at hj
      exact iff_of_true hj ⟨i, hover j⟩

theorem expand_first (args : List QString) (hzero : capturedNumber ds ≠ 0) :
    expand args s = s.take i ++
      (argumentAt args (capturedNumber ds) ++ expand args (s.drop (i + 1 + ds.length))) := by
  obtain ⟨hdigits, hbefore⟩ := findPlaceholder_first h
  have hnone : ∀ q < i, placeholder args (s.drop q) = none := by
    intro q hq
    refine if_pos ?_
    rw [hbefore q hq]
    rfl
  obtain ⟨t, ht⟩ := percent_of_digitsAt (hdigits ▸ (findPlaceholder_spec h).1)
  have hmatch : placeholder args (percent :: t) =
      some (argumentAt args (capturedNumber ds), ds.length) := by
    rw [← ht, placeholder, hdigits]
    exact if_neg hzero
  have hrest : s.drop (i + 1 + ds.length) = t.drop ds.length := by
    rw [Nat.add_assoc, ← List.drop_drop, ht, Nat.add_comm 1, List.drop_succ_cons]
  unfold expand
  rw [replaceAll_skip hnone, ht, replaceAll_some hmatch, hrest]

end

/-- A placeholder begins within the text. -/
theorem lt_length_of_number {s : List QChar} {q : ℕ}
    (h : capturedNumber (digitsAt argumentMarker (s.drop q)) ≠ 0) : q < s.length := by
  by_contra hlen
  rw [List.drop_eq_nil_of_le (not_lt.mp hlen), digitsAt_nil] at h
  exact h rfl

/-- Where a placeholder is passed over, a mark is left that should not be. -/
theorem count_skip_lt {args : List QString} (hm : Marked percent (placeholder args))
    {s : List QChar} {k q : ℕ} (hq : q < k)
    (hnumber : capturedNumber (digitsAt argumentMarker (s.drop q)) ≠ 0) :
    (replaceAll (placeholder args) 0 s).count percent <
      (s.take k ++ replaceAll (placeholder args) 0 (s.drop k)).count percent := by
  refine hm.count_skip_lt hq ?_ (lt_length_of_number hnumber)
  rw [placeholder, if_neg hnumber]
  exact Option.some_ne_none _

/-! ## The loop -/

/-- A text that is put in as it is, and brings no placeholder. -/
def PlainArgument (arg : QString) : Prop := arg ≠ [] ∧ '%' ∉ arg ∧ '^' ∉ arg

instance : DecidablePred PlainArgument := fun _ => inferInstanceAs (Decidable (_ ∧ _ ∧ _))

/-- Within a character nothing more is replaced. -/
theorem Expands.of_beginsLow {marker : List QChar} {text : ℕ → Except ℤ (Option (List QChar))}
    {s out : List QChar} (hs : beginsLow s = true) (h : Expands marker text s out) : out = s := by
  cases h with
  | done _ => rfl
  | step hsome _ _ _ =>
      obtain ⟨hbegins, -⟩ := search_eq_some.mp hsome
      rw [hs] at hbegins
      cases hbegins

namespace EQStr

section
variable {args : List QString} (hargs : ∀ arg ∈ args, PlainArgument arg)
include hargs

theorem argumentText_present {n : ℕ} (hzero : n ≠ 0) (hn : n ≤ args.length) :
    ∃ c cs, argumentAt args n = c :: cs ∧ percent ∉ c :: cs ∧
      argumentText args n = .ok (some (c :: cs)) := by
  have hget := List.getElem?_eq_getElem (show n - 1 < args.length by omega)
  obtain ⟨hne, hpercent, hcaret⟩ := hargs _ (List.getElem_mem (show n - 1 < args.length by omega))
  obtain ⟨c, cs, hcons⟩ := List.exists_cons_of_ne_nil (Utf16.encode_ne_nil_iff.mpr hne)
  refine ⟨c, cs, ?_, hcons ▸ percent_not_mem_encode hpercent, ?_⟩
  · rw [argumentAt, hget]
    exact hcons
  · unfold argumentText
    rw [if_pos hn, argAt_of_getElem hzero hget, ← hcons]
    exact congrArg (fun arg => Except.ok (some (encode arg))) (if_neg hcaret)

/-- What one round of the loop makes of the next placeholder. -/
theorem act_cases (n d : ℕ) :
    (n = 0 ∧ act argumentMarker (argumentText args) (n, d) = none) ∨
    (n ≠ 0 ∧ n ≤ args.length ∧ ∃ c cs, argumentAt args n = c :: cs ∧ percent ∉ c :: cs ∧
      act argumentMarker (argumentText args) (n, d) = some (c :: cs, 1)) ∨
    (args.length < n ∧ argumentAt args n = [] ∧
      act argumentMarker (argumentText args) (n, d) = some ([], d + 1)) := by
  by_cases hzero : n = 0
  · exact .inl ⟨hzero, act_eq_none_iff.mpr ((argumentText_error_iff args n).mpr hzero)⟩
  · by_cases hn : n ≤ args.length
    · obtain ⟨c, cs, hget, hpercent, htext⟩ := argumentText_present hargs hzero hn
      refine .inr (.inl ⟨hzero, hn, c, cs, hget, hpercent, ?_⟩)
      unfold act
      rw [htext]
      rfl
    · have htext : argumentText args n = .ok none := if_neg hn
      have hget : args[n - 1]? = none := List.getElem?_eq_none (by omega)
      refine .inr (.inr ⟨not_le.mp hn, by rw [argumentAt, hget]; rfl, ?_⟩)
      unfold act
      rw [htext]
      exact congrArg (fun skip => some ([], skip)) (Nat.add_comm 1 d)

/-- What the loop leaves is right, or too many marks are left. -/
def Judged (args : List QString) (s out : List QChar) : Prop :=
  (out = expand args s ∧ Apart args s) ∨
    ((expand args s).count percent < out.count percent ∧ ¬ Apart args s)

/-- Behind a placeholder with an argument the search goes on within the argument. -/
theorem Judged.present {s ds cs out : List QChar} {i : ℕ} {c : QChar}
    (hfind : findPlaceholder argumentMarker s = some (i, ds)) (hzero : capturedNumber ds ≠ 0)
    (hn : capturedNumber ds ≤ args.length) (hgo : beginsLow (resumed args s i) = false)
    (hget : argumentAt args (capturedNumber ds) = c :: cs) (hpercent : percent ∉ c :: cs)
    (h : Judged args (cs ++ s.drop (i + 1 + ds.length)) out) :
    Judged args s (s.take i ++ [c] ++ out) := by
  have hm : Marked percent (placeholder args) :=
    placeholder_marked fun arg harg => (hargs arg harg).2.1
  have hcs : percent ∉ cs := List.not_mem_of_not_mem_cons hpercent
  have hexpand := expand_first hfind args hzero
  rw [hget] at hexpand
  unfold Judged at h ⊢
  rw [apart_append hcs, ← apart_present hfind hzero hn hgo, expand, hm.replaceAll_append hcs,
    ← expand] at h
  rw [hexpand]
  rcases h with ⟨rfl, hapart⟩ | ⟨hlt, hapart⟩
  · refine .inl ⟨?_, hapart⟩
    simp
  · refine .inr ⟨?_, hapart⟩
    simp only [List.count_append, List.count_cons, List.count_nil] at hlt ⊢
    omega

/-- Behind a placeholder without one the text that is passed over stays as it is. -/
theorem Judged.missing {s ds out : List QChar} {i : ℕ}
    (hfind : findPlaceholder argumentMarker s = some (i, ds))
    (hn : args.length < capturedNumber ds) (hgo : beginsLow (resumed args s i) = false)
    (hget : argumentAt args (capturedNumber ds) = [])
    (h : Judged args ((s.drop (i + 1 + ds.length)).drop (ds.length + 1)) out) :
    Judged args s (s.take i ++ (s.drop (i + 1 + ds.length)).take (ds.length + 1) ++ out) := by
  have hm : Marked percent (placeholder args) :=
    placeholder_marked fun arg harg => (hargs arg harg).2.1
  have hexpand := expand_first hfind args (by omega)
  rw [hget, List.nil_append] at hexpand
  have hapart := apart_missing hfind hn hgo
  unfold Judged at h ⊢
  generalize s.drop (i + 1 + ds.length) = behind at hexpand hapart h ⊢
  rw [hexpand, hapart, List.append_assoc]
  by_cases hzone : ∀ q < ds.length + 1,
      capturedNumber (digitsAt argumentMarker (behind.drop q)) = 0
  · have hskip : expand args behind =
        behind.take (ds.length + 1) ++ expand args (behind.drop (ds.length + 1)) :=
      replaceAll_skip fun q hq => if_pos (hzone q hq)
    rw [and_iff_right hzone, hskip]
    rcases h with ⟨rfl, hrest⟩ | ⟨hlt, hrest⟩
    · exact .inl ⟨rfl, hrest⟩
    · refine .inr ⟨?_, hrest⟩
      simp only [List.count_append] at hlt ⊢
      omega
  · have hle : (expand args (behind.drop (ds.length + 1))).count percent ≤ out.count percent :=
      h.elim (fun h => by rw [h.1]) fun h => h.1.le
    obtain ⟨q, hq, hnumber⟩ := not_forall₂.mp hzone
    have hlost := count_skip_lt hm hq hnumber
    refine .inr ⟨?_, fun hboth => hzone hboth.1⟩
    simp only [List.count_append] at hlost ⊢
    unfold expand at hle ⊢
    omega

/-- Behind a placeholder at which the search ends all stays as it is. -/
theorem Judged.stopped {s ds : List QChar} {i : ℕ}
    (hfind : findPlaceholder argumentMarker s = some (i, ds)) (hzero : capturedNumber ds ≠ 0)
    (hstop : beginsLow (resumed args s i) = true) :
    Judged args s (s.take i ++ (argumentAt args (capturedNumber ds) ++
      s.drop (i + 1 + ds.length))) := by
  have hm : Marked percent (placeholder args) :=
    placeholder_marked fun arg harg => (hargs arg harg).2.1
  have hexpand := expand_first hfind args hzero
  have hapart := apart_stopped hfind hzero hstop
  unfold Judged
  generalize s.drop (i + 1 + ds.length) = behind at hexpand hapart ⊢
  rw [hexpand, hapart]
  by_cases hnumber : ∀ q, capturedNumber (digitsAt argumentMarker (behind.drop q)) = 0
  · exact .inl ⟨by rw [expand_of_zero hnumber], hnumber⟩
  · refine .inr ⟨?_, hnumber⟩
    obtain ⟨q, hq⟩ := not_forall.mp hnumber
    have hwithin : q < behind.length := lt_length_of_number hq
    have hlost := count_skip_lt hm hwithin hq
    rw [List.take_length, List.drop_length] at hlost
    have hnil : replaceAll (placeholder args) 0 ([] : List QChar) = [] := rfl
    rw [hnil, List.append_nil] at hlost
    simp only [List.count_append]
    unfold expand
    omega

theorem expands_judged {s out : List QChar} (hs : beginsLow s = false)
    (h : Expands argumentMarker (argumentText args) s out) : Judged args s out := by
  induction h with
  | @done s hsearch =>
      have hfind : findPlaceholder argumentMarker s = none := search_of_begins hs ▸ hsearch
      exact .inl ⟨(expand_plain hfind).symm, apart_plain hfind⟩
  | @step s ds ins rest out i skip hsearch hact hrest hout ih =>
      subst hrest
      have hfind := (search_eq_some.mp hsearch).2
      have hresumed := resumed_first hfind args
      rcases act_cases hargs (capturedNumber ds) ds.length with
        ⟨-, hnone⟩ | ⟨hzero, hn, c, cs, hget, hpercent, hpresent⟩ | ⟨hn, hget, hmissing⟩
      · exact absurd (hnone.symm.trans hact) (Option.some_ne_none _).symm
      · obtain ⟨rfl, rfl⟩ := Prod.mk.inj (Option.some.inj (hpresent.symm.trans hact))
        rw [if_pos hn, hget, List.cons_append, List.drop_succ_cons, List.drop_zero] at hresumed
        cases hgo : beginsLow (resumed args s i) with
        | false =>
            rw [hresumed] at hgo
            exact Judged.present hargs hfind hzero hn (hresumed ▸ hgo) hget hpercent (ih hgo)
        | true =>
            have hlow : beginsLow (cs ++ s.drop (i + 1 + ds.length)) = true := hresumed ▸ hgo
            obtain rfl := hout.of_beginsLow hlow
            have hstopped := Judged.stopped hargs hfind hzero hgo
            rw [hget] at hstopped
            rw [List.append_assoc]
            exact hstopped
      · obtain ⟨rfl, rfl⟩ := Prod.mk.inj (Option.some.inj (hmissing.symm.trans hact))
        rw [if_neg (not_le.mpr hn)] at hresumed
        cases hgo : beginsLow (resumed args s i) with
        | false => exact Judged.missing hargs hfind hn hgo hget (ih (hresumed ▸ hgo))
        | true =>
            obtain rfl := hout.of_beginsLow (hresumed ▸ hgo)
            rw [List.append_assoc, List.take_append_drop]
            exact hget ▸ Judged.stopped hargs hfind (by omega) hgo

/-- The loop comes to its end if no placeholder with the number 0 is met. The induction is on the
    marks that are left: an argument brings none. -/
theorem exists_expands {s : List QChar} (hs : beginsLow s = false) (h : Apart args s) :
    ∃ out, Expands argumentMarker (argumentText args) s out := by
  induction hcount : s.count percent using Nat.strongRecOn generalizing s with
  | ind count ih =>
      cases hfind : findPlaceholder argumentMarker s with
      | none => exact ⟨s, .done ((search_of_begins hs).trans hfind)⟩
      | some found =>
          obtain ⟨i, ds⟩ := found
          have hsearch := (search_of_begins hs).trans hfind
          have hresumed := resumed_first hfind args
          have hfewer := count_behind_lt hfind
          rcases act_cases hargs (capturedNumber ds) ds.length with
            ⟨hzero, -⟩ | ⟨hzero, hn, c, cs, hget, hpercent, hpresent⟩ | ⟨hn, -, hmissing⟩
          · exact absurd h (not_apart_zero hfind hzero)
          · have hcs : percent ∉ cs := List.not_mem_of_not_mem_cons hpercent
            rw [if_pos hn, hget, List.cons_append, List.drop_succ_cons, List.drop_zero] at hresumed
            cases hgo : beginsLow (resumed args s i) with
            | true =>
                have hlow : beginsLow (cs ++ s.drop (i + 1 + ds.length)) = true := hresumed ▸ hgo
                exact ⟨_, .step hsearch hpresent rfl (.done (search_eq_none.mpr (.inl hlow)))⟩
            | false =>
                have hrest := (apart_present hfind hzero hn hgo).mp h
                have hless : (cs ++ s.drop (i + 1 + ds.length)).count percent < count := by
                  rw [List.count_append, List.count_eq_zero.mpr hcs, Nat.zero_add]
                  omega
                obtain ⟨out, hout⟩ := ih _ hless (hresumed ▸ hgo) ((apart_append hcs _).mpr hrest)
                  rfl
                exact ⟨_, .step hsearch hpresent rfl hout⟩
          · rw [if_neg (not_le.mpr hn)] at hresumed
            cases hgo : beginsLow (resumed args s i) with
            | true =>
                exact ⟨_, .step hsearch hmissing rfl
                  (.done (search_eq_none.mpr (.inl (hresumed ▸ hgo))))⟩
            | false =>
                have hrest := ((apart_missing hfind hn hgo).mp h).2
                have hless : ((s.drop (i + 1 + ds.length)).drop (ds.length + 1)).count percent <
                    count := by
                  have hle := (List.drop_sublist (ds.length + 1)
                    (s.drop (i + 1 + ds.length))).count_le percent
                  omega
                obtain ⟨out, hout⟩ := ih _ hless (hresumed ▸ hgo) hrest rfl
                exact ⟨_, .step hsearch hmissing rfl hout⟩

/-- The loop does what it should if and only if the placeholders are apart. -/
theorem expands_expand_iff {s : List QChar} (hs : beginsLow s = false) :
    Expands argumentMarker (argumentText args) s (expand args s) ↔ Apart args s := by
  constructor
  · intro h
    rcases expands_judged hargs hs h with ⟨-, hapart⟩ | ⟨hlt, -⟩
    · exact hapart
    · exact absurd hlt (lt_irrefl _)
  · intro hapart
    obtain ⟨out, hout⟩ := exists_expands hargs hs hapart
    rcases expands_judged hargs hs hout with ⟨rfl, -⟩ | ⟨-, hnot⟩
    · exact hout
    · exact absurd hapart hnot

end

section
variable {eqStr : EQStr} {fromUtf8 : List UInt8 → QString} {formatid : UInt32}
  {arguments : List UInt8}

/-- Without templates there is the second loop only. -/
theorem formatMessage_known_expand_iff (hvalue : eqStr.value formatid.toInt32 ≠ [])
    (htemplate : findPlaceholder templateMarker (encode (eqStr.value formatid.toInt32)) = none)
    (hargs : ∀ arg ∈ argList fromUtf8 [] arguments, PlainArgument arg) :
    (∃ fuel, eqStr.formatMessage fromUtf8 fuel formatid arguments =
        some (.ok (expand (argList fromUtf8 [] arguments)
          (encode (eqStr.value formatid.toInt32))))) ↔
      Apart (argList fromUtf8 [] arguments) (encode (eqStr.value formatid.toInt32)) := by
  have hbegins := Utf16.not_beginsLow_encode (eqStr.value formatid.toInt32)
  have hdone := (search_of_begins hbegins).trans htemplate
  rw [formatMessage_known eqStr fromUtf8 formatid arguments hvalue,
    ← expands_expand_iff hargs hbegins]
  constructor
  · rintro ⟨s, htemplates, hs⟩
    rwa [htemplates.unique (.done hdone)] at hs
  · exact fun h => ⟨_, .done hdone, h⟩

end

/-- For a format string without templates, with arguments that are plain, `formatMessage` gives it
    back with all placeholders replaced if and only if it is not empty, and the placeholders that
    are passed over are those with the number 0. -/
theorem formatMessage_expand_iff (eqStr : EQStr) (fromUtf8 : List UInt8 → QString)
    (formatid : UInt32) (arguments : List UInt8)
    (htemplate : findPlaceholder templateMarker (encode (eqStr.value formatid.toInt32)) = none)
    (hargs : ∀ arg ∈ argList fromUtf8 [] arguments, PlainArgument arg) :
    (∃ fuel, eqStr.formatMessage fromUtf8 fuel formatid arguments =
        some (.ok (expand (argList fromUtf8 [] arguments)
          (encode (eqStr.value formatid.toInt32))))) ↔
      eqStr.value formatid.toInt32 ≠ [] ∧
        Apart (argList fromUtf8 [] arguments) (encode (eqStr.value formatid.toInt32)) := by
  by_cases hvalue : eqStr.value formatid.toInt32 = []
  · refine iff_of_false ?_ fun h => h.1 hvalue
    rintro ⟨fuel, hfuel⟩
    unfold formatMessage at hfuel
    rw [if_pos hvalue, hvalue] at hfuel
    have hunknown := Except.ok.inj (Option.some.inj hfuel)
    have hempty : expand (argList fromUtf8 [] arguments) (encode []) = encode [] := rfl
    rw [hempty] at hunknown
    have hdecoded := congrArg decode hunknown
    rw [Utf16.decode_encode, Utf16.decode_encode] at hdecoded
    exact absurd hdecoded (by simp)
  · rw [and_iff_right hvalue]
    exact formatMessage_known_expand_iff hvalue htemplate hargs

/-- "%1, %2" with two arguments. -/
theorem formatMessage_expand_two :
    (∃ fuel, (withFormat "%1, %2".toList).formatMessage plain fuel 1 [97, 0, 98, 0] =
        some (.ok (expand (argList plain [] [97, 0, 98, 0])
          (encode ((withFormat "%1, %2".toList).value (1 : UInt32).toInt32))))) ↔
      (withFormat "%1, %2".toList).value (1 : UInt32).toInt32 ≠ [] ∧
        Apart (argList plain [] [97, 0, 98, 0])
          (encode ((withFormat "%1, %2".toList).value (1 : UInt32).toInt32)) :=
  formatMessage_expand_iff _ plain 1 [97, 0, 98, 0] (by decide) (by decide)

/-- In "%9%1" the second placeholder is passed over: what is left is "%1". -/
theorem formatMessage_nine :
    (findPlaceholder templateMarker (encode "%9%1".toList) = none ∧
      ∀ arg ∈ argList plain [] [97, 0], PlainArgument arg) ∧
    ¬ ∃ fuel, (withFormat "%9%1".toList).formatMessage plain fuel 1 [97, 0] =
      some (.ok (expand (argList plain [] [97, 0])
        (encode ((withFormat "%9%1".toList).value (1 : UInt32).toInt32)))) := by
  refine ⟨⟨by decide, by decide⟩, ?_⟩
  rw [formatMessage_known_expand_iff (by decide) (by decide) (by decide)]
  intro h
  have hover : PassedOver (argList plain [] [97, 0]) (encode "%9%1".toList) 0 2 := by
    unfold PassedOver
    decide
  have hnumber := (h 2 (by decide)).mpr ⟨0, hover⟩
  exact absurd hnumber (by decide)

end EQStr

end ShoweqDaemon.Messages
