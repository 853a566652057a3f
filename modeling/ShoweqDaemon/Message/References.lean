/-
  References between texts, and the loops that follow them.

  A text refers to the numbers of the placeholders that begin in it. A loop ends if no number that
  the references lead to is 0 and none of them leads back to itself (`Safe`); this is a condition on
  the texts alone. Texts meet where one is inserted into another, and a placeholder may begin in one
  and end in the next, so in general this is too much to ask for. It is not where every inserted
  text ends its own placeholders, as a `Neat` one does.

  * `expands_of_safe`: the loop ends if all the numbers of the text are safe.
  * `safe_of_expands`: if it ends they are, where the texts are neat.
-/
import ShoweqDaemon.Message.Placeholders

namespace ShoweqDaemon.Messages

open Spawns (QString)
open Utf16 (encode beginsLow)

/-! ## Where placeholders are -/

/-- A placeholder with the number `n` is in the text. -/
def Occurs (marker s : List QChar) (n : ℕ) : Prop :=
  ∃ p, digitsAt marker (s.drop p) ≠ [] ∧ capturedNumber (digitsAt marker (s.drop p)) = n

/-- A placeholder with the number `n` begins in the text, if the right text is behind it. -/
def Begins (marker u : List QChar) (n : ℕ) : Prop :=
  ∃ p < u.length, ∃ r, digitsAt marker (u.drop p ++ r) ≠ [] ∧
    capturedNumber (digitsAt marker (u.drop p ++ r)) = n

/-- What is behind the text does not matter to its placeholders. -/
def Closed (marker u : List QChar) : Prop :=
  ∀ p < u.length, ∀ r, digitsAt marker (u.drop p ++ r) = digitsAt marker (u.drop p)

/-- The mark is the first unit of the marker and none behind it. -/
def IsMarker (marker : List QChar) : Prop := ∃ ms, marker = percent :: ms ∧ percent ∉ ms

theorem IsMarker.ne_nil {marker : List QChar} (h : IsMarker marker) : marker ≠ [] := by
  obtain ⟨ms, rfl, -⟩ := h
  exact List.cons_ne_nil percent ms

theorem isMarker_template : IsMarker templateMarker := ⟨[0x54], rfl, by decide⟩

theorem isMarker_argument : IsMarker argumentMarker := ⟨[], rfl, by decide⟩

section
variable {marker : List QChar}

theorem Occurs.of_drop {s : List QChar} {k n : ℕ} (h : Occurs marker (s.drop k) n) :
    Occurs marker s n := by
  obtain ⟨p, hp⟩ := h
  rw [List.drop_drop] at hp
  exact ⟨k + p, hp⟩

theorem Occurs.append_right {r : List QChar} {n : ℕ} (h : Occurs marker r n) (u : List QChar) :
    Occurs marker (u ++ r) n := by
  refine Occurs.of_drop (k := u.length) ?_
  rwa [List.drop_left]

/-- A placeholder begins on one side. -/
theorem Occurs.append_cases {u r : List QChar} {n : ℕ} (h : Occurs marker (u ++ r) n) :
    Begins marker u n ∨ Occurs marker r n := by
  obtain ⟨p, hp⟩ := h
  by_cases hlt : p < u.length
  · rw [List.drop_append_of_le_length hlt.le] at hp
    exact .inl ⟨p, hlt, r, hp⟩
  · obtain ⟨q, rfl⟩ := Nat.exists_eq_add_of_le (not_lt.mp hlt)
    rw [List.drop_length_add_append] at hp
    exact .inr ⟨q, hp⟩

theorem not_occurs_of_none {s : List QChar} (h : findPlaceholder marker s = none) (n : ℕ) :
    ¬ Occurs marker s n := by
  rintro ⟨p, hp, -⟩
  exact hp (findPlaceholder_none h p)

theorem Closed.occurs_of_begins {u : List QChar} (h : Closed marker u) {n : ℕ}
    (hn : Begins marker u n) (r : List QChar) : Occurs marker (u ++ r) n := by
  obtain ⟨p, hp, r', hr'⟩ := hn
  refine ⟨p, ?_⟩
  rw [List.drop_append_of_le_length hp.le, h p hp r, ← h p hp r']
  exact hr'

/-- The units of a placeholder. -/
theorem take_placeholder {s : List QChar} (h : digitsAt marker s ≠ []) :
    s.take (marker.length + (digitsAt marker s).length) = marker ++ digitsAt marker s := by
  unfold digitsAt at h ⊢
  by_cases hmarker : marker <+: s
  · obtain ⟨v, rfl⟩ := hmarker
    rw [if_pos (List.prefix_append marker v), List.drop_left]
    have hprefix : (v.takeWhile isDigit).take 3 <+: v :=
      (List.take_prefix 3 _).trans (List.takeWhile_prefix isDigit)
    rw [List.take_length_add_append, ← List.prefix_iff_eq_take.mp hprefix]
  · exact absurd (if_neg hmarker) h

/-- There is no placeholder within another one. -/
theorem IsMarker.digitsAt_within (hm : IsMarker marker) {s ds : List QChar} {i q : ℕ}
    (hdigits : digitsAt marker (s.drop i) = ds) (hds : ds ≠ []) (hlt : i < q)
    (hq : q < i + marker.length + ds.length) : digitsAt marker (s.drop q) = [] := by
  obtain ⟨ms, rfl, hms⟩ := hm
  obtain ⟨j, rfl⟩ := Nat.exists_eq_add_of_lt hlt
  by_contra hsome
  have hhead : (percent :: ms) <+: s.drop (i + j + 1) := by
    by_contra hnot
    exact hsome (if_neg hnot)
  have hget : (s.drop i)[j + 1]? = some percent := by
    obtain ⟨v, hv⟩ := hhead
    have hfirst : (s.drop (i + j + 1))[0]? = some percent := by rw [← hv]; rfl
    rw [List.getElem?_drop] at hfirst ⊢
    exact hfirst
  have htake := take_placeholder (hdigits ▸ hds)
  rw [hdigits] at htake
  have hin : ((s.drop i).take ((percent :: ms).length + ds.length))[j + 1]? = some percent := by
    rw [List.getElem?_take_of_lt (by omega)]
    exact hget
  rw [htake] at hin
  have hmem : percent ∈ ms ++ ds := List.mem_of_getElem? hin
  rcases List.mem_append.mp hmem with hmem | hmem
  · exact hms hmem
  · rw [← hdigits] at hmem
    exact absurd (isDigit_of_mem_digitsAt hmem) (by decide)

/-- The placeholders of a text are its first one and those behind it. -/
theorem IsMarker.occurs_first (hm : IsMarker marker) {s ds : List QChar} {i : ℕ}
    (h : findPlaceholder marker s = some (i, ds)) (n : ℕ) :
    Occurs marker s n ↔
      n = capturedNumber ds ∨ Occurs marker (s.drop (i + marker.length + ds.length)) n := by
  obtain ⟨hdigits, hbefore⟩ := findPlaceholder_first h
  have hds := (findPlaceholder_spec h).1
  constructor
  · rintro ⟨q, hsome, hnumber⟩
    by_cases hlt : q < i + marker.length + ds.length
    · by_cases hqi : q = i
      · rw [hqi, hdigits] at hnumber
        exact .inl hnumber.symm
      · by_cases hqlt : q < i
        · exact absurd (hbefore q hqlt) hsome
        · exact absurd (hm.digitsAt_within hdigits hds (by omega) hlt) hsome
    · obtain ⟨j, rfl⟩ := Nat.exists_eq_add_of_le (not_lt.mp hlt)
      refine .inr ⟨j, ?_⟩
      rw [List.drop_drop]
      exact ⟨hsome, hnumber⟩
  · rintro (rfl | hoccurs)
    · exact ⟨i, by rw [hdigits]; exact ⟨hds, rfl⟩⟩
    · exact hoccurs.of_drop

/-- The text behind a placeholder begins with a character. -/
theorem beginsLow_behind (cs : List Char) {ds : List QChar} {i : ℕ}
    (h : findPlaceholder marker (encode cs) = some (i, ds)) :
    beginsLow ((encode cs).drop (i + marker.length + ds.length)) = false := by
  obtain ⟨hdigits, -⟩ := findPlaceholder_first h
  obtain ⟨hds, -, hall, -⟩ := findPlaceholder_spec h
  have htake := take_placeholder (hdigits ▸ hds)
  rw [hdigits] at htake
  have hpos : ds.length - 1 < ds.length :=
    Nat.sub_lt (List.length_pos_iff.mpr hds) Nat.one_pos
  have hlast : ((encode cs).drop i)[marker.length + (ds.length - 1)]? =
      some ds[ds.length - 1] := by
    rw [← List.getElem?_take_of_lt (show marker.length + (ds.length - 1) <
      marker.length + ds.length by omega), htake, List.getElem?_append_right (by omega),
      Nat.add_sub_cancel_left]
    exact List.getElem?_eq_getElem hpos
  have hdigit := hall _ (List.getElem_mem hpos)
  have hhigh : Utf16.isHigh ds[ds.length - 1] = false := by
    rw [isDigit, Bool.and_eq_true, decide_eq_true_eq, decide_eq_true_eq] at hdigit
    rw [Utf16.isHigh, Bool.and_eq_false_iff, decide_eq_false_iff_not, UInt16.not_le]
    exact .inl (UInt16.lt_of_le_of_lt hdigit.2 (by decide))
  rw [List.getElem?_drop] at hlast
  have hbehind := Utf16.not_beginsLow_behind cs hhigh hlast
  have hsame : i + (marker.length + (ds.length - 1)) + 1 = i + marker.length + ds.length := by omega
  rwa [hsame] at hbehind

end

/-! ## References -/

section
variable (marker : List QChar) (text : ℕ → Except ℤ (Option (List QChar)))

/-- In the text that is put in place of the number `n`, behind where the scan goes on, a placeholder
    with the number `n'` begins. -/
def Refers (n n' : ℕ) : Prop :=
  ∃ t, text n = .ok (some t) ∧ Begins marker (t.drop marker.length) n'

/-- The references of a number do not lead to 0, and come to an end. -/
inductive Safe : ℕ → Prop where
  | intro {n : ℕ} (hzero : n ≠ 0) (hrefers : ∀ n', Refers marker text n n' → Safe n') : Safe n

/-- The numbers that references from some numbers lead to. -/
inductive Reached (start : ℕ → Prop) : ℕ → Prop where
  | here {n : ℕ} (h : start n) : Reached start n
  | there {n n' : ℕ} (h : Reached start n) (hrefers : Refers marker text n n') : Reached start n'

/-- A text that begins, and goes on behind its first units, with a character, and ends its own
    placeholders. -/
structure Neat (t : List QChar) : Prop where
  long : marker.length ≤ t.length
  begins : beginsLow (t.drop marker.length) = false
  encoded : ∃ cs, t = encode cs
  closed : Closed marker (t.drop marker.length)

/-- Every number that is reached, but 0, has a text, and the texts are neat. -/
def Supplied (start : ℕ → Prop) : Prop :=
  ∀ n, Reached marker text start n → n ≠ 0 → ∃ t, text n = .ok (some t) ∧ Neat marker t

end

section
variable {marker : List QChar} {text : ℕ → Except ℤ (Option (List QChar))}

/-! ## Safe numbers are enough -/

variable (marker text)

/-- From the first placeholder of the text on, the loop ends. -/
def Good (s : List QChar) : Prop :=
  ∀ i ds, findPlaceholder marker s = some (i, ds) → ∃ ins skip out,
    act marker text (capturedNumber ds, ds.length) = some (ins, skip) ∧
      Expands marker text ((ins ++ s.drop (i + marker.length + ds.length)).drop skip) out

/-- From any position on. -/
def AllGood (s : List QChar) : Prop := ∀ k, Good marker text (s.drop k)

variable {marker text}

theorem Good.expands {s : List QChar} (h : Good marker text s) :
    ∃ out, Expands marker text s out := by
  cases hsearch : search marker s with
  | none => exact ⟨s, .done hsearch⟩
  | some found =>
      obtain ⟨i, ds⟩ := found
      obtain ⟨ins, skip, out, hact, hout⟩ := h i ds (search_eq_some.mp hsearch).2
      exact ⟨_, .step hsearch hact rfl hout⟩

theorem AllGood.drop {s : List QChar} (h : AllGood marker text s) (k : ℕ) :
    AllGood marker text (s.drop k) := by
  intro j
  rw [List.drop_drop]
  exact h (k + j)

theorem allGood_nil : AllGood marker text [] := by
  intro k i ds hfind
  rw [List.drop_nil] at hfind
  cases hfind

/-- One more unit in front: either nothing begins there, or a number that may be inserted. -/
theorem AllGood.cons {c : QChar} {s : List QChar} (h : AllGood marker text s)
    (herror : ∀ n, (∃ index, text n = .error index) ↔ n = 0) (hmarker : marker ≠ [])
    (hhere : digitsAt marker (c :: s) ≠ [] → capturedNumber (digitsAt marker (c :: s)) ≠ 0 ∧
      ∀ t, text (capturedNumber (digitsAt marker (c :: s))) = .ok (some t) →
        ∀ r, AllGood marker text r → AllGood marker text (t.drop marker.length ++ r)) :
    AllGood marker text (c :: s) := by
  intro k
  cases k with
  | succ k => exact h k
  | zero =>
      intro i ds hfind
      rw [List.drop_zero] at hfind ⊢
      rw [findPlaceholder] at hfind
      split_ifs at hfind with hsome
      · obtain ⟨rfl, rfl⟩ := Prod.mk.inj (Option.some.inj hfind)
        obtain ⟨hzero, hinsert⟩ := hhere hsome
        obtain ⟨m, hm⟩ := Nat.exists_eq_add_one_of_ne_zero
          (mt List.length_eq_zero_iff.mp hmarker)
        have hbehind : AllGood marker text ((c :: s).drop (0 + marker.length +
            (digitsAt marker (c :: s)).length)) := by
          have hsucc : 0 + marker.length + (digitsAt marker (c :: s)).length =
              m + (digitsAt marker (c :: s)).length + 1 := by omega
          rw [hsucc, List.drop_succ_cons]
          exact h.drop _
        generalize (c :: s).drop (0 + marker.length + (digitsAt marker (c :: s)).length) = r
          at hbehind ⊢
        unfold act
        dsimp only
        cases htext : text (capturedNumber (digitsAt marker (c :: s))) with
        | error index => exact absurd ((herror _).mp ⟨index, htext⟩) hzero
        | ok after =>
            cases after with
            | none =>
                obtain ⟨out, hout⟩ := (hbehind _).expands
                exact ⟨_, _, out, rfl, hout⟩
            | some t =>
                have hrest := hinsert t htext _ (hbehind.drop (marker.length - t.length)) 0
                rw [List.drop_zero, ← List.drop_append] at hrest
                obtain ⟨out, hout⟩ := hrest.expands
                exact ⟨_, _, out, rfl, hout⟩
      · obtain ⟨⟨j, ds'⟩, hfound, heq⟩ := Option.map_eq_some_iff.mp hfind
        obtain ⟨rfl, rfl⟩ := Prod.mk.inj heq
        have hsucc : j + 1 + marker.length + ds'.length = j + marker.length + ds'.length + 1 := by
          omega
        rw [hsucc, List.drop_succ_cons]
        exact h 0 j ds' hfound

/-- Text in front whose numbers may be inserted. -/
theorem AllGood.append {u r : List QChar} (h : AllGood marker text r)
    (herror : ∀ n, (∃ index, text n = .error index) ↔ n = 0) (hmarker : marker ≠ [])
    (hu : ∀ p < u.length, ∀ n, digitsAt marker (u.drop p ++ r) ≠ [] →
      capturedNumber (digitsAt marker (u.drop p ++ r)) = n → n ≠ 0 ∧
        ∀ t, text n = .ok (some t) →
          ∀ r', AllGood marker text r' → AllGood marker text (t.drop marker.length ++ r')) :
    AllGood marker text (u ++ r) := by
  induction u with
  | nil => exact h
  | cons c u ih =>
      refine (ih fun p hp => hu (p + 1) (Nat.succ_lt_succ hp)).cons herror hmarker ?_
      exact fun hsome => hu 0 (Nat.succ_pos _) _ hsome rfl

/-- A text with a safe number is inserted and left again. -/
theorem Safe.allGood (herror : ∀ n, (∃ index, text n = .error index) ↔ n = 0)
    (hmarker : marker ≠ []) {n : ℕ} (h : Safe marker text n) :
    n ≠ 0 ∧ ∀ t, text n = .ok (some t) →
      ∀ r, AllGood marker text r → AllGood marker text (t.drop marker.length ++ r) := by
  induction h with
  | intro hzero _ ih =>
      refine ⟨hzero, fun t htext r hr => hr.append herror hmarker ?_⟩
      intro p hp n' hsome hnumber
      exact ih n' ⟨t, htext, p, hp, r, hsome, hnumber⟩

/-- If all the numbers of a text are safe, the loop ends. -/
theorem expands_of_safe (herror : ∀ n, (∃ index, text n = .error index) ↔ n = 0)
    (hmarker : marker ≠ []) {s : List QChar} (h : ∀ n, Occurs marker s n → Safe marker text n) :
    ∃ out, Expands marker text s out := by
  have hall : AllGood marker text (s ++ []) := by
    refine allGood_nil.append herror hmarker fun p hp n hsome hnumber => ?_
    rw [List.append_nil] at hsome hnumber
    exact (h n ⟨p, hsome, hnumber⟩).allGood herror hmarker
  rw [List.append_nil] at hall
  exact (hall 0).expands

/-! ## In neat texts they are needed -/

/-- Within neat texts, one round takes the first number and goes on within its text. -/
theorem Supplied.round {start : ℕ → Prop} (h : Supplied marker text start) {cs : List Char}
    {ds ins : List QChar} {i skip : ℕ}
    (hstart : ∀ n, Occurs marker (encode cs) n → Reached marker text start n)
    (hm : IsMarker marker)
    (herror : ∀ n, (∃ index, text n = .error index) ↔ n = 0)
    (hsearch : search marker (encode cs) = some (i, ds))
    (hact : act marker text (capturedNumber ds, ds.length) = some (ins, skip)) :
    capturedNumber ds ≠ 0 ∧ text (capturedNumber ds) = .ok (some ins) ∧ Neat marker ins ∧
      skip = marker.length ∧ ∃ cs', ins.drop marker.length ++
        (encode cs).drop (i + marker.length + ds.length) = encode cs' := by
  have hfind := (search_eq_some.mp hsearch).2
  have hoccurs := (hm.occurs_first hfind (capturedNumber ds)).mpr (.inl rfl)
  have hzero : capturedNumber ds ≠ 0 := by
    intro hzero
    rw [act_eq_none_iff.mpr ((herror _).mpr hzero)] at hact
    cases hact
  obtain ⟨t, htext, hneat⟩ := h _ (hstart _ hoccurs) hzero
  unfold act at hact
  rw [htext] at hact
  obtain ⟨rfl, rfl⟩ := Prod.mk.inj (Option.some.inj hact)
  refine ⟨hzero, htext, hneat, rfl, ?_⟩
  obtain ⟨ts, rfl⟩ := hneat.encoded
  obtain ⟨a, b, -, -, hb⟩ := Utf16.split_encode ts hneat.begins
  obtain ⟨a', b', -, -, hb'⟩ := Utf16.split_encode cs (beginsLow_behind cs hfind)
  exact ⟨b ++ b', by rw [hb, hb', Utf16.encode_append]⟩

/-- What is reached from the text after a round, and the number that was taken. -/
theorem occurs_round {s ds t : List QChar} {i : ℕ} (hm : IsMarker marker)
    (hfind : findPlaceholder marker s = some (i, ds))
    (htext : text (capturedNumber ds) = .ok (some t)) {n : ℕ}
    (h : Occurs marker (t.drop marker.length ++ s.drop (i + marker.length + ds.length)) n) :
    Refers marker text (capturedNumber ds) n ∨ Occurs marker s n := by
  rcases h.append_cases with hbegins | hbehind
  · exact .inl ⟨t, htext, hbegins⟩
  · exact .inr ((hm.occurs_first hfind n).mpr (.inr hbehind))

end

end ShoweqDaemon.Messages
