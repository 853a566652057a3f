/-
  Regular expressions as texts, and when the case of letters plays no part in what they find.

  A `Regex` is an expression piece by piece, `text` how it is written, `language` the words it
  matches. A text is in `found L` if there is a word of `L` anywhere in it. A language is `Blind` to
  a function on the characters if it cannot tell texts apart that the function makes equal; the
  operations on languages keep this. An expression without letters is blind to `Char.toLower`
  (`blind_language`). For a `Literal` one this is all (`blind_found_iff`), and `blind_sub_iff` says
  when it holds for the texts that one expression finds and another does not.
-/
import Mathlib

open Computability

universe u v

/-- How often a piece occurs. -/
inductive Times
  | once
  | optional
  | many
  deriving DecidableEq, Repr

/-- An expression, piece by piece. A `bar` ends the first of the branches. -/
inductive Regex
  | nil
  | char (c : Char) (rest : Regex)
  | opt (c : Char) (rest : Regex)
  | dot (n : Times) (rest : Regex)
  | group (body : Regex) (n : Times) (rest : Regex)
  | bar (rest : Regex)
  deriving DecidableEq, Repr

namespace Times

/-- How it is written. -/
def text : Times → List Char
  | once => []
  | optional => ['?']
  | many => ['*']

/-- The repetitions of a language. -/
def language {α : Type u} (L : Language α) : Times → Language α
  | once => L
  | optional => 1 + L
  | many => L∗

end Times

namespace Regex

/-- How the expression is written: each node with its own characters in front of the rest. -/
def text : Regex → List Char
  | nil => []
  | char c rest => c :: rest.text
  | opt c rest => c :: '?' :: rest.text
  | dot n rest => '.' :: (n.text ++ rest.text)
  | group body n rest => '(' :: (body.text ++ ')' :: (n.text ++ rest.text))
  | bar rest => '|' :: rest.text

section
variable (newline : Char → Prop)

/-- What a dot matches. -/
def anyChar : Language Char := {w | ∃ c, ¬ newline c ∧ w = [c]}

/-- The words of the first branch, and those of all others. -/
def branches : Regex → Language Char × Language Char
  | nil => (1, 0)
  | char c rest => ({[c]} * rest.branches.1, rest.branches.2)
  | opt c rest => ((1 + {[c]}) * rest.branches.1, rest.branches.2)
  | dot n rest => (n.language (anyChar newline) * rest.branches.1, rest.branches.2)
  | group body n rest =>
      (n.language (body.branches.1 + body.branches.2) * rest.branches.1, rest.branches.2)
  | bar rest => (1, rest.branches.1 + rest.branches.2)

/-- The words that the expression matches as a whole. -/
def language (r : Regex) : Language Char :=
  (r.branches newline).1 + (r.branches newline).2

end

/-- The expression for a text without operators other than the question mark. -/
def ofText : List Char → Regex
  | [] => nil
  | [c] => char c nil
  | c :: d :: cs => if d = '?' then opt c (ofText cs) else char c (ofText (d :: cs))

/-- The expression is characters only, none of the letters optional: what it finds is itself, up to
    case. -/
def Literal : Regex → Prop
  | nil => True
  | char _ rest => rest.Literal
  | opt c rest => c.isAlpha = false ∧ rest.Literal
  | _ => False

/-! ## Blind languages -/

section
variable {α : Type u} {β : Type v}

/-- Texts that `f` makes equal are both in there, or none of them. -/
def Blind (f : α → β) (L : Language α) : Prop :=
  ∀ ⦃s t : List α⦄, s.map f = t.map f → s ∈ L → t ∈ L

/-- The texts with a word of the language in them. -/
def found (L : Language α) : Language α := {s | ∃ w ∈ L, w <:+: s}

variable {f : α → β} {L M : Language α}

theorem blind_zero : Blind f (0 : Language α) := fun _ _ _ hs => hs

theorem blind_one : Blind f (1 : Language α) := by
  rintro s t hst rfl
  exact List.map_eq_nil_iff.mp hst.symm

/-- A set of characters that holds all that are equal under `f`, as words. -/
theorem blind_chars {P : α → Prop} (hP : ∀ c d, f c = f d → P c → P d) :
    Blind f {w | ∃ c, P c ∧ w = [c]} := by
  rintro s t hst ⟨c, hc, rfl⟩
  obtain ⟨d, rfl, hd⟩ := List.map_eq_singleton_iff.mp hst.symm
  exact ⟨d, hP c d hd.symm hc, rfl⟩

theorem blind_char {c : α} (hc : ∀ d, f c = f d → d = c) : Blind f ({[c]} : Language α) := by
  rintro s t hst rfl
  obtain ⟨d, rfl, hd⟩ := List.map_eq_singleton_iff.mp hst.symm
  rw [hc d hd.symm]
  exact Set.mem_singleton _

theorem Blind.add (hL : Blind f L) (hM : Blind f M) : Blind f (L + M) := by
  rintro s t hst (hs | hs)
  · exact .inl (hL hst hs)
  · exact .inr (hM hst hs)

theorem Blind.sub (hL : Blind f L) (hM : Blind f M) : Blind f (L - M) := by
  rintro s t hst ⟨hs, hnot⟩
  exact ⟨hL hst hs, fun ht => hnot (hM hst.symm ht)⟩

theorem Blind.mul (hL : Blind f L) (hM : Blind f M) : Blind f (L * M) := by
  rintro s t hst hs
  obtain ⟨a, ha, b, hb, rfl⟩ := Language.mem_mul.mp hs
  rw [List.map_append] at hst
  obtain ⟨a', b', rfl, ha', hb'⟩ := List.map_eq_append_iff.mp hst.symm
  exact Language.append_mem_mul (hL ha'.symm ha) (hM hb'.symm hb)

theorem Blind.pow (hL : Blind f L) (n : ℕ) : Blind f (L ^ n) := by
  induction n with
  | zero =>
      rw [pow_zero]
      exact blind_one
  | succ n ih =>
      rw [pow_succ]
      exact ih.mul hL

theorem Blind.kstar (hL : Blind f L) : Blind f L∗ := by
  intro s t hst hs
  rw [Language.kstar_eq_iSup_pow, Language.mem_iSup] at hs ⊢
  obtain ⟨n, hn⟩ := hs
  exact ⟨n, hL.pow n hst hn⟩

theorem Blind.found (hL : Blind f L) : Blind f (found L) := by
  rintro s t hst ⟨w, hw, a, b, rfl⟩
  rw [List.map_append, List.map_append] at hst
  obtain ⟨t', b', rfl, ht', -⟩ := List.map_eq_append_iff.mp hst.symm
  obtain ⟨a', w', rfl, -, hw'⟩ := List.map_eq_append_iff.mp ht'
  exact ⟨w', hL hw'.symm hw, a', b', rfl⟩

theorem mem_found_of_mem {w : List α} (hw : w ∈ L) : w ∈ Regex.found L :=
  ⟨w, hw, List.infix_rfl⟩

theorem Blind.times (hL : Blind f L) (n : Times) : Blind f (n.language L) := by
  cases n with
  | once => exact hL
  | optional => exact blind_one.add hL
  | many => exact hL.kstar

end

/-! ## Letters -/

/-- The letters of a text, in their order. -/
def letters (s : List Char) : List Char := s.filter Char.isAlpha

/-- The same letter in the other case. -/
def swapCase (c : Char) : Char := if c.isUpper then c.toLower else c.toUpper

theorem toLower_swapCase (c : Char) : (swapCase c).toLower = c.toLower := by
  unfold swapCase
  split <;> simp

theorem isAlpha_swapCase (c : Char) : (swapCase c).isAlpha = c.isAlpha := by
  unfold swapCase
  split <;> simp

theorem swapCase_ne {c : Char} (hc : c.isAlpha = true) : swapCase c ≠ c := by
  intro heq
  unfold swapCase at heq
  split at heq
  · rename_i hupper
    rw [← heq, Char.isUpper_toLower_eq_false] at hupper
    exact Bool.false_ne_true hupper
  · rename_i hupper
    have hlower : c.isLower = true := (Bool.or_eq_true_iff.mp hc).resolve_left hupper
    rw [← heq, Char.isLower_toUpper_eq_false] at hlower
    exact Bool.false_ne_true hlower

/-- What is no letter is the only character that becomes it. -/
theorem eq_of_toLower {c d : Char} (hc : c.isAlpha = false) (h : c.toLower = d.toLower) :
    d = c := by
  have hd : d.isAlpha = false := by
    rw [← Char.isAlpha_toLower_eq_isAlpha, ← h, Char.isAlpha_toLower_eq_isAlpha, hc]
  have hupper {e : Char} (he : e.isAlpha = false) : ¬ e.isUpper = true := by
    rw [(Bool.or_eq_false_iff.mp he).1]
    exact Bool.false_ne_true
  rwa [Char.toLower_eq_of_not_isUpper (hupper hc), Char.toLower_eq_of_not_isUpper (hupper hd),
    eq_comm] at h

theorem letters_append (s t : List Char) : letters (s ++ t) = letters s ++ letters t :=
  List.filter_append _ _

theorem letters_swapCase (s : List Char) :
    letters (s.map swapCase) = (letters s).map swapCase := by
  unfold letters
  rw [List.filter_map]
  congr 1
  exact List.filter_congr fun c _ => isAlpha_swapCase c

theorem map_toLower_swapCase (s : List Char) :
    (s.map swapCase).map Char.toLower = s.map Char.toLower := by
  rw [List.map_map]
  exact List.map_congr_left fun c _ => toLower_swapCase c

/-- A text has no part with its own letters in the other case. -/
theorem letters_eq_nil_of_infix {w s : List Char} {ls : List Char} (hw : letters w = ls)
    (hs : letters s = ls.map swapCase) (h : w <:+: s) : ls = [] := by
  have hin : ls <:+: ls.map swapCase := by
    rw [← hs, ← hw]
    exact h.filter _
  have heq : ls = ls.map swapCase := hin.eq_of_length (List.length_map _).symm
  cases ls with
  | nil => rfl
  | cons c cs =>
      have hmem : c ∈ letters w := hw ▸ List.mem_cons_self
      exact absurd (List.cons_eq_cons.mp heq).1.symm (swapCase_ne (List.mem_filter.mp hmem).2)

theorem letters_cons_eq_nil {c : Char} {s : List Char} :
    letters (c :: s) = [] ↔ c.isAlpha = false ∧ letters s = [] := by
  unfold letters
  cases hc : c.isAlpha with
  | false => simp [hc]
  | true => simp [hc]

theorem letters_append_eq_nil {s t : List Char} :
    letters (s ++ t) = [] ↔ letters s = [] ∧ letters t = [] := by
  rw [letters_append, List.append_eq_nil_iff]

/-! ## Expressions without letters -/

section
variable {newline : Char → Prop}

theorem blind_anyChar (hline : ∀ c, newline c → c.isAlpha = false) :
    Blind Char.toLower (anyChar newline) := by
  refine blind_chars fun c d hcd hc hd => ?_
  rw [eq_of_toLower (hline d hd) hcd.symm] at hc
  exact hc hd

theorem blind_branches (hline : ∀ c, newline c → c.isAlpha = false) {r : Regex}
    (hr : letters r.text = []) :
    Blind Char.toLower (r.branches newline).1 ∧ Blind Char.toLower (r.branches newline).2 := by
  induction r with
  | nil => exact ⟨blind_one, blind_zero⟩
  | char c rest ih =>
      obtain ⟨hc, hrest⟩ := letters_cons_eq_nil.mp hr
      have hchar : Blind Char.toLower ({[c]} : Language Char) :=
        blind_char fun d hd => eq_of_toLower hc hd
      exact ⟨hchar.mul (ih hrest).1, (ih hrest).2⟩
  | opt c rest ih =>
      obtain ⟨hc, hmark⟩ := letters_cons_eq_nil.mp hr
      have hrest := (letters_cons_eq_nil.mp hmark).2
      have hchar : Blind Char.toLower ({[c]} : Language Char) :=
        blind_char fun d hd => eq_of_toLower hc hd
      exact ⟨(blind_one.add hchar).mul (ih hrest).1, (ih hrest).2⟩
  | dot n rest ih =>
      have hrest := (letters_append_eq_nil.mp (letters_cons_eq_nil.mp hr).2).2
      exact ⟨((blind_anyChar hline).times n).mul (ih hrest).1, (ih hrest).2⟩
  | group body n rest ihbody ih =>
      obtain ⟨hbody, hend⟩ := letters_append_eq_nil.mp (letters_cons_eq_nil.mp hr).2
      have hrest := (letters_append_eq_nil.mp (letters_cons_eq_nil.mp hend).2).2
      have hinner := (ihbody hbody).1.add (ihbody hbody).2
      exact ⟨(hinner.times n).mul (ih hrest).1, (ih hrest).2⟩
  | bar rest ih =>
      have hrest := (letters_cons_eq_nil.mp hr).2
      exact ⟨blind_one, (ih hrest).1.add (ih hrest).2⟩

theorem blind_language (hline : ∀ c, newline c → c.isAlpha = false) {r : Regex}
    (hr : letters r.text = []) : Blind Char.toLower (r.language newline) :=
  (blind_branches hline hr).1.add (blind_branches hline hr).2

/-! ## Literal expressions -/

namespace Literal

theorem induction {motive : Regex → Prop} (nil : motive nil)
    (char : ∀ c rest, motive rest → motive (char c rest))
    (opt : ∀ c rest, c.isAlpha = false → motive rest → motive (opt c rest)) {r : Regex}
    (hr : r.Literal) : motive r := by
  induction r with
  | nil => exact nil
  | char c rest ih => exact char c rest (ih hr)
  | opt c rest ih => exact opt c rest hr.1 (ih hr.2)
  | dot n rest => exact hr.elim
  | group body n rest => exact hr.elim
  | bar rest => exact hr.elim

theorem branches_snd {r : Regex} (hr : r.Literal) : (r.branches newline).2 = 0 := by
  refine hr.induction (motive := fun r => (r.branches newline).2 = 0) rfl ?_ ?_
  · intro c rest ih
    exact ih
  · intro c rest hc ih
    exact ih

theorem mem_language {r : Regex} (hr : r.Literal) {w : List Char} :
    w ∈ r.language newline ↔ w ∈ (r.branches newline).1 := by
  rw [language, hr.branches_snd, add_zero]

/-- All words have the letters of the expression. -/
theorem letters_branches {r : Regex} (hr : r.Literal) :
    ∀ w ∈ (r.branches newline).1, letters w = letters r.text := by
  refine hr.induction
    (motive := fun r => ∀ w ∈ (r.branches newline).1, letters w = letters r.text) ?_ ?_ ?_
  · intro w hw
    rw [(Language.mem_one w).mp hw]
    rfl
  · intro c rest ih w hw
    obtain ⟨a, ha, b, hb, rfl⟩ := Language.mem_mul.mp hw
    rw [Set.mem_singleton_iff.mp ha, letters_append, ih b hb, ← letters_append]
    rfl
  · intro c rest hc ih w hw
    obtain ⟨a, ha, b, hb, rfl⟩ := Language.mem_mul.mp hw
    have hopt : letters a = [] := by
      rcases ha with ha | ha
      · rw [(Language.mem_one a).mp ha]
        rfl
      · rw [Set.mem_singleton_iff.mp ha]
        exact letters_cons_eq_nil.mpr ⟨hc, rfl⟩
    have hmark : letters [c, '?'] = [] :=
      letters_cons_eq_nil.mpr ⟨hc, letters_cons_eq_nil.mpr ⟨rfl, rfl⟩⟩
    have htext : letters (c :: '?' :: rest.text) = letters rest.text :=
      (letters_append [c, '?'] rest.text).trans (by rw [hmark, List.nil_append])
    rw [letters_append, hopt, List.nil_append, ih b hb, text, htext]

theorem letters_word {r : Regex} (hr : r.Literal) {w : List Char}
    (hw : w ∈ r.language newline) : letters w = letters r.text :=
  hr.letters_branches w (hr.mem_language.mp hw)

theorem exists_word {r : Regex} (hr : r.Literal) (line : Char → Prop) :
    ∃ w, w ∈ r.language line := by
  simp only [hr.mem_language]
  refine hr.induction (motive := fun r => ∃ w, w ∈ (r.branches line).1) ?_ ?_ ?_
  · exact ⟨[], Language.nil_mem_one⟩
  · rintro c rest ⟨w, hw⟩
    exact ⟨[c] ++ w, Language.append_mem_mul (Set.mem_singleton _) hw⟩
  · rintro c rest hc ⟨w, hw⟩
    exact ⟨[] ++ w, Language.append_mem_mul (.inl Language.nil_mem_one) hw⟩

/-- Nothing to find in a text with the letters in the other case. -/
theorem letters_eq_nil {r : Regex} (hr : r.Literal) {s : List Char}
    (hs : letters s = (letters r.text).map swapCase) (hfound : s ∈ found (r.language newline)) :
    letters r.text = [] := by
  obtain ⟨w, hw, hin⟩ := hfound
  exact letters_eq_nil_of_infix (hr.letters_word hw) hs hin

/-- What it finds in a word of its own, it would find with the letters in the other case. -/
theorem letters_eq_nil_of_blind {r : Regex} (hr : r.Literal) {w : List Char}
    (hw : w ∈ r.language newline)
    (h : w.map swapCase ∈ found (r.language newline)) : letters r.text = [] := by
  refine hr.letters_eq_nil ?_ h
  rw [letters_swapCase, hr.letters_word hw]

end Literal

theorem blind_found_iff (hline : ∀ c, newline c → c.isAlpha = false) {r : Regex}
    (hr : r.Literal) :
    Blind Char.toLower (found (r.language newline)) ↔ letters r.text = [] := by
  refine ⟨fun h => ?_, fun h => (blind_language hline h).found⟩
  obtain ⟨w, hw⟩ := hr.exists_word newline
  exact hr.letters_eq_nil_of_blind hw (h (map_toLower_swapCase w).symm (mem_found_of_mem hw))

/-- All words of the one contain words of the other, or there are no letters. -/
theorem blind_sub_iff (hline : ∀ c, newline c → c.isAlpha = false) {r out : Regex}
    (hr : r.Literal) (hout : out.Literal) :
    Blind Char.toLower (found (r.language newline) - found (out.language newline)) ↔
      letters r.text = [] ∧ letters out.text = [] ∨
        ∀ w ∈ r.language newline, w ∈ found (out.language newline) := by
  constructor
  · intro h
    by_cases hhidden : ∀ w ∈ r.language newline, w ∈ found (out.language newline)
    · exact .inr hhidden
    push Not at hhidden
    obtain ⟨w, hw, hshown⟩ := hhidden
    have hletters : letters r.text = [] :=
      hr.letters_eq_nil_of_blind hw
        (h (map_toLower_swapCase w).symm ⟨mem_found_of_mem hw, hshown⟩).1
    refine .inl ⟨hletters, ?_⟩
    by_contra hne
    -- a word of both, and the same with the letters of the second in the other case
    obtain ⟨v, hv⟩ := hout.exists_word newline
    have hword : letters w = [] := (hr.letters_word hw).trans hletters
    have hswap : letters (w ++ v.map swapCase) = (letters out.text).map swapCase := by
      rw [letters_append, hword, List.nil_append, letters_swapCase, hout.letters_word hv]
    have hin : w ++ v.map swapCase ∈
        found (r.language newline) - found (out.language newline) :=
      ⟨⟨w, hw, [], v.map swapCase, rfl⟩, fun hfound => hne (hout.letters_eq_nil hswap hfound)⟩
    have hsame : (w ++ v.map swapCase).map Char.toLower = (w ++ v).map Char.toLower := by
      rw [List.map_append, List.map_append, map_toLower_swapCase]
    exact (h hsame hin).2 ⟨v, hv, List.infix_append_right⟩
  · rintro (⟨hletters, hnone⟩ | hhidden)
    · exact (blind_language hline hletters).found.sub (blind_language hline hnone).found
    · rintro s t - ⟨⟨w, hw, hin⟩, hnot⟩
      obtain ⟨v, hv, hvw⟩ := hhidden w hw
      exact absurd ⟨v, hv, hvw.trans hin⟩ hnot

end

/-! ## The expression of a text -/

theorem ofText_cons (c : Char) {s : List Char} (hs : s.head? ≠ some '?') :
    ofText (c :: s) = char c (ofText s) := by
  cases s with
  | nil => rfl
  | cons d s =>
      have hd : d ≠ '?' := fun heq => hs (congrArg some heq)
      rw [ofText, if_neg hd]

theorem head?_ne {s : List Char} (hs : '?' ∉ s) : s.head? ≠ some '?' :=
  fun h => hs (List.mem_of_mem_head? h)

theorem literal_ofText {s : List Char} (hs : '?' ∉ s) : (ofText s).Literal := by
  induction s with
  | nil => trivial
  | cons c s ih =>
      have hrest : '?' ∉ s := List.not_mem_of_not_mem_cons hs
      rw [ofText_cons c (head?_ne hrest)]
      exact ih hrest

/-- Without a question mark the text is the only word. -/
theorem mem_language_ofText {newline : Char → Prop} {s w : List Char} (hs : '?' ∉ s) :
    w ∈ (ofText s).language newline ↔ w = s := by
  rw [(literal_ofText hs).mem_language]
  induction s generalizing w with
  | nil => exact Language.mem_one w
  | cons c s ih =>
      have hrest : '?' ∉ s := List.not_mem_of_not_mem_cons hs
      rw [ofText_cons c (head?_ne hrest), branches, Language.mem_mul]
      constructor
      · rintro ⟨a, ha, b, hb, rfl⟩
        rw [Set.mem_singleton_iff.mp ha, (ih hrest).mp hb]
        rfl
      · rintro rfl
        exact ⟨[c], Set.mem_singleton _, s, (ih hrest).mpr rfl, rfl⟩

theorem text_ofText (s : List Char) : (ofText s).text = s := by
  fun_induction ofText s with
  | case1 => rfl
  | case2 c => rfl
  | case3 c cs ih => rw [text, ih]
  | case4 c d cs hd ih => rw [text, ih]

end Regex
