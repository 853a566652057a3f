/-
  The text between the quotes of an attribute.

  `encode` writes a value, `decode` reads it. A '>' is written as it is unless "]]" stands in
  front, so a writer that afterwards puts a line feed behind every "-->" of the document puts it
  into values, too: `decode_arrows_encode` says what is read then. `arrows_injective`: different
  values stay different. `arrows_eq_iff`: only values without "-->" stay what they were.
-/
import Mathlib.Data.List.Infix

namespace AttributeText

/-- A text as its characters. -/
abbrev Text := List Char

/-! ## Writing -/

/-- The characters that do not stand for themselves in a value, with their references. -/
def references : List (Char × Text) :=
  [('<', "lt".toList), ('>', "gt".toList), (Char.ofNat 34, "quot".toList), ('&', "amp".toList),
    ('\n', "#xa".toList), ('\r', "#xd".toList), ('\t', "#x9".toList)]

/-- One character behind `brackets` closing brackets: a '>' is written as it is unless two of them
    stand in front, the others with a reference by their reference. -/
def escape (brackets : ℕ) (c : Char) : Text :=
  if c = '>' ∧ brackets < 2 then [c]
  else
    match references.lookup c with
    | some name => '&' :: name ++ [';']
    | none => [c]

/-- The text as a writer puts it between the quotes. `brackets` counts the closing brackets in
    front. -/
def encode (brackets : ℕ) : Text → Text
  | [] => []
  | c :: cs => escape brackets c ++ encode (if c = ']' then brackets + 1 else 0) cs

/-- `x` behind every "-->", of which `dashes` dashes have been seen. -/
def arrows (x : Char) (dashes : ℕ) : Text → Text
  | [] => []
  | c :: cs =>
      if c = '>' ∧ 2 ≤ dashes then c :: x :: arrows x 0 cs
      else c :: arrows x (if c = '-' then dashes + 1 else 0) cs

/-! ## Reading -/

/-- The character that a reference of `encode` names. -/
def resolve (name : Text) : Text :=
  match references.find? fun r => r.2 = name with
  | some r => [r.1]
  | none => []

/-- `ref` is the beginning of a reference; a line feed is read as `lineFeed`. -/
def decode (lineFeed : Char) (ref : Option Text) : Text → Text
  | [] => []
  | c :: cs =>
      match ref with
      | some name =>
          if c = ';' then resolve name ++ decode lineFeed none cs
          else decode lineFeed (some (name ++ [c])) cs
      | none =>
          if c = '&' then decode lineFeed (some []) cs
          else (if c = '\n' then lineFeed else c) :: decode lineFeed none cs

/-! ## Values that were written -/

/-- Either a character stands for itself or it has a reference without dashes and arrows. -/
theorem escape_cases (brackets : ℕ) (c : Char) :
    (escape brackets c = [c] ∧ c ≠ '&' ∧ c ≠ '\n') ∨
      ∃ name, escape brackets c = '&' :: name ++ [';'] ∧ resolve name = [c] ∧ ';' ∉ name ∧
        '>' ∉ name ∧ c ≠ '-' ∧ (c = '>' → 2 ≤ brackets) := by
  unfold escape
  split
  · rename_i hplain
    left
    rw [hplain.1]
    decide
  · rename_i hescape
    have harrow : c = '>' → 2 ≤ brackets := by
      intro hc
      by_contra hlt
      exact hescape ⟨hc, by omega⟩
    split
    · rename_i name hlookup
      right
      have hmem : (c, name) ∈ references := by
        obtain ⟨before, after, heq, -⟩ := List.lookup_eq_some_iff.mp hlookup
        rw [heq]
        exact List.mem_append_right before List.mem_cons_self
      have hall : ∀ r ∈ references, resolve r.2 = [r.1] ∧ ';' ∉ r.2 ∧ '>' ∉ r.2 ∧ r.1 ≠ '-' := by
        decide
      obtain ⟨hresolve, hend, hgt, hdash⟩ := hall _ hmem
      exact ⟨name, rfl, hresolve, hend, hgt, hdash, harrow⟩
    · rename_i hlookup
      left
      refine ⟨rfl, ?_, ?_⟩
      · rintro rfl
        exact absurd hlookup (by decide)
      · rintro rfl
        exact absurd hlookup (by decide)

/-- A reference is read to its end. -/
theorem decode_reference (lineFeed : Char) (name : Text) (hend : ';' ∉ name) (read rest : Text) :
    decode lineFeed (some read) (name ++ ';' :: rest) =
      resolve (read ++ name) ++ decode lineFeed none rest := by
  induction name generalizing read with
  | nil =>
      rw [List.nil_append, decode, List.append_nil]
      exact if_pos rfl
  | cons c cs ih =>
      have hc : c ≠ ';' := fun h => hend (h ▸ List.mem_cons_self)
      have hcs := ih (fun h => hend (List.mem_cons_of_mem c h)) (read ++ [c])
      rw [List.append_assoc] at hcs
      rw [List.cons_append, decode]
      exact (if_neg hc).trans hcs

/-- Text without '>' is passed; only dashes at its end count behind it. -/
theorem arrows_append (x : Char) (dashes : ℕ) {s : Text} (hs : '>' ∉ s) (c : Char) (hc : c ≠ '-')
    (hgt : c ≠ '>') (rest : Text) :
    arrows x dashes (s ++ c :: rest) = s ++ c :: arrows x 0 rest := by
  induction s generalizing dashes with
  | nil => rw [List.nil_append, arrows, if_neg fun h => hgt h.1, if_neg hc, List.nil_append]
  | cons d ds ih =>
      have hd : d ≠ '>' := fun h => hs (h ▸ List.mem_cons_self)
      rw [List.cons_append, arrows, if_neg fun h => hd h.1,
        ih _ fun h => hs (List.mem_cons_of_mem d h), List.cons_append]

/-- What is read of a value that was written before a line feed came behind every "-->". -/
theorem decode_arrows_encode (lineFeed : Char) (s : Text) (brackets dashes : ℕ)
    (h : brackets = 0 ∨ dashes = 0) :
    decode lineFeed none (arrows '\n' dashes (encode brackets s)) = arrows lineFeed dashes s := by
  induction s generalizing brackets dashes with
  | nil => rfl
  | cons c cs ih =>
      rw [encode, arrows]
      rcases escape_cases brackets c with ⟨hplain, hamp, hlf⟩ | ⟨name, hname, hresolve, hend, hgt,
        hdash, harrow⟩
      · rw [hplain, List.singleton_append, arrows]
        split
        · rename_i hfound
          have hbracket : c ≠ ']' := by
            rw [hfound.1]
            decide
          rw [decode, if_neg hbracket, if_neg hamp, if_neg hlf, decode, if_neg (by decide),
            if_pos rfl, ih 0 0 (Or.inl rfl)]
        · rw [decode, if_neg hamp, if_neg hlf, ih]
          by_cases hbracket : c = ']'
          · right
            rw [if_neg]
            rw [hbracket]
            decide
          · exact Or.inl (if_neg hbracket)
      · have hnot : ¬ (c = '>' ∧ 2 ≤ dashes) := by
          rintro ⟨hc, hdashes⟩
          have hbrackets := harrow hc
          omega
        have hpass : ∀ rest, arrows '\n' dashes ('&' :: name ++ [';'] ++ rest) =
            '&' :: name ++ ';' :: arrows '\n' 0 rest := by
          intro rest
          have hmem : '>' ∉ '&' :: name := by
            intro hmem
            rcases List.mem_cons.mp hmem with heq | hmem
            · exact absurd heq (by decide)
            · exact hgt hmem
          rw [List.append_assoc, List.singleton_append]
          exact arrows_append '\n' dashes hmem ';' (by decide) (by decide) rest
        rw [hname, hpass, if_neg hnot, if_neg hdash, List.cons_append, decode, if_pos rfl,
          decode_reference lineFeed name hend, List.nil_append, hresolve, List.singleton_append,
          ih _ 0 (Or.inr rfl)]

/-! ## A character behind every arrow -/

theorem sublist_arrows (x : Char) (dashes : ℕ) (s : Text) : s.Sublist (arrows x dashes s) := by
  induction s generalizing dashes with
  | nil => exact List.Sublist.refl _
  | cons c cs ih =>
      rw [arrows]
      split
      · exact ((ih 0).cons x).cons_cons c
      · exact (ih _).cons_cons c

/-- Without '>' there is no arrow. -/
theorem arrows_of_notMem (x : Char) (dashes : ℕ) {s : Text} (h : '>' ∉ s) :
    arrows x dashes s = s := by
  induction s generalizing dashes with
  | nil => rfl
  | cons c cs ih =>
      have hc : c ≠ '>' := fun heq => h (heq ▸ List.mem_cons_self)
      rw [arrows, if_neg fun hfound => hc hfound.1, ih _ fun hcs => h (List.mem_cons_of_mem c hcs)]

theorem arrows_injective (x : Char) (dashes : ℕ) {s t : Text}
    (h : arrows x dashes s = arrows x dashes t) : s = t := by
  induction s generalizing dashes t with
  | nil =>
      cases t with
      | nil => rfl
      | cons d ds =>
          have hlength := congrArg List.length h
          have hle := (sublist_arrows x dashes (d :: ds)).length_le
          rw [← hlength] at hle
          exact absurd hle (by simp [arrows])
  | cons c cs ih =>
      cases t with
      | nil =>
          have hlength := congrArg List.length h
          have hle := (sublist_arrows x dashes (c :: cs)).length_le
          rw [hlength] at hle
          exact absurd hle (by simp [arrows])
      | cons d ds =>
          have hhead : ∀ (e : Char) (es : Text),
              (arrows x dashes (e :: es)).head? = some e := by
            intro e es
            rw [arrows]
            split <;> rfl
          have hcd : c = d := Option.some.inj (by rw [← hhead c cs, ← hhead d ds, h])
          subst hcd
          rw [arrows, arrows] at h
          split at h
          · rw [ih 0 (List.cons.inj (List.cons.inj h).2).2]
          · rw [ih _ (List.cons.inj h).2]

/-- The three characters of an arrow do not begin among dashes that something else follows. -/
theorem arrow_behind {dashes : ℕ} {c : Char} (hc : c ≠ '-') (hgt : ¬ (c = '>' ∧ 2 ≤ dashes))
    {cs : Text} (h : ['-', '-', '>'] <:+: List.replicate dashes '-' ++ c :: cs) :
    ['-', '-', '>'] <:+: cs := by
  induction dashes with
  | zero =>
      rcases List.infix_cons_iff.mp h with hprefix | hinfix
      · exact absurd (List.cons_prefix_cons.mp hprefix).1.symm hc
      · exact hinfix
  | succ n ih =>
      have hfew : ¬ (c = '>' ∧ 2 ≤ n) := fun hfound => hgt ⟨hfound.1, by omega⟩
      rw [List.replicate_succ, List.cons_append] at h
      rcases List.infix_cons_iff.mp h with hprefix | hinfix
      · have hsecond := (List.cons_prefix_cons.mp hprefix).2
        cases n with
        | zero => exact absurd (List.cons_prefix_cons.mp hsecond).1.symm hc
        | succ m =>
            rw [List.replicate_succ, List.cons_append] at hsecond
            have hthird := (List.cons_prefix_cons.mp hsecond).2
            cases m with
            | zero => exact absurd ⟨(List.cons_prefix_cons.mp hthird).1.symm, by omega⟩ hgt
            | succ k =>
                rw [List.replicate_succ, List.cons_append] at hthird
                exact absurd (List.cons_prefix_cons.mp hthird).1 (by decide)
      · exact ih hfew hinfix

/-- A text stays as it is exactly if it has no arrow, the dashes in front of it included. -/
theorem arrows_eq_iff_dashes (x : Char) (dashes : ℕ) (s : Text) :
    arrows x dashes s = s ↔ ¬ ['-', '-', '>'] <:+: List.replicate dashes '-' ++ s := by
  induction s generalizing dashes with
  | nil =>
      refine iff_of_true rfl fun h => ?_
      have hmem : '>' ∈ List.replicate dashes '-' ++ [] := h.subset (by decide)
      rw [List.append_nil] at hmem
      exact absurd (List.eq_of_mem_replicate hmem) (by decide)
  | cons c cs ih =>
      rw [arrows]
      by_cases hfound : c = '>' ∧ 2 ≤ dashes
      · rw [if_pos hfound]
        refine iff_of_false (fun h => ?_) (not_not_intro ?_)
        · have hlength := congrArg List.length h
          have hle := (sublist_arrows x 0 cs).length_le
          rw [List.length_cons, List.length_cons, List.length_cons] at hlength
          omega
        · obtain ⟨n, rfl⟩ : ∃ n, dashes = n + 2 := ⟨dashes - 2, by omega⟩
          refine ⟨List.replicate n '-', cs, ?_⟩
          rw [List.replicate_add, hfound.1, List.append_assoc, List.append_assoc]
          rfl
      · rw [if_neg hfound, List.cons_eq_cons, and_iff_right rfl, ih]
        by_cases hc : c = '-'
        · rw [if_pos hc, hc, List.replicate_succ', List.append_assoc, List.singleton_append]
        · rw [if_neg hc, List.replicate_zero, List.nil_append]
          refine not_congr ⟨fun h => ?_, arrow_behind hc hfound⟩
          exact h.trans ((List.suffix_cons c cs).isInfix.trans (List.suffix_append _ _).isInfix)

theorem arrows_eq_iff (x : Char) (s : Text) :
    arrows x 0 s = s ↔ ¬ ['-', '-', '>'] <:+: s := arrows_eq_iff_dashes x 0 s

end AttributeText
