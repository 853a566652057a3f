/-
  Formatted reading of a text: numbers, lines, and the space around a text.

  A number is read behind the space before it, in base ten unless it begins like one of another
  base. What cannot belong to it stays in the text, so a number that was printed is read back
  whatever follows it, as long as that is no digit (`getNumber_toDigits`, `getNumber_negative`).
  A line is what comes before the line feed; the line feed is taken away with it.
-/
import Mathlib.Data.List.DropRight
import Mathlib.Data.List.TakeWhile
import Mathlib.Data.Nat.Digits.Defs
import Mathlib.Data.UInt
import ShoweqDaemon.Lib.Numeral

namespace TextStream

/-- What the reader knows of characters: which are space, and what a digit is worth, with what the
    results rest on. -/
structure CharClass where
  isSpace : Char → Bool
  digitValue : Char → Option ℕ
  digitValue_digitChar : ∀ d < 10, digitValue (Nat.digitChar d) = some d
  digitValue_space : ∀ c, isSpace c = true → digitValue c = none
  isSpace_blank : isSpace ' ' = true
  isSpace_lineFeed : isSpace '\n' = true
  isSpace_return : isSpace '\r' = true
  isSpace_minus : isSpace '-' = false

/-! ## Numbers -/

/-- A digit below `base`, in the letters of ASCII. -/
def asciiValue (base : ℕ) (c : Char) : Option ℕ :=
  let l := c.toLower
  let n := if c.isDigit = true then c.toNat - 48 else
    if 'a' ≤ l ∧ l ≤ 'f' then l.toNat - 87 else base
  if n < base then some n else none

/-- The digits at the beginning, as a number, and the text behind them. -/
def numeral (value : Char → Option ℕ) (base : UInt64) (text : List Char) :
    Option (UInt64 × List Char) :=
  let isDigit := fun c => (value c).isSome
  if text.takeWhile isDigit = [] then none
  else some ((text.takeWhile isDigit).foldl
    (fun val c => val * base + UInt64.ofNat ((value c).getD 0)) 0, text.dropWhile isDigit)

/-- The number behind the marks of its base; without a digit there the marks stay too. -/
def numberBehind (value : Char → Option ℕ) (base : UInt64) (marks rest : List Char) :
    Option UInt64 × List Char :=
  match numeral value base rest with
  | some r => (some r.1, r.2)
  | none => (none, marks ++ rest)

/-- A number with a minus sign; the sign is taken although no digit follows. -/
def negative (value : Char → Option ℕ) (rest : List Char) : Option UInt64 × List Char :=
  match numeral value 10 rest with
  | some r => (some (if 0 < r.1.toInt64 then -r.1 else r.1), r.2)
  | none => (none, rest)

/-- A number, if there is one, and the text that is left. -/
def getNumber (cls : CharClass) (text : List Char) : Option UInt64 × List Char :=
  match text.dropWhile cls.isSpace with
  | [] => (none, [])
  | c :: cs =>
      if c = '-' then negative cls.digitValue cs
      else if c = '+' then numberBehind cls.digitValue 10 [] cs
      else if c = '0' then
        match cs with
        | [] => (some 0, [])
        | c' :: cs' =>
            if c'.toLower = 'x' then numberBehind (asciiValue 16) 16 [c, c'] cs'
            else if c'.toLower = 'b' then numberBehind (asciiValue 2) 2 [c, c'] cs'
            else if ((cls.digitValue c').filter (· ≤ 7)).isSome then
              numberBehind (asciiValue 8) 8 [c] (c' :: cs')
            else numberBehind cls.digitValue 10 [] (c :: c' :: cs')
      else numberBehind cls.digitValue 10 [] (c :: cs)

/-! ## Lines -/

/-- The line at the beginning without its end, and the text behind it. -/
def readLine (text : List Char) : List Char × List Char :=
  let line := text.takeWhile (· ≠ '\n')
  (if line.getLast? = some '\r' then line.dropLast else line,
    (text.dropWhile (· ≠ '\n')).drop 1)

/-- No space around it and no line feed in it. -/
def OneLine (isSpace : Char → Bool) (text : List Char) : Prop :=
  Numeral.trim isSpace text = text ∧ '\n' ∉ text

instance (isSpace : Char → Bool) (text : List Char) : Decidable (OneLine isSpace text) :=
  inferInstanceAs (Decidable (_ ∧ _))

/-! ## Printed numbers -/

section
variable {cls : CharClass}

theorem digitValue_isSome_of_toDigits {n : ℕ} {c : Char} (hc : c ∈ Nat.toDigits 10 n) :
    (cls.digitValue c).isSome = true := by
  obtain ⟨d, hd, rfl⟩ := Numeral.digit_of_toDigits (by omega) n c hc
  rw [cls.digitValue_digitChar d hd]
  rfl

/-- The value of the printed digits. -/
theorem foldl_toDigits (n : ℕ) :
    (Nat.toDigits 10 n).foldl
      (fun val c => val * 10 + UInt64.ofNat ((cls.digitValue c).getD 0)) 0 = UInt64.ofNat n := by
  induction n using Nat.strongRecOn with
  | ind n ih =>
      by_cases h : n < 10
      · rw [Nat.toDigits_of_lt_base h]
        simp [cls.digitValue_digitChar n h]
      · have hmod : n % 10 < 10 := Nat.mod_lt n (by omega)
        rw [Nat.toDigits_of_base_le (by omega) (by omega), List.foldl_append,
          ih (n / 10) (by omega)]
        have hsum : n / 10 * 10 + n % 10 = n := Nat.div_add_mod' n 10
        calc UInt64.ofNat (n / 10) * 10 + UInt64.ofNat ((cls.digitValue
                (Nat.digitChar (n % 10))).getD 0)
            = UInt64.ofNat (n / 10 * 10 + n % 10) := by
              rw [cls.digitValue_digitChar _ hmod, UInt64.ofNat_add, UInt64.ofNat_mul]
              rfl
          _ = UInt64.ofNat n := by rw [hsum]

/-- A number does not begin with a zero unless it is zero. -/
theorem toDigits_head (n : ℕ) :
    ∃ d cs, d < 10 ∧ Nat.toDigits 10 n = Nat.digitChar d :: cs ∧ (d = 0 → n = 0 ∧ cs = []) := by
  induction n using Nat.strongRecOn with
  | ind n ih =>
      by_cases h : n < 10
      · exact ⟨n, [], h, Nat.toDigits_of_lt_base h, fun hn => ⟨hn, rfl⟩⟩
      · obtain ⟨d, cs, hd, heq, hzero⟩ := ih (n / 10) (by omega)
        refine ⟨d, cs ++ [Nat.digitChar (n % 10)], hd, ?_, ?_⟩
        · rw [Nat.toDigits_of_base_le (by omega) (by omega), heq, List.cons_append]
        · intro h0
          have hdiv := (hzero h0).1
          omega

/-- What a printed number may be followed by. -/
def Stops (rest : List Char) : Prop := ∃ c cs, rest = c :: cs ∧ (c = ' ' ∨ c = '\n')

theorem isSpace_of_stop {c : Char} (h : c = ' ' ∨ c = '\n') : cls.isSpace c = true := by
  rcases h with rfl | rfl
  · exact cls.isSpace_blank
  · exact cls.isSpace_lineFeed

theorem numeral_toDigits (n : ℕ) {rest : List Char} (hrest : Stops rest) :
    numeral cls.digitValue 10 (Nat.toDigits 10 n ++ rest) = some (UInt64.ofNat n, rest) := by
  obtain ⟨c, cs, rfl, hc⟩ := hrest
  have hstop : (cls.digitValue c).isSome = false := by
    rw [cls.digitValue_space c (isSpace_of_stop hc)]
    rfl
  have hall : ∀ d ∈ Nat.toDigits 10 n, (cls.digitValue d).isSome = true :=
    fun d hd => digitValue_isSome_of_toDigits hd
  have htake : (Nat.toDigits 10 n ++ c :: cs).takeWhile (fun c => (cls.digitValue c).isSome) =
      Nat.toDigits 10 n := by
    rw [List.takeWhile_append_of_pos hall, List.takeWhile_cons_of_neg (by simp [hstop]),
      List.append_nil]
  have hdrop : (Nat.toDigits 10 n ++ c :: cs).dropWhile (fun c => (cls.digitValue c).isSome) =
      c :: cs := by
    rw [List.dropWhile_append_of_pos hall, List.dropWhile_cons_of_neg (by simp [hstop])]
  unfold numeral
  simp only [htake, hdrop]
  rw [if_neg Nat.toDigits_ne_nil, foldl_toDigits]

theorem getNumber_space {c : Char} (h : cls.isSpace c = true) (text : List Char) :
    getNumber cls (c :: text) = getNumber cls text := by
  unfold getNumber
  rw [List.dropWhile_cons_of_pos h]

/-- A digit is not one of the marks. -/
theorem digitChar_ne_sign : ∀ d < 10, Nat.digitChar d ≠ '-' ∧ Nat.digitChar d ≠ '+' ∧
    (Nat.digitChar d = '0' → d = 0) := by
  decide

theorem isSpace_digitChar {d : ℕ} (hd : d < 10) : cls.isSpace (Nat.digitChar d) = false := by
  by_contra h
  have hnone := cls.digitValue_space _ (Bool.not_eq_false _ ▸ h)
  rw [cls.digitValue_digitChar d hd] at hnone
  cases hnone

theorem getNumber_toDigits (n : ℕ) {rest : List Char} (hrest : Stops rest) :
    getNumber cls (Nat.toDigits 10 n ++ rest) = (some (UInt64.ofNat n), rest) := by
  have hread : numeral cls.digitValue 10 (Nat.toDigits 10 n ++ rest) =
      some (UInt64.ofNat n, rest) := numeral_toDigits n hrest
  obtain ⟨d, cs, hd, heq, hzero⟩ := toDigits_head n
  obtain ⟨hminus, hplus, h0⟩ := digitChar_ne_sign d hd
  rw [heq, List.cons_append] at hread ⊢
  unfold getNumber
  rw [List.dropWhile_cons_of_neg (by simp [isSpace_digitChar hd])]
  dsimp only
  rw [if_neg hminus, if_neg hplus]
  by_cases hd0 : Nat.digitChar d = '0'
  · -- the digit is all of the number, and what stops it is no mark of a base
    obtain ⟨-, rfl⟩ := hzero (h0 hd0)
    obtain ⟨c, cs', rfl, hc⟩ := hrest
    have hdigit := cls.digitValue_space c (isSpace_of_stop hc)
    have hx : c.toLower ≠ 'x' ∧ c.toLower ≠ 'b' := by
      rcases hc with rfl | rfl <;> decide
    rw [if_pos hd0]
    dsimp only [List.nil_append]
    rw [if_neg hx.1, if_neg hx.2, hdigit, if_neg (by simp)]
    unfold numberBehind
    rw [List.nil_append] at hread
    rw [hread]
  · rw [if_neg hd0]
    unfold numberBehind
    rw [hread]

theorem getNumber_negative {n : ℕ} (hpos : 0 < n) (hn : n < 2 ^ 63) {rest : List Char}
    (hrest : Stops rest) :
    getNumber cls ('-' :: Nat.toDigits 10 n ++ rest) = (some (-(UInt64.ofNat n)), rest) := by
  have hsign : 0 < (UInt64.ofNat n).toInt64 := by
    rw [Int64.lt_iff_toInt_lt]
    have htoInt : (UInt64.ofNat n).toInt64.toInt = n := by
      show (UInt64.ofNat n).toBitVec.toInt = n
      rw [BitVec.toInt_eq_toNat_of_lt] <;> simp <;> omega
    rw [htoInt]
    simpa using hpos
  unfold getNumber negative
  rw [List.cons_append, List.dropWhile_cons_of_neg (by simp [cls.isSpace_minus])]
  dsimp only
  rw [if_pos rfl, numeral_toDigits n hrest]
  dsimp only
  rw [if_pos hsign]

end

/-! ## What is left -/

section
variable (cls : CharClass)

theorem numeral_length {value : Char → Option ℕ} {base : UInt64} {text : List Char}
    {r : UInt64 × List Char} (h : numeral value base text = some r) :
    r.2.length ≤ text.length := by
  unfold numeral at h
  dsimp only at h
  split at h
  · cases h
  · rw [← Option.some.inj h]
    exact List.length_dropWhile_le ..

theorem numberBehind_length (value : Char → Option ℕ) (base : UInt64) (marks rest : List Char) :
    (numberBehind value base marks rest).2.length ≤ (marks ++ rest).length := by
  unfold numberBehind
  cases h : numeral value base rest with
  | none => exact le_refl _
  | some r =>
      have hlen := numeral_length h
      rw [List.length_append]
      dsimp only
      omega

theorem negative_length (value : Char → Option ℕ) (rest : List Char) :
    (negative value rest).2.length ≤ rest.length := by
  unfold negative
  cases h : numeral value 10 rest with
  | none => exact le_refl _
  | some r => exact numeral_length h

theorem getNumber_length (text : List Char) :
    (getNumber cls text).2.length ≤ text.length := by
  have hskip : (text.dropWhile cls.isSpace).length ≤ text.length := List.length_dropWhile_le ..
  refine le_trans ?_ hskip
  unfold getNumber
  cases text.dropWhile cls.isSpace with
  | nil => exact le_refl _
  | cons c cs =>
      dsimp only
      split
      · exact le_trans (negative_length ..) (Nat.le_succ _)
      · split
        · exact le_trans (numberBehind_length ..) (Nat.le_succ _)
        · split
          · cases cs with
            | nil => exact Nat.zero_le _
            | cons c' cs' =>
                dsimp only
                split
                · exact numberBehind_length ..
                · split
                  · exact numberBehind_length ..
                  · split <;> exact numberBehind_length ..
          · exact numberBehind_length ..

end

/-! ## Lines and the space around them -/

theorem readLine_length {text : List Char} (h : text ≠ []) :
    (readLine text).2.length < text.length := by
  unfold readLine
  dsimp only
  rw [List.length_drop]
  have hle := List.length_dropWhile_le (fun c => decide (c ≠ '\n')) text
  have hpos := List.length_pos_of_ne_nil h
  omega

theorem readLine_append {line : List Char} (h : '\n' ∉ line) (rest : List Char) :
    readLine (line ++ '\n' :: rest) =
      (if line.getLast? = some '\r' then line.dropLast else line, rest) := by
  have hall : ∀ c ∈ line, decide (c ≠ '\n') = true := by
    intro c hc
    exact decide_eq_true fun heq => h (heq ▸ hc)
  unfold readLine
  rw [List.takeWhile_append_of_pos hall, List.dropWhile_append_of_pos hall,
    List.takeWhile_cons_of_neg (by simp), List.dropWhile_cons_of_neg (by simp),
    List.append_nil]
  rfl

theorem lineFeed_not_mem_readLine (text : List Char) : '\n' ∉ (readLine text).1 := by
  have htake : '\n' ∉ text.takeWhile (· ≠ '\n') := by
    intro h
    simpa using List.mem_takeWhile_imp h
  unfold readLine
  dsimp only
  split
  · exact fun h => htake (List.dropLast_subset _ h)
  · exact htake

section
variable {isSpace : Char → Bool}

theorem trim_space {c : Char} (h : isSpace c = true) (text : List Char) :
    Numeral.trim isSpace (c :: text) = Numeral.trim isSpace text := by
  unfold Numeral.trim
  rw [List.dropWhile_cons_of_pos h]

theorem trim_sublist (text : List Char) : (Numeral.trim isSpace text).Sublist text := by
  unfold Numeral.trim
  rw [← List.reverse_sublist, List.reverse_reverse]
  refine (List.dropWhile_sublist _).trans ?_
  exact (List.dropWhile_sublist _).reverse

theorem trim_trim (text : List Char) :
    Numeral.trim isSpace (Numeral.trim isSpace text) = Numeral.trim isSpace text := by
  -- what is left of a beginning without space has none there either
  have hfront : (Numeral.trim isSpace text).dropWhile isSpace = Numeral.trim isSpace text := by
    rw [List.dropWhile_eq_self_iff]
    intro hl
    have hpre : Numeral.trim isSpace text <+: text.dropWhile isSpace := List.rdropWhile_prefix ..
    have hd := List.dropWhile_eq_self_iff.mp (List.dropWhile_idempotent isSpace text)
    have hle := hpre.length_le
    have hget := hpre.getElem hl
    rw [hget]
    exact hd (by omega)
  have hback : (Numeral.trim isSpace text).rdropWhile isSpace = Numeral.trim isSpace text :=
    List.rdropWhile_idempotent ..
  calc Numeral.trim isSpace (Numeral.trim isSpace text)
      = ((Numeral.trim isSpace text).dropWhile isSpace).rdropWhile isSpace := rfl
    _ = Numeral.trim isSpace text := by rw [hfront, hback]

/-- A text without space around it does not end in one. -/
theorem not_space_of_last {text : List Char} {c : Char} (h : Numeral.trim isSpace text = text)
    (hlast : text.getLast? = some c) : isSpace c = false := by
  have hfront : text.dropWhile isSpace = text := by
    have hlen : text.length ≤ (text.dropWhile isSpace).length := by
      have hle : (Numeral.trim isSpace text).length ≤ (text.dropWhile isSpace).length :=
        (List.rdropWhile_prefix ..).length_le
      rwa [h] at hle
    exact (List.dropWhile_suffix isSpace).eq_of_length_le hlen
  have hback : text.rdropWhile isSpace = text := by
    have heq : (text.dropWhile isSpace).rdropWhile isSpace = text := h
    rwa [hfront] at heq
  have hne : text ≠ [] := by
    rintro rfl
    cases hlast
  have hnot := List.rdropWhile_eq_self_iff.mp hback hne
  rw [List.getLast?_eq_some_getLast hne] at hlast
  rw [← Option.some.inj hlast]
  exact Bool.not_eq_true _ ▸ hnot

/-- The end of a line takes nothing from a text without space around it. -/
theorem readLine_oneLine {name : List Char} {c : Char} (hn : c ≠ '\n') (hr : c ≠ '\r')
    (hreturn : isSpace '\r' = true) (h : OneLine isSpace name) (rest : List Char) :
    readLine (c :: name ++ '\n' :: rest) = (c :: name, rest) := by
  have hline : '\n' ∉ c :: name := by
    simp [h.2, Ne.symm hn]
  rw [readLine_append hline, if_neg]
  intro hlast
  cases hname : name with
  | nil =>
      rw [hname] at hlast
      exact hr (Option.some.inj hlast)
  | cons d ds =>
      rw [List.getLast?_cons_of_ne_nil (by simp [hname])] at hlast
      have hspace := not_space_of_last h.1 hlast
      rw [hreturn] at hspace
      cases hspace

end

end TextStream
