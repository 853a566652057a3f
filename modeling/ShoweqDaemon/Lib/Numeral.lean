/-
  A text that is an integer in a base from 2 to 36, with a sign or a mark of its base.

  Base 0 asks the text for its base: sixteen behind "0x", eight behind "0", else ten. A printed
  number is read back as what it was, also with zeros in front.

  White space around the number is dropped (`trim`); what else the text holds makes it no number.
  `natural` refuses a minus sign, `ushort` what is above 65535 as well.

  Proved:
  * `natural_printPadded`: printed in a base up to 16, with any number of zeros in front, and read
    back; `natural_toDigits`, `integer_printInt`: the same in base ten, the latter with a sign.
  * `integer_chars`, `natural_chars`: a text that is a number has digits and at most one sign.
  * `toDigits_injective`, `toDigits_append_inj`: different numbers have different digits, also
    where a text follows that begins with none.
-/
import Mathlib.Algebra.Order.Ring.Int
import Mathlib.Data.Nat.Digits.Defs

namespace Numeral

/-! ## Reading -/

/-- The value of a digit or a letter, in whatever case. -/
def digitValue (c : Char) : Option ℕ :=
  if '0' ≤ c ∧ c ≤ '9' then some (c.toNat - 48)
  else if 'a' ≤ c ∧ c ≤ 'z' then some (c.toNat - 87)
  else if 'A' ≤ c ∧ c ≤ 'Z' then some (c.toNat - 55)
  else none

/-- One more digit. -/
def addDigit (base n : ℕ) (c : Char) : Option ℕ :=
  (digitValue c).bind fun d => if d < base then some (n * base + d) else none

/-- The number that the text consists of; an empty text is none. -/
def digits (base : ℕ) (text : List Char) : Option ℕ :=
  if text = [] then none else text.foldlM (addDigit base) 0

/-- The digits behind the mark of their base. -/
def magnitude (base : ℕ) (text : List Char) : Option ℕ :=
  match text with
  | '0' :: x :: rest =>
      if (base = 16 ∨ base = 0) ∧ (x = 'x' ∨ x = 'X') then digits 16 rest
      else digits (if base = 0 then 8 else base) text
  | _ => digits (if base = 0 then 10 else base) text

/-- A base that is none is taken as ten. -/
def validBase (base : ℤ) : ℕ := if base = 0 ∨ 2 ≤ base ∧ base ≤ 36 then base.toNat else 10

/-- The text without the space around it. -/
def trim (isSpace : Char → Bool) (text : List Char) : List Char :=
  ((text.dropWhile isSpace).reverse.dropWhile isSpace).reverse

/-- A number with a sign or without, space around it ignored. -/
def integer (isSpace : Char → Bool) (base : ℤ) (text : List Char) : Option ℤ :=
  match trim isSpace text with
  | '-' :: rest => (magnitude (validBase base) rest).map fun n : ℕ => -(n : ℤ)
  | '+' :: rest => (magnitude (validBase base) rest).map Int.ofNat
  | rest => (magnitude (validBase base) rest).map Int.ofNat

/-- A number without a minus sign. -/
def natural (isSpace : Char → Bool) (base : ℤ) (text : List Char) : Option ℕ :=
  match trim isSpace text with
  | '+' :: rest => magnitude (validBase base) rest
  | rest => magnitude (validBase base) rest

/-- A number of 16 bits without a minus sign; one that is larger is none. -/
def ushort (isSpace : Char → Bool) (base : ℤ) (text : List Char) : Option UInt16 :=
  ((natural isSpace base text).filter fun n => n < 2 ^ 16).map UInt16.ofNat

/-! ## Printing -/

/-- An integer in base ten. -/
def printInt (i : ℤ) : List Char :=
  if i < 0 then '-' :: Nat.toDigits 10 i.natAbs else Nat.toDigits 10 i.natAbs

theorem printInt_natCast (n : ℕ) : printInt n = Nat.toDigits 10 n :=
  if_neg (Int.not_lt.mpr (Int.natCast_nonneg n))

/-- At least `width` digits. -/
def printPadded (base width n : ℕ) : List Char :=
  List.replicate (width - (Nat.toDigits base n).length) '0' ++ Nat.toDigits base n

theorem printPadded_zero (base n : ℕ) : printPadded base 0 n = Nat.toDigits base n := by
  rw [printPadded, Nat.zero_sub, List.replicate_zero, List.nil_append]

/-! ## Printed numbers -/

theorem digitValue_digitChar : ∀ d < 16, digitValue (Nat.digitChar d) = some d := by decide

theorem digitChar_ne : ∀ d < 16, Nat.digitChar d ≠ 'x' ∧ Nat.digitChar d ≠ 'X' ∧
    Nat.digitChar d ≠ '-' ∧ Nat.digitChar d ≠ '+' := by decide

section
variable {base : ℕ} (hlow : 1 < base)
include hlow

theorem digit_of_toDigits (n : ℕ) :
    ∀ c ∈ Nat.toDigits base n, ∃ d < base, c = Nat.digitChar d := by
  induction n using Nat.strongRecOn with
  | ind n ih =>
      intro c hc
      by_cases h : n < base
      · rw [Nat.toDigits_of_lt_base h] at hc
        exact ⟨n, h, List.mem_singleton.mp hc⟩
      · rw [Nat.toDigits_of_base_le hlow (by omega)] at hc
        rcases List.mem_append.mp hc with hc | hc
        · exact ih (n / base) (Nat.div_lt_self (by omega) hlow) c hc
        · exact ⟨n % base, Nat.mod_lt n (by omega), List.mem_singleton.mp hc⟩

variable (hhigh : base ≤ 16)
include hhigh

/-- The printed digits behind zeros. -/
theorem foldlM_toDigits (n : ℕ) : (Nat.toDigits base n).foldlM (addDigit base) 0 = some n := by
  induction n using Nat.strongRecOn with
  | ind n ih =>
      by_cases h : n < base
      · rw [Nat.toDigits_of_lt_base h]
        simp [addDigit, digitValue_digitChar n (by omega), h]
      · have hmod : n % base < base := Nat.mod_lt n (by omega)
        have hdigit : digitValue (Nat.digitChar (n % base)) = some (n % base) :=
          digitValue_digitChar _ (by omega)
        rw [Nat.toDigits_of_base_le hlow (by omega), List.foldlM_append,
          ih (n / base) (Nat.div_lt_self (by omega) hlow)]
        simp [addDigit, hdigit, hmod, Nat.div_add_mod']

theorem digits_printPadded (width n : ℕ) : digits base (printPadded base width n) = some n := by
  have hzeros : ∀ k, (List.replicate k '0').foldlM (addDigit base) 0 = some 0 := by
    intro k
    induction k with
    | zero => rfl
    | succ k ih =>
        have hzero : addDigit base 0 '0' = some 0 := by
          have hvalue : digitValue '0' = some 0 := by decide
          simp [addDigit, hvalue, Nat.lt_of_lt_of_le Nat.zero_lt_one hlow.le]
        rw [List.replicate_succ, List.foldlM_cons, hzero]
        exact ih
  have hne : printPadded base width n ≠ [] :=
    List.append_ne_nil_of_right_ne_nil _ Nat.toDigits_ne_nil
  rw [digits, if_neg hne, printPadded, List.foldlM_append, hzeros]
  exact foldlM_toDigits hlow hhigh n

/-- The characters of a printed number. -/
theorem digit_of_printPadded {width n : ℕ} {c : Char} (hc : c ∈ printPadded base width n) :
    ∃ d < 16, c = Nat.digitChar d := by
  rcases List.mem_append.mp hc with hc | hc
  · exact ⟨0, by omega, List.eq_of_mem_replicate hc⟩
  · obtain ⟨d, hd, hchar⟩ := digit_of_toDigits hlow n c hc
    exact ⟨d, by omega, hchar⟩

/-- A printed number has no mark. -/
theorem magnitude_printPadded (width n : ℕ) :
    magnitude base (printPadded base width n) = some n := by
  have hdigits := digits_printPadded hlow hhigh width n
  have hbase : base ≠ 0 := by omega
  unfold magnitude
  split
  · rename_i x rest heq
    have hx : x ∈ printPadded base width n := by
      rw [heq]
      exact List.mem_cons_of_mem _ List.mem_cons_self
    obtain ⟨d, hd, rfl⟩ := digit_of_printPadded hlow hhigh hx
    obtain ⟨hlower, hupper, -⟩ := digitChar_ne d hd
    rw [if_neg fun h => h.2.elim hlower hupper, if_neg hbase]
    exact hdigits
  · rw [if_neg hbase]
    exact hdigits

end

/-! ## Space -/

theorem dropWhile_of_forall {isSpace : Char → Bool} {text : List Char}
    (h : ∀ c ∈ text, isSpace c = false) : text.dropWhile isSpace = text := by
  cases text with
  | nil => rfl
  | cons c cs =>
      have hc : ¬ isSpace c = true := by simp [h c List.mem_cons_self]
      exact List.dropWhile_cons_of_neg hc

/-- A text without space stays. -/
theorem trim_of_forall {isSpace : Char → Bool} {text : List Char}
    (h : ∀ c ∈ text, isSpace c = false) : trim isSpace text = text := by
  unfold trim
  rw [dropWhile_of_forall h, dropWhile_of_forall fun c hc => h c (List.mem_reverse.mp hc),
    List.reverse_reverse]

theorem mem_dropWhile {isSpace : Char → Bool} {text : List Char} {c : Char} (hc : c ∈ text)
    (hspace : isSpace c = false) : c ∈ text.dropWhile isSpace := by
  rw [← List.takeWhile_append_dropWhile (p := isSpace) (l := text)] at hc
  rcases List.mem_append.mp hc with hc | hc
  · rw [List.all_eq_true.mp List.all_takeWhile c hc] at hspace
    exact absurd hspace.symm Bool.false_ne_true
  · exact hc

/-- What is no space is not taken away. -/
theorem mem_trim {isSpace : Char → Bool} {text : List Char} {c : Char} (hc : c ∈ text)
    (hspace : isSpace c = false) : c ∈ trim isSpace text := by
  have hfront : c ∈ (text.dropWhile isSpace).reverse :=
    List.mem_reverse.mpr (mem_dropWhile hc hspace)
  exact List.mem_reverse.mpr (mem_dropWhile hfront hspace)

/-! ## What a number consists of -/

theorem digits_isSome {base : ℕ} {text : List Char} {n : ℕ} (h : digits base text = some n) :
    ∀ c ∈ text, (digitValue c).isSome = true := by
  have hfold : ∀ (text : List Char) (m : ℕ), (text.foldlM (addDigit base) m).isSome = true →
      ∀ c ∈ text, (digitValue c).isSome = true := by
    intro text
    induction text with
    | nil => exact fun _ _ c hc => absurd hc List.not_mem_nil
    | cons d ds ih =>
        intro m hm c hc
        rw [List.foldlM_cons] at hm
        cases hvalue : digitValue d with
        | none =>
            have hadd : addDigit base m d = none := by rw [addDigit, hvalue, Option.bind_none]
            rw [hadd] at hm
            exact absurd hm Bool.false_ne_true
        | some v =>
            rcases List.mem_cons.mp hc with rfl | hc
            · rw [hvalue]
              rfl
            · cases hadd : addDigit base m d with
              | none =>
                  rw [hadd] at hm
                  exact absurd hm Bool.false_ne_true
              | some m' =>
                  rw [hadd] at hm
                  exact ih m' hm c hc
  unfold digits at h
  split at h
  · exact absurd h (Option.some_ne_none n).symm
  · exact hfold text 0 (by rw [h]; rfl)

theorem magnitude_isSome {base : ℕ} {text : List Char} {n : ℕ} (h : magnitude base text = some n) :
    ∀ c ∈ text, (digitValue c).isSome = true := by
  unfold magnitude at h
  split at h
  · rename_i x rest
    split at h
    · rename_i hmark
      have hx : (digitValue x).isSome = true := by
        rcases hmark.2 with rfl | rfl <;> decide
      intro c hc
      rcases List.mem_cons.mp hc with rfl | hc
      · decide
      · rcases List.mem_cons.mp hc with rfl | hc
        · exact hx
        · exact digits_isSome h c hc
    · exact digits_isSome h
  · exact digits_isSome h

/-- Of what is no space a number has its sign and its digits. -/
theorem integer_chars {isSpace : Char → Bool} {base : ℤ} {text : List Char} {i : ℤ}
    (h : integer isSpace base text = some i) {c : Char} (hc : c ∈ text)
    (hspace : isSpace c = false) : c = '-' ∨ c = '+' ∨ (digitValue c).isSome = true := by
  have hmem := mem_trim hc hspace
  have hmap : ∀ {f : ℕ → ℤ} {rest : List Char}, (magnitude (validBase base) rest).map f = some i →
      c ∈ rest → (digitValue c).isSome = true := by
    intro f rest hi hrest
    obtain ⟨n, hn, -⟩ := Option.map_eq_some_iff.mp hi
    exact magnitude_isSome hn c hrest
  unfold integer at h
  split at h
  · rename_i rest htrim
    rw [htrim] at hmem
    exact (List.mem_cons.mp hmem).imp_right fun hrest => Or.inr (hmap h hrest)
  · rename_i rest htrim
    rw [htrim] at hmem
    exact Or.inr ((List.mem_cons.mp hmem).imp_right fun hrest => hmap h hrest)
  · exact Or.inr (Or.inr (hmap h hmem))

theorem natural_chars {isSpace : Char → Bool} {base : ℤ} {text : List Char} {n : ℕ}
    (h : natural isSpace base text = some n) {c : Char} (hc : c ∈ text)
    (hspace : isSpace c = false) : c = '+' ∨ (digitValue c).isSome = true := by
  have hmem := mem_trim hc hspace
  unfold natural at h
  split at h
  · rename_i rest htrim
    rw [htrim] at hmem
    exact (List.mem_cons.mp hmem).imp_right fun hrest => magnitude_isSome h c hrest
  · exact Or.inr (magnitude_isSome h c hmem)

/-! ## What was printed is read -/

section
variable {isSpace : Char → Bool} (hspace : ∀ d < 16, isSpace (Nat.digitChar d) = false)
include hspace

theorem natural_printPadded {base : ℕ} (hlow : 1 < base) (hhigh : base ≤ 16) (width n : ℕ) :
    natural isSpace base (printPadded base width n) = some n := by
  have hdigit : ∀ c ∈ printPadded base width n, ∃ d < 16, c = Nat.digitChar d :=
    fun c hc => digit_of_printPadded hlow hhigh hc
  have htrim : trim isSpace (printPadded base width n) = printPadded base width n := by
    refine trim_of_forall fun c hc => ?_
    obtain ⟨d, hd, rfl⟩ := hdigit c hc
    exact hspace d hd
  have hbase : validBase base = base := if_pos (Or.inr ⟨by omega, by omega⟩)
  unfold natural
  rw [htrim, hbase]
  split
  · rename_i rest heq
    have hplus : '+' ∈ printPadded base width n := heq ▸ List.mem_cons_self
    obtain ⟨d, hd, hchar⟩ := hdigit '+' hplus
    exact absurd hchar.symm (digitChar_ne d hd).2.2.2
  · exact magnitude_printPadded hlow hhigh width n

theorem natural_toDigits (n : ℕ) : natural isSpace 10 (Nat.toDigits 10 n) = some n := by
  have hlow : 1 < 10 := by omega
  rw [← printPadded_zero]
  exact natural_printPadded hspace hlow (by omega) 0 n

theorem integer_printInt (hminus : isSpace '-' = false) (i : ℤ) :
    integer isSpace 10 (printInt i) = some i := by
  have hdigit : ∀ c ∈ Nat.toDigits 10 i.natAbs, ∃ d < 10, c = Nat.digitChar d :=
    digit_of_toDigits (by omega) i.natAbs
  have hmagnitude : magnitude 10 (Nat.toDigits 10 i.natAbs) = some i.natAbs := by
    rw [← printPadded_zero]
    exact magnitude_printPadded (by omega) (by omega) 0 i.natAbs
  have hfree : ∀ c ∈ Nat.toDigits 10 i.natAbs, isSpace c = false := by
    intro c hc
    obtain ⟨d, hd, rfl⟩ := hdigit c hc
    exact hspace d (by omega)
  have hbase : validBase 10 = 10 := rfl
  unfold integer printInt
  by_cases hneg : i < 0
  · have htrim :
        trim isSpace ('-' :: Nat.toDigits 10 i.natAbs) = '-' :: Nat.toDigits 10 i.natAbs := by
      refine trim_of_forall fun c hc => ?_
      rcases List.mem_cons.mp hc with rfl | hc
      · exact hminus
      · exact hfree c hc
    rw [if_pos hneg, htrim]
    show (magnitude (validBase 10) (Nat.toDigits 10 i.natAbs)).map (fun n : ℕ => -(n : ℤ)) = some i
    rw [hbase, hmagnitude, Option.map_some, Int.ofNat_natAbs_of_nonpos hneg.le, neg_neg]
  · rw [if_neg hneg, trim_of_forall hfree, hbase]
    have hpos : Int.ofNat i.natAbs = i := Int.natAbs_of_nonneg (not_lt.mp hneg)
    split
    · rename_i rest heq
      obtain ⟨d, hd, hchar⟩ := hdigit '-' (heq ▸ List.mem_cons_self)
      exact absurd hchar.symm (digitChar_ne d (by omega)).2.2.1
    · rename_i rest heq
      obtain ⟨d, hd, hchar⟩ := hdigit '+' (heq ▸ List.mem_cons_self)
      exact absurd hchar.symm (digitChar_ne d (by omega)).2.2.2
    · rw [hmagnitude, Option.map_some, hpos]

end

/-! ## Numbers in names -/

theorem toDigits_injective {i j : ℕ} (h : Nat.toDigits 10 i = Nat.toDigits 10 j) : i = j := by
  have hi : (Nat.toDigits 10 i).foldlM (addDigit 10) 0 = some i :=
    foldlM_toDigits (by omega) (by omega) i
  rw [h, foldlM_toDigits (by omega) (by omega)] at hi
  exact (Option.some.inj hi).symm

/-- A number in front of a text that begins with no digit. -/
theorem toDigits_append_inj {i j : ℕ} {a b : List Char}
    (ha : ∀ c ∈ a.head?, c.isDigit = false) (hb : ∀ c ∈ b.head?, c.isDigit = false)
    (h : Nat.toDigits 10 i ++ a = Nat.toDigits 10 j ++ b) : i = j ∧ a = b := by
  have hfront {n : ℕ} {t : List Char} (ht : ∀ c ∈ t.head?, c.isDigit = false) :
      (Nat.toDigits 10 n ++ t).takeWhile Char.isDigit = Nat.toDigits 10 n := by
    have hdigits : ∀ c ∈ Nat.toDigits 10 n, c.isDigit = true := fun c hc =>
      Nat.isDigit_of_mem_toDigits (by omega) (by omega) hc
    rw [List.takeWhile_append_of_pos hdigits]
    cases t with
    | nil => exact List.append_nil _
    | cons c rest =>
        have hc : c.isDigit = false := ht c rfl
        rw [List.takeWhile_cons_of_neg (Bool.eq_false_iff.mp hc), List.append_nil]
  have hfronts := congrArg (List.takeWhile Char.isDigit) h
  rw [hfront ha, hfront hb] at hfronts
  rw [hfronts] at h
  exact ⟨toDigits_injective hfronts, List.append_cancel_left h⟩

end Numeral
