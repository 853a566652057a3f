/-
  Texts as UTF-16 units.

  A character of the basic plane is one unit; any other is two, a high surrogate and a low one.
  Positions in such a text count units, so a position can lie within a character: in front of a
  low surrogate. `encode` goes from characters to units, `decode` back, with the replacement
  character for a surrogate that stands alone.

  * `decode_encode`: the round trip.
  * `not_beginsLow_encode`, `not_beginsLow_behind`: an encoded text begins with a character, and so
    does what stands behind any of its units that is no surrogate.
  * `split_encode`: where a text can be cut.
  * `mem_encode_iff`: units below the surrogates stand for themselves.
-/
import Mathlib.Data.List.Basic

namespace Utf16

/-! ## Units -/

/-- A unit of a text. -/
abbrev Unit16 := UInt16

/-- The first half of a surrogate pair. -/
def isHigh (u : Unit16) : Bool := 0xd800 ≤ u && u < 0xdc00

/-- The second half of a surrogate pair. -/
def isLow (u : Unit16) : Bool := 0xdc00 ≤ u && u < 0xe000

/-- The text begins within a character. -/
def beginsLow (s : List Unit16) : Bool := (s.head?.map isLow).getD false

@[simp] theorem beginsLow_nil : beginsLow [] = false := rfl

@[simp] theorem beginsLow_cons (u : Unit16) (s : List Unit16) : beginsLow (u :: s) = isLow u := rfl

theorem beginsLow_append {s : List Unit16} (hs : s ≠ []) (t : List Unit16) :
    beginsLow (s ++ t) = beginsLow s := by
  obtain ⟨u, us, rfl⟩ := List.exists_cons_of_ne_nil hs
  rfl

/-! ## Characters -/

/-- The units of a character: one in the basic plane, and a pair of surrogates outside it. -/
def unitsOf (c : Char) : List Unit16 :=
  if c.toNat < 0x10000 then [UInt16.ofNat c.toNat]
  else
    [UInt16.ofNat (0xd800 + (c.toNat - 0x10000) / 0x400),
      UInt16.ofNat (0xdc00 + (c.toNat - 0x10000) % 0x400)]

/-- The units of a text. -/
def encode (s : List Char) : List Unit16 := s.flatMap unitsOf

/-- The character of a unit that is not one of a pair. -/
def single (u : Unit16) : Char := if isHigh u || isLow u then '\ufffd' else Char.ofNat u.toNat

/-- The character of a pair of surrogates. -/
def pair (high low : Unit16) : Char :=
  Char.ofNat (0x10000 + (high.toNat - 0xd800) * 0x400 + (low.toNat - 0xdc00))

/-- The text that the units stand for; a half alone becomes the replacement character. -/
def decode : List Unit16 → List Char
  | [] => []
  | [u] => [single u]
  | u :: v :: us =>
      if isHigh u && isLow v then pair u v :: decode us else single u :: decode (v :: us)

@[simp] theorem encode_nil : encode [] = [] := rfl

@[simp] theorem encode_cons (c : Char) (s : List Char) : encode (c :: s) = unitsOf c ++ encode s :=
  rfl

theorem encode_append (s t : List Char) : encode (s ++ t) = encode s ++ encode t :=
  List.flatMap_append

/-! ## One character -/

theorem toNat_ofNat {n : ℕ} (h : n < 65536) : (UInt16.ofNat n).toNat = n := by
  rw [UInt16.toNat_ofNat', Nat.mod_eq_of_lt h]

theorem isHigh_ofNat {n : ℕ} (h : n < 65536) :
    isHigh (UInt16.ofNat n) = true ↔ 0xd800 ≤ n ∧ n < 0xdc00 := by
  rw [isHigh, Bool.and_eq_true, decide_eq_true_eq, decide_eq_true_eq, UInt16.le_iff_toNat_le,
    UInt16.lt_iff_toNat_lt, toNat_ofNat h]
  exact Iff.rfl

theorem isLow_ofNat {n : ℕ} (h : n < 65536) :
    isLow (UInt16.ofNat n) = true ↔ 0xdc00 ≤ n ∧ n < 0xe000 := by
  rw [isLow, Bool.and_eq_true, decide_eq_true_eq, decide_eq_true_eq, UInt16.le_iff_toNat_le,
    UInt16.lt_iff_toNat_lt, toNat_ofNat h]
  exact Iff.rfl

/-- No character is a surrogate. -/
theorem char_range (c : Char) : c.toNat < 0xd800 ∨ 0xdfff < c.toNat ∧ c.toNat < 0x110000 :=
  c.valid

theorem unitsOf_basic {c : Char} (h : c.toNat < 0x10000) : unitsOf c = [UInt16.ofNat c.toNat] :=
  if_pos h

/-- A character of the basic plane is no surrogate. -/
theorem basic_not_surrogate {c : Char} (h : c.toNat < 0x10000) :
    isHigh (UInt16.ofNat c.toNat) = false ∧ isLow (UInt16.ofNat c.toNat) = false := by
  have hrange := char_range c
  constructor
  · rw [Bool.eq_false_iff, Ne, isHigh_ofNat h]
    omega
  · rw [Bool.eq_false_iff, Ne, isLow_ofNat h]
    omega

/-- Any other character is a high surrogate and a low one, and they tell it. -/
theorem unitsOf_pair {c : Char} (h : ¬ c.toNat < 0x10000) :
    ∃ high low, unitsOf c = [high, low] ∧ isHigh high = true ∧ isLow low = true ∧
      isHigh low = false ∧ isLow high = false ∧ pair high low = c := by
  have hrange := char_range c
  have hhigh : 0xd800 + (c.toNat - 0x10000) / 0x400 < 0xdc00 := by omega
  have hlow : 0xdc00 + (c.toNat - 0x10000) % 0x400 < 0xe000 := by omega
  have hlow' : ¬ 0xdc00 + (c.toNat - 0x10000) % 0x400 < 0xdc00 := by omega
  have hhigh' : ¬ 0xdc00 ≤ 0xd800 + (c.toNat - 0x10000) / 0x400 := by omega
  refine ⟨_, _, if_neg h, ?_, ?_, ?_, ?_, ?_⟩
  · exact (isHigh_ofNat (by omega)).mpr ⟨by omega, hhigh⟩
  · exact (isLow_ofNat (by omega)).mpr ⟨by omega, hlow⟩
  · rw [Bool.eq_false_iff, Ne, isHigh_ofNat (by omega)]
    exact fun hboth => hlow' hboth.2
  · rw [Bool.eq_false_iff, Ne, isLow_ofNat (by omega)]
    exact fun hboth => hhigh' hboth.1
  · have hsum : 0x10000 + (0xd800 + (c.toNat - 0x10000) / 0x400 - 0xd800) * 0x400 +
        (0xdc00 + (c.toNat - 0x10000) % 0x400 - 0xdc00) = c.toNat := by omega
    rw [pair, toNat_ofNat (by omega), toNat_ofNat (by omega), hsum, Char.ofNat_toNat]

theorem unitsOf_ne_nil (c : Char) : unitsOf c ≠ [] := by
  unfold unitsOf
  split <;> simp

/-! ## Texts -/

theorem not_beginsLow_encode (s : List Char) : beginsLow (encode s) = false := by
  cases s with
  | nil => rfl
  | cons c s =>
      rw [encode_cons, beginsLow_append (unitsOf_ne_nil c)]
      by_cases h : c.toNat < 0x10000
      · rw [unitsOf_basic h]
        exact (basic_not_surrogate h).2
      · obtain ⟨high, low, hunits, -, -, -, hhigh, -⟩ := unitsOf_pair h
        rw [hunits]
        exact hhigh

/-- Behind a unit that is no high surrogate a character begins. -/
theorem not_beginsLow_behind (s : List Char) {u : Unit16} (hu : isHigh u = false) {i : ℕ}
    (hget : (encode s)[i]? = some u) : beginsLow ((encode s).drop (i + 1)) = false := by
  induction s generalizing i with
  | nil => simp at hget
  | cons c s ih =>
      rw [encode_cons] at hget ⊢
      by_cases h : c.toNat < 0x10000
      · rw [unitsOf_basic h] at hget ⊢
        cases i with
        | zero => exact not_beginsLow_encode s
        | succ i => exact ih hget
      · obtain ⟨high, low, hunits, hhigh, -, -, -, -⟩ := unitsOf_pair h
        rw [hunits] at hget ⊢
        match i with
        | 0 =>
            obtain rfl := Option.some.inj hget
            rw [hu] at hhigh
            cases hhigh
        | 1 => exact not_beginsLow_encode s
        | i + 2 => exact ih hget

/-- In front of a character the text can be cut. -/
theorem split_encode (s : List Char) {i : ℕ} (h : beginsLow ((encode s).drop i) = false) :
    ∃ a b, s = a ++ b ∧ (encode s).take i = encode a ∧ (encode s).drop i = encode b := by
  induction s generalizing i with
  | nil => exact ⟨[], [], rfl, by simp, by simp⟩
  | cons c s ih =>
      by_cases hi : i = 0
      · exact ⟨[], c :: s, rfl, by rw [hi]; rfl, by rw [hi]; rfl⟩
      · -- the position is not within `c`
        have hcut : (unitsOf c).length ≤ i := by
          by_cases hc : c.toNat < 0x10000
          · rw [unitsOf_basic hc, List.length_singleton]
            omega
          · obtain ⟨high, low, hunits, -, hlow, -, -, -⟩ := unitsOf_pair hc
            rw [hunits, List.length_cons, List.length_singleton]
            by_contra hlt
            obtain rfl : i = 1 := by omega
            rw [encode_cons, hunits] at h
            rw [show beginsLow (([high, low] ++ encode s).drop 1) = isLow low from rfl, hlow] at h
            cases h
        obtain ⟨j, rfl⟩ := Nat.exists_eq_add_of_le hcut
        rw [encode_cons, List.drop_length_add_append] at h
        obtain ⟨a, b, rfl, ha, hb⟩ := ih h
        refine ⟨c :: a, b, rfl, ?_, ?_⟩
        · rw [encode_cons, List.take_length_add_append, ha, encode_cons]
        · rw [encode_cons, List.drop_length_add_append, hb]

/-- A unit below the surrogates is there exactly when its character is. -/
theorem mem_encode_iff {s : List Char} {u : Unit16} (hu : u < 0xd800) :
    u ∈ encode s ↔ Char.ofNat u.toNat ∈ s := by
  have hlt : u.toNat < 0xd800 := UInt16.lt_iff_toNat_lt.mp hu
  have hchar : (Char.ofNat u.toNat).toNat = u.toNat := by
    rw [Char.ofNat, dif_pos (show u.toNat.isValidChar from .inl hlt)]
    rfl
  unfold encode
  rw [List.mem_flatMap]
  constructor
  · rintro ⟨c, hc, hmem⟩
    by_cases h : c.toNat < 0x10000
    · rw [unitsOf_basic h, List.mem_singleton] at hmem
      rw [hmem, toNat_ofNat h, Char.ofNat_toNat]
      exact hc
    · obtain ⟨high, low, hunits, hhigh, hlow, -, -, -⟩ := unitsOf_pair h
      rw [hunits, List.mem_pair] at hmem
      rcases hmem with rfl | rfl
      · rw [isHigh, Bool.and_eq_true, decide_eq_true_eq] at hhigh
        exact absurd hu (UInt16.not_lt.mpr hhigh.1)
      · rw [isLow, Bool.and_eq_true, decide_eq_true_eq] at hlow
        have hle : (0xd800 : UInt16) ≤ 0xdc00 := by decide
        exact absurd hu (UInt16.not_lt.mpr (UInt16.le_trans hle hlow.1))
  · intro hmem
    refine ⟨_, hmem, ?_⟩
    rw [unitsOf_basic (by omega), List.mem_singleton, hchar, UInt16.ofNat_toNat]

theorem encode_ne_nil_iff {s : List Char} : encode s ≠ [] ↔ s ≠ [] := by
  cases s with
  | nil => exact iff_of_false (fun h => h rfl) fun h => h rfl
  | cons c s =>
      refine iff_of_true ?_ (List.cons_ne_nil c s)
      rw [encode_cons]
      exact List.append_ne_nil_of_left_ne_nil (unitsOf_ne_nil c) _

theorem decode_cons {u : Unit16} (hu : isHigh u = false) (s : List Unit16) :
    decode (u :: s) = single u :: decode s := by
  cases s with
  | nil => rfl
  | cons v s => rw [decode, hu, Bool.false_and, if_neg Bool.false_ne_true]

theorem decode_encode (s : List Char) : decode (encode s) = s := by
  induction s with
  | nil => rfl
  | cons c s ih =>
      rw [encode_cons]
      by_cases h : c.toNat < 0x10000
      · obtain ⟨hhigh, hlow⟩ := basic_not_surrogate h
        rw [unitsOf_basic h, List.singleton_append, decode_cons hhigh, ih, single, hhigh, hlow,
          Bool.false_or, if_neg Bool.false_ne_true, toNat_ofNat h, Char.ofNat_toNat]
      · obtain ⟨high, low, hunits, hhigh, hlow, -, -, hpair⟩ := unitsOf_pair h
        rw [hunits, List.cons_append, List.singleton_append, decode, hhigh, hlow, Bool.and_self,
          if_pos rfl, ih, hpair]

end Utf16
