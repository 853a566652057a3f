/-
  Rules with a level suffix, "pattern;5", "pattern;5-10" or "pattern;5-".

  A category makes its rules from the text alone, and `FilterItem(filterPattern, caseSensitive)`
  takes the suffix from it. A rule of a client comes with levels of 0, and `init` takes all of the
  text as the regular expression. The levels go from `int` through `uint32_t` to `uint8_t`, where
  0 and 0 mean any level. `levelSuffix_iff` says when a rule obeys the suffix it was made with.

  Proved:
  * `levelRange_text`, `ofPattern_withSuffix`: a suffix is taken apart into the levels that it
    names.
  * `fits_iff`: which levels survive the narrowing to eight bits.
  * `obeys_init_iff`, `obeys_whole_iff`: when a rule obeys its suffix, on the way of a category
    and on that of a client.
  * `levelSuffix_iff`: both, for every pattern, every suffix and every text that is matched.
-/
import ShoweqDaemon.Filter.Editing
import ShoweqDaemon.Lib.Numeral
import ShoweqDaemon.Message.EQStr

namespace ShoweqDaemon.Rules

open Spawns (QString)
open Messages (toInt number isSpace)

/-! ## The text -/

/-- The greatest level, which stands for an open end. -/
def INT_MAX : UInt32 := 2147483647

/-- What is in front of the first `c` and what is behind it. -/
def breakAt (c : Char) (s : QString) : Option (QString × QString) :=
  if c ∈ s then some (s.takeWhile (· ≠ c), (s.dropWhile (· ≠ c)).tail) else none

/-- The number, only used if it is one. -/
def levelOf (s : QString) : UInt32 :=
  match toInt s with
  | some level => level.toUInt32
  | none => 0

/-- The levels of the text behind the semicolon. -/
def levelRange (levelString : QString) : UInt32 × UInt32 :=
  let (minLevel, maxLevel) :=
    match breakAt '-' levelString with
    | none => (levelOf levelString, 0)
    | some (left, rest) => (levelOf left, if rest = [] then INT_MAX else levelOf rest)
  (minLevel, if maxLevel < minLevel then minLevel else maxLevel)

namespace FilterItem

/-- `FilterItem(filterPattern, caseSensitive)`: what stands behind the first semicolon is taken for
    the level range, and what stands in front of it for the pattern. -/
def ofPattern (filterPattern : QString) (caseSensitive : Bool) : FilterItem :=
  match breakAt ';' filterPattern with
  | none => init filterPattern caseSensitive 0 0
  | some (regexString, levelString) =>
      let (minLevel, maxLevel) := levelRange levelString
      init regexString caseSensitive minLevel.toUInt8 maxLevel.toUInt8

section
variable (valid : QRegularExpression → Bool) (search : QRegularExpression → QString → Bool)

/-- The regular expression has a match. -/
def found (rx : QRegularExpression) (filterString : QString) : Bool :=
  valid rx && search rx filterString

/-- `FilterItem::isFiltered`: the expression is found, and the level is in the range, when there is
    one. -/
def isFiltered (re : FilterItem) (filterString : QString) (level : UInt8) : Bool :=
  if !valid re.m_regexp then false
  else if search re.m_regexp filterString then
    if re.m_minLevel > 0 || re.m_maxLevel > 0 then
      if re.m_maxLevel != re.m_minLevel then
        level ≥ re.m_minLevel && level ≤ re.m_maxLevel
      else level == re.m_minLevel
    else true
  else false

end

end FilterItem

/-! ## Suffixes -/

/-- A text of digits that fits in an `int`. -/
structure Decimal where
  text : QString
  ne_nil : text ≠ []
  digits : ∀ c ∈ text, c.isDigit = true
  fits : number text ≤ 2147483647

/-- The number that the digits stand for. -/
def Decimal.value (d : Decimal) : ℕ := number d.text

/-- The three forms of a level suffix: one level, a range, and all levels from one on. -/
inductive Suffix
  | level (d : Decimal)
  | range (minLevel maxLevel : Decimal)
  | above (minLevel : Decimal)

namespace Suffix

/-- The suffix as it stands behind the semicolon. -/
def text : Suffix → QString
  | level d => d.text
  | range minLevel maxLevel => minLevel.text ++ '-' :: maxLevel.text
  | above minLevel => minLevel.text ++ ['-']

/-- The levels that the suffix means. -/
def Covers : Suffix → ℕ → Prop
  | level d, n => n = d.value
  | range minLevel maxLevel, n => minLevel.value ≤ n ∧ n ≤ max maxLevel.value minLevel.value
  | above minLevel, n => minLevel.value ≤ n

/-- The least level that the suffix means. -/
def lo : Suffix → ℕ
  | level d => d.value
  | range minLevel _ => minLevel.value
  | above minLevel => minLevel.value

/-- The greatest level that the suffix means; a range that ends below its beginning is the level
    that it begins with. -/
def hi : Suffix → ℕ
  | level d => d.value
  | range minLevel maxLevel => max maxLevel.value minLevel.value
  | above _ => 2147483647

/-- The levels are still the same ones as `uint8_t`. -/
def Fits (s : Suffix) : Prop :=
  if s.hi ≤ 255 then s.hi ≠ 0
  else if s.lo ≤ 255 then s.hi % 256 = 255 ∨ s.lo = 0 ∧ s.hi % 256 = 0
  else s.hi % 256 < s.lo % 256

end Suffix

/-- A pattern without a semicolon. -/
def Plain : Type := { p : QString // ';' ∉ p }

/-- "p;suffix" -/
def Plain.withSuffix (p : Plain) (s : Suffix) : QString := p.val ++ ';' :: s.text

/-! ## Reading a suffix -/

theorem breakAt_append {c : Char} {s : QString} (h : c ∉ s) (t : QString) :
    breakAt c (s ++ c :: t) = some (s, t) := by
  have hne : ∀ x ∈ s, decide (x ≠ c) = true := by
    intro x hx
    exact decide_eq_true fun heq => h (heq ▸ hx)
  rw [breakAt, if_pos (by simp), List.takeWhile_append_of_pos hne, List.dropWhile_append_of_pos hne]
  simp

theorem breakAt_none {c : Char} {s : QString} (h : c ∉ s) : breakAt c s = none := if_neg h

namespace Decimal

theorem not_mem {c : Char} (d : Decimal) (hc : c.isDigit = false) : c ∉ d.text := by
  intro h
  exact Bool.false_ne_true (hc.symm.trans (d.digits c h))

theorem isSpace_digit {c : Char} (h : c.isDigit = true) : isSpace c = false := by
  have hrange : 48 ≤ c.toNat ∧ c.toNat ≤ 57 := by
    have hval : 48 ≤ c.val ∧ c.val ≤ 57 := by simpa [Char.isDigit] using h
    exact ⟨UInt32.le_iff_toNat_le.mp hval.1, UInt32.le_iff_toNat_le.mp hval.2⟩
  have hblank : c ≠ ' ' := by
    rintro rfl
    exact absurd hrange.1 (by decide)
  unfold isSpace
  simp only [hblank, decide_false, Bool.false_or, Bool.or_eq_false_iff, Bool.and_eq_false_iff,
    decide_eq_false_iff_not, List.mem_cons, List.not_mem_nil, or_false]
  omega

theorem toInt_text (d : Decimal) : toInt d.text = some (Int32.ofInt d.value) := by
  have hspace : ∀ c ∈ d.text, isSpace c = false := fun c hc => isSpace_digit (d.digits c hc)
  have htrim : Numeral.trim isSpace d.text = d.text := Numeral.trim_of_forall hspace
  have hall : d.text.all Char.isDigit = true := List.all_eq_true.mpr d.digits
  have hfits := d.fits
  have hminus : ∀ rest, d.text ≠ '-' :: rest := by
    intro rest h
    exact d.not_mem (by decide : '-'.isDigit = false) (h ▸ List.mem_cons_self)
  have hplus : ∀ rest, d.text ≠ '+' :: rest := by
    intro rest h
    exact d.not_mem (by decide : '+'.isDigit = false) (h ▸ List.mem_cons_self)
  unfold toInt
  dsimp only
  rw [htrim]
  split
  · rename_i rest heq
    exact (hminus rest heq).elim
  · rename_i rest heq
    exact (hplus rest heq).elim
  · have hvalue : (d.value : ℤ) = number d.text := rfl
    dsimp only
    rw [if_neg Bool.false_ne_true]
    exact if_pos ⟨d.ne_nil, hall, by omega, by omega⟩

theorem levelOf_text (d : Decimal) : levelOf d.text = UInt32.ofNat d.value := by
  rw [levelOf, toInt_text]
  refine UInt32.toBitVec_inj.mp ?_
  exact BitVec.ofInt_natCast 32 d.value

end Decimal

theorem Suffix.lo_le_hi (s : Suffix) : s.lo ≤ s.hi := by
  cases s with
  | level d => exact le_rfl
  | range minLevel maxLevel => exact Nat.le_max_right _ _
  | above minLevel => exact minLevel.fits

theorem Suffix.covers_iff (s : Suffix) (level : UInt8) :
    s.Covers level.toNat ↔ s.lo ≤ level.toNat ∧ level.toNat ≤ s.hi := by
  have hlevel := level.toNat_lt
  cases s with
  | level d =>
      show _ = d.value ↔ d.value ≤ _ ∧ _ ≤ d.value
      omega
  | range minLevel maxLevel => exact Iff.rfl
  | above minLevel =>
      show minLevel.value ≤ _ ↔ minLevel.value ≤ _ ∧ _ ≤ 2147483647
      omega

/-- A maximum below the minimum is made equal to it. -/
theorem larger {a b : ℕ} (ha : a < 2 ^ 31) (hb : b < 2 ^ 31) :
    (if UInt32.ofNat b < UInt32.ofNat a then UInt32.ofNat a else UInt32.ofNat b) =
      UInt32.ofNat (max b a) := by
  have hlt : UInt32.ofNat b < UInt32.ofNat a ↔ b < a := by
    rw [UInt32.lt_iff_toNat_lt, UInt32.toNat_ofNat', UInt32.toNat_ofNat',
      Nat.mod_eq_of_lt (by omega), Nat.mod_eq_of_lt (by omega)]
  simp only [hlt]
  split
  · rename_i h
    rw [Nat.max_eq_right h.le]
  · rename_i h
    rw [Nat.max_eq_left (not_lt.mp h)]

theorem levelRange_text (s : Suffix) :
    levelRange s.text = (UInt32.ofNat s.lo, UInt32.ofNat s.hi) := by
  have hhyphen (d : Decimal) : '-' ∉ d.text := d.not_mem (by decide)
  have hlt (d : Decimal) : d.value < 2 ^ 31 := lt_of_le_of_lt d.fits (by norm_num)
  cases s with
  | level d =>
      have hlarger := larger (hlt d) (Nat.two_pow_pos 31)
      rw [Nat.max_eq_right (Nat.zero_le _)] at hlarger
      rw [levelRange, Suffix.text, breakAt_none (hhyphen d)]
      dsimp only
      rw [d.levelOf_text]
      exact Prod.ext rfl hlarger
  | range minLevel maxLevel =>
      rw [levelRange, Suffix.text, breakAt_append (hhyphen minLevel)]
      dsimp only
      rw [if_neg maxLevel.ne_nil, minLevel.levelOf_text, maxLevel.levelOf_text]
      exact Prod.ext rfl (larger (hlt minLevel) (hlt maxLevel))
  | above minLevel =>
      have hlarger := larger (hlt minLevel) (by norm_num : 2147483647 < 2 ^ 31)
      have hfits : minLevel.value ≤ 2147483647 := minLevel.fits
      rw [Nat.max_eq_left hfits] at hlarger
      rw [levelRange, Suffix.text, breakAt_append (hhyphen minLevel)]
      dsimp only
      rw [if_pos rfl, minLevel.levelOf_text]
      exact Prod.ext rfl hlarger

theorem ofPattern_withSuffix (p : Plain) (s : Suffix) (caseSensitive : Bool) :
    FilterItem.ofPattern (p.withSuffix s) caseSensitive =
      FilterItem.init p.val caseSensitive (UInt32.ofNat s.lo).toUInt8
        (UInt32.ofNat s.hi).toUInt8 := by
  unfold FilterItem.ofPattern Plain.withSuffix
  rw [breakAt_append p.property]
  dsimp only
  rw [levelRange_text]

/-! ## Matching -/

section
variable (valid : QRegularExpression → Bool) (search : QRegularExpression → QString → Bool)

open FilterItem (found)

/-- Equal bounds are tested like other ones; only 0 and 0 are no bounds. -/
theorem isFiltered_iff (re : FilterItem) (str : QString) (level : UInt8) :
    re.isFiltered valid search str level = true ↔
      found valid search re.m_regexp str = true ∧
        (re.m_minLevel.toNat = 0 ∧ re.m_maxLevel.toNat = 0 ∨
          re.m_minLevel.toNat ≤ level.toNat ∧ level.toNat ≤ re.m_maxLevel.toNat) := by
  have hbounds : (if re.m_minLevel > 0 || re.m_maxLevel > 0 then
        if re.m_maxLevel != re.m_minLevel then
          (level ≥ re.m_minLevel && level ≤ re.m_maxLevel : Bool)
        else level == re.m_minLevel
      else true) = true ↔
      (re.m_minLevel.toNat = 0 ∧ re.m_maxLevel.toNat = 0 ∨
        re.m_minLevel.toNat ≤ level.toNat ∧ level.toNat ≤ re.m_maxLevel.toNat) := by
    simp only [Bool.or_eq_true, decide_eq_true_eq, gt_iff_lt, UInt8.lt_iff_toNat_lt, bne_iff_ne,
      ne_eq, ← UInt8.toNat_inj, UInt8.le_iff_toNat_le, ge_iff_le, UInt8.toNat_zero]
    split_ifs with hsome heq
    · rw [beq_iff_eq, ← UInt8.toNat_inj]
      omega
    · rw [Bool.and_eq_true, decide_eq_true_eq, decide_eq_true_eq]
      omega
    · rw [eq_self_iff_true, true_iff]
      omega
  unfold FilterItem.isFiltered found
  cases valid re.m_regexp with
  | false => simp
  | true =>
      cases search re.m_regexp str with
      | false => simp
      | true => simpa using hbounds

/-- The rule matches where the pattern alone does, at the levels of the suffix. -/
def Obeys (re : FilterItem) (p : Plain) (s : Suffix) : Prop :=
  ∀ str level, re.isFiltered valid search str level = true ↔
    found valid search { re.m_regexp with pattern := fixedFilterPattern p.val } str = true ∧
      s.Covers level.toNat

/-- For a rule that takes pattern and suffix as one regular expression, and has no levels. -/
def Indifferent (caseInsensitive : Bool) (p : Plain) (s : Suffix) : Prop :=
  let whole := found valid search ⟨fixedFilterPattern (p.withSuffix s), caseInsensitive⟩
  let alone := found valid search ⟨fixedFilterPattern p.val, caseInsensitive⟩
  if s.lo = 0 ∧ 255 ≤ s.hi then ∀ str, whole str = alone str
  else (∀ str, whole str = false) ∧ (s.lo ≤ 255 → ∀ str, alone str = false)

/-- The bounds as bytes. -/
theorem fits_iff (s : Suffix) :
    (∀ level : UInt8, (s.lo % 256 = 0 ∧ s.hi % 256 = 0 ∨
      s.lo % 256 ≤ level.toNat ∧ level.toNat ≤ s.hi % 256) ↔ s.Covers level.toNat) ↔ s.Fits := by
  have hle := s.lo_le_hi
  have hlevel (n : ℕ) (hn : n < 256) : (UInt8.ofNat n).toNat = n := by
    rw [UInt8.toNat_ofNat']
    exact Nat.mod_eq_of_lt hn
  simp only [Suffix.covers_iff]
  unfold Suffix.Fits
  constructor
  · intro h
    have hlast := h (UInt8.ofNat 255)
    have hfirst := h (UInt8.ofNat (s.lo % 256))
    rw [hlevel _ (by omega)] at hlast
    rw [hlevel _ (by omega)] at hfirst
    split_ifs <;> omega
  · intro h level
    have hlt := level.toNat_lt
    split_ifs at h <;> omega

theorem obeys_init_iff (p : Plain) (s : Suffix) (caseSensitive : Bool) :
    Obeys valid search (FilterItem.init p.val caseSensitive (UInt32.ofNat s.lo).toUInt8
      (UInt32.ofNat s.hi).toUInt8) p s ↔
      (∀ str, found valid search ⟨fixedFilterPattern p.val, !caseSensitive⟩ str = false) ∨
        s.Fits := by
  have hbyte (n : ℕ) : (UInt32.ofNat n).toUInt8.toNat = n % 256 := by
    rw [UInt32.toNat_toUInt8, UInt32.toNat_ofNat']
    omega
  unfold Obeys
  simp only [isFiltered_iff, FilterItem.init, hbyte, ← fits_iff]
  constructor
  · intro h
    by_cases hfound :
        ∃ str, found valid search ⟨fixedFilterPattern p.val, !caseSensitive⟩ str = true
    · obtain ⟨str, hstr⟩ := hfound
      refine .inr fun level => ?_
      have hlevel := h str level
      rwa [hstr, and_iff_right rfl, and_iff_right rfl] at hlevel
    · exact .inl fun str => Bool.eq_false_iff.mpr fun hstr => hfound ⟨str, hstr⟩
  · intro h str level
    rcases h with hnone | hlevels
    · rw [hnone str]
      simp
    · rw [hlevels level]

theorem obeys_whole_iff (p : Plain) (s : Suffix) (caseSensitive : Bool) :
    Obeys valid search (FilterItem.init (p.withSuffix s) caseSensitive 0 0) p s ↔
      Indifferent valid search (!caseSensitive) p s := by
  have hle := s.lo_le_hi
  unfold Obeys Indifferent
  simp only [isFiltered_iff, FilterItem.init, Suffix.covers_iff]
  generalize found valid search ⟨fixedFilterPattern (p.withSuffix s), !caseSensitive⟩ = whole
  generalize found valid search ⟨fixedFilterPattern p.val, !caseSensitive⟩ = alone
  have hany : ∀ n : ℕ, (0 : UInt8).toNat = 0 ∧ (0 : UInt8).toNat = 0 ∨
      (0 : UInt8).toNat ≤ n ∧ n ≤ (0 : UInt8).toNat := fun n => .inl ⟨rfl, rfl⟩
  simp only [hany, and_true]
  split_ifs with hall
  · have hcovers (level : UInt8) : s.lo ≤ level.toNat ∧ level.toNat ≤ s.hi := by
      have hlt := level.toNat_lt
      omega
    simp only [hcovers, and_true]
    exact ⟨fun h str => Bool.eq_iff_iff.mpr (h str 0), fun h str _ => by rw [h str]⟩
  · constructor
    · intro h
      -- a level that the suffix does not mean
      have hwhole (str : QString) : whole str = false := by
        refine Bool.eq_false_iff.mpr fun hstr => ?_
        have hfirst := ((h str 0).mp hstr).2
        have hlast := ((h str 255).mp hstr).2
        have hlow : s.lo ≤ 0 := hfirst.1
        have hhigh : 255 ≤ s.hi := hlast.2
        exact hall ⟨Nat.le_zero.mp hlow, hhigh⟩
      refine ⟨hwhole, fun hlo str => Bool.eq_false_iff.mpr fun hstr => ?_⟩
      have hlevel : (UInt8.ofNat s.lo).toNat = s.lo := by
        rw [UInt8.toNat_ofNat']
        exact Nat.mod_eq_of_lt (by omega)
      have hmatch := (h str (UInt8.ofNat s.lo)).mpr ⟨hstr, by omega⟩
      rw [hwhole str] at hmatch
      exact Bool.false_ne_true hmatch
    · rintro ⟨hwhole, halone⟩ str level
      rw [hwhole str]
      refine iff_of_false Bool.false_ne_true ?_
      rintro ⟨hstr, hcovers⟩
      have hlt := level.toNat_lt
      rw [halone (by omega) str] at hstr
      exact Bool.false_ne_true hstr

/-- An addition that finds no rule of that name. -/
theorem addFilter_rules {fm : FilterMgr} {per_zone : Bool} {type : UInt8}
    (ht : type < SIZEOF_FILTERS) {text : QString}
    (hnew : ∀ re ∈ fm.rules per_zone type, re.name ≠ text) :
    (fm.addFilter valid per_zone type text).1.rules per_zone type =
      fm.rules per_zone type ++
        [FilterItem.init text (fm.filterOf per_zone type).m_caseSensitive 0 0] := by
  rw [FilterMgr.rules_eq] at hnew ⊢
  have hmask := validMask_of_lt ht
  have habsent : ¬ ∃ re ∈ (fm.filterOf per_zone type).m_filterItems, re.name = text :=
    fun ⟨re, hmem, hname⟩ => hnew re hmem hname
  have hadd := Filter.addFilter_items valid (fm.filterOf per_zone type) text 0 0
  rw [if_neg habsent] at hadd
  rw [FilterMgr.rules_eq fm, FilterMgr.addFilter_eq valid fm per_zone ht]
  unfold FilterMgr.filterOf at hadd ⊢
  rw [FilterMgr.get_set, if_pos rfl, Filters.addFilter_eq valid _ hmask, Filters.filterOf_put]
  exact hadd

/-- The rule of a category obeys its suffix if and only if the pattern never matches or the levels
    fit. The rule of a client has no levels, and the suffix in its regular expression. -/
theorem levelSuffix_iff (p : Plain) (s : Suffix) :
    (∀ caseSensitive,
      Obeys valid search (FilterItem.ofPattern (p.withSuffix s) caseSensitive) p s ↔
        (∀ str, found valid search ⟨fixedFilterPattern p.val, !caseSensitive⟩ str = false) ∨
          s.Fits) ∧
    ∀ (fm : FilterMgr) (per_zone : Bool) (type : UInt8), type < SIZEOF_FILTERS →
      (∀ re ∈ fm.rules per_zone type, re.name ≠ p.withSuffix s) →
      ∃ re, (fm.addFilter valid per_zone type (p.withSuffix s)).1.rules per_zone type =
          fm.rules per_zone type ++ [re] ∧
        (Obeys valid search re p s ↔
          Indifferent valid search re.m_regexp.caseInsensitive p s) := by
  constructor
  · intro caseSensitive
    rw [ofPattern_withSuffix]
    exact obeys_init_iff valid search p s caseSensitive
  · intro fm per_zone type ht hnew
    exact ⟨_, addFilter_rules valid ht hnew, obeys_whole_iff valid search p s _⟩

end

/-- A pattern that is searched as it is. -/
def literal (rx : QRegularExpression) (str : QString) : Bool := decide (rx.pattern <:+: str)

/-- A pattern without a suffix. -/
def orc : Plain := ⟨"orc".toList, by decide⟩

/-- The level 0, which stands for none. -/
def zero : Decimal where
  text := ['0']
  ne_nil := List.cons_ne_nil _ _
  digits := List.forall_mem_singleton.mpr rfl
  fits := by decide

/-- The level 5. -/
def five : Decimal where
  text := ['5']
  ne_nil := List.cons_ne_nil _ _
  digits := List.forall_mem_singleton.mpr rfl
  fits := by decide

/-- "orc;0" matches at any level, and a client's "orc;5" not at level 5. -/
theorem levelSuffix_orc :
    (¬ Obeys (fun _ => true) literal
      (FilterItem.ofPattern (orc.withSuffix (.level zero)) true) orc (.level zero)) ∧
    ∃ re ∈ (({} : FilterMgr).addFilter (fun _ => true) false 0
        (orc.withSuffix (.level five))).1.rules false 0,
      ¬ Obeys (fun _ => true) literal re orc (.level five) := by
  constructor
  · rw [ofPattern_withSuffix, obeys_init_iff]
    rintro (hnone | hfits)
    · exact absurd (hnone "orc".toList) (by decide)
    · unfold Suffix.Fits at hfits
      rw [if_pos (by decide)] at hfits
      exact hfits (by decide)
  · have hnone : ∀ re ∈ ({} : FilterMgr).rules false 0,
        re.name ≠ orc.withSuffix (.level five) := fun re hre => nomatch hre
    rw [addFilter_rules _ (by decide) hnone]
    refine ⟨_, List.mem_append_right _ List.mem_cons_self, ?_⟩
    rw [obeys_whole_iff]
    unfold Indifferent
    dsimp only
    rw [if_neg (by decide)]
    intro h
    exact absurd (h.2 (by decide) "orc".toList) (by decide)

end ShoweqDaemon.Rules
