/-
  `Category`: a filter, and one for what is left out.

  The constructor has the flags `REG_EXTENDED | REG_ICASE` of `regcomp`, and a `FilterItem` has
  `caseSensitive` in this place. The flags are not 0, so every category tells upper case from lower
  case. `ignoresCase_iff` says which ones ignore it all the same: `shown` are the texts that a
  category finds at a level, and they must be blind to case. The expressions are what the engine
  makes of the patterns; that it reads them so, without its case option, is assumed.
-/
import ShoweqDaemon.Filter.LevelSuffix
import ShoweqDaemon.Lib.Regex

namespace ShoweqDaemon.Rules

open Regex (Blind letters)
open Spawns (QString)

/-- The flags of `regcomp`: extended expressions. -/
def REG_EXTENDED : Int32 := 1

/-- And case does not count. -/
def REG_ICASE : Int32 := 2

/-- `FilterItem(filter, cFlags)`: any flag is `true`. -/
def categoryItem (filter : QString) : FilterItem :=
  let cFlags := REG_EXTENDED ||| REG_ICASE
  FilterItem.ofPattern filter (cFlags != 0)

/-- `Category`: the texts that the user gave and the items that were made of them. -/
structure Category where
  m_name : QString
  m_filter : QString
  m_filterout : QString
  m_filterItem : FilterItem
  m_filterOutItem : Option FilterItem
  made : m_filterItem = categoryItem m_filter
  madeOut : m_filterOutItem = if m_filterout = [] then none else some (categoryItem m_filterout)

namespace Category

/-- `Category(name, filter, filterout, color)`: an item for the filter, and one for what is left out
    unless that text is empty. -/
def new (name filter filterout : QString) : Category where
  m_name := name
  m_filter := filter
  m_filterout := filterout
  m_filterItem := categoryItem filter
  m_filterOutItem := if filterout = [] then none else some (categoryItem filterout)
  made := rfl
  madeOut := rfl

/-- An `int` as the `uint8_t` of `FilterItem::isFiltered`. -/
def byte (level : Int32) : UInt8 := level.toUInt32.toUInt8

section
variable (valid : QRegularExpression → Bool) (search : QRegularExpression → QString → Bool)

/-- `Category::isFiltered`: what the filter finds and the second filter does not. -/
def isFiltered (cat : Category) (filterString : QString) (level : Int32) : Bool :=
  if cat.m_filterItem.isFiltered valid search filterString (byte level) then
    match cat.m_filterOutItem with
    | some out => if out.isFiltered valid search filterString (byte level) then false else true
    | none => true
  else false

/-- Texts that differ in the case of letters only get the same answer. -/
def IgnoresCase (cat : Category) : Prop :=
  ∀ (level : Int32) (s t : QString), s.map Char.toLower = t.map Char.toLower →
    cat.isFiltered valid search s level = cat.isFiltered valid search t level

end

end Category

/-! ## What a category finds -/

namespace FilterItem

/-- Bounds of 0 and 0 are none. -/
def Applies (re : FilterItem) (level : UInt8) : Prop :=
  re.m_minLevel.toNat = 0 ∧ re.m_maxLevel.toNat = 0 ∨
    re.m_minLevel.toNat ≤ level.toNat ∧ level.toNat ≤ re.m_maxLevel.toNat

/-- The texts that the expression of the rule finds. -/
def finds (valid : QRegularExpression → Bool) (search : QRegularExpression → QString → Bool)
    (re : FilterItem) : Language Char := {s | found valid search re.m_regexp s = true}

end FilterItem

namespace Category

/-- There is a filter for what is left out, and it applies. -/
def OutApplies (cat : Category) (level : UInt8) : Prop :=
  ∃ out, cat.m_filterOutItem = some out ∧ out.Applies level

section
variable (valid : QRegularExpression → Bool) (search : QRegularExpression → QString → Bool)

/-- The texts that the second filter takes out at a level. -/
def hidden (cat : Category) (level : UInt8) : Language Char :=
  {s | ∃ out, cat.m_filterOutItem = some out ∧ out.Applies level ∧ s ∈ out.finds valid search}

/-- The texts that the category shows at a level. -/
def shown (cat : Category) (level : UInt8) : Language Char :=
  cat.m_filterItem.finds valid search - cat.hidden valid search level

/-- The filter matches, and the other one does not. -/
theorem isFiltered_iff_items (cat : Category) (str : QString) (level : Int32) :
    cat.isFiltered valid search str level = true ↔
      cat.m_filterItem.isFiltered valid search str (byte level) = true ∧
        ∀ out, cat.m_filterOutItem = some out →
          out.isFiltered valid search str (byte level) = false := by
  unfold Category.isFiltered
  cases cat.m_filterItem.isFiltered valid search str (byte level) with
  | false => simp
  | true =>
      cases cat.m_filterOutItem with
      | none => simp
      | some out => simp

theorem isFiltered_iff_shown (cat : Category) (str : QString) (level : Int32) :
    cat.isFiltered valid search str level = true ↔
      cat.m_filterItem.Applies (byte level) ∧ str ∈ cat.shown valid search (byte level) := by
  have hitem (re : FilterItem) : re.isFiltered valid search str (byte level) = true ↔
      str ∈ re.finds valid search ∧ re.Applies (byte level) :=
    isFiltered_iff valid search re str (byte level)
  rw [isFiltered_iff_items, hitem]
  simp only [← Bool.not_eq_true, hitem]
  constructor
  · rintro ⟨⟨hfinds, happlies⟩, hout⟩
    refine ⟨happlies, hfinds, ?_⟩
    rintro ⟨out, hsome, hlevel, hin⟩
    exact hout out hsome ⟨hin, hlevel⟩
  · rintro ⟨happlies, hfinds, hhidden⟩
    exact ⟨⟨hfinds, happlies⟩, fun out hsome hin => hhidden ⟨out, hsome, hin.2, hin.1⟩⟩

theorem ignoresCase_iff_blind (cat : Category) :
    cat.IgnoresCase valid search ↔
      ∀ level, cat.m_filterItem.Applies (byte level) →
        Blind Char.toLower (cat.shown valid search (byte level)) := by
  constructor
  · intro h level happlies s t hst hs
    have htrue := (isFiltered_iff_shown valid search cat s level).mpr ⟨happlies, hs⟩
    rw [h level s t hst] at htrue
    exact ((isFiltered_iff_shown valid search cat t level).mp htrue).2
  · intro h level s t hst
    rw [Bool.eq_iff_iff, isFiltered_iff_shown, isFiltered_iff_shown]
    refine and_congr_right fun happlies => ?_
    exact ⟨fun hs => h level happlies hst hs, fun ht => h level happlies hst.symm ht⟩

end

end Category

/-! ## The patterns -/

/-- What is in front of the levels. -/
def front (filterPattern : QString) : QString := filterPattern.takeWhile (· ≠ ';')

/-- ASCII letters, digits, colons and blanks. -/
def Literals (s : QString) : Prop :=
  s.all (fun c => c.isAlpha || c.isDigit || c == ':' || c == ' ') = true

/-- The expression that a pattern of literals has become. -/
def spelled (filterPattern : QString) : Regex :=
  Regex.ofText (fixedFilterPattern (front filterPattern))

theorem ofPattern_regexp (filterPattern : QString) (caseSensitive : Bool) :
    (FilterItem.ofPattern filterPattern caseSensitive).m_regexp =
      ⟨fixedFilterPattern (front filterPattern), !caseSensitive⟩ := by
  unfold FilterItem.ofPattern
  by_cases hmem : ';' ∈ filterPattern
  · rw [breakAt, if_pos hmem]
    rfl
  · have hfront : front filterPattern = filterPattern :=
      List.takeWhile_eq_self_iff.mpr fun c hc => decide_eq_true fun heq => hmem (heq ▸ hc)
    rw [breakAt_none hmem, hfront]
    rfl

/-- The flags make the rule case-sensitive. -/
theorem categoryItem_regexp (filter : QString) :
    (categoryItem filter).m_regexp = ⟨(spelled filter).text, false⟩ := by
  rw [spelled, Regex.text_ofText]
  exact ofPattern_regexp filter true

theorem letters_of_mentionsName {s : QString} (h : mentionsName s = true) : letters s ≠ [] := by
  induction s with
  | nil => cases h
  | cons c cs ih =>
      intro hnone
      obtain ⟨hc, hcs⟩ := Regex.letters_cons_eq_nil.mp hnone
      rcases Bool.or_eq_true_iff.mp h with hhead | htail
      · have hn : c.toLower = 'n' := (List.cons_eq_cons.mp (of_decide_eq_true hhead)).1
        rw [← Char.isAlpha_toLower_eq_isAlpha, hn] at hc
        cases hc
      · exact ih htail hcs

/-- "Name:" has letters before and after. -/
theorem letters_fixedFilterPattern (s : QString) :
    letters (fixedFilterPattern s) = [] ↔ letters s = [] := by
  cases h : mentionsName s with
  | false => rw [fixedFilterPattern, replaceName_of_not_mentions h]
  | true =>
      exact iff_of_false (letters_of_mentionsName (mentionsName_replaceName h))
        (letters_of_mentionsName h)

theorem letters_spelled (filterPattern : QString) :
    letters (spelled filterPattern).text = [] ↔ letters (front filterPattern) = [] := by
  rw [spelled, Regex.text_ofText, letters_fixedFilterPattern]

theorem Literals.not_mem {s : QString} (hs : Literals s) : '?' ∉ s := by
  intro h
  exact Bool.false_ne_true (List.all_eq_true.mp hs _ h)

/-- The only optional character is a '#' behind a "Name:". -/
theorem literal_replaceName {s : QString} (hs : '?' ∉ s) (skip : ℕ) :
    (Regex.ofText (replaceName skip s)).Literal ∧ (replaceName skip s).head? ≠ some '?' := by
  induction s generalizing skip with
  | nil => exact ⟨trivial, by simp [replaceName]⟩
  | cons c cs ih =>
      have hcs : '?' ∉ cs := List.not_mem_of_not_mem_cons hs
      have hc : c ≠ '?' := fun heq => hs (heq ▸ List.mem_cons_self)
      cases skip with
      | succ skip => exact ih hcs skip
      | zero =>
          rw [replaceName]
          split
          · refine ⟨?_, by simp⟩
            exact ⟨rfl, (ih hcs 4).1⟩
          · rw [Regex.ofText_cons c (ih hcs 0).2]
            exact ⟨(ih hcs 0).1, fun heq => hc (Option.some.inj heq)⟩

theorem literal_spelled {filterPattern : QString} (h : Literals (front filterPattern)) :
    (spelled filterPattern).Literal :=
  (literal_replaceName h.not_mem 0).1

/-! ## Case -/

section
variable (valid : QRegularExpression → Bool) (search : QRegularExpression → QString → Bool)
variable (newline : Char → Prop)

/-- Without the case option, the engine takes the text of the expression for it. -/
def Reads (r : Regex) : Prop :=
  valid ⟨r.text, false⟩ = true ∧
    ∀ str, search ⟨r.text, false⟩ str = true ↔ str ∈ Regex.found (r.language newline)

/-- The expression of a rule. -/
def ReadsAs (re : FilterItem) (r : Regex) : Prop :=
  re.m_regexp.pattern = r.text ∧ Reads valid search newline r

/-- Every text that the filter can stand for has one of the other filter in it. -/
def Covered (cat : Category) : Prop :=
  ∀ w ∈ (spelled cat.m_filter).language newline,
    w ∈ Regex.found ((spelled cat.m_filterout).language newline)

variable {valid search newline}

theorem ReadsAs.finds_eq {filter : QString} {r : Regex}
    (h : ReadsAs valid search newline (categoryItem filter) r) :
    (categoryItem filter).finds valid search = Regex.found (r.language newline) := by
  obtain ⟨hpattern, hvalid, hsearch⟩ := h
  have hregexp : (categoryItem filter).m_regexp = ⟨r.text, false⟩ := by
    rw [categoryItem_regexp] at hpattern ⊢
    rw [← hpattern]
  ext str
  show (valid (categoryItem filter).m_regexp && search (categoryItem filter).m_regexp str) = true ↔ _
  rw [hregexp, hvalid, Bool.true_and, hsearch]

theorem Reads.readsAs {filter : QString} (h : Reads valid search newline (spelled filter)) :
    ReadsAs valid search newline (categoryItem filter) (spelled filter) :=
  ⟨congrArg QRegularExpression.pattern (categoryItem_regexp filter), h⟩

theorem Category.outItem {cat : Category} {out : FilterItem}
    (h : cat.m_filterOutItem = some out) : out = categoryItem cat.m_filterout := by
  rw [cat.madeOut] at h
  split at h
  · cases h
  · exact (Option.some.inj h).symm

/-- What is shown at a level, by the words of the two expressions. -/
theorem blind_shown_iff {cat : Category} {r o : Regex}
    (hr : ReadsAs valid search newline cat.m_filterItem r)
    (ho : ∀ out, cat.m_filterOutItem = some out → ReadsAs valid search newline out o)
    (level : UInt8) :
    Blind Char.toLower (cat.shown valid search level) ↔
      (¬ cat.OutApplies level → Blind Char.toLower (Regex.found (r.language newline))) ∧
      (cat.OutApplies level → Blind Char.toLower
        (Regex.found (r.language newline) - Regex.found (o.language newline))) := by
  rw [cat.made] at hr
  rw [Category.shown, cat.made, hr.finds_eq]
  by_cases happlies : cat.OutApplies level
  · have hhidden : cat.hidden valid search level = Regex.found (o.language newline) := by
      obtain ⟨out, hsome, hlevel⟩ := happlies
      have hout := ho out hsome
      rw [Category.outItem hsome] at hout
      rw [← hout.finds_eq, ← Category.outItem hsome]
      ext str
      refine ⟨fun ⟨out', hsome', _, hin⟩ => ?_, fun hin => ⟨out, hsome, hlevel, hin⟩⟩
      rwa [Option.some.inj (hsome.symm.trans hsome')]
    rw [hhidden]
    exact ⟨fun h => ⟨fun hnot => absurd happlies hnot, fun _ => h⟩, fun h => h.2 happlies⟩
  · have hhidden : cat.hidden valid search level = 0 := by
      ext str
      exact ⟨fun ⟨out, hsome, hlevel, _⟩ => happlies ⟨out, hsome, hlevel⟩, False.elim⟩
    rw [hhidden, tsub_zero]
    exact ⟨fun h => ⟨fun _ => h, fun hout => absurd hout happlies⟩, fun h => h.1 happlies⟩

/-- Expressions without letters. -/
theorem blind_shown {cat : Category} (hline : ∀ c, newline c → c.isAlpha = false) {r o : Regex}
    (hr : ReadsAs valid search newline cat.m_filterItem r)
    (ho : ∀ out, cat.m_filterOutItem = some out → ReadsAs valid search newline out o)
    (hletters : letters r.text = []) (hnone : cat.m_filterOutItem ≠ none → letters o.text = [])
    (level : UInt8) : Blind Char.toLower (cat.shown valid search level) := by
  have hblind := (Regex.blind_language hline hletters).found
  refine (blind_shown_iff hr ho level).mpr ⟨fun _ => hblind, ?_⟩
  rintro ⟨out, hsome, -⟩
  have hout := hnone (by rw [hsome]; exact Option.some_ne_none out)
  exact hblind.sub (Regex.blind_language hline hout).found

/-- Literals. -/
theorem blind_shown_spelled_iff {cat : Category} (hline : ∀ c, newline c → c.isAlpha = false)
    (hfilter : Literals (front cat.m_filter)) (hfilterout : Literals (front cat.m_filterout))
    (hr : Reads valid search newline (spelled cat.m_filter))
    (ho : cat.m_filterOutItem ≠ none → Reads valid search newline (spelled cat.m_filterout))
    (level : UInt8) :
    Blind Char.toLower (cat.shown valid search level) ↔
      letters (front cat.m_filter) = [] ∧
          (cat.OutApplies level → letters (front cat.m_filterout) = []) ∨
        cat.OutApplies level ∧ Covered newline cat := by
  have hitem : ReadsAs valid search newline cat.m_filterItem (spelled cat.m_filter) := by
    rw [cat.made]
    exact hr.readsAs
  have houtItem : ∀ out, cat.m_filterOutItem = some out →
      ReadsAs valid search newline out (spelled cat.m_filterout) := by
    intro out hsome
    rw [Category.outItem hsome]
    exact (ho (by rw [hsome]; exact Option.some_ne_none out)).readsAs
  rw [blind_shown_iff hitem houtItem, Regex.blind_found_iff hline (literal_spelled hfilter),
    Regex.blind_sub_iff hline (literal_spelled hfilter) (literal_spelled hfilterout),
    letters_spelled, letters_spelled]
  by_cases happlies : cat.OutApplies level
  · simp only [happlies, not_true, false_implies, true_implies, true_and]
    exact Iff.rfl
  · simp only [happlies, not_false_iff, true_implies, false_implies, and_true, false_and, or_false]

/-- A category ignores case if and only if the texts it shows are blind to it: in the words of the
    two expressions, if there are any, and as they are without letters. With literals there are no
    other ones, but those that leave out all they find. -/
theorem ignoresCase_iff (hline : ∀ c, newline c → c.isAlpha = false) (cat : Category) :
    (∀ str level, cat.isFiltered valid search str level = true ↔
      cat.m_filterItem.isFiltered valid search str (Category.byte level) = true ∧
        ∀ out, cat.m_filterOutItem = some out →
          out.isFiltered valid search str (Category.byte level) = false) ∧
    (cat.IgnoresCase valid search ↔
      ∀ level, cat.m_filterItem.Applies (Category.byte level) →
        Blind Char.toLower (cat.shown valid search (Category.byte level))) ∧
    (∀ r o : Regex, ReadsAs valid search newline cat.m_filterItem r →
      (∀ out, cat.m_filterOutItem = some out → ReadsAs valid search newline out o) →
      (cat.IgnoresCase valid search ↔
        ∀ level, cat.m_filterItem.Applies (Category.byte level) →
          (¬ cat.OutApplies (Category.byte level) →
            Blind Char.toLower (Regex.found (r.language newline))) ∧
          (cat.OutApplies (Category.byte level) → Blind Char.toLower
            (Regex.found (r.language newline) - Regex.found (o.language newline)))) ∧
      (letters r.text = [] → (cat.m_filterOutItem ≠ none → letters o.text = []) →
        cat.IgnoresCase valid search)) ∧
    (Literals (front cat.m_filter) → Literals (front cat.m_filterout) →
      Reads valid search newline (spelled cat.m_filter) →
      (cat.m_filterOutItem ≠ none → Reads valid search newline (spelled cat.m_filterout)) →
      (cat.IgnoresCase valid search ↔
        ∀ level, cat.m_filterItem.Applies (Category.byte level) →
          letters (front cat.m_filter) = [] ∧
              (cat.OutApplies (Category.byte level) → letters (front cat.m_filterout) = []) ∨
            cat.OutApplies (Category.byte level) ∧ Covered newline cat)) := by
  have hblind := Category.ignoresCase_iff_blind valid search cat
  refine ⟨Category.isFiltered_iff_items valid search cat, hblind, ?_, ?_⟩
  · intro r o hr ho
    rw [hblind]
    constructor
    · refine forall_congr' fun level => imp_congr_right fun _ => ?_
      exact blind_shown_iff hr ho (Category.byte level)
    · intro hletters hnone level _
      exact blind_shown hline hr ho hletters hnone (Category.byte level)
  · intro hfilter hfilterout hr ho
    rw [hblind]
    refine forall_congr' fun level => imp_congr_right fun _ => ?_
    exact blind_shown_spelled_iff hline hfilter hfilterout hr ho (Category.byte level)

end

/-- The search for a text, as an engine for patterns without operators. -/
theorem reads_literal {filterPattern : QString}
    (h : '?' ∉ fixedFilterPattern (front filterPattern)) (newline : Char → Prop) :
    Reads (fun _ => true) literal newline (spelled filterPattern) := by
  refine ⟨rfl, fun str => ?_⟩
  rw [literal, decide_eq_true_iff, spelled, Regex.text_ofText]
  constructor
  · intro hin
    exact ⟨_, (Regex.mem_language_ofText h).mpr rfl, hin⟩
  · rintro ⟨w, hw, hin⟩
    rwa [(Regex.mem_language_ofText h).mp hw] at hin

/-- A category with one pattern. -/
def orcs : Category := Category.new "Orcs".toList "orc".toList []

/-- A category with a level range and a second filter. -/
def levelled : Category := Category.new "1 to 5".toList ":1;1-5".toList ": 2".toList

/-- What has no letters ignores case. -/
theorem ignoresCase_levelled : levelled.IgnoresCase (fun _ => true) literal := by
  have hline : ∀ c : Char, c = '\n' → c.isAlpha = false := by
    rintro c rfl
    rfl
  obtain ⟨-, -, -, hpatterns⟩ := ignoresCase_iff hline levelled
  have hiff := hpatterns rfl rfl (reads_literal (by decide) _)
    fun _ => reads_literal (by decide) _
  exact hiff.mpr fun level _ => .inl ⟨rfl, fun _ => rfl⟩

/-- The orc shows, and the ORC does not. -/
theorem orcs_upperCase : ¬ orcs.IgnoresCase (fun _ => true) literal := by
  intro h
  have hlevel := h 0 "orc".toList "ORC".toList (by decide)
  revert hlevel
  decide

end ShoweqDaemon.Rules
