/-
  The filter rules: `FilterItem`, `Filter`, `Filters`, `FilterTypes` and `FilterMgr`.

  A rule keeps the pattern it was made from and matches with a rewritten one, in which every "Name:"
  has become "Name:#?". A rule's name is the rewritten pattern; `findFilter` and `remFilter` compare
  names with the pattern they are given. No rule has the name that a later one was made from: this
  is the invariant of a `Filter`. The regular expressions themselves are Qt's; whether one is valid
  is a parameter.
-/
import ShoweqDaemon.Spawn.Item

namespace ShoweqDaemon.Rules

open Spawns (QString)

/-! ## Patterns -/

/-- The text begins with "Name:" in any case. -/
def startsWithName (s : QString) : Bool := (s.take 5).map Char.toLower = "name:".toList

/-- The text has "Name:" somewhere, in whatever case. -/
def mentionsName : QString → Bool
  | [] => false
  | c :: cs => startsWithName (c :: cs) || mentionsName cs

/-- `replace("Name:", "Name:#?", Qt::CaseInsensitive)`, where `skip` characters of the text were
    replaced already. -/
def replaceName (skip : ℕ) : QString → QString
  | [] => []
  | c :: cs =>
      match skip with
      | skip + 1 => replaceName skip cs
      | 0 =>
          if startsWithName (c :: cs) then "Name:#?".toList ++ replaceName 4 cs
          else c :: replaceName 0 cs

/-- The pattern with a `#` that may be missing in front of every name that it asks for. -/
def fixedFilterPattern (filterString : QString) : QString := replaceName 0 filterString

theorem replaceName_of_not_mentions {s : QString} (h : mentionsName s = false) :
    replaceName 0 s = s := by
  induction s with
  | nil => rfl
  | cons c cs ih =>
      obtain ⟨hhead, htail⟩ := Bool.or_eq_false_iff.mp h
      rw [replaceName, hhead, if_neg Bool.false_ne_true, ih htail]

/-- The text grows with every replacement. -/
theorem replaceName_length (s : QString) (skip : ℕ) :
    s.length ≤ (replaceName skip s).length + skip := by
  induction s generalizing skip with
  | nil => exact Nat.zero_le _
  | cons c cs ih =>
      cases skip with
      | succ skip =>
          have hrest := ih skip
          rw [replaceName, List.length_cons]
          omega
      | zero =>
          rw [replaceName]
          split
          · have hrest := ih 4
            rw [List.length_append, List.length_cons]
            have hname : "Name:#?".toList.length = 7 := rfl
            omega
          · have hrest := ih 0
            rw [List.length_cons, List.length_cons]
            omega

theorem replaceName_grows {s : QString} (h : mentionsName s = true) :
    s.length < (replaceName 0 s).length := by
  induction s with
  | nil => cases h
  | cons c cs ih =>
      rw [replaceName]
      split
      · have hrest := replaceName_length cs 4
        have hname : "Name:#?".toList.length = 7 := rfl
        rw [List.length_append, List.length_cons]
        omega
      · rename_i hhead
        have htail : mentionsName cs = true := (Bool.or_eq_true_iff.mp h).resolve_left hhead
        have hrest := ih htail
        rw [List.length_cons, List.length_cons]
        omega

theorem mentionsName_replaceName {s : QString} (h : mentionsName s = true) :
    mentionsName (replaceName 0 s) = true := by
  induction s with
  | nil => cases h
  | cons c cs ih =>
      rw [replaceName]
      split
      · rfl
      · rename_i hhead
        have htail : mentionsName cs = true := (Bool.or_eq_true_iff.mp h).resolve_left hhead
        exact Bool.or_eq_true_iff.mpr (Or.inr (ih htail))

/-- A pattern is its own rewritten form exactly when it names no "Name:". -/
theorem fixedFilterPattern_eq_self_iff {s : QString} :
    fixedFilterPattern s = s ↔ mentionsName s = false := by
  refine ⟨fun h => ?_, replaceName_of_not_mentions⟩
  cases hs : mentionsName s with
  | false => rfl
  | true =>
      have hgrows := replaceName_grows hs
      unfold fixedFilterPattern at h
      rw [h] at hgrows
      exact absurd hgrows (lt_irrefl _)

/-- A rewritten form without "Name:" is the pattern. -/
theorem fixedFilterPattern_eq_iff {s t : QString} (ht : mentionsName t = false) :
    fixedFilterPattern s = t ↔ s = t := by
  constructor
  · intro h
    cases hs : mentionsName s with
    | false => exact (replaceName_of_not_mentions hs).symm.trans h
    | true =>
        have hmentions := mentionsName_replaceName hs
        unfold fixedFilterPattern at h
        rw [h, ht] at hmentions
        cases hmentions
  · rintro rfl
    exact replaceName_of_not_mentions ht

/-! ## Rules -/

/-- `QRegularExpression`: the pattern and the case option. -/
structure QRegularExpression where
  pattern : QString
  caseInsensitive : Bool
  deriving DecidableEq, Repr

/-- `FilterItem`: the expression, the pattern as the user gave it, and a range of levels, 0 for an
    open end. -/
structure FilterItem where
  m_regexp : QRegularExpression
  m_regexpOriginalPattern : QString
  m_minLevel : UInt8
  m_maxLevel : UInt8
  fixed : m_regexp.pattern = fixedFilterPattern m_regexpOriginalPattern
  deriving DecidableEq, Repr

namespace FilterItem

/-- `FilterItem(filterPattern, caseSensitive, minLevel, maxLevel)`. `init` looks for a level range
    behind a semicolon and then takes the whole text after all. -/
def init (regexString : QString) (caseSensitive : Bool) (minLevel maxLevel : UInt8) :
    FilterItem where
  m_regexp := {
    pattern := fixedFilterPattern regexString
    caseInsensitive := !caseSensitive }
  m_regexpOriginalPattern := regexString
  m_minLevel := minLevel
  m_maxLevel := maxLevel
  fixed := rfl

/-- `FilterItem::name`, the pattern of the expression. -/
def name (re : FilterItem) : QString := re.m_regexp.pattern

/-- `FilterItem::origFilterPattern` -/
def origFilterPattern (re : FilterItem) : QString := re.m_regexpOriginalPattern

end FilterItem

theorem nodup_nil : ([] : List FilterItem).Pairwise fun re re' => re.name ≠ re'.origFilterPattern :=
  List.Pairwise.nil

/-- The rules of one type. No rule has the name that a later one was made from. -/
structure Filter where
  m_filterItems : List FilterItem := []
  m_caseSensitive : Bool := false
  nodup : m_filterItems.Pairwise fun re re' => re.name ≠ re'.origFilterPattern := by
    exact nodup_nil

namespace Filter

/-- `Filter::findFilter`: the first item whose expression has the pattern. -/
def findFilter (f : Filter) (filterPattern : QString) : Option FilterItem :=
  f.m_filterItems.find? fun re => re.name = filterPattern

theorem findFilter_none {f : Filter} {filterPattern : QString} :
    f.findFilter filterPattern = none ↔ ∀ re ∈ f.m_filterItems, re.name ≠ filterPattern := by
  unfold findFilter
  rw [List.find?_eq_none]
  simp only [decide_eq_true_eq]

section
variable (valid : QRegularExpression → Bool)

/-- No duplicates allowed. The new rule is appended, valid or not. -/
def addFilter (f : Filter) (filterPattern : QString) (minLevel maxLevel : UInt8) : Filter × Bool :=
  let re := FilterItem.init filterPattern f.m_caseSensitive minLevel maxLevel
  if hnone : f.findFilter filterPattern = none then
    ({ f with
      m_filterItems := f.m_filterItems ++ [re]
      nodup := by
        refine List.pairwise_append.mpr ⟨f.nodup, List.pairwise_singleton _ _, ?_⟩
        intro re' hre' re'' hre''
        rw [List.mem_singleton.mp hre'']
        exact findFilter_none.mp hnone re' hre' }, valid re.m_regexp)
  else (f, false)

end

/-- The first rule of that name goes. -/
def remFilter (f : Filter) (filterPattern : QString) : Filter :=
  { f with
    m_filterItems := f.m_filterItems.eraseP fun re => re.name = filterPattern
    nodup := f.nodup.sublist List.eraseP_sublist }

end Filter

/-! ## Types -/

/-- The types by their masks, each one bit. -/
structure FilterTypes where
  m_allocated : UInt32 := 0
  m_filters : UInt32 → Option QString := fun _ => none
  m_maxType : UInt8 := 0

namespace FilterTypes

/-- The mask of a type, its bit. -/
def mask (type : UInt8) : UInt32 := 1 <<< type.toUInt32

/-- A mask of types that were allocated. -/
def validMask (types : FilterTypes) (mask : UInt32) : Bool := types.m_allocated &&& mask ≠ 0

/-- The first free type, of the 32 that there are, gets the name. -/
def registerType (types : FilterTypes) (name : QString) : FilterTypes :=
  match (List.range 32).find? fun i => types.m_allocated &&& mask i.toUInt8 = 0 with
  | some i =>
      { m_allocated := types.m_allocated ||| mask i.toUInt8
        m_filters := Function.update types.m_filters (mask i.toUInt8) (some name)
        m_maxType := if i.toUInt8 > types.m_maxType then i.toUInt8 else types.m_maxType }
  | none => types

/-- `name(type)` -/
def name (types : FilterTypes) (type : UInt8) : QString :=
  (types.m_filters (mask type)).getD
    ("Unknown:".toList ++ (toString (mask type).toNat).toList)

/-- 255 for a name that is none. -/
def type (types : FilterTypes) (query : QString) : UInt8 :=
  match (List.range (types.m_maxType.toNat + 1)).find? fun i => types.name i.toUInt8 = query with
  | some i => i.toUInt8
  | none => 255

end FilterTypes

/-! ## The rules of all types -/

theorem typed_none {types : FilterTypes} (mask : UInt32) (h : (none : Option Filter) ≠ none) :
    types.validMask mask = true :=
  absurd rfl h

/-- The rules by the masks of their types, all of which are types that there are. -/
structure Filters (types : FilterTypes) where
  m_filters : UInt32 → Option Filter := fun _ => none
  m_caseSensitive : Bool := false
  typed : ∀ mask, m_filters mask ≠ none → types.validMask mask = true := by
    exact typed_none

namespace Filters

variable {types : FilterTypes}

/-- The rules of a type, in their order. -/
def items (fs : Filters types) (type : UInt8) : List FilterItem :=
  match fs.m_filters (FilterTypes.mask type) with
  | some f => f.m_filterItems
  | none => []

/-- The rules of one type replaced, those of all others left alone. The type is a valid one, so the
    filters stay well typed. -/
def put (fs : Filters types) (type : UInt8) (h : types.validMask (FilterTypes.mask type) = true)
    (f : Filter) : Filters types :=
  { fs with
    m_filters := Function.update fs.m_filters (FilterTypes.mask type) (some f)
    typed := by
      intro mask hmask
      by_cases heq : mask = FilterTypes.mask type
      · rw [heq]
        exact h
      · rw [Function.update_of_ne heq] at hmask
        exact fs.typed mask hmask }

section
variable (valid : QRegularExpression → Bool)

/-- `Filters::addFilter`: the list of the type is made when it is not there; a type that was not
    allocated has none. -/
def addFilter (fs : Filters types) (type : UInt8) (filterPattern : QString)
    (minLevel maxLevel : UInt8) : Filters types × Bool :=
  if h : types.validMask (FilterTypes.mask type) = true then
    let filter := (fs.m_filters (FilterTypes.mask type)).getD { m_caseSensitive := fs.m_caseSensitive }
    let (filter, ok) := filter.addFilter valid filterPattern minLevel maxLevel
    (fs.put type h filter, ok)
  else (fs, false)

end

/-- `Filters::remFilter`: the rule with this pattern leaves the filter of its type, if that type is
    valid and has one. -/
def remFilter (fs : Filters types) (type : UInt8) (filterPattern : QString) : Filters types :=
  if h : types.validMask (FilterTypes.mask type) = true then
    match fs.m_filters (FilterTypes.mask type) with
    | none => fs
    | some filter => fs.put type h (filter.remFilter filterPattern)
  else fs

end Filters

/-! ## The manager -/

/-- The types that the files know. -/
def SIZEOF_FILTERS : UInt8 := 7

/-- `FILTER_TYPE_TABLE` -/
def filterTypeTable : List QString :=
  ["Hunt".toList, "Caution".toList, "Danger".toList, "Locate".toList, "Alert".toList,
    "Filtered".toList, "Tracer".toList]

/-- The types of the filters that are kept in files. -/
def fileTypes : FilterTypes := filterTypeTable.foldl FilterTypes.registerType {}

/-- The global rules and those of the zone. -/
structure FilterMgr where
  m_filters : Filters fileTypes := {}
  m_zoneFilters : Filters fileTypes := {}

namespace FilterMgr

/-- One of the two lists of the manager. -/
def get (fm : FilterMgr) (per_zone : Bool) : Filters fileTypes :=
  if per_zone then fm.m_zoneFilters else fm.m_filters

/-- One of the two lists is replaced. -/
def set (fm : FilterMgr) (per_zone : Bool) (fs : Filters fileTypes) : FilterMgr :=
  if per_zone then { fm with m_zoneFilters := fs } else { fm with m_filters := fs }

section
variable (valid : QRegularExpression → Bool)

/-- `addFilter` and `addZoneFilter`: a rule without a level range, refused for a type that is none.
    -/
def addFilter (fm : FilterMgr) (per_zone : Bool) (filter : UInt8) (filterString : QString) :
    FilterMgr × Bool :=
  if filter ≥ SIZEOF_FILTERS then (fm, false)
  else
    let (fs, ok) := (fm.get per_zone).addFilter valid filter filterString 0 0
    (fm.set per_zone fs, ok)

/-- `remFilter` and `remZoneFilter` -/
def remFilter (fm : FilterMgr) (per_zone : Bool) (filter : UInt8) (filterString : QString) :
    FilterMgr :=
  if filter ≥ SIZEOF_FILTERS then fm
  else fm.set per_zone ((fm.get per_zone).remFilter filter filterString)

/-- `editFilter` and `editZoneFilter`: the old pattern is removed before the new one is added, and
    nothing is put back if that one is refused. The level range is gone with the old rule. -/
def editFilter (fm : FilterMgr) (per_zone : Bool) (filter : UInt8)
    (oldPattern newPattern : QString) : FilterMgr × Bool :=
  if filter ≥ SIZEOF_FILTERS then (fm, false)
  else
    let fs := (fm.get per_zone).remFilter filter oldPattern
    let (fs, ok) := fs.addFilter valid filter newPattern 0 0
    (fm.set per_zone fs, ok)

end

end FilterMgr

/-- A row of `FilterRulesUpdate`: a rule as the clients get it. -/
structure FilterRule where
  filter_type : UInt8
  pattern : QString
  min_level : UInt8
  max_level : UInt8
  per_zone : Bool
  deriving DecidableEq, Repr

/-- What `appendFilterRules` shows of one type. -/
def filterRules (fm : FilterMgr) (per_zone : Bool) (filter_type : UInt8) : List FilterRule :=
  ((fm.get per_zone).items filter_type).map fun re =>
    { filter_type, pattern := re.origFilterPattern, min_level := re.m_minLevel
      max_level := re.m_maxLevel, per_zone }

end ShoweqDaemon.Rules
