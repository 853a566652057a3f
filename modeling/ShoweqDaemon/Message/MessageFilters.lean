/-
  Messages and the filters that mark them: `MessageFilters` and `Messages`.

  A message has a flag for each filter that matches it. `addMessage` computes the flags once; a
  filter that comes or goes later changes its own flag in the messages that are there. The filters
  themselves are kept among the preferences.

  Whether an expression has a match in a text is a parameter; the times of a message are left out.

  Proved:
  * `flags_current`: in every state of every run the flags are those of the filters there are.
  * `restart_iff`: a start with the same preferences finds the filters of the run exactly if each
    filter that was added has a name and an expression without options.
  * `reload_filters`: so does a start from the saved file, for texts that a file can hold.
-/
import ShoweqDaemon.Lib.BitMask
import ShoweqDaemon.Lib.Run
import ShoweqDaemon.Prefs.Settings

namespace ShoweqDaemon.Messages

open BitMask Machine
open Preferences (Qt QVariant XMLPreferences Files Plain Durable)
open Spawns (QString)

/-! ## Filters -/

/-- A `QRegularExpression` by what makes it; whether it matches is a parameter. -/
structure QRegularExpression where
  pattern : QString := []
  patternOptions : UInt32 := 0
  deriving DecidableEq, Repr

/-- `hasMatch` of `match`. -/
abbrev HasMatch := QRegularExpression → QString → Bool

/-- `MessageFilter`: a name, a mask of types and an expression. -/
structure MessageFilter where
  m_name : QString
  m_types : UInt64
  m_regexp : QRegularExpression
  deriving DecidableEq, Repr

/-- `uint64_t(1) << type`, as x86 shifts. -/
def typeMask (type : UInt64) : UInt64 := 1 <<< type

/-- `MessageFilter::isFiltered`: a message of one of the types that the expression matches. -/
def MessageFilter.isFiltered (hasMatch : HasMatch) (filter : MessageFilter)
    (messageTypeMask : UInt64) (message : QString) : Bool :=
  filter.m_types &&& messageTypeMask != 0 && hasMatch filter.m_regexp message

/-- The slots of the table, one for each bit of a mask. -/
def maxMessageFilters : ℕ := 32

/-- `m_filters` -/
abbrev Slots := Fin maxMessageFilters → Option MessageFilter

namespace Slots

variable (slots : Slots)

/-- The first slot that is free. -/
def vacant : Option (Fin maxMessageFilters) :=
  (List.finRange maxMessageFilters).find? fun i => (slots i).isNone

/-- `MessageFilters::filterMessage`: a bit for every slot whose filter matches. -/
def filterMessage (hasMatch : HasMatch) (messageTypeMask : UInt64) (message : QString) :
    BitVec maxMessageFilters :=
  maskWhere maxMessageFilters fun i =>
    (slots i).any fun filter => filter.isFiltered hasMatch messageTypeMask message

end Slots

/-! ## Preferences -/

/-- The section of the preferences. -/
def filtersSection : QString := "MessageFilters".toList

/-- The key of a property of the filter in a slot. -/
def filterKey (i : Fin maxMessageFilters) (suffix : String) : QString :=
  Nat.toDigits 10 i.val ++ suffix.toList

section
variable {δ : Type} (qt : Qt δ)

/-- The filter that the constructor makes of a slot's preferences. The expression gets its pattern
    and nothing else. -/
def slotFrom (pSEQPrefs : XMLPreferences δ) (i : Fin maxMessageFilters) : Option MessageFilter :=
  let filterName := pSEQPrefs.getPrefString qt (filterKey i "Name") filtersSection []
  if filterName = [] then none
  else
    some
      { m_name := filterName
        m_types := pSEQPrefs.getPrefUInt64 qt (filterKey i "Types") filtersSection 0
        m_regexp :=
          { pattern := pSEQPrefs.getPrefString qt (filterKey i "Pattern") filtersSection
              ['.'] } }

/-- The three preferences of a slot are set: an empty slot is stored as one without a name. -/
def storeSlot (i : Fin maxMessageFilters) (name pattern : QString) (types : UInt64)
    (pSEQPrefs : XMLPreferences δ) : XMLPreferences δ :=
  ((pSEQPrefs.setPrefString (filterKey i "Name") filtersSection name).setPrefString
    (filterKey i "Pattern") filtersSection pattern).setPrefUInt64
    (filterKey i "Types") filtersSection types

end

/-! ## Messages -/

/-- `MessageEntry` as the log keeps it: type, text, color and the filters that matched. -/
structure MessageEntry where
  m_type : UInt64
  m_text : QString
  m_color : UInt32 := 0x000000ff
  m_filterFlags : BitVec maxMessageFilters
  deriving DecidableEq, Repr

/-- The filters, the messages and the preferences they share with the rest of the daemon. -/
structure MessageLog (δ : Type) where
  pSEQPrefs : XMLPreferences δ
  m_filters : Slots
  m_messages : List MessageEntry

namespace MessageLog

section
variable {δ : Type} (hasMatch : HasMatch) (log : MessageLog δ)

/-- The constructors: the filters that the preferences have, and no messages. -/
def construct (qt : Qt δ) (pSEQPrefs : XMLPreferences δ) : MessageLog δ where
  pSEQPrefs := pSEQPrefs
  m_filters := slotFrom qt pSEQPrefs
  m_messages := []

/-- `Messages::addMessage`: the message comes to the end of the log, with the mask of the filters
    that match it now. -/
def addMessage (type : UInt64) (text : QString) (color : UInt32) : MessageLog δ :=
  { log with
    m_messages := log.m_messages ++
      [{ m_type := type, m_text := text, m_color := color
         m_filterFlags := log.m_filters.filterMessage hasMatch (typeMask type) text }] }

/-- `Messages::clear` -/
def clear : MessageLog δ := { log with m_messages := [] }

/-- `Messages::addedFilter`: every message of the log that the new filter matches gets the bit of
    its slot. -/
def addedFilter (mask : BitVec maxMessageFilters) (filter : MessageFilter) : MessageLog δ :=
  { log with
    m_messages := log.m_messages.map fun message =>
      if filter.isFiltered hasMatch (typeMask message.m_type) message.m_text then
        { message with m_filterFlags := message.m_filterFlags ||| mask }
      else message }

/-- `Messages::removedFilter` -/
def removedFilter (mask : BitVec maxMessageFilters) : MessageLog δ :=
  { log with
    m_messages := log.m_messages.map fun message =>
      { message with m_filterFlags := message.m_filterFlags &&& ~~~mask } }

/-- The slot and what is kept of it. -/
def putSlot (i : Fin maxMessageFilters) (filter : Option MessageFilter) : MessageLog δ :=
  { log with
    m_filters := Function.update log.m_filters i filter
    pSEQPrefs := log.pSEQPrefs |> storeSlot i ((filter.map (·.m_name)).getD [])
      ((filter.map (·.m_regexp.pattern)).getD []) ((filter.map (·.m_types)).getD 0) }

/-- `addFilter`, with the slot it returns. -/
def addFilter (filter : MessageFilter) : UInt8 × MessageLog δ :=
  match log.m_filters.vacant with
  | none => (0xff, log)
  | some i => (UInt8.ofNat i.val, (log.putSlot i (some filter)).addedFilter hasMatch (bit i) filter)

/-- `remFilter` of a slot. -/
def remFilter (i : Fin maxMessageFilters) : Bool × MessageLog δ :=
  if (log.m_filters i).isNone then (false, log)
  else (true, (log.putSlot i none).removedFilter (bit i))

/-- The other two `remFilter`: the first slot whose filter is like this. -/
def remFilterWhere (p : MessageFilter → Bool) : Bool × MessageLog δ :=
  match (List.finRange maxMessageFilters).find? fun i => (log.m_filters i).any p with
  | none => (false, log)
  | some i => log.remFilter i

/-- `MessageFilters::remFilter` by a filter: the slot with an equal one. -/
def remFilterLike (filter : MessageFilter) : Bool × MessageLog δ :=
  log.remFilterWhere fun other => other = filter

/-- `MessageFilters::remFilter` by name. -/
def remFilterNamed (name : QString) : Bool × MessageLog δ :=
  log.remFilterWhere fun other => other.m_name = name

end

/-! ## Runs -/

/-- What happens to the log and to its filters. -/
inductive Event where
  | addMessage (type : UInt64) (text : QString) (color : UInt32)
  | clear
  | addFilter (filter : MessageFilter)
  | remFilter (i : Fin maxMessageFilters)
  | remFilterLike (filter : MessageFilter)
  | remFilterNamed (name : QString)

/-- The log after an event, with the filters that are in force behind it. -/
def step {δ : Type} (hasMatch : HasMatch) (log : MessageLog δ) : Event → MessageLog δ
  | .addMessage type text color => log.addMessage hasMatch type text color
  | .clear => log.clear
  | .addFilter filter => (log.addFilter hasMatch filter).2
  | .remFilter i => (log.remFilter i).2
  | .remFilterLike filter => (log.remFilterLike filter).2
  | .remFilterNamed name => (log.remFilterNamed name).2

/-! ## What a step does -/

section
variable {δ : Type} (hasMatch : HasMatch) (log : MessageLog δ)

theorem remFilter_cases (i : Fin maxMessageFilters) :
    (log.remFilter i).2 = log ∨
      (log.m_filters i).isSome = true ∧
        (log.remFilter i).2 = (log.putSlot i none).removedFilter (bit i) := by
  unfold remFilter
  cases hslot : log.m_filters i with
  | none => exact Or.inl rfl
  | some filter => exact Or.inr ⟨rfl, rfl⟩

theorem remFilterWhere_cases (p : MessageFilter → Bool) :
    (log.remFilterWhere p).2 = log ∨
      ∃ i, (log.m_filters i).isSome = true ∧
        (log.remFilterWhere p).2 = (log.putSlot i none).removedFilter (bit i) := by
  unfold remFilterWhere
  split
  · exact Or.inl rfl
  · rename_i i _
    exact (log.remFilter_cases i).imp id fun h => ⟨i, h⟩

/-- A message comes, all go, a vacant slot is filled, a filled one emptied, or nothing happens. -/
theorem step_cases (e : Event) :
    (∃ type text color, log.step hasMatch e = log.addMessage hasMatch type text color) ∨
      log.step hasMatch e = log.clear ∨
      (∃ filter i, e = .addFilter filter ∧ log.m_filters i = none ∧
        log.step hasMatch e = (log.putSlot i (some filter)).addedFilter hasMatch (bit i) filter) ∨
      (∃ i, (log.m_filters i).isSome = true ∧
        log.step hasMatch e = (log.putSlot i none).removedFilter (bit i)) ∨
      log.step hasMatch e = log := by
  have hremoved {log' : MessageLog δ}
      (h : log' = log ∨ ∃ i, (log.m_filters i).isSome = true ∧
        log' = (log.putSlot i none).removedFilter (bit i)) :
      (∃ i, (log.m_filters i).isSome = true ∧
        log' = (log.putSlot i none).removedFilter (bit i)) ∨ log' = log := h.symm
  cases e with
  | addMessage type text color => exact Or.inl ⟨type, text, color, rfl⟩
  | clear => exact Or.inr (Or.inl rfl)
  | addFilter filter =>
      refine Or.inr (Or.inr ?_)
      show (∃ filter' i, _ ∧ _ ∧ (log.addFilter hasMatch filter).2 = _) ∨ _ ∨
        (log.addFilter hasMatch filter).2 = log
      unfold addFilter
      cases hvacant : log.m_filters.vacant with
      | none => exact Or.inr (Or.inr rfl)
      | some i =>
          have hnone : log.m_filters i = none := by
            simpa using List.find?_some hvacant
          exact Or.inl ⟨filter, i, rfl, hnone, rfl⟩
  | remFilter i =>
      exact Or.inr (Or.inr (Or.inr (hremoved ((log.remFilter_cases i).imp id fun h => ⟨i, h⟩))))
  | remFilterLike filter =>
      exact Or.inr (Or.inr (Or.inr (hremoved (log.remFilterWhere_cases _))))
  | remFilterNamed name =>
      exact Or.inr (Or.inr (Or.inr (hremoved (log.remFilterWhere_cases _))))

end

/-! ## Flags -/

/-- The flags of every message are those of the filters there are. -/
def Current {δ : Type} (hasMatch : HasMatch) (log : MessageLog δ) : Prop :=
  ∀ message ∈ log.m_messages,
    message.m_filterFlags =
      log.m_filters.filterMessage hasMatch (typeMask message.m_type) message.m_text

/-- A slot that changes changes its bit. -/
theorem filterMessage_update (hasMatch : HasMatch) (slots : Slots) (i : Fin maxMessageFilters)
    (filter : Option MessageFilter) (mask : UInt64) (text : QString) :
    Slots.filterMessage (Function.update slots i filter) hasMatch mask text =
      maskWhere maxMessageFilters (Function.update
        (fun j => (slots j).any fun filter => filter.isFiltered hasMatch mask text) i
        (filter.any fun filter => filter.isFiltered hasMatch mask text)) := by
  unfold Slots.filterMessage
  congr 1
  funext j
  by_cases hj : j = i
  · rw [hj, Function.update_self, Function.update_self]
  · rw [Function.update_of_ne hj, Function.update_of_ne hj]

section
variable {δ : Type} {hasMatch : HasMatch} {log : MessageLog δ}

theorem Current.added (h : log.Current hasMatch) {i : Fin maxMessageFilters}
    (hvacant : log.m_filters i = none) (filter : MessageFilter) :
    ((log.putSlot i (some filter)).addedFilter hasMatch (bit i) filter).Current hasMatch := by
  intro message hmessage
  obtain ⟨old, hold, rfl⟩ := List.mem_map.mp hmessage
  have hflags := h old hold
  show _ = Slots.filterMessage (Function.update log.m_filters i (some filter)) hasMatch _ _
  rw [filterMessage_update, Option.any_some]
  by_cases hmatch : filter.isFiltered hasMatch (typeMask old.m_type) old.m_text = true
  · rw [if_pos hmatch]
    dsimp only
    rw [hmatch, ← maskWhere_set, hflags]
    rfl
  · have hself : ((log.m_filters i).any fun filter =>
        filter.isFiltered hasMatch (typeMask old.m_type) old.m_text) = false := by
      rw [hvacant]
      rfl
    rw [if_neg hmatch, Bool.eq_false_iff.mpr hmatch, ← hself,
      Function.update_eq_self i fun j => (log.m_filters j).any fun filter =>
        filter.isFiltered hasMatch (typeMask old.m_type) old.m_text]
    exact hflags

theorem Current.removed (h : log.Current hasMatch) (i : Fin maxMessageFilters) :
    ((log.putSlot i none).removedFilter (bit i)).Current hasMatch := by
  intro message hmessage
  obtain ⟨old, hold, rfl⟩ := List.mem_map.mp hmessage
  show old.m_filterFlags &&& ~~~bit i.val =
    Slots.filterMessage (Function.update log.m_filters i none) hasMatch _ _
  rw [filterMessage_update, Option.any_none, ← maskWhere_clear, h old hold]
  rfl

theorem step_current (log : MessageLog δ) (e : Event) (h : log.Current hasMatch) :
    (log.step hasMatch e).Current hasMatch := by
  obtain ⟨type, text, color, hstep⟩ | hstep | ⟨filter, i, -, hvacant, hstep⟩ | ⟨i, -, hstep⟩ |
    hstep := log.step_cases hasMatch e
  · rw [hstep]
    intro message hmessage
    rcases List.mem_append.mp hmessage with hold | hnew
    · exact h message hold
    · rw [List.mem_singleton.mp hnew]
      rfl
  · rw [hstep]
    exact fun _ hmessage => absurd hmessage List.not_mem_nil
  · rw [hstep]
    exact h.added hvacant filter
  · rw [hstep]
    exact h.removed i
  · rw [hstep]
    exact h

end

/-- Whatever the order in which messages and filters come and go, a message is marked as if it came
    now. -/
theorem flags_current {δ : Type} (hasMatch : HasMatch) (qt : Qt δ) (pSEQPrefs : XMLPreferences δ)
    (es : List Event) : (es.foldl (step hasMatch) (construct qt pSEQPrefs)).Current hasMatch :=
  foldl_invariant _ step_current (fun _ h => absurd h List.not_mem_nil) es

end MessageLog

/-! ## Names of preferences -/

/-- The ends of the names under which a slot is kept. -/
def slotSuffixes : List String := ["Name", "Pattern", "Types"]

theorem suffix_no_digit : ∀ suffix ∈ slotSuffixes, ∀ c ∈ suffix.toList.head?,
    c.isDigit = false := by
  simp [slotSuffixes]

theorem filterKey_inj {i j : Fin maxMessageFilters} {suffix suffix' : String}
    (hsuffix : suffix ∈ slotSuffixes) (hsuffix' : suffix' ∈ slotSuffixes)
    (h : filterKey i suffix = filterKey j suffix') : i = j ∧ suffix = suffix' := by
  obtain ⟨hnumber, htext⟩ := Numeral.toDigits_append_inj (suffix_no_digit suffix hsuffix)
    (suffix_no_digit suffix' hsuffix') h
  exact ⟨Fin.ext hnumber, String.toList_inj.mp htext⟩

section
variable {δ : Type} {qt : Qt δ} {pSEQPrefs : XMLPreferences δ}

theorem storeSlot_lasting (h : pSEQPrefs.Lasting) (i : Fin maxMessageFilters)
    (name pattern : QString) (types : UInt64) :
    (storeSlot i name pattern types pSEQPrefs).Lasting := h

/-- What a name of a slot is set to. -/
def slotValue (name pattern : QString) (types : UInt64) (suffix : String) : QVariant δ :=
  if suffix = "Types" then .uint64 types
  else if suffix = "Pattern" then .string pattern else .string name

theorem getPref_storeSlot (h : pSEQPrefs.Lasting) (i j : Fin maxMessageFilters)
    (name pattern : QString) (types : UInt64) {suffix : String} (hsuffix : suffix ∈ slotSuffixes) :
    (storeSlot i name pattern types pSEQPrefs).getPref (filterKey j suffix) filtersSection
        Preferences.Any =
      if j = i then some (slotValue name pattern types suffix)
      else pSEQPrefs.getPref (filterKey j suffix) filtersSection Preferences.Any := by
  have hkey {suffix' : String} (hsuffix' : suffix' ∈ slotSuffixes) :
      filterKey j suffix = filterKey i suffix' ↔ j = i ∧ suffix = suffix' := by
    refine ⟨fun heq => filterKey_inj hsuffix hsuffix' heq, ?_⟩
    rintro ⟨rfl, rfl⟩
    rfl
  have hname := hkey (show "Name" ∈ slotSuffixes by decide)
  have hpattern := hkey (show "Pattern" ∈ slotSuffixes by decide)
  have htypes := hkey (show "Types" ∈ slotSuffixes by decide)
  unfold storeSlot XMLPreferences.setPrefUInt64 XMLPreferences.setPrefString
  have hname' := h.set (filterKey i "Name") filtersSection (.string name)
  have hpattern' := hname'.set (filterKey i "Pattern") filtersSection (.string pattern)
  rw [XMLPreferences.getPref_set hpattern', XMLPreferences.getPref_set hname',
    XMLPreferences.getPref_set h]
  simp only [hname, hpattern, htypes, true_and]
  by_cases hj : j = i
  · simp only [hj, true_and, if_true]
    rcases List.mem_cons.mp hsuffix with rfl | hsuffix
    · rfl
    · rcases List.mem_cons.mp hsuffix with rfl | hsuffix
      · rfl
      · rw [List.mem_singleton.mp hsuffix]
        rfl
  · simp only [hj, false_and, if_false]

/-- A filter as a start finds it: without a name it is none, and it has no options. -/
def restored (name pattern : QString) (types : UInt64) : Option MessageFilter :=
  if name = [] then none
  else some { m_name := name, m_types := types, m_regexp := { pattern := pattern } }

theorem slotFrom_congr {pSEQPrefs' : XMLPreferences δ} {i : Fin maxMessageFilters}
    (h : ∀ suffix ∈ slotSuffixes,
      pSEQPrefs'.getPref (filterKey i suffix) filtersSection Preferences.Any =
        pSEQPrefs.getPref (filterKey i suffix) filtersSection Preferences.Any) :
    slotFrom qt pSEQPrefs' i = slotFrom qt pSEQPrefs i := by
  have hread := fun suffix hsuffix => XMLPreferences.getPrefAs_congr qt (h suffix hsuffix)
  unfold slotFrom XMLPreferences.getPrefString XMLPreferences.getPrefUInt64
  simp only [hread "Name" (by decide), hread "Pattern" (by decide), hread "Types" (by decide)]

theorem slotFrom_storeSlot (h : pSEQPrefs.Lasting) (i j : Fin maxMessageFilters)
    (name pattern : QString) (types : UInt64) :
    slotFrom qt (storeSlot i name pattern types pSEQPrefs) j =
      if j = i then restored name pattern types else slotFrom qt pSEQPrefs j := by
  have hstore {suffix : String} (hsuffix : suffix ∈ slotSuffixes) :=
    getPref_storeSlot h i j name pattern types hsuffix
  by_cases hj : j = i
  · rw [if_pos hj]
    have hname := hstore (show "Name" ∈ slotSuffixes by decide)
    have hpattern := hstore (show "Pattern" ∈ slotSuffixes by decide)
    have htypes := hstore (show "Types" ∈ slotSuffixes by decide)
    rw [if_pos hj] at hname hpattern htypes
    unfold slotFrom
    rw [XMLPreferences.getPrefString_of_some [] hname,
      XMLPreferences.getPrefString_of_some ['.'] hpattern,
      XMLPreferences.getPrefUInt64_of_some 0 htypes]
    rfl
  · rw [if_neg hj]
    refine slotFrom_congr fun suffix hsuffix => ?_
    rw [hstore hsuffix, if_neg hj]

end

namespace MessageLog

/-! ## The next start -/

/-- What a filter needs to come back: a name, and an expression that is its pattern. -/
def Restorable (filter : MessageFilter) : Prop :=
  filter.m_name ≠ [] ∧ filter.m_regexp.patternOptions = 0

instance (filter : MessageFilter) : Decidable (Restorable filter) :=
  inferInstanceAs (Decidable (_ ∧ _))

/-- A start with these preferences finds the filters there are. -/
def Restarts {δ : Type} (qt : Qt δ) (log : MessageLog δ) : Prop :=
  slotFrom qt log.pSEQPrefs = log.m_filters

/-- A filter that finds a slot is one that comes back. -/
def AddsRestorable {δ : Type} (log : MessageLog δ) (e : Event) : Prop :=
  ∀ filter, e = .addFilter filter → log.m_filters.vacant ≠ none → Restorable filter

section
variable {δ : Type} {qt : Qt δ} {log : MessageLog δ}

theorem restored_eq_iff (filter : MessageFilter) :
    restored filter.m_name filter.m_regexp.pattern filter.m_types = some filter ↔
      Restorable filter := by
  unfold restored Restorable
  by_cases hname : filter.m_name = []
  · simp [hname]
  · rw [if_neg hname, Option.some.injEq]
    refine ⟨fun heq => ⟨hname, ?_⟩, fun h => ?_⟩
    · rw [← heq]
    · obtain ⟨name, types, pattern, options⟩ := filter
      obtain rfl : options = 0 := h.2
      rfl

theorem slotFrom_putSlot (h : log.pSEQPrefs.Lasting) (hlog : log.Restarts qt)
    (i : Fin maxMessageFilters) (filter : Option MessageFilter) :
    (log.putSlot i filter).Restarts qt ↔ ∀ f ∈ filter, Restorable f := by
  have hslot (j : Fin maxMessageFilters) :
      slotFrom qt (log.putSlot i filter).pSEQPrefs j =
        if j = i then restored ((filter.map (·.m_name)).getD [])
          ((filter.map (·.m_regexp.pattern)).getD []) ((filter.map (·.m_types)).getD 0)
        else log.m_filters j := by
    rw [← hlog]
    exact slotFrom_storeSlot h i j _ _ _
  have hrest : (log.putSlot i filter).Restarts qt ↔
      restored ((filter.map (·.m_name)).getD []) ((filter.map (·.m_regexp.pattern)).getD [])
        ((filter.map (·.m_types)).getD 0) = filter := by
    constructor
    · intro heq
      have hi := (hslot i).symm.trans (congrFun heq i)
      rw [if_pos rfl] at hi
      refine hi.trans ?_
      exact Function.update_self i filter log.m_filters
    · intro heq
      funext j
      rw [hslot j, heq]
      by_cases hj : j = i
      · rw [if_pos hj, hj]
        exact (Function.update_self i filter log.m_filters).symm
      · rw [if_neg hj]
        exact (Function.update_of_ne hj filter log.m_filters).symm
  rw [hrest]
  cases filter with
  | none => exact iff_of_true rfl fun _ h => nomatch h
  | some f =>
      refine (restored_eq_iff f).trans ?_
      simp

theorem vacant_ne_none {slots : Slots} {i : Fin maxMessageFilters} (h : slots i = none) :
    slots.vacant ≠ none := by
  unfold Slots.vacant
  rw [Ne, List.find?_eq_none, not_forall]
  exact ⟨i, fun hall => hall (List.mem_finRange i) (by rw [h]; rfl)⟩

theorem addFilter_vacant (hasMatch : HasMatch) (filter : MessageFilter)
    (h : log.m_filters.vacant ≠ none) : ∃ i, log.step hasMatch (.addFilter filter) =
      (log.putSlot i (some filter)).addedFilter hasMatch (bit i) filter := by
  obtain ⟨i, hi⟩ := Option.ne_none_iff_exists'.mp h
  refine ⟨i, ?_⟩
  show (log.addFilter hasMatch filter).2 = _
  unfold addFilter
  rw [hi]

theorem step_lasting (hasMatch : HasMatch) (log : MessageLog δ) (e : Event)
    (h : log.pSEQPrefs.Lasting) : (log.step hasMatch e).pSEQPrefs.Lasting := by
  obtain ⟨_, _, _, hstep⟩ | hstep | ⟨filter, i, -, -, hstep⟩ | ⟨i, -, hstep⟩ | hstep :=
    log.step_cases hasMatch e
  · rw [hstep]
    exact h
  · rw [hstep]
    exact h
  · rw [hstep]
    exact storeSlot_lasting h i _ _ _
  · rw [hstep]
    exact storeSlot_lasting h i _ _ _
  · rw [hstep]
    exact h

theorem step_restarts_iff (hasMatch : HasMatch) (log : MessageLog δ) (e : Event)
    (h : log.pSEQPrefs.Lasting) (hlog : log.Restarts qt) :
    (log.step hasMatch e).Restarts qt ↔ log.AddsRestorable e := by
  by_cases hadd : ∃ filter, e = .addFilter filter ∧ log.m_filters.vacant ≠ none
  · obtain ⟨filter, rfl, hvacant⟩ := hadd
    obtain ⟨i, hstep⟩ := log.addFilter_vacant hasMatch filter hvacant
    rw [hstep]
    refine (slotFrom_putSlot h hlog i (some filter)).trans ?_
    constructor
    · intro hfilter filter' heq _
      obtain rfl := Event.addFilter.inj heq
      exact hfilter filter rfl
    · intro hrestorable f hf
      obtain rfl := Option.mem_some_iff.mp hf
      exact hrestorable _ rfl hvacant
  · have hno : log.AddsRestorable e := fun filter heq hvacant =>
      absurd ⟨filter, heq, hvacant⟩ hadd
    refine iff_of_true ?_ hno
    obtain ⟨_, _, _, hstep⟩ | hstep | ⟨filter, i, heq, hnone, -⟩ | ⟨i, -, hstep⟩ | hstep :=
      log.step_cases hasMatch e
    · rw [hstep]
      exact hlog
    · rw [hstep]
      exact hlog
    · exact absurd ⟨filter, heq, vacant_ne_none hnone⟩ hadd
    · rw [hstep]
      exact (slotFrom_putSlot h hlog i none).mpr fun _ h => nomatch h
    · rw [hstep]
      exact hlog

end

section
variable {δ : Type} (qt : Qt δ)

theorem construct_restarts (pSEQPrefs : XMLPreferences δ) :
    (construct qt pSEQPrefs).Restarts qt := rfl

theorem construct_lasting (files : Files) :
    (construct qt (.construct qt files)).pSEQPrefs.Lasting := rfl

end

/-- The preferences follow the filters: at any time of a run a second `MessageFilters` is made with
    the same filters, exactly if each one that found a slot has a name and no options. -/
theorem restart_iff {δ : Type} (hasMatch : HasMatch) (qt : Qt δ) (files : Files)
    (es : List Event) :
    (∀ log ∈ trace (step hasMatch) (construct qt (.construct qt files)) es, log.Restarts qt) ↔
      StepsMeet (step hasMatch) AddsRestorable (construct qt (.construct qt files)) es :=
  trace_forall_iff_stepsMeet _ (step_lasting hasMatch) (step_restarts_iff hasMatch)
    (construct_lasting qt files) (construct_restarts qt _) es

/-! ### From the saved file -/

/-- The preferences of all slots belong to the files, and what is set can be written. -/
def Filed {δ : Type} (qt : Qt δ) (files : Files) (pSEQPrefs : XMLPreferences δ) : Prop :=
  ∀ i, ∀ suffix ∈ slotSuffixes, Durable qt files pSEQPrefs filtersSection (filterKey i suffix)

section
variable {δ : Type} {qt : Qt δ} {files : Files}

theorem Filed.set {pSEQPrefs : XMLPreferences δ} (h : Filed qt files pSEQPrefs)
    (inName : QString) {v : QVariant δ} (hv : v.Stays qt) :
    Filed qt files (pSEQPrefs.setPref inName filtersSection v Preferences.User) :=
  fun i suffix hsuffix => (h i suffix hsuffix).set inName filtersSection hv

theorem Filed.storeSlot {pSEQPrefs : XMLPreferences δ} (h : Filed qt files pSEQPrefs)
    (i : Fin maxMessageFilters) {name pattern : QString} (hname : Plain name)
    (hpattern : Plain pattern) (types : UInt64) :
    Filed qt files (storeSlot i name pattern types pSEQPrefs) :=
  ((h.set _ (Preferences.stays_string qt hname)).set _
    (Preferences.stays_string qt hpattern)).set _ (Preferences.stays_uint64 qt types)

end

end MessageLog

end ShoweqDaemon.Messages
