/-
  The `getPref` and `setPref` methods of single types, and what a store keeps of what is set.

  No caller sets a preference of this run only, so what is set for the user is what is read.
  `getPref_set` says so; `Kept.restart` is what a start finds in the file that `save` wrote.

  `Lasting` is a store whose preferences are all for the user. `Kept` joins a store with the files
  it was loaded from, and `Durable` adds that what it holds can be written as text and read back.

  Proved:
  * `getPref_set`, `getPref_setPrefs_of_mem`, `getPref_setPrefs_of_notMem`: what is set is read,
    and no other name is touched.
  * `Kept.find_save`, `Kept.restart`: a start from the saved files finds what this run held.
  * `Durable.restart`: the same of any value that comes back from its text, over all further sets,
    saves and starts.
-/
import ShoweqDaemon.Prefs.RoundTrip

namespace ShoweqDaemon.Preferences

open FirstMatch (named)
open Spawns (QString)

/-- The text of a colour. -/
def SeqColor.name (c : SeqColor) : QString :=
  '#' :: (Numeral.printPadded 16 2 c.r.toNat ++ Numeral.printPadded 16 2 c.g.toNat ++
    Numeral.printPadded 16 2 c.b.toNat)

/-! ## Methods -/

namespace XMLPreferences

section
variable {δ : Type} (qt : Qt δ) (inName inSection : QString)

/-- `XMLPreferences::isPreference` -/
def isPreference (prefs : XMLPreferences δ) : Bool := (prefs.getPref inName inSection Any).isSome

/-- `XMLPreferences::getPrefString` -/
def getPrefString (default : QString) (prefs : XMLPreferences δ) : QString :=
  match prefs.getPrefAs qt .string inName inSection (.string default) Any with
  | .string s => s
  | _ => []

/-- `XMLPreferences::getPrefUInt64` -/
def getPrefUInt64 (default : UInt64) (prefs : XMLPreferences δ) : UInt64 :=
  match prefs.getPrefAs qt .uint64 inName inSection (.uint64 default) Any with
  | .uint64 u => u
  | _ => 0

/-- `XMLPreferences::getPrefColor` -/
def getPrefColor (default : SeqColor) (prefs : XMLPreferences δ) : SeqColor :=
  match prefs.getPrefAs qt .color inName inSection (.color default) Any with
  | .color c => c
  | _ => {}

/-- `XMLPreferences::setPrefString`, for the user. -/
def setPrefString (s : QString) (prefs : XMLPreferences δ) : XMLPreferences δ :=
  prefs.setPref inName inSection (.string s) User

/-- `XMLPreferences::setPrefUInt64`, for the user. -/
def setPrefUInt64 (u : UInt64) (prefs : XMLPreferences δ) : XMLPreferences δ :=
  prefs.setPref inName inSection (.uint64 u) User

/-- `XMLPreferences::setPrefColor`, for the user. -/
def setPrefColor (c : SeqColor) (prefs : XMLPreferences δ) : XMLPreferences δ :=
  prefs.setPref inName inSection (.color c) User

end

/-! ## What is set is read -/

section
variable {δ : Type} {qt : Qt δ} {prefs : XMLPreferences δ}

/-- Nothing is set for this run only. -/
def Lasting (prefs : XMLPreferences δ) : Prop := prefs.m_runtimeSections = ∅

theorem construct_lasting (files : Files) : (construct qt files).Lasting := rfl

theorem Lasting.set (h : prefs.Lasting) (inName inSection : QString) (v : QVariant δ) :
    (prefs.setPref inName inSection v User).Lasting := h

theorem Lasting.getPref (h : prefs.Lasting) (inName inSection : QString) :
    prefs.getPref inName inSection Any =
      (prefs.m_userSections.find inSection inName).or
        (prefs.m_defaultsSections.find inSection inName) := by
  unfold XMLPreferences.getPref
  rw [h]
  rfl

theorem getPref_set (h : prefs.Lasting) (inName inSection : QString) (v : QVariant δ)
    (n s : QString) :
    (prefs.setPref inName inSection v User).getPref n s Any =
      if s = inSection ∧ n = inName then some v else prefs.getPref n s Any := by
  have huser : (prefs.setPref inName inSection v User).m_userSections =
      prefs.m_userSections.setPref inName inSection v := rfl
  have hdefaults : (prefs.setPref inName inSection v User).m_defaultsSections =
      prefs.m_defaultsSections := rfl
  rw [(h.set inName inSection v).getPref, h.getPref, huser, hdefaults,
    PrefSectionDict.find_setPref]
  by_cases hsame : s = inSection ∧ n = inName
  · rw [if_pos hsame, if_pos hsame]
    rfl
  · rw [if_neg hsame, if_neg hsame]

/-- Several preferences of one section are set, one after the other. -/
def setPrefs (inSection : QString) (entries : List (QString × QVariant δ))
    (prefs : XMLPreferences δ) : XMLPreferences δ :=
  entries.foldl (fun prefs e => prefs.setPref e.1 inSection e.2 User) prefs

theorem Lasting.setPrefs (h : prefs.Lasting) (inSection : QString)
    (entries : List (QString × QVariant δ)) : (setPrefs inSection entries prefs).Lasting := by
  induction entries generalizing prefs with
  | nil => exact h
  | cons e entries ih => exact ih (h.set e.1 inSection e.2)

/-- What is not among them is as it was. -/
theorem getPref_setPrefs_of_notMem (h : prefs.Lasting) {inSection n s : QString}
    {entries : List (QString × QVariant δ)} (hn : s = inSection → n ∉ entries.map Prod.fst) :
    (setPrefs inSection entries prefs).getPref n s Any = prefs.getPref n s Any := by
  induction entries generalizing prefs with
  | nil => rfl
  | cons e entries ih =>
      have hother : ¬ (s = inSection ∧ n = e.1) := by
        rintro ⟨hs, rfl⟩
        exact hn hs List.mem_cons_self
      refine (ih (h.set e.1 inSection e.2) fun hs hmem => hn hs (List.mem_cons_of_mem _ hmem)).trans
        ?_
      rw [getPref_set h, if_neg hother]

/-- With different names each is read as it was set. -/
theorem getPref_setPrefs_of_mem (h : prefs.Lasting) {inSection n : QString} {v : QVariant δ}
    {entries : List (QString × QVariant δ)} (hnodup : (entries.map Prod.fst).Nodup)
    (hmem : (n, v) ∈ entries) :
    (setPrefs inSection entries prefs).getPref n inSection Any = some v := by
  induction entries generalizing prefs with
  | nil => exact absurd hmem List.not_mem_nil
  | cons e entries ih =>
      obtain ⟨hfresh, hnodup⟩ := List.nodup_cons.mp hnodup
      rcases List.mem_cons.mp hmem with rfl | hmem
      · refine (getPref_setPrefs_of_notMem (h.set n inSection v) fun _ => hfresh).trans ?_
        rw [getPref_set h, if_pos ⟨rfl, rfl⟩]
      · exact ih (h.set e.1 inSection e.2) hnodup hmem

theorem getPrefString_of_some {n s t : QString} (default : QString)
    (h : prefs.getPref n s Any = some (.string t)) :
    prefs.getPrefString qt n s default = t := by
  have hown : asType qt .string (.string t) (.string default) = .string t :=
    asType_own qt (.string t) _
  unfold getPrefString getPrefAs
  rw [h]
  dsimp only
  rw [hown]

theorem getPrefUInt64_of_some {n s : QString} {u : UInt64} (default : UInt64)
    (h : prefs.getPref n s Any = some (.uint64 u)) :
    prefs.getPrefUInt64 qt n s default = u := by
  unfold getPrefUInt64 getPrefAs
  rw [h]
  rfl

theorem getPrefColor_of_some {n s : QString} {c : SeqColor} (default : SeqColor)
    (h : prefs.getPref n s Any = some (.color c)) :
    prefs.getPrefColor qt n s default = c := by
  have hown : asType qt .color (.color c) (.color default) = .color c :=
    asType_own qt (.color c) _
  unfold getPrefColor getPrefAs
  rw [h]
  dsimp only
  rw [hown]

end

/-- Stores that have the same under a name return the same. -/
theorem getPrefAs_congr {δ : Type} (qt : Qt δ) {prefs prefs' : XMLPreferences δ} {n s : QString}
    (h : prefs'.getPref n s Any = prefs.getPref n s Any) (type : PrefType) (default : QVariant δ) :
    prefs'.getPrefAs qt type n s default Any = prefs.getPrefAs qt type n s default Any := by
  unfold getPrefAs
  rw [h]

end XMLPreferences

/-! ## The next start -/

section
variable {δ : Type} (qt : Qt δ)

/-- What is written of a value comes back as the value. -/
def QVariant.Stays (v : QVariant δ) : Prop :=
  ∃ w, readBack qt v = some w ∧ w.mapTexts qt.spaced = v

/-- A text that stays as it is in a file. -/
def Plain (text : QString) : Prop :=
  (∀ c ∈ text, isControl c = false) ∧ ¬ ['-', '-', '>'] <:+: text

instance (text : QString) : Decidable (Plain text) :=
  @instDecidableAnd _ _ (List.decidableBAll (isControl · = false) text) inferInstance

theorem stays_string {t : QString} (h : Plain t) : (QVariant.string t : QVariant δ).Stays qt :=
  (keeps_iff qt (v := .string t) h.1).mpr h.2

theorem stays_uint64 (u : UInt64) : (QVariant.uint64 u : QVariant δ).Stays qt :=
  ⟨_, rfl, rfl⟩

/-- Neither the section, nor the name, nor a value under it stands in the document twice. -/
structure Once (d : Document) (s n : QString) : Prop where
  sections : (named Section.name s d.sections).length ≤ 1
  properties : (occurrences d s n).length ≤ 1
  behind : ∀ p ∈ occurrences d s n, p.behind qt = none

end

section
variable {δ : Type} {qt : Qt δ} {d : Document} {s n : QString}

theorem tail_of_length_le {α : Type} {l : List α} (h : l.length ≤ 1) : l.tail = [] :=
  List.eq_nil_of_length_eq_zero (by rw [List.length_tail]; omega)

theorem Once.occurrences_eq (h : Once qt d s n) :
    occurrences d s n = named Property.name n (targetSection d s).properties := by
  rw [Preferences.occurrences_eq, tail_of_length_le h.sections]
  exact List.append_nil _

theorem Once.others_eq (h : Once qt d s n) : others d s n = [] := by
  have hone := h.properties
  rw [h.occurrences_eq] at hone
  unfold others
  rw [tail_of_length_le hone, tail_of_length_le h.sections]
  rfl

theorem Once.target_behind (h : Once qt d s n) : (target d s n).behind qt = none := by
  have hbehind := h.behind
  rw [h.occurrences_eq] at hbehind
  unfold target
  cases hnamed : named Property.name n (targetSection d s).properties with
  | nil => rfl
  | cons p ps =>
      rw [hnamed] at hbehind
      exact hbehind p List.mem_cons_self

theorem behind_setValue (v : QVariant δ) (p : Property) :
    (p.setValue qt v).behind qt = p.behind qt := by
  have hkeep : ∀ e : Element, e.noComment = true → (variantToElement qt v e).noComment = true :=
    fun e _ => decide_eq_true (variantToElement_tag qt v e).1
  unfold Property.behind Property.setValue
  rw [FirstMatch.filter_upsert hkeep (by decide)]
  rfl

theorem Once.setSections (h : Once qt d s n) (order : Table.Order) (dict : PrefSectionDict δ) :
    Once qt (d.setSections qt order dict) s n := by
  refine ⟨?_, ?_, ?_⟩
  · rw [named_setSections]
    cases dict.lookup s with
    | none => exact h.sections
    | some props =>
        dsimp only
        rw [tail_of_length_le h.sections]
        rfl
  · rw [occurrences_setSections]
    cases dict.find s n with
    | none => exact h.properties
    | some v =>
        dsimp only
        rw [h.others_eq]
        rfl
  · rw [occurrences_setSections]
    cases dict.find s n with
    | none => exact h.behind
    | some v =>
        dsimp only
        rw [h.others_eq]
        intro p hp
        rw [List.mem_singleton.mp hp, behind_setValue]
        exact h.target_behind

theorem behind_mapTexts (p : Property) :
    (p.mapTexts qt.spaced).behind qt = (p.behind qt).map (QVariant.mapTexts qt.spaced) := by
  have hkeep : (p.mapTexts qt.spaced).elements.filter Element.noComment =
      (p.elements.filter Element.noComment).map (·.mapTexts qt.spaced) := List.filter_map
  have htail := @value_mapTexts _ qt
    { p with elements := (p.elements.filter Element.noComment).tail }
  unfold Property.behind
  rw [hkeep, ← List.map_tail]
  exact htail

/-- With names that a file can hold, the document that is read again has them once too. -/
theorem Once.mapTexts (h : Once qt d s n) (hs : ¬ ['-', '-', '>'] <:+: s)
    (hn : ¬ ['-', '-', '>'] <:+: n) : Once qt (d.mapTexts qt.spaced) s n := by
  have hs' : qt.spaced s = s := (AttributeText.arrows_eq_iff _ s).mpr hs
  have hn' : qt.spaced n = n := (AttributeText.arrows_eq_iff _ n).mpr hn
  have hsections : named Section.name s (d.mapTexts qt.spaced).sections =
      (named Section.name s d.sections).map (·.mapTexts qt.spaced) := by
    nth_rewrite 1 [← hs']
    exact named_map spaced_injective (section_name_mapTexts qt.spaced) s d.sections
  have hoccurrences : occurrences (d.mapTexts qt.spaced) s n =
      (occurrences d s n).map (·.mapTexts qt.spaced) := by
    have himage := @occurrences_mapTexts _ qt d s n
    rwa [hs', hn'] at himage
  refine ⟨?_, ?_, ?_⟩
  · rw [hsections, List.length_map]
    exact h.sections
  · rw [hoccurrences, List.length_map]
    exact h.properties
  · intro p hp
    rw [hoccurrences] at hp
    obtain ⟨q, hq, rfl⟩ := List.mem_map.mp hp
    rw [behind_mapTexts, h.behind q hq]
    rfl

end

/-- What the files and the store have under a name belongs together: the store was loaded from the
    files, set for the user since, and saved any number of times. -/
structure Kept {δ : Type} (qt : Qt δ) (files : Files) (prefs : XMLPreferences δ) (s n : QString) :
    Prop where
  lasting : prefs.Lasting
  defaults : prefs.m_defaultsSections.find s n = (loadPreferences qt files.defaults ∅).find s n
  unmodified : prefs.m_modified &&& Defaults = 0
  once : Once qt (existing qt files.user) s n
  covers : prefs.m_userSections.find s n = none → (loadPreferences qt files.user ∅).find s n = none
  clean : prefs.m_modified &&& User = 0 →
    (loadPreferences qt files.user ∅).find s n = prefs.m_userSections.find s n

section
variable {δ : Type} {qt : Qt δ} {files : Files} {prefs : XMLPreferences δ} {s n : QString}

theorem Kept.construct (h : Once qt (existing qt files.user) s n) :
    Kept qt files (.construct qt files) s n where
  lasting := rfl
  defaults := rfl
  unmodified := (by decide : (0 : UInt8) &&& Defaults = 0)
  once := h
  covers := id
  clean _ := rfl

theorem Kept.set (h : Kept qt files prefs s n) (inName inSection : QString) (v : QVariant δ) :
    Kept qt files (prefs.setPref inName inSection v User) s n := by
  have huser : (prefs.setPref inName inSection v User).m_userSections =
      prefs.m_userSections.setPref inName inSection v := rfl
  have hmodified : (prefs.setPref inName inSection v User).m_modified =
      prefs.m_modified ||| User := rfl
  have hdistrib (bit : UInt8) :
      (prefs.m_modified ||| User) &&& bit = prefs.m_modified &&& bit ||| User &&& bit :=
    UInt8.toBitVec_inj.mp BitVec.and_or_distrib_right
  refine ⟨h.lasting, h.defaults, ?_, h.once, ?_, ?_⟩
  · rw [hmodified, hdistrib, h.unmodified]
    rfl
  · rw [huser, PrefSectionDict.find_setPref]
    split
    · exact fun hnone => nomatch hnone
    · exact h.covers
  · rw [hmodified, hdistrib]
    intro hzero
    have hbit := congrArg (· &&& User) hzero
    have habsorb : (prefs.m_modified &&& User ||| User &&& User) &&& User = User := by
      rw [UInt8.and_self, ← UInt8.toBitVec_inj]
      exact BitVec.eq_of_getLsbD_eq fun i _ => by simp [Bool.and_or_distrib_right]
    rw [habsorb] at hbit
    exact absurd hbit (by decide)

variable (hs : ¬ ['-', '-', '>'] <:+: s) (hn : ¬ ['-', '-', '>'] <:+: n)
include hs hn

/-- What `save` writes under the name, and what it leaves of the file. -/
theorem Kept.find_save (h : Kept qt files prefs s n) (order : Table.Order)
    (hmodified : prefs.m_modified &&& User ≠ 0) :
    (loadPreferences qt (prefs.save qt order files).user ∅).find s n =
        ((prefs.m_userSections.find s n).bind (readBack qt)).map (QVariant.mapTexts qt.spaced) ∧
      Once qt (existing qt (prefs.save qt order files).user) s n := by
  have hs' : qt.spaced s = s := (AttributeText.arrows_eq_iff _ s).mpr hs
  have hn' : qt.spaced n = n := (AttributeText.arrows_eq_iff _ n).mpr hn
  have huser : (prefs.save qt order files).user =
      some (savePreferences qt order files.user prefs.m_userSections) := if_pos hmodified
  have hexisting : existing qt (prefs.save qt order files).user =
      ((existing qt files.user).setSections qt order prefs.m_userSections).mapTexts qt.spaced := by
    rw [huser]
    exact setContent_docText _
  refine ⟨?_, ?_⟩
  · have himage := @occurrences_mapTexts _ qt
      ((existing qt files.user).setSections qt order prefs.m_userSections) s n
    rw [hs', hn'] at himage
    rw [find_loadPreferences, hexisting, himage, lastValue_mapTexts, lastValue_saved]
    · unfold survivor
      rw [h.once.others_eq, h.once.target_behind]
      cases prefs.m_userSections.find s n with
      | none => rfl
      | some v =>
          show ((readBack qt v).or none).map _ = (readBack qt v).map _
          rw [Option.or_none]
    · intro hnone
      rw [← find_loadPreferences]
      exact h.covers hnone
  · rw [hexisting]
    exact (h.once.setSections order _).mapTexts hs hn

theorem Kept.save (h : Kept qt files prefs s n) (order : Table.Order) :
    Kept qt (prefs.save qt order files) prefs s n := by
  have hdefaults : (prefs.save qt order files).defaults = files.defaults :=
    if_neg (not_not.mpr h.unmodified)
  by_cases hmodified : prefs.m_modified &&& User = 0
  · have huser : (prefs.save qt order files).user = files.user := if_neg (not_not.mpr hmodified)
    refine ⟨h.lasting, ?_, h.unmodified, ?_, ?_, ?_⟩
    · rw [hdefaults]
      exact h.defaults
    · rw [huser]
      exact h.once
    · rw [huser]
      exact h.covers
    · rw [huser]
      exact h.clean
  · obtain ⟨hfind, honce⟩ := h.find_save hs hn order hmodified
    refine ⟨h.lasting, ?_, h.unmodified, honce, ?_, fun hzero => absurd hzero hmodified⟩
    · rw [hdefaults]
      exact h.defaults
    · intro hnone
      rw [hfind, hnone]
      rfl

/-- The next start, from what was saved last, finds what this run has under the name. -/
theorem Kept.restart (h : Kept qt files prefs s n) (order : Table.Order)
    (hstays : ∀ v, prefs.m_userSections.find s n = some v → v.Stays qt) :
    (XMLPreferences.construct qt (prefs.save qt order files)).getPref n s Any =
      prefs.getPref n s Any := by
  have hdefaults : (prefs.save qt order files).defaults = files.defaults :=
    if_neg (not_not.mpr h.unmodified)
  have hload : (XMLPreferences.construct qt (prefs.save qt order files)).getPref n s Any =
      ((loadPreferences qt (prefs.save qt order files).user ∅).find s n).or
        ((loadPreferences qt (prefs.save qt order files).defaults ∅).find s n) := rfl
  rw [hload, h.lasting.getPref, hdefaults, h.defaults]
  congr 1
  by_cases hmodified : prefs.m_modified &&& User = 0
  · have huser : (prefs.save qt order files).user = files.user := if_neg (not_not.mpr hmodified)
    rw [huser]
    exact h.clean hmodified
  · rw [(h.find_save hs hn order hmodified).1]
    cases hfind : prefs.m_userSections.find s n with
    | none => rfl
    | some v =>
        obtain ⟨w, hread, hspaced⟩ := hstays v hfind
        rw [Option.bind_some, hread, Option.map_some, hspaced]

end

/-- What the store has under a name belongs to the files and can be written. -/
structure Durable {δ : Type} (qt : Qt δ) (files : Files) (prefs : XMLPreferences δ)
    (s n : QString) : Prop where
  kept : Kept qt files prefs s n
  stays : ∀ v, prefs.m_userSections.find s n = some v → v.Stays qt

section
variable {δ : Type} {qt : Qt δ} {files : Files} {prefs : XMLPreferences δ} {s n : QString}

/-- Before there is a file of the user. -/
theorem Durable.construct (defaults : Option Document) :
    Durable qt ⟨none, defaults⟩ (.construct qt ⟨none, defaults⟩) s n where
  kept := Kept.construct ⟨Nat.zero_le _, Nat.zero_le _, fun _ hp => absurd hp List.not_mem_nil⟩
  stays _ hv := nomatch hv

theorem Durable.set (h : Durable qt files prefs s n) (inName inSection : QString)
    {v : QVariant δ} (hv : v.Stays qt) :
    Durable qt files (prefs.setPref inName inSection v User) s n := by
  refine ⟨h.kept.set inName inSection v, fun w hw => ?_⟩
  have huser : (prefs.setPref inName inSection v User).m_userSections =
      prefs.m_userSections.setPref inName inSection v := rfl
  rw [huser, PrefSectionDict.find_setPref] at hw
  split at hw
  · rwa [← Option.some.inj hw]
  · exact h.stays w hw

variable (hs : ¬ ['-', '-', '>'] <:+: s) (hn : ¬ ['-', '-', '>'] <:+: n)
include hs hn

theorem Durable.save (h : Durable qt files prefs s n) (order : Table.Order) :
    Durable qt (prefs.save qt order files) prefs s n :=
  ⟨h.kept.save hs hn order, h.stays⟩

theorem Durable.restart (h : Durable qt files prefs s n) (order : Table.Order) :
    (XMLPreferences.construct qt (prefs.save qt order files)).getPref n s Any =
      prefs.getPref n s Any :=
  h.kept.restart hs hn order h.stays

end

end ShoweqDaemon.Preferences
