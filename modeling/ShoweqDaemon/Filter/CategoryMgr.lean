/-
  `CategoryMgr`: the list of categories, its 32 places among the preferences, and the copy a client
  has.

  A category is known by its address; which addresses `new` returns is a parameter. Each signal of
  the manager makes `SessionAdapter` send the list as it is at that moment. `delCategory` and
  `clearedCategories` are emitted before the list changes.

  Proved:
  * `reload_saved`: at any time of a run, `savePrefs` and `reloadCategories` leave the first 32.
  * `client_current_iff`: a client has the list exactly if behind each category that was taken
    away there is a later signal.
-/
import ShoweqDaemon.Filter.Category
import ShoweqDaemon.Lib.Published
import ShoweqDaemon.Prefs.Settings

namespace ShoweqDaemon.Rules

open Preferences (Qt QVariant XMLPreferences Files SeqColor)
open Spawns (QString)

/-! ## Categories -/

/-- A category of the manager, which has a color besides its filters. -/
structure ColorCategory extends Category where
  m_color : SeqColor

/-- The constructor of `Category`, with the expressions compiled from the two texts. -/
def ColorCategory.new (name filter filterout : QString) (color : SeqColor) : ColorCategory where
  toCategory := Category.new name filter filterout
  m_color := color

theorem ColorCategory.new_own (c : ColorCategory) :
    ColorCategory.new c.m_name c.m_filter c.m_filterout c.m_color = c := by
  obtain ⟨⟨name, filter, filterout, item, out, made, madeOut⟩, color⟩ := c
  subst made madeOut
  rfl

/-- A row of `CategoriesUpdate`: the number, the name and the colour that a client gets of a
    category. -/
structure CategoryRow where
  id : UInt32
  name : QString
  color : QString
  deriving DecidableEq, Repr

/-- The list of pointers: each category under its address, in order. -/
abbrev CategoryList := List (ℕ × ColorCategory)

/-- `fillCategoriesUpdate`: the rows that the clients get, with the places as ids. -/
def fillCategoriesUpdate (all : CategoryList) : List CategoryRow :=
  all.mapIdx fun i c => { id := UInt32.ofNat i, name := c.2.m_name, color := c.2.m_color.name }

/-! ## Preferences -/

/-- The places that `reloadCategories` reads. -/
def tMaxNumCategories : ℕ := 32

/-- The section of the preferences. -/
def categorySection : QString := "CategoryMgr".toList

/-- The key of a property of the category at a place. -/
def categoryKey (i : ℕ) (suffix : String) : QString :=
  "Category".toList ++ (Nat.toDigits 10 i ++ suffix.toList)

/-- The default of a color. -/
def black : SeqColor := { valid := true }

section
variable {δ : Type} (qt : Qt δ)

/-- One round of the loop of `reloadCategories`: a category is made of the preferences with the
    number `i`, if there is a name among them and neither it nor the filter is empty. -/
def categoryFrom (pSEQPrefs : XMLPreferences δ) (i : ℕ) : Option ColorCategory :=
  if pSEQPrefs.isPreference (categoryKey i "_Name") categorySection then
    let name := pSEQPrefs.getPrefString qt (categoryKey i "_Name") categorySection []
    let filter := pSEQPrefs.getPrefString qt (categoryKey i "_Filter") categorySection []
    let color := pSEQPrefs.getPrefColor qt (categoryKey i "_Color") categorySection black
    let filterout :=
      if pSEQPrefs.isPreference (categoryKey i "_FilterOut") categorySection then
        pSEQPrefs.getPrefString qt (categoryKey i "_FilterOut") categorySection []
      else []
    if name ≠ [] ∧ filter ≠ [] then some (ColorCategory.new name filter filterout color) else none
  else none

/-- One round of the loops of `savePrefs`: the four preferences with the number `i` are set,
    whatever they were. -/
def storeCategory (i : ℕ) (name filter filterout : QString) (color : SeqColor)
    (pSEQPrefs : XMLPreferences δ) : XMLPreferences δ :=
  (((pSEQPrefs.setPrefString (categoryKey i "_Name") categorySection name).setPrefString
    (categoryKey i "_Filter") categorySection filter).setPrefString
    (categoryKey i "_FilterOut") categorySection filterout).setPrefColor
    (categoryKey i "_Color") categorySection color

end

/-! ## The manager -/

/-- `CategoryMgr` with the preferences that it refers to. -/
structure CategoryMgr (δ : Type) where
  pSEQPrefs : XMLPreferences δ
  m_categories : CategoryList := []
  m_changed : Bool := false

namespace CategoryMgr

section
variable {δ : Type} (qt : Qt δ) (mgr : CategoryMgr δ)

/-- What the categories are, apart from where they lie. -/
def values : List ColorCategory := mgr.m_categories.map Prod.snd

/-- The list as a slot of `SessionAdapter` finds it. -/
def rows : List CategoryRow := fillCategoriesUpdate mgr.m_categories

/-- `CategoryMgr::clearCategories`; the list that its signal shows is still the old one. -/
def clearCategories : CategoryMgr δ × List (List CategoryRow) :=
  ({ mgr with m_categories := [], m_changed := true }, [mgr.rows])

/-- `CategoryMgr::reloadCategories`: the categories that the preferences have, with a name and a
    filter each, at addresses that are not in use. -/
def reloadCategories (addresses : ℕ → ℕ) : CategoryMgr δ × List (List CategoryRow) :=
  let cleared := mgr.clearCategories
  let loaded : CategoryMgr δ :=
    { cleared.1 with
      m_changed := false
      m_categories := (List.range tMaxNumCategories).filterMap fun i =>
        (categoryFrom qt mgr.pSEQPrefs (i + 1)).map fun c => (addresses i, c) }
  (loaded, cleared.2 ++ [loaded.rows])

/-- The constructor, which reads the preferences. -/
def construct (pSEQPrefs : XMLPreferences δ) (addresses : ℕ → ℕ) : CategoryMgr δ :=
  (reloadCategories qt { pSEQPrefs := pSEQPrefs } addresses).1

/-- `CategoryMgr::addCategory`: one without a name or a filter is not added. -/
def addCategory (address : ℕ) (name filter filterout : QString) (color : SeqColor) :
    CategoryMgr δ × List (List CategoryRow) :=
  let changed := { mgr with m_changed := true }
  if name ≠ [] ∧ filter ≠ [] then
    let added := { changed with
      m_categories := mgr.m_categories ++
        [(address, ColorCategory.new name filter filterout color)] }
    (added, [added.rows])
  else (changed, [])

/-- `CategoryMgr::remCategory`, by the pointer; the list that its signal shows still has the
    category. -/
def remCategory (cat : Option ℕ) : CategoryMgr δ × List (List CategoryRow) :=
  let changed := { mgr with m_changed := true }
  match cat with
  | none => (changed, [])
  | some address =>
      ({ changed with m_categories := mgr.m_categories.eraseP fun c => c.1 = address }, [mgr.rows])

/-- `CategoryMgr::savePrefs`: the list is stored under the places from 1 on, and what lies behind it
    is cleared. -/
def savePrefs : CategoryMgr δ :=
  if mgr.m_changed then
    let stored := (mgr.values.zipIdx 1).foldl
      (fun prefs c => storeCategory c.2 c.1.m_name c.1.m_filter c.1.m_filterout c.1.m_color prefs)
      mgr.pSEQPrefs
    let count := mgr.values.length + 1
    { mgr with
      pSEQPrefs := (List.range' count (tMaxNumCategories + 1 - count)).foldl
        (fun prefs i => storeCategory i [] [] [] black prefs) stored }
  else mgr

variable {mgr} in
theorem addCategory_filled {name filter : QString} (h : name ≠ [] ∧ filter ≠ []) (address : ℕ)
    (filterout : QString) (color : SeqColor) :
    mgr.addCategory address name filter filterout color =
      let added := { mgr with
        m_categories := mgr.m_categories ++
          [(address, ColorCategory.new name filter filterout color)]
        m_changed := true }
      (added, [added.rows]) := if_pos h

variable {mgr} in
theorem addCategory_blank {name filter : QString} (h : ¬ (name ≠ [] ∧ filter ≠ [])) (address : ℕ)
    (filterout : QString) (color : SeqColor) :
    mgr.addCategory address name filter filterout color =
      ({ mgr with m_changed := true }, []) := if_neg h

end

/-! ## Runs -/

/-- What the manager is called with, and what others set in other sections. -/
inductive Event (δ : Type) where
  | addCategory (address : ℕ) (name filter filterout : QString) (color : SeqColor)
  | remCategory (cat : Option ℕ)
  | clearCategories
  | reloadCategories (addresses : ℕ → ℕ)
  | savePrefs
  | setPref (inName inSection : QString) (value : QVariant δ) (other : inSection ≠ categorySection)

section
variable {δ : Type} (qt : Qt δ)

/-- The next manager, and what a client is sent. -/
def next (mgr : CategoryMgr δ) : Event δ → CategoryMgr δ × List (List CategoryRow)
  | .addCategory address name filter filterout color =>
      mgr.addCategory address name filter filterout color
  | .remCategory cat => mgr.remCategory cat
  | .clearCategories => mgr.clearCategories
  | .reloadCategories addresses => mgr.reloadCategories qt addresses
  | .savePrefs => (mgr.savePrefs, [])
  | .setPref inName inSection value _ =>
      ({ mgr with
          pSEQPrefs := mgr.pSEQPrefs.setPref inName inSection value Preferences.User }, [])

/-- The manager after an event. -/
def step (mgr : CategoryMgr δ) (e : Event δ) : CategoryMgr δ := (mgr.next qt e).1

end

end CategoryMgr

/-! ## What is saved -/

/-- The properties of a category. -/
def categorySuffixes : List String := ["_Name", "_Filter", "_FilterOut", "_Color"]

theorem categorySuffix_no_digit : ∀ suffix ∈ categorySuffixes, ∀ c ∈ suffix.toList.head?,
    c.isDigit = false := by
  simp [categorySuffixes]

theorem categoryKey_inj {i j : ℕ} {suffix suffix' : String} (hsuffix : suffix ∈ categorySuffixes)
    (hsuffix' : suffix' ∈ categorySuffixes)
    (h : categoryKey i suffix = categoryKey j suffix') : i = j ∧ suffix = suffix' := by
  obtain ⟨hnumber, htext⟩ := Numeral.toDigits_append_inj (categorySuffix_no_digit suffix hsuffix)
    (categorySuffix_no_digit suffix' hsuffix') (List.append_cancel_left h)
  exact ⟨hnumber, String.toList_inj.mp htext⟩

/-- All the keys of the category at a place. -/
def categoryKeys (i : ℕ) : List QString := categorySuffixes.map (categoryKey i)

theorem categoryKeys_nodup (numbers : List ℕ) (h : numbers.Nodup) :
    (numbers.flatMap categoryKeys).Nodup := by
  refine List.nodup_flatMap.mpr ⟨fun i _ => ?_, h.imp fun hne => ?_⟩
  · refine List.Nodup.map_on (fun a ha b hb heq => (categoryKey_inj ha hb heq).2) ?_
    simp [categorySuffixes]
  · intro key hi hj
    obtain ⟨a, ha, rfl⟩ := List.mem_map.mp hi
    obtain ⟨b, hb, heq⟩ := List.mem_map.mp hj
    exact hne (categoryKey_inj hb ha heq).1.symm

section
variable {δ : Type} {qt : Qt δ}

/-- The preferences of one place. -/
def categoryFields (i : ℕ) (name filter filterout : QString) (color : SeqColor) :
    List (QString × QVariant δ) :=
  [(categoryKey i "_Name", .string name), (categoryKey i "_Filter", .string filter),
    (categoryKey i "_FilterOut", .string filterout), (categoryKey i "_Color", .color color)]

theorem categoryFrom_of_fields {pSEQPrefs : XMLPreferences δ} {i : ℕ}
    {name filter filterout : QString} {color : SeqColor}
    (h : ∀ e ∈ categoryFields i name filter filterout color,
      pSEQPrefs.getPref e.1 categorySection Preferences.Any = some e.2) :
    categoryFrom qt pSEQPrefs i =
      if name ≠ [] ∧ filter ≠ [] then some (ColorCategory.new name filter filterout color)
      else none := by
  have hname := h (categoryKey i "_Name", .string name) (by simp [categoryFields])
  have hfilter := h (categoryKey i "_Filter", .string filter) (by simp [categoryFields])
  have hout := h (categoryKey i "_FilterOut", .string filterout) (by simp [categoryFields])
  have hcolor := h (categoryKey i "_Color", .color color) (by simp [categoryFields])
  have hasName : pSEQPrefs.isPreference (categoryKey i "_Name") categorySection = true :=
    congrArg Option.isSome hname
  have hasOut : pSEQPrefs.isPreference (categoryKey i "_FilterOut") categorySection = true :=
    congrArg Option.isSome hout
  unfold categoryFrom
  rw [if_pos hasName]
  dsimp only
  rw [if_pos hasOut, XMLPreferences.getPrefString_of_some [] hname,
    XMLPreferences.getPrefString_of_some [] hfilter,
    XMLPreferences.getPrefString_of_some [] hout, XMLPreferences.getPrefColor_of_some black hcolor]

theorem categoryFrom_congr {pSEQPrefs pSEQPrefs' : XMLPreferences δ} {i : ℕ}
    (h : ∀ suffix, pSEQPrefs'.getPref (categoryKey i suffix) categorySection Preferences.Any =
      pSEQPrefs.getPref (categoryKey i suffix) categorySection Preferences.Any) :
    categoryFrom qt pSEQPrefs' i = categoryFrom qt pSEQPrefs i := by
  have hread := fun suffix => XMLPreferences.getPrefAs_congr qt (h suffix)
  unfold categoryFrom XMLPreferences.isPreference XMLPreferences.getPrefString
    XMLPreferences.getPrefColor
  simp only [h, hread]

/-- A category without a name or a filter is not read. -/
theorem categoryFrom_filled {pSEQPrefs : XMLPreferences δ} {i : ℕ} {c : ColorCategory}
    (h : categoryFrom qt pSEQPrefs i = some c) : c.m_name ≠ [] ∧ c.m_filter ≠ [] := by
  unfold categoryFrom at h
  split at h
  · dsimp only at h
    split at h
    · rename_i hfilled
      obtain rfl := Option.some.inj h
      exact hfilled
    · exact absurd h.symm (Option.some_ne_none c)
  · exact absurd h.symm (Option.some_ne_none c)

end

namespace CategoryMgr

section
variable {δ : Type} {qt : Qt δ} {mgr : CategoryMgr δ}

/-- What `reloadCategories` reads. -/
def loaded (qt : Qt δ) (pSEQPrefs : XMLPreferences δ) : List ColorCategory :=
  (List.range tMaxNumCategories).filterMap fun i => categoryFrom qt pSEQPrefs (i + 1)

theorem values_reload (mgr : CategoryMgr δ) (addresses : ℕ → ℕ) :
    (mgr.reloadCategories qt addresses).1.values = loaded qt mgr.pSEQPrefs := by
  show List.map _ (List.filterMap _ _) = List.filterMap _ _
  rw [List.map_filterMap]
  refine List.filterMap_congr fun i _ => ?_
  cases categoryFrom qt mgr.pSEQPrefs (i + 1) <;> rfl

theorem filterMap_getElem?_range {α : Type} (l : List α) (n : ℕ) :
    (List.range n).filterMap (fun i => l[i]?) = l.take n := by
  induction n with
  | zero => rfl
  | succ n ih =>
      rw [List.range_succ, List.filterMap_append, ih, List.take_add_one]
      cases hget : l[n]? with
      | none => simp [hget]
      | some a => simp [hget]

/-- All that `savePrefs` sets: the fields of the categories with their numbers from 1 on, and empty
    ones up to the greatest number. -/
def entries (mgr : CategoryMgr δ) : List (QString × QVariant δ) :=
  (mgr.values.zipIdx 1).flatMap (fun c =>
      categoryFields c.2 c.1.m_name c.1.m_filter c.1.m_filterout c.1.m_color) ++
    (List.range' (mgr.values.length + 1) (tMaxNumCategories - mgr.values.length)).flatMap
      fun i => categoryFields i [] [] [] black

theorem entries_nodup (mgr : CategoryMgr δ) : (mgr.entries.map Prod.fst).Nodup := by
  have hfields (i : ℕ) (name filter filterout : QString) (color : SeqColor) :
      (categoryFields (δ := δ) i name filter filterout color).map Prod.fst = categoryKeys i := rfl
  have hkeys : mgr.entries.map Prod.fst =
      (List.range' 1 (mgr.values.length + (tMaxNumCategories - mgr.values.length))).flatMap
        categoryKeys := by
    unfold entries
    rw [List.map_append, List.map_flatMap, List.map_flatMap, ← List.range'_append_1,
      List.flatMap_append, Nat.add_comm 1, ← List.zipIdx_map_snd 1 mgr.values, List.flatMap_map]
    rfl
  rw [hkeys]
  exact categoryKeys_nodup _ List.nodup_range'

theorem savePrefs_eq (h : mgr.m_changed = true) :
    mgr.savePrefs.pSEQPrefs =
      XMLPreferences.setPrefs categorySection mgr.entries mgr.pSEQPrefs := by
  unfold savePrefs entries XMLPreferences.setPrefs
  rw [if_pos h, List.foldl_append, List.foldl_flatMap, List.foldl_flatMap]
  dsimp only
  rw [Nat.add_sub_add_right]
  rfl

/-- A place behind the last category is blank, and one with a category has it. -/
theorem categoryFrom_savePrefs (hlasting : mgr.pSEQPrefs.Lasting) (hchanged : mgr.m_changed = true)
    (hfilled : ∀ c ∈ mgr.values, c.m_name ≠ [] ∧ c.m_filter ≠ []) {i : ℕ}
    (hi : i < tMaxNumCategories) :
    categoryFrom qt mgr.savePrefs.pSEQPrefs (i + 1) = mgr.values[i]? := by
  have hread {e : QString × QVariant δ} (he : e ∈ mgr.entries) :
      mgr.savePrefs.pSEQPrefs.getPref e.1 categorySection Preferences.Any = some e.2 := by
    rw [savePrefs_eq hchanged]
    exact XMLPreferences.getPref_setPrefs_of_mem hlasting mgr.entries_nodup he
  by_cases hlt : i < mgr.values.length
  · rw [List.getElem?_eq_getElem hlt, categoryFrom_of_fields fun e he => hread ?_,
      if_pos (hfilled _ (List.getElem_mem hlt)), ColorCategory.new_own]
    refine List.mem_append_left _ (List.mem_flatMap.mpr ⟨(mgr.values[i], i + 1), ?_, he⟩)
    rw [List.mk_mem_zipIdx_iff_le_and_getElem?_sub]
    exact ⟨Nat.le_add_left 1 i, List.getElem?_eq_getElem hlt⟩
  · rw [List.getElem?_eq_none (by omega)]
    have hblank : ∀ e ∈ categoryFields (δ := δ) (i + 1) [] [] [] black,
        mgr.savePrefs.pSEQPrefs.getPref e.1 categorySection Preferences.Any = some e.2 := by
      intro e he
      refine hread (List.mem_append_right _ (List.mem_flatMap.mpr ⟨i + 1, ?_, he⟩))
      rw [List.mem_range'_1]
      omega
    rw [categoryFrom_of_fields hblank]
    simp

/-! ## What a run keeps -/

/-- Every category can be saved, and what was not changed is what is saved. -/
structure Sound (qt : Qt δ) (mgr : CategoryMgr δ) : Prop where
  lasting : mgr.pSEQPrefs.Lasting
  filled : ∀ c ∈ mgr.values, c.m_name ≠ [] ∧ c.m_filter ≠ []
  unchanged : mgr.m_changed = false → mgr.values = loaded qt mgr.pSEQPrefs

theorem filled_loaded {pSEQPrefs : XMLPreferences δ} :
    ∀ c ∈ loaded qt pSEQPrefs, c.m_name ≠ [] ∧ c.m_filter ≠ [] := by
  intro c hc
  obtain ⟨i, -, hread⟩ := List.mem_filterMap.mp hc
  exact categoryFrom_filled hread

theorem Sound.reload (h : mgr.pSEQPrefs.Lasting) (addresses : ℕ → ℕ) :
    Sound qt (mgr.reloadCategories qt addresses).1 := by
  refine ⟨h, ?_, fun _ => values_reload mgr addresses⟩
  rw [values_reload]
  exact filled_loaded

theorem step_sound (mgr : CategoryMgr δ) (e : Event δ) (h : mgr.Sound qt) :
    (mgr.step qt e).Sound qt := by
  cases e with
  | addCategory address name filter filterout color =>
      show Sound qt (mgr.addCategory address name filter filterout color).1
      by_cases hnew : name ≠ [] ∧ filter ≠ []
      · rw [addCategory_filled hnew]
        refine ⟨h.lasting, ?_, fun hfalse => nomatch hfalse⟩
        intro c hc
        rw [values, List.map_append] at hc
        rcases List.mem_append.mp hc with hold | hlast
        · exact h.filled c hold
        · rw [List.mem_singleton.mp hlast]
          exact hnew
      · rw [addCategory_blank hnew]
        exact ⟨h.lasting, h.filled, fun hfalse => nomatch hfalse⟩
  | remCategory cat =>
      cases cat with
      | none => exact ⟨h.lasting, h.filled, fun hfalse => nomatch hfalse⟩
      | some address =>
          refine ⟨h.lasting, fun c hc => ?_, fun hfalse => nomatch hfalse⟩
          obtain ⟨entry, hentry, rfl⟩ := List.mem_map.mp hc
          exact h.filled _ (List.mem_map_of_mem (List.mem_of_mem_eraseP hentry))
  | clearCategories =>
      exact ⟨h.lasting, fun _ hc => absurd hc List.not_mem_nil, fun hfalse => nomatch hfalse⟩
  | reloadCategories addresses => exact Sound.reload h.lasting addresses
  | savePrefs =>
      show Sound qt mgr.savePrefs
      by_cases hchanged : mgr.m_changed = true
      · have hsame : mgr.savePrefs.m_changed = true ∧ mgr.savePrefs.values = mgr.values := by
          unfold savePrefs
          rw [if_pos hchanged]
          exact ⟨hchanged, rfl⟩
        refine ⟨?_, ?_, fun hfalse => absurd (hsame.1.symm.trans hfalse) Bool.noConfusion⟩
        · rw [savePrefs_eq hchanged]
          exact h.lasting.setPrefs _ _
        · rw [hsame.2]
          exact h.filled
      · unfold savePrefs
        rw [if_neg hchanged]
        exact h
  | setPref inName inSection value other =>
      refine ⟨h.lasting.set _ _ _, h.filled, fun hfalse => (h.unchanged hfalse).trans ?_⟩
      refine List.filterMap_congr fun i _ => (categoryFrom_congr fun suffix => ?_).symm
      exact (XMLPreferences.getPref_set h.lasting _ _ _ _ _).trans
        (if_neg fun hsame => other hsame.1.symm)

theorem loaded_savePrefs (h : mgr.Sound qt) :
    loaded qt mgr.savePrefs.pSEQPrefs = mgr.values.take tMaxNumCategories := by
  by_cases hchanged : mgr.m_changed = true
  · have hplaces : loaded qt mgr.savePrefs.pSEQPrefs =
        (List.range tMaxNumCategories).filterMap fun i => mgr.values[i]? :=
      List.filterMap_congr fun i hi =>
        categoryFrom_savePrefs h.lasting hchanged h.filled (List.mem_range.mp hi)
    rw [hplaces]
    exact filterMap_getElem?_range mgr.values tMaxNumCategories
  · have hsame : mgr.savePrefs = mgr := by
      unfold savePrefs
      rw [if_neg hchanged]
    rw [hsame, h.unchanged (Bool.eq_false_iff.mpr hchanged)]
    refine (List.take_of_length_le ?_).symm
    exact (List.length_filterMap_le _ _).trans_eq List.length_range

end

/-- Whatever a run has done, a save and a reload leave the first 32 categories, with all they have,
    in their order. -/
theorem reload_saved {δ : Type} (qt : Qt δ) (files : Files) (addresses addresses' : ℕ → ℕ)
    (es : List (Event δ)) :
    let mgr := es.foldl (step qt) (construct qt (.construct qt files) addresses)
    (mgr.savePrefs.reloadCategories qt addresses').1.values =
      mgr.values.take tMaxNumCategories := by
  intro mgr
  have hsound : mgr.Sound qt :=
    Machine.foldl_invariant (step qt) step_sound
      (Sound.reload (XMLPreferences.construct_lasting files) addresses) es
  rw [values_reload]
  exact loaded_savePrefs hsound

/-! ## The copy of a client -/

section
variable {δ : Type} {qt : Qt δ} {mgr : CategoryMgr δ}

/-- A category goes, or all of them. -/
def Removes (mgr : CategoryMgr δ) (e : Event δ) : Prop :=
  (∃ address, e = .remCategory (some address) ∧ ∃ c ∈ mgr.m_categories, c.1 = address) ∨
    e = .clearCategories ∧ mgr.m_categories ≠ []

/-- Some signal is emitted by the handler of the event, so that a client is sent the list anew. A
    preference that is set or saved emits none. -/
def Signals : Event δ → Prop
  | .addCategory _ name filter _ _ => name ≠ [] ∧ filter ≠ []
  | .remCategory cat => cat ≠ none
  | .clearCategories => True
  | .reloadCategories _ => True
  | .savePrefs => False
  | .setPref _ _ _ _ => False

theorem rows_length (mgr : CategoryMgr δ) : mgr.rows.length = mgr.m_categories.length :=
  List.length_mapIdx

variable (qt) in
theorem sends_iff (mgr : CategoryMgr δ) (e : Event δ) :
    Published.Sends (next qt) mgr e ↔ Signals e := by
  unfold Published.Sends
  cases e with
  | addCategory address name filter filterout color =>
      show (mgr.addCategory address name filter filterout color).2 ≠ [] ↔ name ≠ [] ∧ filter ≠ []
      by_cases hnew : name ≠ [] ∧ filter ≠ []
      · rw [addCategory_filled hnew]
        exact iff_of_true (List.cons_ne_nil _ _) hnew
      · rw [addCategory_blank hnew]
        exact iff_of_false (fun h => h rfl) hnew
  | remCategory cat =>
      cases cat with
      | none => exact iff_of_false (fun h => h rfl) fun h => h rfl
      | some address => exact iff_of_true (List.cons_ne_nil _ _) (Option.some_ne_none address)
  | clearCategories => exact iff_of_true (List.cons_ne_nil _ _) trivial
  | reloadCategories addresses => exact iff_of_true (List.cons_ne_nil _ _) trivial
  | savePrefs => exact iff_of_false (fun h => h rfl) id
  | setPref inName inSection value other => exact iff_of_false (fun h => h rfl) id

/-- The rows of a list that lost one are others. -/
theorem rows_eraseP (mgr : CategoryMgr δ) (address : ℕ) :
    mgr.rows ≠ fillCategoriesUpdate (mgr.m_categories.eraseP fun c => c.1 = address) ↔
      ∃ c ∈ mgr.m_categories, c.1 = address := by
  constructor
  · intro hother
    by_contra hnone
    refine hother ?_
    rw [List.eraseP_of_forall_not fun c hc => by simpa using fun heq => hnone ⟨c, hc, heq⟩]
    rfl
  · rintro ⟨c, hc, heq⟩ hsame
    have hlength := congrArg List.length hsame
    have hpos := List.length_pos_of_mem hc
    rw [rows_length, fillCategoriesUpdate, List.length_mapIdx,
      List.length_eraseP_of_mem hc (by simpa using heq)] at hlength
    omega

theorem misses_iff (mgr : CategoryMgr δ) (e : Event δ) :
    Published.Misses (next qt) id rows mgr e ↔ Removes mgr e := by
  unfold Published.Misses Removes
  cases e with
  | addCategory address name filter filterout color =>
      refine iff_of_false ?_ (by simp)
      show ¬ ∃ m, (mgr.addCategory address name filter filterout color).2.getLast? = some m ∧
        m ≠ (mgr.addCategory address name filter filterout color).1.rows
      by_cases hnew : name ≠ [] ∧ filter ≠ []
      · rw [addCategory_filled hnew]
        rintro ⟨m, hm, hother⟩
        exact hother (Option.some.inj hm).symm
      · rw [addCategory_blank hnew]
        rintro ⟨m, hm, -⟩
        exact absurd hm.symm (Option.some_ne_none m)
  | remCategory cat =>
      cases cat with
      | none =>
          refine iff_of_false ?_ (by simp)
          rintro ⟨m, hm, -⟩
          exact absurd hm.symm (Option.some_ne_none m)
      | some address =>
          have hmiss : (∃ m, some mgr.rows = some m ∧
              m ≠ fillCategoriesUpdate (mgr.m_categories.eraseP fun c => c.1 = address)) ↔
                ∃ c ∈ mgr.m_categories, c.1 = address := by
            rw [← rows_eraseP]
            simp
          refine hmiss.trans ?_
          simp
  | clearCategories =>
      have hmiss : (∃ m, some mgr.rows = some m ∧ m ≠ fillCategoriesUpdate []) ↔
          mgr.m_categories ≠ [] := by
        rw [← List.length_pos_iff, ← rows_length, List.length_pos_iff]
        simp [fillCategoriesUpdate]
      refine hmiss.trans ?_
      simp
  | reloadCategories addresses =>
      refine iff_of_false ?_ (by simp)
      rintro ⟨m, hm, hother⟩
      exact hother (Option.some.inj hm).symm
  | savePrefs =>
      refine iff_of_false ?_ (by simp)
      rintro ⟨m, hm, -⟩
      exact absurd hm.symm (Option.some_ne_none m)
  | setPref inName inSection value other =>
      refine iff_of_false ?_ (by simp)
      rintro ⟨m, hm, -⟩
      exact absurd hm.symm (Option.some_ne_none m)

theorem rows_of_silent (mgr : CategoryMgr δ) (e : Event δ) (h : (mgr.next qt e).2 = []) :
    (mgr.next qt e).1.rows = mgr.rows := by
  have hno : ¬ Signals e := fun hs => (sends_iff qt mgr e).mpr hs h
  cases e with
  | addCategory address name filter filterout color =>
      show (mgr.addCategory address name filter filterout color).1.rows = mgr.rows
      rw [addCategory_blank hno]
      rfl
  | remCategory cat =>
      cases cat with
      | none => rfl
      | some address => exact absurd (Option.some_ne_none address) hno
  | clearCategories => exact absurd trivial hno
  | reloadCategories addresses => exact absurd trivial hno
  | savePrefs =>
      show mgr.savePrefs.rows = mgr.rows
      unfold savePrefs
      split <;> rfl
  | setPref inName inSection value other => rfl

end

/-- A manager and the last list that was sent to a client, from its subscription on. -/
def watch {δ : Type} (qt : Qt δ) (mgr : CategoryMgr δ) (es : List (Event δ)) :
    Published.Watched (CategoryMgr δ) (List CategoryRow) :=
  es.foldl (Published.step (next qt)) ⟨mgr, mgr.rows⟩

/-- The client of any manager has the list there is exactly if behind each event that took something
    from it there is one with a signal. -/
theorem client_current_iff {δ : Type} (qt : Qt δ) (mgr : CategoryMgr δ) (es : List (Event δ)) :
    (watch qt mgr es).shown = (watch qt mgr es).store.rows ↔
      ∀ pre e post, es = pre ++ e :: post → Removes (pre.foldl (step qt) mgr) e →
        ∃ e' ∈ post, Signals e' := by
  have hstart : Published.Fresh id rows ⟨mgr, mgr.rows⟩ := rfl
  refine (Published.fresh_run_iff rows_of_silent hstart es).trans ?_
  unfold Published.MadeUp
  refine forall_congr' fun pre => forall_congr' fun e => forall_congr' fun post =>
    imp_congr_right fun _ => ?_
  rw [misses_iff]
  refine imp_congr_right fun _ => ?_
  constructor
  · rintro ⟨mid, e', post', rfl, hsends⟩
    exact ⟨e', by simp, (sends_iff qt _ e').mp hsends⟩
  · rintro ⟨e', hmem, hsignals⟩
    obtain ⟨mid, post', rfl⟩ := List.append_of_mem hmem
    exact ⟨mid, e', post', rfl, (sends_iff qt _ e').mpr hsignals⟩

end CategoryMgr

end ShoweqDaemon.Rules
