/-
  Adding, removing and editing filter rules.

  A client is shown the patterns that rules were made from, and names a rule by that pattern; the
  manager looks for the rule whose name, the rewritten pattern, it is. For a pattern without "Name:"
  the two are the same and the invariant of a `Filter` makes the rule the only one. A pattern with
  "Name:" never finds its own rule.

  Proved:
  * `Filter.addFilter_addFilter_count_iff`: one rule after two additions.
  * `Filter.remFilter_items_iff`: the rule shown goes and no other.
  * `Filter.editFilter_items_iff`: the rule shown is replaced.
  * `FilterMgr.editing_iff`: all three for the manager, and no other type changes.
-/
import ShoweqDaemon.Filter.Filters
import Mathlib.Data.List.Perm.Basic

namespace ShoweqDaemon.Rules

open Spawns (QString)

/-! ## One type -/

theorem FilterItem.name_eq (re : FilterItem) : re.name = fixedFilterPattern re.origFilterPattern :=
  re.fixed

/-- A rule's name is the pattern shown exactly when that has no "Name:". -/
theorem FilterItem.name_eq_orig_iff (re : FilterItem) :
    re.name = re.origFilterPattern ↔ mentionsName re.origFilterPattern = false := by
  rw [re.name_eq]
  exact fixedFilterPattern_eq_self_iff

/-- For a pattern without "Name:" the name and the pattern shown agree. -/
theorem FilterItem.name_eq_iff {re : FilterItem} {p : QString} (hp : mentionsName p = false) :
    re.name = p ↔ re.origFilterPattern = p := by
  rw [re.name_eq]
  exact fixedFilterPattern_eq_iff hp

namespace Filter

variable (valid : QRegularExpression → Bool)

/-- The rule that an addition makes. -/
def newItem (f : Filter) (filterPattern : QString) (minLevel maxLevel : UInt8) : FilterItem :=
  FilterItem.init filterPattern f.m_caseSensitive minLevel maxLevel

theorem addFilter_items (f : Filter) (p : QString) (lo hi : UInt8) :
    (f.addFilter valid p lo hi).1.m_filterItems =
      if ∃ re ∈ f.m_filterItems, re.name = p then f.m_filterItems
      else f.m_filterItems ++ [f.newItem p lo hi] := by
  unfold addFilter
  by_cases hnone : f.findFilter p = none
  · have habsent : ¬ ∃ re ∈ f.m_filterItems, re.name = p := by
      rintro ⟨re, hmem, hname⟩
      exact findFilter_none.mp hnone re hmem hname
    rw [dif_pos hnone, if_neg habsent]
    rfl
  · have hpresent : ∃ re ∈ f.m_filterItems, re.name = p := by
      by_contra habsent
      exact hnone (findFilter_none.mpr fun re hmem hname => habsent ⟨re, hmem, hname⟩)
    rw [dif_neg hnone, if_pos hpresent]

/-- An addition that succeeds found no rule of that name. -/
theorem addFilter_accepted {f : Filter} {p : QString} {lo hi : UInt8}
    (hok : (f.addFilter valid p lo hi).2 = true) : ¬ ∃ re ∈ f.m_filterItems, re.name = p := by
  rintro ⟨re, hmem, hname⟩
  have hfound : ¬ f.findFilter p = none := fun hnone => findFilter_none.mp hnone re hmem hname
  unfold addFilter at hok
  rw [dif_neg hfound] at hok
  cases hok

/-- Two additions leave one rule with the pattern exactly when it has no "Name:". -/
theorem addFilter_addFilter_count_iff {f : Filter} {p : QString} {lo hi : UInt8}
    (hok : (f.addFilter valid p lo hi).2 = true) :
    (((f.addFilter valid p lo hi).1.addFilter valid p lo hi).1.m_filterItems.countP
        fun re => re.origFilterPattern = p) = 1 ↔
      mentionsName p = false := by
  have habsent := addFilter_accepted valid hok
  have honce : (f.addFilter valid p lo hi).1.m_filterItems =
      f.m_filterItems ++ [f.newItem p lo hi] := by
    rw [addFilter_items, if_neg habsent]
  rw [addFilter_items, honce]
  cases hp : mentionsName p with
  | false =>
      have hfound : ∃ re ∈ f.m_filterItems ++ [f.newItem p lo hi], re.name = p :=
        ⟨f.newItem p lo hi, List.mem_append_right _ (List.mem_singleton_self _),
          (FilterItem.name_eq_iff hp).mpr rfl⟩
      have hzero : (f.m_filterItems.countP fun re => re.origFilterPattern = p) = 0 := by
        rw [List.countP_eq_zero]
        intro re hmem horig
        exact habsent ⟨re, hmem, (FilterItem.name_eq_iff hp).mpr (of_decide_eq_true horig)⟩
      have hone : ([f.newItem p lo hi].countP fun re => re.origFilterPattern = p) = 1 :=
        List.countP_eq_length.mpr fun re hmem => by
          rw [List.mem_singleton.mp hmem]
          exact decide_eq_true rfl
      rw [if_pos hfound, List.countP_append, hzero, hone]
      exact iff_of_true rfl rfl
  | true =>
      have hlost : ¬ ∃ re ∈ f.m_filterItems ++ [f.newItem p lo hi], re.name = p := by
        rintro ⟨re, hmem, hname⟩
        cases List.mem_append.mp hmem with
        | inl hold => exact habsent ⟨re, hold, hname⟩
        | inr hnew =>
            rw [List.mem_singleton.mp hnew] at hname
            have hself := (FilterItem.name_eq_orig_iff _).mp hname
            exact Bool.false_ne_true (hself.symm.trans hp)
      have hnew (g : Filter) :
          ([g.newItem p lo hi].countP fun re => re.origFilterPattern = p) = 1 :=
        List.countP_eq_length.mpr fun re hmem => by
          rw [List.mem_singleton.mp hmem]
          exact decide_eq_true rfl
      rw [if_neg hlost, List.countP_append, List.countP_append, hnew, hnew]
      refine iff_of_false ?_ Bool.noConfusion
      omega

/-- What a removal leaves: all the rules, or all but one of that name. -/
theorem remFilter_items (f : Filter) (p : QString) :
    ((∀ re ∈ f.m_filterItems, re.name ≠ p) ∧ (f.remFilter p).m_filterItems = f.m_filterItems) ∨
      ∃ re ∈ f.m_filterItems, re.name = p ∧
        f.m_filterItems.Perm (re :: (f.remFilter p).m_filterItems) := by
  by_cases hpresent : ∃ re ∈ f.m_filterItems, re.name = p
  · obtain ⟨re, hmem, hname⟩ := hpresent
    have herased := List.exists_of_eraseP (p := fun re : FilterItem => decide (re.name = p)) hmem
      (decide_eq_true hname)
    obtain ⟨re', before, after, _, hname', hsplit, herase⟩ := herased
    refine Or.inr ⟨re', ?_, of_decide_eq_true hname', ?_⟩
    · rw [hsplit]
      exact List.mem_append_right _ List.mem_cons_self
    · unfold remFilter
      dsimp only
      rw [herase, hsplit]
      exact List.perm_middle
  · refine Or.inl ⟨fun re hmem hname => hpresent ⟨re, hmem, hname⟩, ?_⟩
    exact List.eraseP_of_forall_not fun re hmem hname =>
      hpresent ⟨re, hmem, of_decide_eq_true hname⟩

/-- The rule shown with a pattern without "Name:" is the one removed: no rule before it has its name,
    by the invariant. -/
theorem remFilter_eq_eraseIdx (f : Filter) {i : ℕ} (hi : i < f.m_filterItems.length)
    (hplain : mentionsName f.m_filterItems[i].origFilterPattern = false) :
    (f.remFilter f.m_filterItems[i].origFilterPattern).m_filterItems =
      f.m_filterItems.eraseIdx i := by
  have hfirst : f.m_filterItems.findIdx?
      (fun re => re.name = f.m_filterItems[i].origFilterPattern) = some i := by
    rw [List.findIdx?_eq_some_iff_getElem]
    refine ⟨hi, decide_eq_true ((FilterItem.name_eq_orig_iff _).mpr hplain), ?_⟩
    intro j hji hname
    exact List.pairwise_iff_getElem.mp f.nodup j i _ hi hji (of_decide_eq_true hname)
  unfold remFilter
  dsimp only
  rw [List.eraseP_eq_eraseIdx, hfirst]

/-- The rule is the first of the list with the others behind it, in any order. -/
theorem perm_eraseIdx (f : Filter) {i : ℕ} (hi : i < f.m_filterItems.length) :
    f.m_filterItems.Perm (f.m_filterItems[i] :: f.m_filterItems.eraseIdx i) :=
  (List.getElem_cons_eraseIdx_perm hi).symm

/-- A rule whose pattern has "Name:" is not removed by that pattern. -/
theorem remFilter_not_perm (f : Filter) {i : ℕ} (hi : i < f.m_filterItems.length)
    (hname : mentionsName f.m_filterItems[i].origFilterPattern = true) :
    ¬ (f.remFilter f.m_filterItems[i].origFilterPattern).m_filterItems.Perm
      (f.m_filterItems.eraseIdx i) := by
  intro hperm
  have hitem := f.perm_eraseIdx hi
  cases f.remFilter_items f.m_filterItems[i].origFilterPattern with
  | inl hall =>
      have hlen := hperm.length_eq
      rw [hall.2, List.length_eraseIdx_of_lt hi] at hlen
      omega
  | inr hone =>
      obtain ⟨re, hmem, hre, hsplit⟩ := hone
      have hcons : (re :: f.m_filterItems.eraseIdx i).Perm
          (f.m_filterItems[i] :: f.m_filterItems.eraseIdx i) :=
        ((hperm.cons re).symm.trans hsplit.symm).trans hitem
      have hsame : re = f.m_filterItems[i] := List.singleton_perm_singleton.mp
        ((List.perm_append_right_iff (f.m_filterItems.eraseIdx i)).mp hcons)
      rw [hsame] at hre
      have hplain := (FilterItem.name_eq_orig_iff _).mp hre
      exact Bool.false_ne_true (hplain.symm.trans hname)

/-- The pattern shown removes its rule and no other exactly when it has no "Name:". -/
theorem remFilter_items_iff (f : Filter) {i : ℕ} (hi : i < f.m_filterItems.length) :
    (f.remFilter f.m_filterItems[i].origFilterPattern).m_filterItems = f.m_filterItems.eraseIdx i ↔
      mentionsName f.m_filterItems[i].origFilterPattern = false := by
  refine ⟨fun h => ?_, f.remFilter_eq_eraseIdx hi⟩
  cases hname : mentionsName f.m_filterItems[i].origFilterPattern with
  | false => rfl
  | true =>
      have hperm := f.remFilter_not_perm hi hname
      rw [h] at hperm
      exact absurd (List.Perm.refl _) hperm

/-- The rules with the i-th replaced by a new one, unless another is shown with that pattern. -/
def replaced (f : Filter) (i : ℕ) (newPattern : QString) : List FilterItem :=
  let rest := f.m_filterItems.eraseIdx i
  if ∃ re ∈ rest, re.origFilterPattern = newPattern then rest
  else rest ++ [f.newItem newPattern 0 0]

/-- For the new pattern of an edit, to be shown and to be a name is the same among the other rules.
    It is for every pattern without "Name:". -/
def ShownIsName (f : Filter) (i : ℕ) (newPattern : QString) : Prop :=
  (∃ re ∈ f.m_filterItems.eraseIdx i, re.name = newPattern) ↔
    ∃ re ∈ f.m_filterItems.eraseIdx i, re.origFilterPattern = newPattern

/-- Two lists with a value behind them or not, alike up to order. -/
theorem perm_of_added {α : Type} {a b : List α} {x : α} {c d : Prop} [Decidable c] [Decidable d]
    (h : (if c then a else a ++ [x]).Perm (if d then b else b ++ [x])) :
    a.Perm b ∨ (c ∧ a.Perm (b ++ [x])) ∨ (a ++ [x]).Perm b := by
  by_cases hc : c
  · by_cases hd : d
    · rw [if_pos hc, if_pos hd] at h
      exact Or.inl h
    · rw [if_pos hc, if_neg hd] at h
      exact Or.inr (Or.inl ⟨hc, h⟩)
  · by_cases hd : d
    · rw [if_neg hc, if_pos hd] at h
      exact Or.inr (Or.inr h)
    · rw [if_neg hc, if_neg hd] at h
      exact Or.inl ((List.perm_append_right_iff [x]).mp h)

/-- An edit of a rule whose pattern has "Name:" never replaces it. -/
theorem editFilter_not_perm (f : Filter) {i : ℕ} (hi : i < f.m_filterItems.length)
    (hname : mentionsName f.m_filterItems[i].origFilterPattern = true) (newPattern : QString) :
    ¬ ((f.remFilter f.m_filterItems[i].origFilterPattern).addFilter valid
        newPattern 0 0).1.m_filterItems.Perm (f.replaced i newPattern) := by
  intro hperm
  have hitem := f.perm_eraseIdx hi
  have hlenRest := List.length_eraseIdx_of_lt hi
  rw [addFilter_items] at hperm
  cases perm_of_added hperm with
  | inl hrest => exact f.remFilter_not_perm hi hname hrest
  | inr hmore =>
      have hlost := f.remFilter_items f.m_filterItems[i].origFilterPattern
      cases hmore with
      | inl hfound =>
          obtain ⟨⟨re, hmem, hre⟩, hadded⟩ := hfound
          cases hlost with
          | inl hall =>
              -- nothing was removed, so the i-th rule would be the new one, whose name was found
              rw [hall.2] at hadded hmem
              have hcons : ([f.m_filterItems[i]] ++ f.m_filterItems.eraseIdx i).Perm
                  ([f.newItem newPattern 0 0] ++ f.m_filterItems.eraseIdx i) :=
                (hitem.symm.trans hadded).trans (List.perm_append_singleton _ _)
              have hsame := List.singleton_perm_singleton.mp
                ((List.perm_append_right_iff _).mp hcons)
              have horig : f.m_filterItems[i].origFilterPattern = newPattern :=
                congrArg FilterItem.origFilterPattern hsame
              exact hall.1 re hmem (hre.trans horig.symm)
          | inr hone =>
              obtain ⟨_, _, _, hsplit⟩ := hone
              have hlen := hadded.length_eq
              have hlenSplit := hsplit.length_eq
              rw [List.length_append, List.length_singleton] at hlen
              rw [List.length_cons] at hlenSplit
              omega
      | inr hadded =>
          have hlen := hadded.length_eq
          rw [List.length_append, List.length_singleton] at hlen
          cases hlost with
          | inl hall =>
              rw [hall.2] at hlen
              omega
          | inr hone =>
              obtain ⟨_, _, _, hsplit⟩ := hone
              have hlenSplit := hsplit.length_eq
              rw [List.length_cons] at hlenSplit
              omega

/-- An edit replaces the rule shown exactly when its pattern has no "Name:" and the new pattern is
    found where it is shown. -/
theorem editFilter_items_iff (f : Filter) {i : ℕ} (hi : i < f.m_filterItems.length)
    (newPattern : QString) :
    ((f.remFilter f.m_filterItems[i].origFilterPattern).addFilter valid
        newPattern 0 0).1.m_filterItems.Perm (f.replaced i newPattern) ↔
      mentionsName f.m_filterItems[i].origFilterPattern = false ∧ f.ShownIsName i newPattern := by
  cases hname : mentionsName f.m_filterItems[i].origFilterPattern with
  | true => exact iff_of_false (f.editFilter_not_perm valid hi hname newPattern) (nomatch ·.1)
  | false =>
      rw [addFilter_items, f.remFilter_eq_eraseIdx hi hname]
      unfold replaced ShownIsName
      dsimp only
      constructor
      · intro hperm
        have hlen := hperm.length_eq
        refine ⟨rfl, ?_⟩
        by_cases hfound : ∃ re ∈ f.m_filterItems.eraseIdx i, re.name = newPattern
        · refine iff_of_true hfound ?_
          by_contra hshown
          rw [if_pos hfound, if_neg hshown, List.length_append, List.length_singleton] at hlen
          omega
        · refine iff_of_false hfound fun hshown => ?_
          rw [if_neg hfound, if_pos hshown, List.length_append, List.length_singleton] at hlen
          omega
      · intro h
        rw [if_congr h.2 rfl rfl]
        exact List.Perm.refl _

end Filter

/-! ## All types -/

/-- The types of the file. -/
def typeValues : List UInt8 := [0, 1, 2, 3, 4, 5, 6]

theorem mem_typeValues {type : UInt8} (ht : type < SIZEOF_FILTERS) : type ∈ typeValues := by
  have hlt : type.toNat < 7 := UInt8.lt_iff_toNat_lt.mp ht
  have hvalues : ∀ n < 7, UInt8.ofNat n ∈ typeValues := by decide
  rw [← UInt8.ofNat_toNat (x := type)]
  exact hvalues _ hlt

theorem validMask_of_lt {type : UInt8} (ht : type < SIZEOF_FILTERS) :
    fileTypes.validMask (FilterTypes.mask type) = true := by
  have hvalid : (typeValues.all fun type => fileTypes.validMask (FilterTypes.mask type)) = true := by
    decide
  exact List.all_eq_true.mp hvalid type (mem_typeValues ht)

/-- The types of the file have masks of their own. -/
theorem mask_inj {type type' : UInt8} (ht : type < SIZEOF_FILTERS) (ht' : type' < SIZEOF_FILTERS)
    (h : FilterTypes.mask type = FilterTypes.mask type') : type = type' := by
  have hnodup : (typeValues.map FilterTypes.mask).Nodup := by decide
  exact List.inj_on_of_nodup_map hnodup (mem_typeValues ht) (mem_typeValues ht') h

namespace Filters

variable {types : FilterTypes}

/-- The filter that an addition finds or makes. -/
def filterOf (fs : Filters types) (type : UInt8) : Filter :=
  (fs.m_filters (FilterTypes.mask type)).getD { m_caseSensitive := fs.m_caseSensitive }

theorem items_eq (fs : Filters types) (type : UInt8) :
    fs.items type = (fs.filterOf type).m_filterItems := by
  unfold items filterOf
  cases fs.m_filters (FilterTypes.mask type) <;> rfl

theorem items_put (fs : Filters types) (type type' : UInt8)
    (h : types.validMask (FilterTypes.mask type) = true) (f : Filter) :
    (fs.put type h f).items type' =
      if FilterTypes.mask type' = FilterTypes.mask type then f.m_filterItems else fs.items type' := by
  unfold items put
  dsimp only
  split_ifs with heq
  · rw [heq, Function.update_self]
  · rw [Function.update_of_ne heq]

theorem filterOf_put (fs : Filters types) (type : UInt8)
    (h : types.validMask (FilterTypes.mask type) = true) (f : Filter) :
    (fs.put type h f).filterOf type = f := by
  unfold filterOf put
  dsimp only
  rw [Function.update_self]
  rfl

section
variable (valid : QRegularExpression → Bool)

theorem addFilter_eq (fs : Filters types) {type : UInt8}
    (h : types.validMask (FilterTypes.mask type) = true) (p : QString) (lo hi : UInt8) :
    fs.addFilter valid type p lo hi =
      (fs.put type h ((fs.filterOf type).addFilter valid p lo hi).1,
        ((fs.filterOf type).addFilter valid p lo hi).2) := by
  unfold addFilter
  rw [dif_pos h]
  rfl

end

/-- A removal leaves the rules that it leaves of the type's filter, and those of other types. -/
theorem items_remFilter (fs : Filters types) {type : UInt8}
    (h : types.validMask (FilterTypes.mask type) = true) (p : QString) (type' : UInt8) :
    (fs.remFilter type p).items type' =
      if FilterTypes.mask type' = FilterTypes.mask type then
        ((fs.filterOf type).remFilter p).m_filterItems
      else fs.items type' := by
  unfold remFilter
  rw [dif_pos h]
  cases hfilter : fs.m_filters (FilterTypes.mask type) with
  | none =>
      dsimp only
      split_ifs with heq
      · unfold items filterOf
        rw [heq, hfilter]
        rfl
      · rfl
  | some filter =>
      dsimp only
      rw [items_put]
      unfold filterOf
      rw [hfilter]
      rfl

/-- A filter that is none has no rules to remove. -/
theorem filterOf_remFilter (fs : Filters types) {type : UInt8}
    (h : types.validMask (FilterTypes.mask type) = true) (p : QString) :
    (fs.remFilter type p).filterOf type = (fs.filterOf type).remFilter p := by
  unfold remFilter
  rw [dif_pos h]
  cases hfilter : fs.m_filters (FilterTypes.mask type) with
  | none =>
      unfold filterOf
      rw [hfilter]
      rfl
  | some filter =>
      dsimp only
      rw [filterOf_put]
      unfold filterOf
      rw [hfilter]
      rfl

end Filters

namespace FilterMgr

/-- The rules of one type, of the zone or of all zones. -/
def rules (fm : FilterMgr) (per_zone : Bool) (type : UInt8) : List FilterItem :=
  (fm.get per_zone).items type

/-- The rules of one type satisfy `P` and those of all other types are as before. -/
def Becomes (fm fm' : FilterMgr) (per_zone : Bool) (type : UInt8) (P : List FilterItem → Prop) :
    Prop :=
  P (fm'.rules per_zone type) ∧
    ∀ per_zone' type', type' < SIZEOF_FILTERS → (per_zone', type') ≠ (per_zone, type) →
      fm'.rules per_zone' type' = fm.rules per_zone' type'

theorem get_set (fm : FilterMgr) (per_zone per_zone' : Bool) (fs : Filters fileTypes) :
    (fm.set per_zone fs).get per_zone' = if per_zone' = per_zone then fs else fm.get per_zone' := by
  cases per_zone <;> cases per_zone' <;> rfl

theorem set_set (fm : FilterMgr) (per_zone : Bool) (fs fs' : Filters fileTypes) :
    (fm.set per_zone fs).set per_zone fs' = fm.set per_zone fs' := by
  cases per_zone <;> rfl

/-- New rules for one type are all that changes. -/
theorem becomes_set_iff {fm : FilterMgr} {per_zone : Bool} {fs : Filters fileTypes} {type : UInt8}
    (ht : type < SIZEOF_FILTERS) {items : List FilterItem} {P : List FilterItem → Prop}
    (hitems : ∀ type', fs.items type' =
      if FilterTypes.mask type' = FilterTypes.mask type then items
      else (fm.get per_zone).items type') :
    Becomes fm (fm.set per_zone fs) per_zone type P ↔ P items := by
  have hself : (fm.set per_zone fs).rules per_zone type = items := by
    unfold rules
    rw [get_set, if_pos rfl, hitems, if_pos rfl]
  have hothers : ∀ per_zone' type', type' < SIZEOF_FILTERS →
      (per_zone', type') ≠ (per_zone, type) →
      (fm.set per_zone fs).rules per_zone' type' = fm.rules per_zone' type' := by
    intro per_zone' type' ht' hne
    unfold rules
    rw [get_set]
    split_ifs with hzone
    · have htype : FilterTypes.mask type' ≠ FilterTypes.mask type := by
        intro hmask
        exact hne (Prod.ext hzone (mask_inj ht' ht hmask))
      rw [hitems, if_neg htype, hzone]
    · rfl
  unfold Becomes
  rw [hself]
  exact and_iff_left hothers

variable (valid : QRegularExpression → Bool)

theorem addFilter_eq (fm : FilterMgr) (per_zone : Bool) {type : UInt8}
    (ht : type < SIZEOF_FILTERS) (p : QString) :
    fm.addFilter valid per_zone type p =
      (fm.set per_zone ((fm.get per_zone).addFilter valid type p 0 0).1,
        ((fm.get per_zone).addFilter valid type p 0 0).2) := by
  unfold addFilter
  rw [if_neg (UInt8.not_le.mpr ht)]

theorem remFilter_eq (fm : FilterMgr) (per_zone : Bool) {type : UInt8}
    (ht : type < SIZEOF_FILTERS) (p : QString) :
    fm.remFilter per_zone type p = fm.set per_zone ((fm.get per_zone).remFilter type p) := by
  unfold remFilter
  rw [if_neg (UInt8.not_le.mpr ht)]

theorem editFilter_eq (fm : FilterMgr) (per_zone : Bool) {type : UInt8}
    (ht : type < SIZEOF_FILTERS) (oldPattern newPattern : QString) :
    (fm.editFilter valid per_zone type oldPattern newPattern).1 =
      fm.set per_zone
        (((fm.get per_zone).remFilter type oldPattern).addFilter valid type newPattern 0 0).1 := by
  unfold editFilter
  rw [if_neg (UInt8.not_le.mpr ht)]

/-- The rules of one type as a list with its invariant. -/
def filterOf (fm : FilterMgr) (per_zone : Bool) (type : UInt8) : Filter :=
  (fm.get per_zone).filterOf type

theorem rules_eq (fm : FilterMgr) (per_zone : Bool) (type : UInt8) :
    fm.rules per_zone type = (fm.filterOf per_zone type).m_filterItems :=
  Filters.items_eq _ _

/-- After an addition and a second one. -/
theorem becomes_addFilter_addFilter_iff (fm : FilterMgr) (per_zone : Bool) {type : UInt8}
    (ht : type < SIZEOF_FILTERS) (p : QString) (P : List FilterItem → Prop) :
    Becomes fm ((fm.addFilter valid per_zone type p).1.addFilter valid per_zone type p).1
        per_zone type P ↔
      P (((fm.filterOf per_zone type).addFilter valid p 0 0).1.addFilter valid p 0 0).1.m_filterItems := by
  have hmask := validMask_of_lt ht
  rw [addFilter_eq _ _ _ ht, addFilter_eq _ _ _ ht, set_set, get_set, if_pos rfl,
    Filters.addFilter_eq _ _ hmask, Filters.addFilter_eq _ _ hmask, Filters.filterOf_put]
  refine becomes_set_iff ht fun type' => ?_
  rw [Filters.items_put, Filters.items_put]
  split_ifs <;> rfl

theorem becomes_remFilter_iff (fm : FilterMgr) (per_zone : Bool) {type : UInt8}
    (ht : type < SIZEOF_FILTERS) (p : QString) (P : List FilterItem → Prop) :
    Becomes fm (fm.remFilter per_zone type p) per_zone type P ↔
      P ((fm.filterOf per_zone type).remFilter p).m_filterItems := by
  rw [remFilter_eq _ _ ht]
  exact becomes_set_iff ht (Filters.items_remFilter _ (validMask_of_lt ht) p)

theorem becomes_editFilter_iff (fm : FilterMgr) (per_zone : Bool) {type : UInt8}
    (ht : type < SIZEOF_FILTERS) (oldPattern newPattern : QString) (P : List FilterItem → Prop) :
    Becomes fm (fm.editFilter valid per_zone type oldPattern newPattern).1 per_zone type P ↔
      P (((fm.filterOf per_zone type).remFilter oldPattern).addFilter valid
        newPattern 0 0).1.m_filterItems := by
  have hmask := validMask_of_lt ht
  rw [editFilter_eq _ _ _ ht, Filters.addFilter_eq _ _ hmask, Filters.filterOf_remFilter _ hmask]
  refine becomes_set_iff ht fun type' => ?_
  rw [Filters.items_put, Filters.items_remFilter _ hmask]
  split_ifs <;> rfl

/-- Editing by the patterns that are shown. A pattern that was accepted, added once more, leaves one
    rule exactly when it has no "Name:"; the pattern shown for a rule removes that rule and no other
    exactly when it has no "Name:"; and an edit of a rule replaces it exactly when, besides, the new
    pattern is a name among the other rules if it is shown among them. -/
theorem editing_iff (fm : FilterMgr) (per_zone : Bool) (type : UInt8)
    (ht : type < SIZEOF_FILTERS) :
    (∀ p, (fm.addFilter valid per_zone type p).2 = true →
      (Becomes fm ((fm.addFilter valid per_zone type p).1.addFilter valid per_zone type p).1
          per_zone type (fun res => (res.countP fun re => re.origFilterPattern = p) = 1) ↔
        mentionsName p = false)) ∧
    (∀ i re, (fm.rules per_zone type)[i]? = some re →
      (Becomes fm (fm.remFilter per_zone type re.origFilterPattern) per_zone type
          (· = (fm.rules per_zone type).eraseIdx i) ↔
        mentionsName re.origFilterPattern = false)) ∧
    (∀ i re newPattern, (fm.rules per_zone type)[i]? = some re →
      (Becomes fm (fm.editFilter valid per_zone type re.origFilterPattern newPattern).1
          per_zone type (·.Perm ((fm.filterOf per_zone type).replaced i newPattern)) ↔
        mentionsName re.origFilterPattern = false ∧
          (fm.filterOf per_zone type).ShownIsName i newPattern)) := by
  refine ⟨fun p hok => ?_, fun i re hre => ?_, fun i re newPattern hre => ?_⟩
  · rw [addFilter_eq _ _ _ ht, Filters.addFilter_eq _ _ (validMask_of_lt ht)] at hok
    rw [becomes_addFilter_addFilter_iff valid fm per_zone ht]
    exact Filter.addFilter_addFilter_count_iff valid hok
  · rw [rules_eq] at hre ⊢
    obtain ⟨hi, rfl⟩ := List.getElem?_eq_some_iff.mp hre
    rw [becomes_remFilter_iff fm per_zone ht]
    exact Filter.remFilter_items_iff _ hi
  · rw [rules_eq] at hre
    obtain ⟨hi, rfl⟩ := List.getElem?_eq_some_iff.mp hre
    rw [becomes_editFilter_iff valid fm per_zone ht]
    exact Filter.editFilter_items_iff valid _ hi newPattern

end FilterMgr

/-! ## A rule that cannot be removed -/

/-- One rule, to hunt anything whose name begins with "a". -/
def huntName : FilterMgr :=
  (({} : FilterMgr).addFilter (fun _ => true) false 0 "Name:a".toList).1

/-- The rule comes twice, and neither comes away nor changes. -/
theorem editing_iff_huntName :
    mentionsName "Name:a".toList = true ∧
      ¬ huntName.Becomes (huntName.remFilter false 0 "Name:a".toList) false 0
        (· = (huntName.rules false 0).eraseIdx 0) := by
  have hediting := FilterMgr.editing_iff (fun _ => true) huntName false 0 (by decide)
  have hrem := hediting.2.1 0 (FilterItem.init "Name:a".toList false 0 0) (by decide)
  exact ⟨by decide, fun h => Bool.noConfusion (hrem.mp h)⟩

/-- The pattern "Name:a" is accepted and, added again, shown twice; the rule is not removed by the
    pattern shown, and an edit keeps it beside the new one. -/
theorem name_rule_stays :
    (({} : FilterMgr).addFilter (fun _ => true) false 0 "Name:a".toList).2 = true ∧
      ((huntName.addFilter (fun _ => true) false 0 "Name:a".toList).1.rules false 0).map
          FilterItem.origFilterPattern = ["Name:a".toList, "Name:a".toList] ∧
      (huntName.remFilter false 0 "Name:a".toList).rules false 0 = huntName.rules false 0 ∧
      ((huntName.editFilter (fun _ => true) false 0 "Name:a".toList "b".toList).1.rules false 0).map
          FilterItem.origFilterPattern = ["Name:a".toList, "b".toList] := by
  decide

end ShoweqDaemon.Rules
