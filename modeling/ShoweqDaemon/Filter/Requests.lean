/-
  Filter requests of a client, and what a refused one leaves behind.

  A request names its type with 32 bits, of which the handler keeps eight; an edit removes before it
  adds; and a rule whose pattern is no regular expression is appended all the same. `Harmless` is
  what then has to be so for a refused request to leave the rules alone: `refused_unchanged_iff`.

  The rules are those of one manager, for the zone or for all zones (`per_zone`). Nothing is asked
  of them, nor of which patterns are valid expressions.

  Proved:
  * `addFilter_same_iff`, `remFilter_same_iff`, `editFilter_same_iff`: which calls leave the
    rules.
  * `sameRules_handle_iff`, `handle_false_iff`: the same for a request, and when it is refused.
  * `refused_unchanged_iff`: for every manager and every request.
  * `refused_type_adds`: the type 256 is refused, and its rule is added to those of type 0.
-/
import ShoweqDaemon.Filter.Editing

namespace ShoweqDaemon.Rules

open Spawns (QString)

/-! ## Requests -/

/-- The filter requests of `handleClientBinary`. -/
inductive FilterRequest where
  | add_filter_rule (filter_type : UInt32) (pattern : QString) (per_zone : Bool)
  | remove_filter_rule (filter_type : UInt32) (pattern : QString) (per_zone : Bool)
  | edit_filter_rule (filter_type : UInt32) (old_pattern new_pattern : QString) (per_zone : Bool)
  deriving DecidableEq, Repr

/-- The type that the request names, in 32 bits. -/
def FilterRequest.filter_type : FilterRequest → UInt32
  | add_filter_rule type _ _ => type
  | remove_filter_rule type _ _ => type
  | edit_filter_rule type _ _ _ => type

namespace FilterMgr

section
variable (valid : QRegularExpression → Bool)

/-- The request carried out, and what `addFilter` or `editFilter` returned. -/
def handle (fm : FilterMgr) : FilterRequest → FilterMgr × Option Bool
  | .add_filter_rule type pattern per_zone =>
      let (fm, ok) := fm.addFilter valid per_zone type.toUInt8 pattern
      (fm, some ok)
  | .remove_filter_rule type pattern per_zone =>
      (fm.remFilter per_zone type.toUInt8 pattern, none)
  | .edit_filter_rule type old_pattern new_pattern per_zone =>
      let (fm, ok) := fm.editFilter valid per_zone type.toUInt8 old_pattern new_pattern
      (fm, some ok)

/-- The type is none of those that there are, or the rule was not accepted. -/
def Refused (fm : FilterMgr) (req : FilterRequest) : Prop :=
  ¬ req.filter_type < SIZEOF_FILTERS.toUInt32 ∨ (fm.handle valid req).2 = some false

end

/-- The rules of every type are the same. -/
def SameRules (fm fm' : FilterMgr) : Prop :=
  ∀ per_zone type, type < SIZEOF_FILTERS → fm'.rules per_zone type = fm.rules per_zone type

end FilterMgr

/-! ## One type -/

namespace Filter

/-- A rule of that name is there. -/
def Has (f : Filter) (p : QString) : Prop := ∃ re ∈ f.m_filterItems, re.name = p

section
variable (valid : QRegularExpression → Bool) (f : Filter)

/-- The pattern makes a regular expression. -/
def Accepts (p : QString) : Prop := valid (f.newItem p 0 0).m_regexp = true

/-- From the rule of the old name on, all rules are the one that the new pattern makes. -/
def Restores (old_pattern new_pattern : QString) : Prop :=
  ∀ re ∈ f.m_filterItems.dropWhile fun re => re.name ≠ old_pattern, re = f.newItem new_pattern 0 0

/-- An edit leaves the rules as they are: nothing goes and nothing comes, or the same comes back. -/
def EditsNothing (old_pattern new_pattern : QString) : Prop :=
  ((f.remFilter old_pattern).Has new_pattern ∧ ¬ f.Has old_pattern) ∨
    (¬ (f.remFilter old_pattern).Has new_pattern ∧ f.Has old_pattern ∧
      f.Restores old_pattern new_pattern)

theorem addFilter_of_has {p : QString} (h : f.Has p) :
    (f.addFilter valid p 0 0).1.m_filterItems = f.m_filterItems :=
  (addFilter_items valid f p 0 0).trans (if_pos h)

theorem addFilter_of_not {p : QString} (h : ¬ f.Has p) :
    (f.addFilter valid p 0 0).1.m_filterItems = f.m_filterItems ++ [f.newItem p 0 0] :=
  (addFilter_items valid f p 0 0).trans (if_neg h)

theorem addFilter_same_iff (p : QString) :
    (f.addFilter valid p 0 0).1.m_filterItems = f.m_filterItems ↔ f.Has p := by
  by_cases hhas : f.Has p
  · exact iff_of_true (addFilter_of_has valid f hhas) hhas
  · rw [addFilter_of_not valid f hhas]
    refine iff_of_false (fun h => ?_) hhas
    have hlen := congrArg List.length h
    rw [List.length_append, List.length_singleton] at hlen
    omega

theorem addFilter_false_iff (p : QString) :
    (f.addFilter valid p 0 0).2 = false ↔ f.Has p ∨ ¬ f.Accepts valid p := by
  unfold addFilter
  by_cases hnone : f.findFilter p = none
  · have hhas : ¬ f.Has p := by
      rintro ⟨re, hmem, hname⟩
      exact findFilter_none.mp hnone re hmem hname
    rw [dif_pos hnone, or_iff_right hhas]
    exact Bool.not_eq_true _ |>.symm.to_iff
  · have hhas : f.Has p := by
      by_contra habsent
      exact hnone (findFilter_none.mpr fun re hmem hname => habsent ⟨re, hmem, hname⟩)
    rw [dif_neg hnone]
    exact iff_of_true rfl (Or.inl hhas)

theorem remFilter_same_iff (p : QString) :
    (f.remFilter p).m_filterItems = f.m_filterItems ↔ ¬ f.Has p := by
  rcases remFilter_items f p with ⟨hnone, hsame⟩ | ⟨re, hmem, hname, hperm⟩
  · refine iff_of_true hsame ?_
    rintro ⟨re, hmem, hname⟩
    exact hnone re hmem hname
  · refine iff_of_false (fun h => ?_) (not_not_intro ⟨re, hmem, hname⟩)
    have hlen := hperm.length_eq
    rw [h, List.length_cons] at hlen
    omega

end

section
variable {α : Type}

/-- A list that begins as it ends with `x` has nothing else. -/
theorem append_eq_cons_iff (a x : α) (l : List α) :
    l ++ [x] = a :: l ↔ ∀ y ∈ a :: l, y = x := by
  induction l generalizing a with
  | nil =>
      simp only [List.nil_append, List.cons.injEq, and_true, List.mem_singleton, forall_eq]
      exact eq_comm
  | cons b l ih =>
      rw [List.cons_append, List.cons.injEq, ih, List.forall_mem_cons (a := a)]
      refine and_congr_left fun hall => ?_
      rw [hall b List.mem_cons_self]
      exact eq_comm

/-- The first with `p` goes and `x` comes to the end. -/
theorem eraseP_append_eq_iff (p : α → Bool) (x : α) (l : List α) :
    l.eraseP p ++ [x] = l ↔
      (∃ a ∈ l, p a = true) ∧ ∀ y ∈ l.dropWhile fun a => !p a, y = x := by
  induction l with
  | nil => simp
  | cons a l ih =>
      cases ha : p a with
      | true =>
          rw [List.eraseP_cons_of_pos ha, append_eq_cons_iff,
            List.dropWhile_cons_of_neg (by simp [ha])]
          exact (and_iff_right ⟨a, List.mem_cons_self, ha⟩).symm
      | false =>
          rw [List.eraseP_cons_of_neg (by simp [ha]), List.cons_append,
            List.dropWhile_cons_of_pos (by simp [ha]), List.cons_inj_right, ih]
          refine and_congr_left fun _ => ?_
          simp [ha]

end

section
variable (valid : QRegularExpression → Bool) (f : Filter)

theorem editFilter_same_iff (old_pattern new_pattern : QString) :
    ((f.remFilter old_pattern).addFilter valid new_pattern 0 0).1.m_filterItems =
        f.m_filterItems ↔
      f.EditsNothing old_pattern new_pattern := by
  by_cases hhas : (f.remFilter old_pattern).Has new_pattern
  · rw [addFilter_of_has valid _ hhas, remFilter_same_iff]
    unfold EditsNothing
    rw [and_iff_right hhas, or_iff_left fun h => h.1 hhas]
  · rw [addFilter_of_not valid _ hhas]
    unfold EditsNothing
    rw [or_iff_right fun h => hhas h.1, and_iff_right hhas]
    refine (eraseP_append_eq_iff _ _ _).trans ?_
    unfold Has Restores
    simp only [decide_eq_true_eq, decide_not]
    rfl

end

end Filter

/-! ## Requests and their types -/

namespace FilterRequest

/-- The request is about the rules of the zone. -/
def per_zone : FilterRequest → Bool
  | add_filter_rule _ _ per_zone => per_zone
  | remove_filter_rule _ _ per_zone => per_zone
  | edit_filter_rule _ _ _ per_zone => per_zone

/-- The rules of the type stay as they are. -/
def Leaves (f : Filter) : FilterRequest → Prop
  | add_filter_rule _ pattern _ => f.Has pattern
  | remove_filter_rule _ pattern _ => ¬ f.Has pattern
  | edit_filter_rule _ old_pattern new_pattern _ => f.EditsNothing old_pattern new_pattern

/-- There is no such rule yet, and the pattern makes a regular expression. -/
def Accepted (valid : QRegularExpression → Bool) (f : Filter) : FilterRequest → Prop
  | add_filter_rule _ pattern _ => ¬ f.Has pattern ∧ f.Accepts valid pattern
  | remove_filter_rule _ _ _ => True
  | edit_filter_rule _ old_pattern new_pattern _ =>
      ¬ (f.remFilter old_pattern).Has new_pattern ∧
        (f.remFilter old_pattern).Accepts valid new_pattern

end FilterRequest

namespace FilterMgr

/-- The rules that the request comes to, by its type as it is after the narrowing. -/
def target (fm : FilterMgr) (req : FilterRequest) : Filter :=
  fm.filterOf req.per_zone req.filter_type.toUInt8

/-- What a request has to be for nothing to change if it is refused: its narrowed type is none, or
    it leaves the rules of that type, or it is not refused. -/
def Harmless (valid : QRegularExpression → Bool) (fm : FilterMgr) (req : FilterRequest) : Prop :=
  ¬ req.filter_type.toUInt8 < SIZEOF_FILTERS ∨ req.Leaves (fm.target req) ∨
    (req.filter_type < SIZEOF_FILTERS.toUInt32 ∧ req.Accepted valid (fm.target req))

section
variable (valid : QRegularExpression → Bool) {fm : FilterMgr}

theorem becomes_rules_iff {fm' : FilterMgr} {per_zone : Bool} {type : UInt8}
    (ht : type < SIZEOF_FILTERS) :
    Becomes fm fm' per_zone type (· = fm.rules per_zone type) ↔ fm.SameRules fm' := by
  constructor
  · rintro ⟨hself, hothers⟩ per_zone' type' ht'
    by_cases heq : (per_zone', type') = (per_zone, type)
    · obtain ⟨rfl, rfl⟩ := Prod.mk.inj heq
      exact hself
    · exact hothers per_zone' type' ht' heq
  · exact fun h => ⟨h per_zone type ht, fun per_zone' type' ht' _ => h per_zone' type' ht'⟩

theorem becomes_addFilter_iff (per_zone : Bool) {type : UInt8} (ht : type < SIZEOF_FILTERS)
    (p : QString) (P : List FilterItem → Prop) :
    Becomes fm (fm.addFilter valid per_zone type p).1 per_zone type P ↔
      P ((fm.filterOf per_zone type).addFilter valid p 0 0).1.m_filterItems := by
  rw [addFilter_eq _ _ _ ht, Filters.addFilter_eq _ _ (validMask_of_lt ht)]
  exact becomes_set_iff ht fun type' => Filters.items_put _ type type' (validMask_of_lt ht) _

theorem sameRules_handle_iff {req : FilterRequest}
    (ht : req.filter_type.toUInt8 < SIZEOF_FILTERS) :
    fm.SameRules (fm.handle valid req).1 ↔ req.Leaves (fm.target req) := by
  cases req with
  | add_filter_rule type pattern per_zone =>
      rw [← becomes_rules_iff ht]
      refine (becomes_addFilter_iff valid per_zone ht pattern _).trans ?_
      rw [rules_eq]
      exact Filter.addFilter_same_iff valid _ pattern
  | remove_filter_rule type pattern per_zone =>
      rw [← becomes_rules_iff ht]
      refine (becomes_remFilter_iff fm per_zone ht pattern _).trans ?_
      rw [rules_eq]
      exact Filter.remFilter_same_iff _ pattern
  | edit_filter_rule type old_pattern new_pattern per_zone =>
      rw [← becomes_rules_iff ht]
      refine (becomes_editFilter_iff valid fm per_zone ht old_pattern new_pattern _).trans ?_
      rw [rules_eq]
      exact Filter.editFilter_same_iff valid _ old_pattern new_pattern

theorem handle_false_iff {req : FilterRequest} (ht : req.filter_type.toUInt8 < SIZEOF_FILTERS) :
    (fm.handle valid req).2 = some false ↔ ¬ req.Accepted valid (fm.target req) := by
  cases req with
  | add_filter_rule type pattern per_zone =>
      have ht : type.toUInt8 < SIZEOF_FILTERS := ht
      have hok : (fm.handle valid (.add_filter_rule type pattern per_zone)).2 =
          some ((fm.filterOf per_zone type.toUInt8).addFilter valid pattern 0 0).2 := by
        show some (fm.addFilter valid per_zone type.toUInt8 pattern).2 = _
        rw [addFilter_eq _ _ _ ht, Filters.addFilter_eq _ _ (validMask_of_lt ht)]
        rfl
      rw [hok, Option.some_inj, Filter.addFilter_false_iff]
      exact or_iff_not_and_not.trans (not_congr (and_congr_right' not_not))
  | remove_filter_rule type pattern per_zone =>
      exact iff_of_false (fun h => nomatch h) (not_not_intro trivial)
  | edit_filter_rule type old_pattern new_pattern per_zone =>
      have ht : type.toUInt8 < SIZEOF_FILTERS := ht
      have hmask := validMask_of_lt ht
      have hok : (fm.handle valid (.edit_filter_rule type old_pattern new_pattern per_zone)).2 =
          some (((fm.filterOf per_zone type.toUInt8).remFilter old_pattern).addFilter valid
            new_pattern 0 0).2 := by
        show some (fm.editFilter valid per_zone type.toUInt8 old_pattern new_pattern).2 = _
        unfold editFilter
        rw [if_neg (UInt8.not_le.mpr ht)]
        dsimp only
        rw [Filters.addFilter_eq _ _ hmask, Filters.filterOf_remFilter _ hmask]
        rfl
      rw [hok, Option.some_inj, Filter.addFilter_false_iff]
      exact or_iff_not_and_not.trans (not_congr (and_congr_right' not_not))

theorem handle_of_not_lt {req : FilterRequest}
    (ht : ¬ req.filter_type.toUInt8 < SIZEOF_FILTERS) : (fm.handle valid req).1 = fm := by
  have hnone : req.filter_type.toUInt8 ≥ SIZEOF_FILTERS := UInt8.not_lt.mp ht
  cases req with
  | add_filter_rule type pattern per_zone =>
      have hsame : fm.addFilter valid per_zone type.toUInt8 pattern = (fm, false) := if_pos hnone
      exact congrArg Prod.fst hsame
  | remove_filter_rule type pattern per_zone => exact if_pos hnone
  | edit_filter_rule type old_pattern new_pattern per_zone =>
      have hsame : fm.editFilter valid per_zone type.toUInt8 old_pattern new_pattern =
          (fm, false) := if_pos hnone
      exact congrArg Prod.fst hsame

/-- For every manager and every request: if it is refused the rules of all types, for the zone and
    for all zones, are as they were, exactly when the request is harmless. -/
theorem refused_unchanged_iff (fm : FilterMgr) (req : FilterRequest) :
    (fm.Refused valid req → fm.SameRules (fm.handle valid req).1) ↔ fm.Harmless valid req := by
  unfold Harmless
  by_cases ht : req.filter_type.toUInt8 < SIZEOF_FILTERS
  · rw [or_iff_right (not_not_intro ht), sameRules_handle_iff valid ht]
    unfold Refused
    rw [handle_false_iff valid ht, ← not_and_or, imp_iff_not_or, not_not]
    exact or_comm
  · rw [handle_of_not_lt valid ht]
    exact iff_of_true (fun _ _ _ _ => rfl) (Or.inl ht)

end

/-- The type 256 is none, and the rule is added to those of type 0. -/
theorem refused_type_adds :
    ¬ ∀ (valid : QRegularExpression → Bool) (fm : FilterMgr) (req : FilterRequest),
      fm.Refused valid req → fm.SameRules (fm.handle valid req).1 := by
  intro h
  have hsame := h (fun _ => true) {} (.add_filter_rule 256 "a".toList false)
    (Or.inl (by decide)) false 0 (by decide)
  exact absurd hsame (by decide)

end FilterMgr

end ShoweqDaemon.Rules
