/-
  When no two entries of the list are the same spell on the same target.

  `findSpell` takes the first entry of the spell that is on the target or that lost its target to a
  zone change and has the target's name. If the second kind stands in front of the first, the
  operation is done to the wrong entry: a cast makes it a second entry of the same buff, a removal
  takes it and leaves the buff. `Clear` says that this is not so; `exact_step` shows that it
  decides one operation, `buffs_unique_iff` carries it through a run.
-/
import ShoweqDaemon.Spell.Objects
import ShoweqDaemon.Spell.Freshness

namespace ShoweqDaemon.Buffs

open Spawns Machine

/-- Not the same spell on the same target, 0 being none. -/
def Apart (p q : UInt16 × UInt16) : Prop := p = q → p.2 = 0

/-- An entry of that spell on that target. -/
def SpellItem.Own (spellId targetId : UInt16) (i : SpellItem) : Prop :=
  i.spellId = spellId ∧ i.targetId = targetId

instance (spellId targetId : UInt16) (i : SpellItem) : Decidable (i.Own spellId targetId) :=
  inferInstanceAs (Decidable (_ ∧ _))

namespace SpellShell

/-- No two items are the same spell on the same target. -/
def Unique (s : SpellShell) : Prop := (view s).Pairwise Apart

/-- No entry of the spell that lost its target and has the name stands in front of one that is on the
    target. -/
def Clear (s : SpellShell) (spellId targetId : UInt16) (targetName : QString) : Prop :=
  s.m_spellList.Pairwise fun i j =>
    i.spellId = spellId ∧ i.targetId = 0 ∧ i.targetName = targetName → ¬ j.Own spellId targetId

/-- Spells on the caster alone never have a target. -/
def SelfOnly (t : Spells) (s : SpellShell) : Prop :=
  ∀ p ∈ view s, selfOnly (t.spell p.1) = true → p.2 = 0

/-- The shell after an event. -/
def step (t : Spells) (s : SpellShell) (e : ShellEvent) : SpellShell := (s.perform t e).1

/-- The spell, the target and its name that the operation looks up for a change or a removal. -/
def lookedUp (t : Spells) : ShellEvent → Option (UInt16 × UInt16 × QString)
  | .slot (.selfStartSpellCast sh c) =>
      if selfOnly (t.spell c.spellId) then none
      else some (c.spellId, c.targetId, nameOf sh c.targetId)
  | .slot (.buffLoad sh c) => some (c.spellid, sh.m_player.m_ID, sh.m_player.name)
  | .slot (.buff sh b fromClient) =>
      if fromClient = false ∧ b.changetype = 1 ∧ selfOnly (t.spell b.spellid) = false then
        some (b.spellid, b.spawnid, nameOf sh b.spawnid)
      else none
  | .slot (.action sh a) =>
      if a.type = 0xe7 then some (a.spell, a.target, nameOf sh a.target) else none
  | _ => none

/-- What is looked up for a target is found there, not in front of it. -/
def FindsOwn (t : Spells) (s : SpellShell) (e : ShellEvent) : Prop :=
  ∀ spellId targetId targetName, lookedUp t e = some (spellId, targetId, targetName) →
    targetId ≠ 0 → s.Clear spellId targetId targetName

/-- A removal packet of the server for a spell on a target leaves no such entry. -/
def Removes (t : Spells) (s : SpellShell) (e : ShellEvent) : Prop :=
  ∀ sh b, e = .slot (.buff sh b false) → b.changetype = 1 → b.spawnid ≠ 0 →
    ∀ i ∈ (s.step t e).m_spellList, ¬ i.Own b.spellid b.spawnid

/-! ## Lists that lose or keep entries -/

theorem unique_of_sublist {s s' : SpellShell} (h : (view s').Sublist (view s)) (hu : s.Unique) :
    s'.Unique := List.Pairwise.sublist h hu

theorem selfOnly_of_sublist {t : Spells} {s s' : SpellShell} (h : (view s').Sublist (view s))
    (hself : SelfOnly t s) : SelfOnly t s' := fun p hp => hself p (h.subset hp)

theorem removeTarget_sublist (id : UInt16) (kept rest : List SpellItem) :
    (removeTarget id kept rest).1.Sublist (kept ++ rest) := by
  induction rest generalizing kept with
  | nil => simp [removeTarget]
  | cons spell rest ih =>
      unfold removeTarget
      split
      · exact (ih kept).trans ((List.sublist_cons_self spell rest).append_left kept)
      · have h := ih (kept ++ [spell])
        rw [List.append_assoc] at h
        exact h

theorem tick_sublist (spellTimer : Int32) (kept rest : List SpellItem) :
    (view { m_spellList := (tick spellTimer kept rest).1 }).Sublist
      (view { m_spellList := kept ++ rest }) := by
  induction rest generalizing kept with
  | nil => simp [tick]
  | cons spell rest ih =>
      unfold tick
      split
      · refine (ih kept).trans (List.Sublist.map _ ?_)
        exact (List.sublist_cons_self spell rest).append_left kept
      · have h := ih (kept ++ [{ spell with duration := spell.duration - spellTimer }])
        rw [List.append_assoc] at h
        simp only [view, List.map_append, List.map_cons] at h ⊢
        exact h

theorem deleteSpell_sublist (s : SpellShell) (i : Nat) :
    (view (s.deleteSpell i).1).Sublist (view s) := by
  unfold deleteSpell
  split
  · exact List.Sublist.map _ (List.eraseIdx_sublist ..)
  · exact List.Sublist.refl _

/-- An entry changes, but not its spell and its target. -/
theorem changeAt_view {s : SpellShell} {i : Nat} {f : SpellItem → SpellItem}
    (hf : ∀ item ∈ s.m_spellList[i]?,
      (f item).spellId = item.spellId ∧ (f item).targetId = item.targetId) :
    view (s.changeAt i f).1 = view s := by
  unfold changeAt
  split
  · rename_i item hitem
    obtain ⟨hspell, htarget⟩ := hf item hitem
    obtain ⟨hlt, rfl⟩ := List.getElem?_eq_some_iff.mp hitem
    show List.map _ (s.m_spellList.set i _) = List.map _ s.m_spellList
    rw [List.map_set, hspell, htarget]
    refine List.ext_getElem? fun j => ?_
    rw [List.getElem?_set]
    split
    · rename_i hij
      subst hij
      simp [hlt]
    · rfl
  · rfl

/-! ## The entry that is found -/

/-- The test of `findSpell`. -/
def isMatch (spellId targetId : UInt16) (targetName : QString) (i : SpellItem) : Bool :=
  i.spellId = spellId && (i.targetId = targetId || (i.targetId = 0 && i.targetName = targetName))

theorem own_matches {spellId targetId : UInt16} {i : SpellItem} (h : i.Own spellId targetId)
    (targetName : QString) : isMatch spellId targetId targetName i = true := by
  simp [isMatch, h.1, h.2]

/-- The list around the place that `findSpell` gives. -/
theorem findSpell_split {s : SpellShell} {spellId targetId : UInt16} {targetName : QString} {i : Nat}
    (h : s.findSpell spellId targetId targetName = some i) :
    ∃ pre item post, s.m_spellList = pre ++ item :: post ∧ pre.length = i ∧
      isMatch spellId targetId targetName item = true ∧
      ∀ j ∈ pre, isMatch spellId targetId targetName j = false := by
  obtain ⟨hlt, hmatch, hpre⟩ := List.findIdx?_eq_some_iff_getElem.mp h
  refine ⟨s.m_spellList.take i, s.m_spellList[i], s.m_spellList.drop (i + 1), ?_,
    List.length_take_of_le (Nat.le_of_lt hlt), hmatch, ?_⟩
  · rw [← List.drop_eq_getElem_cons hlt, List.take_append_drop]
  · intro j hj
    obtain ⟨k, hk, rfl⟩ := List.getElem_of_mem hj
    rw [List.length_take] at hk
    rw [List.getElem_take]
    exact Bool.eq_false_iff.mpr (hpre k (by omega))

theorem findSpell_none {s : SpellShell} {spellId targetId : UInt16} {targetName : QString}
    (h : s.findSpell spellId targetId targetName = none) :
    ∀ j ∈ s.m_spellList, ¬ j.Own spellId targetId := by
  intro j hj hown
  have hnone := List.findIdx?_eq_none_iff.mp h j hj
  exact absurd (own_matches hown targetName) (ne_true_of_eq_false hnone)

/-- Without an entry on the target nothing can stand in front of it. -/
theorem clear_of_none {s : SpellShell} {spellId targetId : UInt16}
    (h : ∀ j ∈ s.m_spellList, ¬ j.Own spellId targetId) (targetName : QString) :
    s.Clear spellId targetId targetName :=
  List.Pairwise.imp_of_mem (R := fun _ _ => True) (fun _ hj _ _ => h _ hj)
    (List.pairwise_of_forall fun _ _ => trivial)

/-- The entry that is found is the one on the target exactly when none follows. -/
theorem clear_iff {s : SpellShell} (hu : s.Unique) {spellId targetId : UInt16}
    {targetName : QString} (hne : targetId ≠ 0) {pre post : List SpellItem} {item : SpellItem}
    (hlist : s.m_spellList = pre ++ item :: post)
    (hmatch : isMatch spellId targetId targetName item = true)
    (hpre : ∀ j ∈ pre, isMatch spellId targetId targetName j = false) :
    s.Clear spellId targetId targetName ↔ ∀ j ∈ post, ¬ j.Own spellId targetId := by
  have hpre' : ∀ j ∈ pre, ¬ j.Own spellId targetId :=
    fun j hj hown => absurd (own_matches hown targetName) (ne_true_of_eq_false (hpre j hj))
  have hspell : item.spellId = spellId := by
    simp only [isMatch, Bool.and_eq_true, decide_eq_true_eq] at hmatch
    exact hmatch.1
  have hkind : item.targetId = targetId ∨ item.targetId = 0 ∧ item.targetName = targetName := by
    simp only [isMatch, Bool.and_eq_true, Bool.or_eq_true, decide_eq_true_eq] at hmatch
    exact hmatch.2
  constructor
  · intro hclear j hj hown
    rcases hkind with howns | hzero
    · -- two entries on the target
      have hpair : (view s).Pairwise Apart := hu
      rw [view, hlist, List.map_append, List.map_cons, List.pairwise_append,
        List.pairwise_cons] at hpair
      have hzero := hpair.2.1.1 (j.spellId, j.targetId) (List.mem_map_of_mem hj)
        (Prod.ext (hspell.trans hown.1.symm) (howns.trans hown.2.symm))
      exact hne (howns.symm.trans hzero)
    · unfold Clear at hclear
      rw [hlist, List.pairwise_append, List.pairwise_cons] at hclear
      exact hclear.2.1.1 j hj ⟨hspell, hzero.1, hzero.2⟩ hown
  · intro hpost
    unfold Clear
    rw [hlist, List.pairwise_append, List.pairwise_cons]
    have hnone : ∀ (l : List SpellItem), (∀ j ∈ l, ¬ j.Own spellId targetId) →
        l.Pairwise fun i j => i.spellId = spellId ∧ i.targetId = 0 ∧ i.targetName = targetName →
          ¬ j.Own spellId targetId := by
      intro l hl
      have hclear : (SpellShell.mk l).Clear spellId targetId targetName := clear_of_none hl targetName
      exact hclear
    refine ⟨hnone pre hpre', ⟨fun j hj _ => hpost j hj, hnone post hpost⟩, fun i hi j hj hzero => ?_⟩
    -- an entry in front that lost its target would have been found
    have hfound : isMatch spellId targetId targetName i = true := by
      simp [isMatch, hzero.1, hzero.2.1, hzero.2.2]
    exact absurd hfound (ne_true_of_eq_false (hpre i hi))

/-! ## An entry gets a target -/

/-- One pair of the list is replaced by one that does not occur in front of it. -/
theorem pairwise_replace_iff {pre post : List (UInt16 × UInt16)} {p q : UInt16 × UInt16}
    (h : (pre ++ q :: post).Pairwise Apart) (hp : p ∉ pre) :
    (pre ++ p :: post).Pairwise Apart ↔ (p.2 ≠ 0 → p ∉ post) := by
  rw [List.pairwise_append, List.pairwise_cons] at h ⊢
  obtain ⟨hpre, ⟨-, hpost⟩, hcross⟩ := h
  constructor
  · rintro ⟨-, ⟨hnew, -⟩, -⟩ hne hmem
    exact hne (hnew p hmem rfl)
  · intro hnew
    refine ⟨hpre, ⟨fun r hr heq => ?_, hpost⟩, fun r hr r' hr' heq => ?_⟩
    · by_contra hne
      exact hnew hne (heq ▸ hr)
    · rcases List.mem_cons.mp hr' with rfl | hr'
      · exact absurd (heq ▸ hr) hp
      · exact hcross r hr r' (List.mem_cons_of_mem q hr') heq

theorem changeAt_split {s : SpellShell} {pre post : List SpellItem} {item : SpellItem}
    (hlist : s.m_spellList = pre ++ item :: post) (f : SpellItem → SpellItem) :
    (s.changeAt pre.length f).1.m_spellList = pre ++ f item :: post := by
  have hitem : s.m_spellList[pre.length]? = some item := by
    rw [hlist, List.getElem?_append_right (Nat.le_refl _), Nat.sub_self]
    rfl
  unfold changeAt
  rw [hitem]
  dsimp only
  rw [hlist, List.set_append_right _ _ (Nat.le_refl _), Nat.sub_self]
  rfl

theorem deleteSpell_split {s : SpellShell} {pre post : List SpellItem} {item : SpellItem}
    (hlist : s.m_spellList = pre ++ item :: post) :
    (s.deleteSpell pre.length).1.m_spellList = pre ++ post := by
  have hitem : s.m_spellList[pre.length]? = some item := by
    rw [hlist, List.getElem?_append_right (Nat.le_refl _), Nat.sub_self]
    rfl
  unfold deleteSpell
  rw [hitem]
  exact Owned.SpellShell.eraseIdx_at hlist

theorem unique_append {s : SpellShell} (hu : s.Unique) {f : SpellItem → SpellItem}
    (h : (f {}).targetId ≠ 0 → ∀ j ∈ s.m_spellList, ¬ j.Own (f {}).spellId (f {}).targetId) :
    (s.append f).1.Unique := by
  show (List.map _ (s.m_spellList ++ [f {}])).Pairwise Apart
  rw [List.map_append, List.pairwise_append]
  refine ⟨hu, List.pairwise_singleton _ _, fun p hp q hq heq => ?_⟩
  obtain ⟨j, hj, rfl⟩ := List.mem_map.mp hp
  have hq' : q = ((f {}).spellId, (f {}).targetId) := List.mem_singleton.mp hq
  have hpair := heq.trans hq'
  by_contra hne
  have htarget : j.targetId = (f {}).targetId := congrArg Prod.snd hpair
  exact h (htarget ▸ hne) j hj ⟨congrArg Prod.fst hpair, htarget⟩

section
variable {t : Spells} {s : SpellShell} {spellId targetId : UInt16} {targetName : QString}
  {f : SpellItem → SpellItem}

/-- The operation is an update for this spell and this target. -/
def Sets (t : Spells) (spellId targetId : UInt16) (f : SpellItem → SpellItem) : Prop :=
  ∀ item, (f item).spellId = spellId ∧
    (f item).targetId = if selfOnly (t.spell spellId) then item.targetId else targetId

theorem update_sets {t : Spells} {spellId : UInt16} {duration : Int32} {casterId : UInt16}
    {casterName : QString} {targetId : UInt16} {targetName : QString} :
    Sets t spellId targetId fun item => item.update t spellId (t.spell spellId) duration casterId
      casterName targetId targetName := fun _ => ⟨rfl, rfl⟩

/-- A found entry of a spell on the caster alone keeps its pair. -/
theorem changeAt_view_self (hf : Sets t spellId targetId f)
    (hself : selfOnly (t.spell spellId) = true) {i : Nat}
    (hspell : ∀ item ∈ s.m_spellList[i]?, item.spellId = spellId) :
    view (s.changeAt i f).1 = view s := by
  refine changeAt_view fun item hitem => ?_
  obtain ⟨hid, htarget⟩ := hf item
  rw [if_pos hself] at htarget
  exact ⟨hid.trans (hspell item hitem).symm, htarget⟩

theorem findSpell_spell {i : Nat} (h : s.findSpell spellId targetId targetName = some i) :
    ∀ item ∈ s.m_spellList[i]?, item.spellId = spellId := by
  obtain ⟨hlt, hmatch, -⟩ := List.findIdx?_eq_some_iff_getElem.mp h
  intro item hitem
  rw [List.getElem?_eq_getElem hlt] at hitem
  obtain rfl := Option.some.inj hitem
  simp only [Bool.and_eq_true, decide_eq_true_eq] at hmatch
  exact hmatch.1

theorem not_own_of_self (hself : SelfOnly t s) (hspell : selfOnly (t.spell spellId) = true)
    (hne : targetId ≠ 0) : ∀ j ∈ s.m_spellList, ¬ j.Own spellId targetId := by
  intro j hj hown
  have hzero := hself (j.spellId, j.targetId) (List.mem_map_of_mem hj) (hown.1 ▸ hspell)
  exact hne (hown.2.symm.trans hzero)

/-- A cast, a loaded buff or an action: the entry that is found, or a new one, gets the target. -/
theorem update_unique_iff (hself : SelfOnly t s) (hu : s.Unique) (hf : Sets t spellId targetId f) :
    (match s.findSpell spellId targetId targetName with
      | some i => s.changeAt i f
      | none => s.append f).1.Unique ↔
      (targetId ≠ 0 → s.Clear spellId targetId targetName) := by
  by_cases hspell : selfOnly (t.spell spellId) = true
  · refine iff_of_true ?_ fun hne => clear_of_none (not_own_of_self hself hspell hne) targetName
    cases hfind : s.findSpell spellId targetId targetName with
    | some i =>
        have hview : view (s.changeAt i f).1 = view s :=
          changeAt_view_self hf hspell (findSpell_spell hfind)
        show (view (s.changeAt i f).1).Pairwise Apart
        rw [hview]
        exact hu
    | none =>
        have hzero : (f {}).targetId = 0 := (hf {}).2.trans (if_pos hspell)
        exact unique_append hu fun hne => absurd hzero hne
  · have htarget : ∀ item, (f item).targetId = targetId :=
      fun item => (hf item).2.trans (if_neg hspell)
    cases hfind : s.findSpell spellId targetId targetName with
    | none =>
        have hnone := findSpell_none hfind
        refine iff_of_true (unique_append hu fun _ => ?_) fun _ => clear_of_none hnone targetName
        rw [(hf {}).1, htarget]
        exact hnone
    | some i =>
        obtain ⟨pre, item, post, hlist, rfl, hmatch, hpre⟩ := findSpell_split hfind
        have hview : view (s.changeAt pre.length f).1 = pre.map (fun i => (i.spellId, i.targetId)) ++
            (spellId, targetId) :: post.map fun i => (i.spellId, i.targetId) := by
          rw [view, changeAt_split hlist, List.map_append, List.map_cons, (hf item).1, htarget]
        have hold : (pre.map (fun i => (i.spellId, i.targetId)) ++
            (item.spellId, item.targetId) :: post.map fun i => (i.spellId, i.targetId)).Pairwise
              Apart := by
          have hpair : (view s).Pairwise Apart := hu
          rw [view, hlist, List.map_append, List.map_cons] at hpair
          exact hpair
        have hmem : ∀ l : List SpellItem, (spellId, targetId) ∈
            l.map (fun i => (i.spellId, i.targetId)) ↔ ∃ j ∈ l, j.Own spellId targetId := by
          intro l
          simp [SpellItem.Own]
        have hnew : (spellId, targetId) ∉ pre.map fun i => (i.spellId, i.targetId) := by
          rw [hmem]
          rintro ⟨j, hj, hown⟩
          exact absurd (own_matches hown targetName) (ne_true_of_eq_false (hpre j hj))
        unfold Unique
        dsimp only
        rw [hview, pairwise_replace_iff hold hnew]
        refine imp_congr_right fun hne => ?_
        rw [clear_iff hu hne hlist hmatch hpre, hmem]
        simp only [not_exists, not_and]

/-- A removal: the entry that is found goes. -/
theorem removal_iff (hu : s.Unique) (hne : targetId ≠ 0) :
    (∀ j ∈ (match s.findSpell spellId targetId targetName with
      | none => (s, [])
      | some i => s.deleteSpell i).1.m_spellList, ¬ j.Own spellId targetId) ↔
      s.Clear spellId targetId targetName := by
  cases hfind : s.findSpell spellId targetId targetName with
  | none =>
      have hnone := findSpell_none hfind
      exact iff_of_true hnone (clear_of_none hnone targetName)
  | some i =>
      obtain ⟨pre, item, post, hlist, rfl, hmatch, hpre⟩ := findSpell_split hfind
      dsimp only
      rw [clear_iff hu hne hlist hmatch hpre, deleteSpell_split hlist]
      constructor
      · exact fun h j hj => h j (List.mem_append_right pre hj)
      · intro h j hj hown
        rcases List.mem_append.mp hj with hj | hj
        · exact absurd (own_matches hown targetName) (ne_true_of_eq_false (hpre j hj))
        · exact h j hj hown

end

/-! ## Every operation -/

/-- Entries go, all targets go, or nothing happens to the pairs. -/
structure Thins (s s' : SpellShell) : Prop where
  unique : s.Unique → s'.Unique
  selfOnly : ∀ t, SelfOnly t s → SelfOnly t s'

theorem thins_of_sublist {s s' : SpellShell} (h : (view s').Sublist (view s)) : Thins s s' :=
  ⟨unique_of_sublist h, fun _ => selfOnly_of_sublist h⟩

theorem thins_of_view {s s' : SpellShell} (h : view s' = view s) : Thins s s' :=
  thins_of_sublist (by rw [h])

theorem thins_zoneChanged (s : SpellShell) : Thins s s.zoneChanged.1 := by
  have hzero : ∀ p ∈ view s.zoneChanged.1, p.2 = 0 := by
    intro p hp
    obtain ⟨item, hitem, rfl⟩ := List.mem_map.mp hp
    obtain ⟨item', -, rfl⟩ := List.mem_map.mp hitem
    rfl
  refine ⟨fun _ => ?_, fun t _ p hp _ => hzero p hp⟩
  exact List.Pairwise.imp_of_mem (R := fun _ _ => True) (fun hp _ _ _ => hzero _ hp)
    (List.pairwise_of_forall fun _ _ => trivial)

theorem thins_clear (s : SpellShell) : Thins s s.clear.1 := thins_of_sublist (List.nil_sublist _)

theorem thins_killSpawn (s : SpellShell) (sh : SpawnShell) (deceased : Item) :
    Thins s (s.killSpawn sh deceased).1 := by
  unfold killSpawn
  split
  · exact thins_clear s
  · exact thins_of_sublist ((removeTarget_sublist deceased.id [] s.m_spellList).map _)

theorem thins_buff_else {s : SpellShell} {i : Nat} (duration : UInt16) :
    Thins s (s.changeAt i fun item => { item with duration := duration.toUInt32.toInt32 * 6 }).1 :=
  thins_of_view (changeAt_view fun _ _ => ⟨rfl, rfl⟩)

/-- Updates never give a target to a spell on the caster alone. -/
theorem update_selfOnly {t : Spells} {s : SpellShell} (hself : SelfOnly t s) {spellId targetId : UInt16}
    {f : SpellItem → SpellItem} (hf : Sets t spellId targetId f) {i : Option Nat}
    (hspell : ∀ j ∈ i, ∀ item ∈ s.m_spellList[j]?, item.spellId = spellId) :
    SelfOnly t (match i with
      | some i => s.changeAt i f
      | none => s.append f).1 := by
  have hnew : ∀ item : SpellItem, (item.spellId = spellId → selfOnly (t.spell spellId) = true →
      item.targetId = 0) → item.spellId = spellId ∨ item = {} →
      selfOnly (t.spell (f item).spellId) = true → (f item).targetId = 0 := by
    intro item hitem hkind hs
    rw [(hf item).1] at hs
    rw [(hf item).2, if_pos hs]
    rcases hkind with hid | rfl
    · exact hitem hid hs
    · rfl
  cases i with
  | none =>
      intro p hp
      have hp' : p ∈ (s.m_spellList ++ [f {}]).map fun i => (i.spellId, i.targetId) := hp
      rw [List.map_append, List.mem_append] at hp'
      rcases hp' with hp' | hp'
      · exact hself p hp'
      · obtain rfl := List.mem_singleton.mp hp'
        exact hnew {} (fun _ _ => rfl) (Or.inr rfl)
  | some i =>
      cases hitem : s.m_spellList[i]? with
      | none =>
          have hsame : s.changeAt i f = (s, []) := by
            unfold changeAt
            rw [hitem]
          dsimp only
          rw [hsame]
          exact hself
      | some item =>
          have hid : item.spellId = spellId := hspell i rfl item hitem
          have hlist : (s.changeAt i f).1.m_spellList = s.m_spellList.set i (f item) := by
            unfold changeAt
            rw [hitem]
          intro p hp
          obtain ⟨j, hj, rfl⟩ := List.mem_map.mp hp
          rw [hlist] at hj
          rcases List.mem_or_eq_of_mem_set hj with hj | rfl
          · exact hself _ (List.mem_map_of_mem hj)
          · have hold : item.spellId = spellId → selfOnly (t.spell spellId) = true →
                item.targetId = 0 := fun hid hs => hself (item.spellId, item.targetId)
              (List.mem_map_of_mem (List.mem_of_getElem? hitem)) (hid ▸ hs)
            exact hnew item hold (Or.inl hid)

theorem findSpellById_spell {s : SpellShell} {spellId : UInt16} :
    ∀ j ∈ s.findSpellById spellId, ∀ item ∈ s.m_spellList[j]?, item.spellId = spellId := by
  intro j hj item hitem
  obtain ⟨hlt, hmatch, -⟩ := List.findIdx?_eq_some_iff_getElem.mp hj
  rw [List.getElem?_eq_getElem hlt] at hitem
  obtain rfl := Option.some.inj hitem
  exact of_decide_eq_true hmatch

/-- The cast of a spell on the caster alone: no target is set. -/
theorem castSelf_unique {t : Spells} {s : SpellShell} (hu : s.Unique) {spellId targetId : UInt16}
    (hspell : selfOnly (t.spell spellId) = true) {f : SpellItem → SpellItem}
    (hf : Sets t spellId targetId f) :
    (match s.findSpellById spellId with
      | some i => s.changeAt i f
      | none => s.append f).1.Unique := by
  cases hfind : s.findSpellById spellId with
  | some i =>
      have hview : view (s.changeAt i f).1 = view s :=
        changeAt_view_self hf hspell (findSpellById_spell i hfind)
      show (view (s.changeAt i f).1).Pairwise Apart
      rw [hview]
      exact hu
  | none =>
      have hzero : (f {}).targetId = 0 := (hf {}).2.trans (if_pos hspell)
      exact unique_append hu fun hne => absurd hzero hne

section
variable {t : Spells} {s : SpellShell}

/-- Only `buff` removes an entry on request. -/
theorem removes_of_ne {e : ShellEvent} (h : ∀ sh b, e ≠ .slot (.buff sh b false)) :
    Removes t s e := fun sh b he => absurd he (h sh b)

theorem findsOwn_of_none {e : ShellEvent} (h : lookedUp t e = none) : FindsOwn t s e :=
  fun _ _ _ he => nomatch h.symm.trans he

theorem findsOwn_some {e : ShellEvent} {spellId targetId : UInt16} {targetName : QString}
    (h : lookedUp t e = some (spellId, targetId, targetName)) :
    FindsOwn t s e ↔ (targetId ≠ 0 → s.Clear spellId targetId targetName) := by
  refine ⟨fun hfinds => hfinds spellId targetId targetName h, fun hclear _ _ _ he => ?_⟩
  obtain ⟨rfl, rfl, rfl⟩ : spellId = _ ∧ targetId = _ ∧ targetName = _ := by
    simpa using h.symm.trans he
  exact hclear

/-- An operation that looks nothing up and leaves the pairs apart. -/
theorem exact_of_thins {e : ShellEvent} (h : Thins s (s.step t e)) (hu : s.Unique)
    (hremoves : Removes t s e) (hnone : lookedUp t e = none) :
    (s.step t e).Unique ∧ Removes t s e ↔ FindsOwn t s e :=
  iff_of_true ⟨h.unique hu, hremoves⟩ (findsOwn_of_none hnone)

theorem exact_selfStartSpellCast (hself : SelfOnly t s) (sh : SpawnShell) (c : StartCastStruct) :
    SelfOnly t (s.selfStartSpellCast t sh c).1 ∧ (s.Unique →
      ((s.selfStartSpellCast t sh c).1.Unique ↔ FindsOwn t s (.slot (.selfStartSpellCast sh c)))) := by
  unfold selfStartSpellCast
  dsimp only
  by_cases hspell : selfOnly (t.spell c.spellId) = true
  · have hnone : lookedUp t (.slot (.selfStartSpellCast sh c)) = none := if_pos hspell
    simp only [if_pos hspell]
    exact ⟨update_selfOnly hself update_sets findSpellById_spell,
      fun hu => iff_of_true (castSelf_unique hu hspell update_sets) (findsOwn_of_none hnone)⟩
  · have hsome : lookedUp t (.slot (.selfStartSpellCast sh c)) =
      some (c.spellId, c.targetId, nameOf sh c.targetId) := if_neg hspell
    simp only [if_neg hspell]
    rw [findsOwn_some hsome]
    exact ⟨update_selfOnly hself update_sets fun j hj => findSpell_spell hj,
      fun hu => update_unique_iff hself hu update_sets⟩

theorem exact_buffLoad (hself : SelfOnly t s) (sh : SpawnShell) (c : SpellBuff) :
    SelfOnly t (s.buffLoad t sh c).1 ∧ (s.Unique →
      ((s.buffLoad t sh c).1.Unique ↔ FindsOwn t s (.slot (.buffLoad sh c)))) := by
  rw [findsOwn_some rfl]
  unfold buffLoad
  dsimp only
  exact ⟨update_selfOnly hself update_sets fun j hj => findSpell_spell hj,
    fun hu => update_unique_iff hself hu update_sets⟩

theorem exact_action (hself : SelfOnly t s) (sh : SpawnShell) (a : ActionStruct) :
    SelfOnly t (s.action t sh a).1 ∧ (s.Unique →
      ((s.action t sh a).1.Unique ↔ FindsOwn t s (.slot (.action sh a)))) := by
  unfold action
  dsimp only
  by_cases htype : a.type = 0xe7
  · have hsome : lookedUp t (.slot (.action sh a)) = some (a.spell, a.target, nameOf sh a.target) :=
      if_pos htype
    rw [if_neg (not_not_intro htype), findsOwn_some hsome]
    have hupdate := fun (hu : s.Unique) f (hf : Sets t a.spell a.target f) =>
      @update_unique_iff t s a.spell a.target (nameOf sh a.target) f hself hu hf
    cases hfind : s.findSpell a.spell a.target (nameOf sh a.target) with
    | some i =>
        rw [hfind] at hupdate
        exact ⟨update_selfOnly hself update_sets (i := some i) fun j hj =>
          findSpell_spell (hfind.trans hj), fun hu => hupdate hu _ update_sets⟩
    | none =>
        rw [hfind] at hupdate
        dsimp only
        split
        · exact ⟨update_selfOnly hself update_sets (i := none) fun j hj => (nomatch hj),
            fun hu => hupdate hu _ update_sets⟩
        · exact ⟨hself, fun hu => iff_of_true hu fun _ => clear_of_none (findSpell_none hfind) _⟩
  · have hnone : lookedUp t (.slot (.action sh a)) = none := if_neg htype
    rw [if_pos htype]
    exact ⟨hself, fun hu => iff_of_true hu (findsOwn_of_none hnone)⟩

theorem thins_buff (sh : SpawnShell) (b : BuffStruct) (fromClient : Bool) :
    Thins s (s.buff t sh b fromClient).1 := by
  unfold buff
  dsimp only
  split
  · exact thins_of_view rfl
  · split
    · exact thins_of_view rfl
    · split
      · exact thins_of_view rfl
      · split
        · exact thins_of_sublist (deleteSpell_sublist s _)
        · split
          · exact thins_buff_else b.duration
          · exact thins_of_view rfl

theorem not_second_packet (b : BuffStruct) : ¬ b.spellid.toUInt32 = 0xffffffff := by
  intro h
  have hlt : b.spellid.toUInt32.toNat < 2 ^ 16 := b.spellid.toNat_lt
  rw [h] at hlt
  exact absurd hlt (by decide)

theorem removes_buff_iff (hself : SelfOnly t s) (hu : s.Unique) (sh : SpawnShell) (b : BuffStruct)
    (fromClient : Bool) :
    Removes t s (.slot (.buff sh b fromClient)) ↔
      FindsOwn t s (.slot (.buff sh b fromClient)) := by
  by_cases hremoval : fromClient = false ∧ b.changetype = 1
  · obtain ⟨rfl, htype⟩ := hremoval
    have hremoves : Removes t s (.slot (.buff sh b false)) ↔ (b.spawnid ≠ 0 →
        ∀ j ∈ (s.buff t sh b false).1.m_spellList, ¬ j.Own b.spellid b.spawnid) := by
      refine ⟨fun h hne => h sh b rfl htype hne, fun h sh' b' he _ hne => ?_⟩
      obtain ⟨rfl, rfl⟩ : sh = sh' ∧ b = b' := by
        simpa using he
      exact h hne
    rw [hremoves]
    unfold buff
    dsimp only
    rw [if_neg Bool.false_ne_true, if_neg (not_second_packet b)]
    by_cases hspell : selfOnly (t.spell b.spellid) = true
    · have hnone : lookedUp t (.slot (.buff sh b false)) = none := if_neg fun h => by
        rw [h.2.2] at hspell
        cases hspell
      refine iff_of_true (fun hne j hj hown => ?_) (findsOwn_of_none hnone)
      have hthins : Thins s (s.buff t sh b false).1 := thins_buff sh b false
      unfold buff at hthins
      dsimp only at hthins
      rw [if_neg Bool.false_ne_true, if_neg (not_second_packet b)] at hthins
      exact not_own_of_self (hthins.selfOnly t hself) hspell hne j hj hown
    · have hsome : lookedUp t (.slot (.buff sh b false)) =
          some (b.spellid, b.spawnid, nameOf sh b.spawnid) :=
        if_pos ⟨rfl, htype, Bool.eq_false_iff.mpr hspell⟩
      rw [findsOwn_some hsome]
      refine imp_congr_right fun hne => ?_
      rw [if_neg hspell, ← removal_iff hu hne]
      cases s.findSpell b.spellid b.spawnid (nameOf sh b.spawnid) with
      | none => exact Iff.rfl
      | some i => simp only [if_pos htype]
  · have hnone : lookedUp t (.slot (.buff sh b fromClient)) = none :=
      if_neg fun h => hremoval ⟨h.1, h.2.1⟩
    refine iff_of_true (fun sh' b' he htype => ?_) (findsOwn_of_none hnone)
    obtain ⟨-, rfl, rfl⟩ : sh = sh' ∧ b = b' ∧ fromClient = false := by
      simpa using he
    exact absurd ⟨rfl, htype⟩ hremoval

/-- One operation keeps the entries apart, and removes what it is to remove, exactly when it finds
    what it looks up in its place. -/
theorem exact_step (hself : SelfOnly t s) (hu : s.Unique) (e : ShellEvent) :
    (s.step t e).Unique ∧ Removes t s e ↔ FindsOwn t s e := by
  cases e with
  | deleteSpell i =>
      exact exact_of_thins (thins_of_sublist (deleteSpell_sublist s i)) hu
        (removes_of_ne fun _ _ h => nomatch h) rfl
  | slot e =>
      cases e with
      | selfStartSpellCast sh c =>
          have hremoves : Removes t s (.slot (.selfStartSpellCast sh c)) := removes_of_ne fun _ _ h => nomatch h
          exact (and_iff_left hremoves).trans ((exact_selfStartSpellCast hself sh c).2 hu)
      | buffLoad sh c =>
          have hremoves : Removes t s (.slot (.buffLoad sh c)) := removes_of_ne fun _ _ h => nomatch h
          exact (and_iff_left hremoves).trans ((exact_buffLoad hself sh c).2 hu)
      | action sh a =>
          have hremoves : Removes t s (.slot (.action sh a)) := removes_of_ne fun _ _ h => nomatch h
          exact (and_iff_left hremoves).trans ((exact_action hself sh a).2 hu)
      | buff sh b fromClient =>
          exact (and_iff_right ((thins_buff sh b fromClient).unique hu)).trans
            (removes_buff_iff hself hu sh b fromClient)
      | spellMessage str =>
          exact exact_of_thins (thins_of_view (view_spellMessage s str)) hu
            (removes_of_ne fun _ _ h => nomatch h) rfl
      | zoneChanged =>
          exact exact_of_thins (thins_zoneChanged s) hu (removes_of_ne fun _ _ h => nomatch h) rfl
      | killSpawn sh deceased =>
          exact exact_of_thins (thins_killSpawn s sh deceased) hu
            (removes_of_ne fun _ _ h => nomatch h) rfl
      | clear => exact exact_of_thins (thins_clear s) hu (removes_of_ne fun _ _ h => nomatch h) rfl
      | timeout spellTimer =>
          exact exact_of_thins (thins_of_sublist (tick_sublist spellTimer [] s.m_spellList)) hu
            (removes_of_ne fun _ _ h => nomatch h) rfl

theorem step_selfOnly (hself : SelfOnly t s) (e : ShellEvent) :
    SelfOnly t (s.step t e) := by
  cases e with
  | deleteSpell i => exact selfOnly_of_sublist (deleteSpell_sublist s i) hself
  | slot e =>
      cases e with
      | selfStartSpellCast sh c => exact (exact_selfStartSpellCast hself sh c).1
      | buffLoad sh c => exact (exact_buffLoad hself sh c).1
      | action sh a => exact (exact_action hself sh a).1
      | buff sh b fromClient => exact (thins_buff sh b fromClient).selfOnly t hself
      | spellMessage str => exact (thins_of_view (view_spellMessage s str)).selfOnly t hself
      | zoneChanged => exact (thins_zoneChanged s).selfOnly t hself
      | killSpawn sh deceased => exact (thins_killSpawn s sh deceased).selfOnly t hself
      | clear => exact (thins_clear s).selfOnly t hself
      | timeout spellTimer => exact selfOnly_of_sublist (tick_sublist spellTimer [] _) hself

end

end SpellShell

/-- In every state of a run no two entries are the same spell on the same target, and every removal
    packet removes its buff, exactly when no cast, loaded buff, action or removal finds an entry that
    lost its target in front of the one it is for. -/
theorem buffs_unique_iff (t : Spells) (es : List ShellEvent) :
    (∀ s ∈ trace (SpellShell.step t) { m_spellList := [] } es, s.Unique) ∧
        StepsMeet (SpellShell.step t) (SpellShell.Removes t) { m_spellList := [] } es ↔
      StepsMeet (SpellShell.step t) (SpellShell.FindsOwn t) { m_spellList := [] } es := by
  have hself : ∀ (s : SpellShell) e, SpellShell.SelfOnly t s → SpellShell.SelfOnly t (s.step t e) :=
    fun _ e h => SpellShell.step_selfOnly h e
  have hempty : SpellShell.SelfOnly t { m_spellList := [] } := fun _ hp => (nomatch hp)
  exact trace_forall_and_iff_stepsMeet (SpellShell.step t) hself
    (fun _ e h hu => SpellShell.exact_step h hu e) hempty List.Pairwise.nil es

/-- A cast on a mob "x", a zone change, a cast on the mob with the same id before its spawn is known
    and one after that: the first entry gets the target of the second. -/
theorem forgotten_target_twice :
    ¬ ∀ (t : Spells) (es : List ShellEvent),
      ∀ s ∈ trace (SpellShell.step t) { m_spellList := [] } es, s.Unique := by
  intro h
  let t : Spells := { m_maxSpell := 0, m_spells := fun _ => none, spell_name := fun _ => [] }
  let empty := SpawnShell.init { addr := 0, m_ID := 9 } .none (fun _ _ => []) true
  let named := (empty.newSpawn .ascii { spawnId := 5, name := [120] }).1
  let cast (sh : SpawnShell) : ShellEvent :=
    .slot (.selfStartSpellCast sh { spellId := 17, targetId := 5 })
  let es := [cast named, .slot .zoneChanged, cast empty, cast named]
  have hend := h t es _ ((mem_trace_iff _ _ _ _).mpr ⟨es, [], (List.append_nil es).symm, rfl⟩)
  have hview : view (es.foldl (SpellShell.step t) { m_spellList := [] }) = [(17, 5), (17, 5)] := by
    decide +kernel
  unfold SpellShell.Unique at hend
  rw [hview, List.pairwise_cons] at hend
  exact absurd (hend.1 (17, 5) List.mem_cons_self rfl) (by decide)

end ShoweqDaemon.Buffs
