/-
  `Spell::calcDuration` over all levels of the caster, and the first tick of what was cast.

  Seven formulas count the level and are cut at the argument (`levelTicks`), the others give the
  same number of ticks for every level (`fixedTicks`). Arguments are kept in sixteen signed bits,
  so one from 32768 on is negative, and so is what formula 50 means as a permanent spell: 65535.
  `lasting_iff` says for which spells the duration is what it should be, and that these are still
  there after the first tick.
-/
import ShoweqDaemon.Spell.SpellShell

namespace ShoweqDaemon.Buffs

open Spawns

/-! ## Ticks -/

/-- The ticks of a formula that counts the caster's level. -/
def levelTicks : ℤ → Option (ℕ → ℕ)
  | 1 | 6 => some fun level => (level + 1) / 2
  | 2 => some fun level => (6 * level + 5) / 10
  | 7 => some fun level => level
  | 8 => some fun level => level + 10
  | 9 => some fun level => level * 2 + 10
  | 10 => some fun level => level * 3 + 10
  | _ => none

/-- The ticks of a formula that does not. -/
def fixedTicks (formula argument : ℤ) : ℤ :=
  match formula with
  | 0 => 0
  | 5 => 3
  | 50 => -1
  | 3600 => 3600
  | _ => argument

/-- They grow with the level, and level 0 or level 1 has the fewest that are not none. -/
theorem levelTicks_spec {formula : ℤ} {ticks : ℕ → ℕ} (h : levelTicks formula = some ticks) :
    (∀ l, ticks l ≤ 3 * l + 10) ∧ (∀ l l', l ≤ l' → ticks l ≤ ticks l') ∧
      (ticks 0 = 0 ∧ ticks 1 = 1 ∨ ticks 0 = 10) := by
  unfold levelTicks at h
  split at h <;> cases h <;> dsimp only <;>
    exact ⟨fun l => by omega, fun l l' hl => by omega, by decide⟩

namespace Spell

variable (s : Spell)

/-- `min` of the argument and a number of ticks. -/
theorem limit_toInt (argument : Int16) {n : ℕ} (h : n ≤ 775) :
    (if argument < Int16.ofNat n then argument else Int16.ofNat n).toInt =
      min argument.toInt n := by
  have hn : (Int16.ofNat n).toInt = n := Int16.toInt_ofNat_of_lt (by omega)
  have hlt : argument < Int16.ofNat n ↔ argument.toInt < n := by
    rw [Int16.lt_iff_toInt_lt, hn]
  split
  · rename_i h
    exact (min_eq_left (Int.le_of_lt (hlt.mp h))).symm
  · rename_i h
    rw [hn, min_eq_right (Int.not_lt.mp (mt hlt.mpr h))]

theorem calcDuration_level {ticks : ℕ → ℕ}
    (h : levelTicks s.m_buffDurationFormula.toInt = some ticks) (level : UInt8) :
    (s.calcDuration level).toInt = min s.m_buffDurationArgument.toInt (ticks level.toNat) := by
  have hbound : ticks level.toNat ≤ 775 := by
    have hticks := (levelTicks_spec h).1 level.toNat
    have hlevel := level.toNat_lt
    omega
  unfold levelTicks at h
  split at h <;> cases h <;> rename_i hformula <;> unfold calcDuration <;>
    simp only [hformula] <;> exact limit_toInt _ hbound

theorem calcDuration_fixed (h : levelTicks s.m_buffDurationFormula.toInt = none) (level : UInt8) :
    (s.calcDuration level).toInt =
      fixedTicks s.m_buffDurationFormula.toInt s.m_buffDurationArgument.toInt := by
  unfold levelTicks at h
  split at h <;> cases h
  unfold calcDuration fixedTicks
  split <;> simp_all

/-! ## Spells whose durations are right -/

/-- The formula is not the permanent one, and the argument is not negative unless the formula does
    without it. -/
structure Plain : Prop where
  formula : s.m_buffDurationFormula.toInt ≠ 50
  argument : s.m_buffDurationFormula.toInt ∈ [0, 5, 3600] ∨ 0 ≤ s.m_buffDurationArgument.toInt

/-- The least number of ticks that is not zero. -/
def shortest : ℤ :=
  match levelTicks s.m_buffDurationFormula.toInt with
  | some ticks => min s.m_buffDurationArgument.toInt (if ticks 0 = 0 then 1 else 10)
  | none => fixedTicks s.m_buffDurationFormula.toInt s.m_buffDurationArgument.toInt

/-- The greatest number of ticks over all levels. -/
def longest : ℤ :=
  match levelTicks s.m_buffDurationFormula.toInt with
  | some ticks => min s.m_buffDurationArgument.toInt (ticks 255)
  | none => fixedTicks s.m_buffDurationFormula.toInt s.m_buffDurationArgument.toInt

/-- A tick of `spellTimer` seconds is shorter than the shortest duration and the six seconds that
    an item may be late, and does not overflow from the longest. -/
def TimerFits (spellTimer : Int32) : Prop :=
  s.shortest = 0 ∨
    spellTimer.toInt < 6 * s.shortest + 6 ∧ 6 * s.longest - 2 ^ 31 < spellTimer.toInt

theorem fixedTicks_nonneg_iff :
    0 ≤ fixedTicks s.m_buffDurationFormula.toInt s.m_buffDurationArgument.toInt ↔ s.Plain := by
  have hplain : s.Plain ↔ s.m_buffDurationFormula.toInt ≠ 50 ∧
      (s.m_buffDurationFormula.toInt ∈ [0, 5, 3600] ∨ 0 ≤ s.m_buffDurationArgument.toInt) :=
    ⟨fun h => ⟨h.formula, h.argument⟩, fun h => ⟨h.1, h.2⟩⟩
  rw [hplain]
  unfold fixedTicks
  split
  all_goals simp_all

/-- The formulas that count the level need the argument. -/
theorem levelTicks_formula {formula : ℤ} {ticks : ℕ → ℕ} (h : levelTicks formula = some ticks) :
    formula ≠ 50 ∧ formula ∉ [0, 5, 3600] := by
  unfold levelTicks at h
  split at h <;> cases h <;> decide

/-- One level is enough to tell. -/
theorem nonneg_iff (level : UInt8) : 0 ≤ (s.calcDuration level).toInt ↔ s.Plain := by
  cases h : levelTicks s.m_buffDurationFormula.toInt with
  | none => rw [calcDuration_fixed s h, fixedTicks_nonneg_iff]
  | some ticks =>
      obtain ⟨hformula, hnot⟩ := levelTicks_formula h
      rw [calcDuration_level s h]
      constructor
      · exact fun hmin => ⟨hformula, Or.inr (by omega)⟩
      · intro hplain
        have hargument := hplain.argument.resolve_left hnot
        omega

variable {s}

/-- Every level gives no ticks or at least the shortest number, some level just that one. -/
theorem shortest_spec (h : s.Plain) :
    (∀ level, (s.calcDuration level).toInt = 0 ∨
      s.shortest ≠ 0 ∧ s.shortest ≤ (s.calcDuration level).toInt) ∧
      ∃ level, (s.calcDuration level).toInt = s.shortest := by
  unfold shortest
  cases hticks : levelTicks s.m_buffDurationFormula.toInt with
  | none =>
      have hfixed := calcDuration_fixed s hticks
      refine ⟨fun level => ?_, 0, hfixed 0⟩
      rw [hfixed]
      dsimp only
      omega
  | some ticks =>
      have hargument := h.argument.resolve_left (levelTicks_formula hticks).2
      obtain ⟨-, hmono, hfirst⟩ := levelTicks_spec hticks
      have hlevel := calcDuration_level s hticks
      dsimp only
      rcases hfirst with ⟨hzero, hone⟩ | hten
      · rw [if_pos hzero]
        refine ⟨fun level => ?_, 1, ?_⟩
        · have hpos := hmono 1 level.toNat
          rw [hlevel]
          rcases Nat.eq_zero_or_pos level.toNat with hl | hl
          · rw [hl, hzero]
            omega
          · have hticks1 := hpos hl
            omega
        · rw [hlevel]
          exact congrArg (fun n : ℕ => min s.m_buffDurationArgument.toInt n) hone
      · rw [if_neg (by omega)]
        refine ⟨fun level => ?_, 0, ?_⟩
        · have hticks0 := hmono 0 level.toNat (Nat.zero_le _)
          rw [hlevel]
          omega
        · rw [hlevel]
          exact congrArg (fun n : ℕ => min s.m_buffDurationArgument.toInt n) hten

theorem longest_spec :
    (∀ level, (s.calcDuration level).toInt ≤ s.longest) ∧
      (s.calcDuration 255).toInt = s.longest := by
  unfold longest
  cases hticks : levelTicks s.m_buffDurationFormula.toInt with
  | none =>
      exact ⟨fun level => le_of_eq (calcDuration_fixed s hticks level),
        calcDuration_fixed s hticks 255⟩
  | some ticks =>
      have hlevel := calcDuration_level s hticks
      refine ⟨fun level => ?_, hlevel 255⟩
      have hmost := (levelTicks_spec hticks).2.1 level.toNat 255 (Nat.le_of_lt_succ level.toNat_lt)
      rw [hlevel]
      dsimp only
      omega

end Spell

/-! ## The first tick -/

namespace SpellShell

/-- The item that a handler announced, a new one or one that it changed. -/
def Entered (emits : List Emit) (item : SpellItem) : Prop :=
  ∃ l, emits = [Emit.mk (.addSpell item) l] ∨ emits = [Emit.mk (.changeSpell item) l]

/-- A handler announced that the item goes. -/
def Removed (emits : List Emit) (item : SpellItem) : Prop :=
  ∃ l, Emit.mk (.delSpell item) l ∈ emits

theorem removed_tick_iff (spellTimer : Int32) (kept rest : List SpellItem) (item : SpellItem) :
    Removed (tick spellTimer kept rest).2 item ↔
      item ∈ rest ∧ expires spellTimer item = true := by
  induction rest generalizing kept with
  | nil => simp [Removed, tick]
  | cons spell rest ih =>
      by_cases hexp : expires spellTimer spell = true
      · have hrest := ih kept
        unfold Removed at hrest ⊢
        simp only [tick, hexp, if_true, List.mem_cons, Emit.mk.injEq, SpellSignal.delSpell.injEq,
          exists_or, hrest]
        constructor
        · rintro (⟨_, rfl, -⟩ | ⟨hmem, hitem⟩)
          · exact ⟨Or.inl rfl, hexp⟩
          · exact ⟨Or.inr hmem, hitem⟩
        · rintro ⟨rfl | hmem, hitem⟩
          · exact Or.inl ⟨_, rfl, rfl⟩
          · exact Or.inr ⟨hmem, hitem⟩
      · have hrest := ih (kept ++ [{ spell with duration := spell.duration - spellTimer }])
        unfold Removed at hrest ⊢
        simp only [tick, hexp, if_false, Bool.false_eq_true, List.mem_cons, Emit.mk.injEq,
          reduceCtorEq, false_and, false_or, hrest]
        refine ⟨fun h => ⟨Or.inr h.1, h.2⟩, ?_⟩
        rintro ⟨rfl | hmem, hitem⟩
        · exact absurd hitem hexp
        · exact ⟨hmem, hitem⟩

theorem entered_changeAt {s : SpellShell} {i : ℕ} {f : SpellItem → SpellItem} {item : SpellItem}
    (h : Entered (s.changeAt i f).2 item) :
    item ∈ (s.changeAt i f).1.m_spellList ∧ ∃ old, item = f old := by
  unfold changeAt at h ⊢
  cases hold : s.m_spellList[i]? with
  | none =>
      rw [hold] at h
      obtain ⟨l, h | h⟩ := h <;> nomatch h
  | some old =>
      rw [hold] at h
      obtain ⟨hi, -⟩ := List.getElem?_eq_some_iff.mp hold
      obtain ⟨l, h | h⟩ := h <;> cases h
      exact ⟨List.mem_set hi _, old, rfl⟩

theorem entered_append {s : SpellShell} {f : SpellItem → SpellItem} {item : SpellItem}
    (h : Entered (s.append f).2 item) :
    item ∈ (s.append f).1.m_spellList ∧ ∃ old, item = f old := by
  obtain ⟨l, h | h⟩ := h <;> cases h
  exact ⟨List.mem_append_right _ List.mem_cons_self, {}, rfl⟩

variable {t : Spells} {sh : SpawnShell} {s : SpellShell} {c : StartCastStruct} {spell : Spell}

/-- What a cast enters is in the list, with six seconds for each tick. -/
theorem entered_selfStartSpellCast (hspell : t.spell c.spellId = some spell) {item : SpellItem}
    (h : Entered (s.selfStartSpellCast t sh c).2 item) :
    item ∈ (s.selfStartSpellCast t sh c).1.m_spellList ∧
      item.duration =
        (spell.calcDuration sh.m_player.level.toUInt32.toUInt8).toInt32 * 6 := by
  unfold selfStartSpellCast at h ⊢
  simp only [hspell] at h ⊢
  split at h
  · obtain ⟨hmem, old, rfl⟩ := entered_changeAt h
    exact ⟨hmem, rfl⟩
  · obtain ⟨hmem, old, rfl⟩ := entered_append h
    exact ⟨hmem, rfl⟩

/-- Into an empty list a cast enters a new item. -/
theorem entered_empty (t : Spells) (sh : SpawnShell) (c : StartCastStruct) :
    ∃ item, Entered ((SpellShell.mk []).selfStartSpellCast t sh c).2 item := by
  unfold selfStartSpellCast
  dsimp only
  split
  · rename_i i hfound
    simp [findSpellById, findSpell] at hfound
  · exact ⟨_, _, Or.inl rfl⟩

end SpellShell

/-- An item of so many ticks is still there after a tick of the timer. -/
def StaysOn (spellTimer : Int32) (ticks : Int16) : Prop := -6 < ticks.toInt32 * 6 - spellTimer

theorem staysOn_iff (spellTimer : Int32) {ticks : Int16} (h : 0 ≤ ticks.toInt) :
    StaysOn spellTimer ticks ↔
      spellTimer.toInt < 6 * ticks.toInt + 6 ∧ 6 * ticks.toInt - 2 ^ 31 < spellTimer.toInt := by
  have hticks := ticks.toInt_lt
  have htimer := spellTimer.toInt_lt
  have htimer' := spellTimer.le_toInt
  have hsix : (ticks.toInt32 * 6).toInt = ticks.toInt * 6 := by
    rw [Int32.toInt_mul, Int16.toInt_toInt32]
    exact Int.bmod_eq_of_le (by simp; omega) (by simp; omega)
  have hsub := Int32.toInt_sub (ticks.toInt32 * 6) spellTimer
  rw [hsix] at hsub
  unfold StaysOn
  rw [Int32.lt_iff_toInt_lt, hsub]
  show -6 < _ ↔ _
  by_cases hover : 6 * ticks.toInt - 2 ^ 31 < spellTimer.toInt
  · rw [Int.bmod_eq_of_le (by omega) (by omega)]
    omega
  · -- the difference wraps to a negative one
    have hwrap : (ticks.toInt * 6 - spellTimer.toInt).bmod (2 ^ 32) =
        ticks.toInt * 6 - spellTimer.toInt - 2 ^ 32 := by
      have hshift := Int.sub_bmod_right (ticks.toInt * 6 - spellTimer.toInt) (2 ^ 32)
      rw [← hshift]
      exact Int.bmod_eq_of_le (by omega) (by omega)
    rw [hwrap]
    omega

namespace Spell

/-- The durations of a spell are right for every level of the caster, and a cast with the timer at
    `spellTimer` seconds is there after the first tick unless it is of no duration. -/
structure Lasting (s : Spell) (spellTimer : Int32) : Prop where
  nonneg : ∀ level, 0 ≤ s.calcDuration level
  limited : (levelTicks s.m_buffDurationFormula.toInt).isSome = true →
    ∀ level, s.calcDuration level ≤ s.m_buffDurationArgument
  mono : ∀ l l', l ≤ l' → s.calcDuration l ≤ s.calcDuration l'
  permanent : s.m_buffDurationFormula = 50 → ∀ formula level,
    { s with m_buffDurationFormula := formula }.calcDuration level ≤ s.calcDuration level
  stays : ∀ (t : Spells) (sh : SpawnShell) (shell : SpellShell) (c : StartCastStruct)
    (item : SpellItem), t.spell c.spellId = some s →
      SpellShell.Entered (shell.selfStartSpellCast t sh c).2 item →
      s.calcDuration sh.m_player.level.toUInt32.toUInt8 ≠ 0 →
      ¬ SpellShell.Removed ((shell.selfStartSpellCast t sh c).1.timeout spellTimer).2 item

variable {s : Spell} {spellTimer : Int32}

/-! ### Each part -/

theorem calcDuration_nonneg_iff (level : UInt8) : 0 ≤ s.calcDuration level ↔ s.Plain := by
  rw [Int16.le_iff_toInt_le]
  exact s.nonneg_iff level

theorem calcDuration_le {ticks : ℕ → ℕ}
    (h : levelTicks s.m_buffDurationFormula.toInt = some ticks) (level : UInt8) :
    s.calcDuration level ≤ s.m_buffDurationArgument := by
  rw [Int16.le_iff_toInt_le, calcDuration_level s h]
  omega

theorem calcDuration_mono {l l' : UInt8} (hl : l ≤ l') :
    s.calcDuration l ≤ s.calcDuration l' := by
  rw [Int16.le_iff_toInt_le]
  cases h : levelTicks s.m_buffDurationFormula.toInt with
  | none => rw [calcDuration_fixed s h, calcDuration_fixed s h]
  | some ticks =>
      have hticks := (levelTicks_spec h).2.1 _ _ (UInt8.le_iff_toNat_le.mp hl)
      rw [calcDuration_level s h, calcDuration_level s h]
      omega

/-- A player of any level, who casts the one spell there is. -/
def caster (level : UInt8) : SpawnShell :=
  .init { addr := 0, m_ID := 1, m_defaultLevel := level } .none (fun _ _ => []) false

theorem caster_level (level : UInt8) : (caster level).m_player.level.toUInt32.toUInt8 = level := by
  show level.toUInt32.toInt32.toUInt32.toUInt8 = level
  simp

/-- Casts stay just when every duration is kept at a tick. -/
theorem stays_iff :
    (∀ (t : Spells) (sh : SpawnShell) (shell : SpellShell) (c : StartCastStruct)
      (item : SpellItem), t.spell c.spellId = some s →
        SpellShell.Entered (shell.selfStartSpellCast t sh c).2 item →
        s.calcDuration sh.m_player.level.toUInt32.toUInt8 ≠ 0 →
        ¬ SpellShell.Removed ((shell.selfStartSpellCast t sh c).1.timeout spellTimer).2 item) ↔
      ∀ level, s.calcDuration level ≠ 0 → StaysOn spellTimer (s.calcDuration level) := by
  constructor
  · intro hstays level hne
    let t : Spells := { m_maxSpell := 1, m_spells := fun _ => some s, spell_name := fun _ => [] }
    let cast :=
      (SpellShell.mk []).selfStartSpellCast t (caster level) { spellId := 0, targetId := 0 }
    have hspell : t.spell 0 = some s := rfl
    obtain ⟨item, hitem⟩ : ∃ item, SpellShell.Entered cast.2 item :=
      SpellShell.entered_empty t (caster level) _
    obtain ⟨hmem, hduration⟩ := SpellShell.entered_selfStartSpellCast hspell hitem
    have hkept := hstays t (caster level) _ _ item hspell hitem (by rwa [caster_level])
    unfold SpellShell.timeout at hkept
    rw [SpellShell.removed_tick_iff] at hkept
    have hexpires := fun h => hkept ⟨hmem, h⟩
    unfold SpellShell.expires at hexpires
    rw [hduration, caster_level] at hexpires
    simpa [StaysOn] using hexpires
  · intro hkeeps t sh shell c item hspell hitem hne hremoved
    obtain ⟨hmem, hduration⟩ := SpellShell.entered_selfStartSpellCast hspell hitem
    unfold SpellShell.timeout at hremoved
    have hexpires := ((SpellShell.removed_tick_iff spellTimer [] _ item).mp hremoved).2
    have hkept := hkeeps _ hne
    unfold SpellShell.expires at hexpires
    unfold StaysOn at hkept
    rw [hduration] at hexpires
    simp [hkept] at hexpires

theorem staysOn_all_iff (h : s.Plain) :
    (∀ level, s.calcDuration level ≠ 0 → StaysOn spellTimer (s.calcDuration level)) ↔
      s.TimerFits spellTimer := by
  have hnonneg (level : UInt8) : 0 ≤ (s.calcDuration level).toInt := (s.nonneg_iff level).mpr h
  have hkeeps (level : UInt8) := staysOn_iff spellTimer (hnonneg level)
  have hne (level : UInt8) : s.calcDuration level ≠ 0 ↔ (s.calcDuration level).toInt ≠ 0 :=
    not_congr Int16.toInt_inj.symm
  obtain ⟨hleast, least, hleast_eq⟩ := shortest_spec h
  obtain ⟨hmost, hmost_eq⟩ := longest_spec (s := s)
  constructor
  · intro hall
    by_cases hzero : s.shortest = 0
    · exact Or.inl hzero
    · have hfirst := hmost least
      have hshort := (hkeeps least).mp (hall least ((hne least).mpr (by omega)))
      have hleast_nonneg := hnonneg least
      have hlong := (hkeeps 255).mp (hall 255 ((hne 255).mpr (by omega)))
      exact Or.inr ⟨by omega, by omega⟩
  · intro hfits level hlevel
    rw [hne] at hlevel
    obtain ⟨hshort, hle⟩ := (hleast level).resolve_left hlevel
    obtain ⟨hupper, hlower⟩ := hfits.resolve_left hshort
    have hlong := hmost level
    exact (hkeeps level).mpr ⟨by omega, by omega⟩

/-- The durations and the first tick are right just for plain spells, with a timer that fits. -/
theorem lasting_iff : s.Lasting spellTimer ↔ s.Plain ∧ s.TimerFits spellTimer := by
  constructor
  · intro h
    have hplain : s.Plain := (calcDuration_nonneg_iff 0).mp (h.nonneg 0)
    exact ⟨hplain, (staysOn_all_iff hplain).mp (stays_iff.mp h.stays)⟩
  · rintro ⟨hplain, hfits⟩
    refine ⟨fun level => (calcDuration_nonneg_iff level).mpr hplain, fun hsome level => ?_,
      fun l l' hl => calcDuration_mono hl, fun hpermanent => ?_,
      stays_iff.mpr ((staysOn_all_iff hplain).mpr hfits)⟩
    · obtain ⟨ticks, hticks⟩ := Option.isSome_iff_exists.mp hsome
      exact calcDuration_le hticks level
    · exact absurd (congrArg Int16.toInt hpermanent) hplain.formula

/-- The default of six seconds fits every plain spell. -/
theorem timerFits_six (h : s.Plain) : s.TimerFits 6 := by
  have hsix : (6 : Int32).toInt = 6 := rfl
  obtain ⟨hleast, least, hleast_eq⟩ := shortest_spec h
  have hnonneg := (s.nonneg_iff least).mpr h
  have hlong := (s.calcDuration 255).toInt_lt
  rw [(longest_spec (s := s)).2] at hlong
  unfold TimerFits
  rw [hsix]
  omega

/-- For every spell and every setting of the timer: the duration is right at all levels exactly when
    the formula and its argument are plain and the timer fits them; and for the timer's default
    exactly when they are plain. -/
theorem calcDuration_iff (s : Spell) :
    (∀ spellTimer, s.Lasting spellTimer ↔ s.Plain ∧ s.TimerFits spellTimer) ∧
      (s.Lasting 6 ↔ s.Plain) := by
  refine ⟨fun spellTimer => lasting_iff, ?_⟩
  rw [lasting_iff]
  exact and_iff_left_of_imp timerFits_six

/-- A spell that should last as long as it can: it would end before it begins. -/
theorem calcDuration_permanent :
    ¬ Lasting { m_name := [], m_buffDurationFormula := 50, m_buffDurationArgument := 10,
                m_targetType := 5 } 6 := by
  intro h
  have hnonneg := h.nonneg 60
  revert hnonneg
  decide

end Spell

end ShoweqDaemon.Buffs
