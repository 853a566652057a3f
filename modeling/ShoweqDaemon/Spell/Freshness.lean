/-
  When the last `BuffsUpdate` lists the spells of `SpellShell`.

  Adding, changing and deleting a spell signal after the list changed. `clear` signals before it,
  `timeout` signals each expiry while the item is still in the list, and `zoneChanged` changes the
  targets without a signal. `keeps_iff_timely` is the exact condition on one operation,
  `buffs_fresh_iff` carries it through a run.

  The client sees of an item its spell and its target (`view`), not the time that is left: a tick
  that only counts down needs no message.

  Proved:
  * `read_sendBuffsUpdate`: a message shows the list it is made from.
  * `announces_append`, `announces_changeAt`, `announces_deleteSpell`: one signal, after the
    change.
  * `keeps_clear_iff`, `keeps_killSpawn_iff`, `keeps_timeout_iff`, `view_zoneChanged_iff`: the
    condition on each of the others.
  * `cleared_buff_stays_shown`: a buff that was cleared is still listed.
-/
import ShoweqDaemon.Lib.Published
import ShoweqDaemon.Spell.SpellShell

namespace ShoweqDaemon.Buffs

open Spawns Published

/-! ## What is compared -/

/-- The spells of the list and their targets, in order. -/
def view (s : SpellShell) : List (UInt16 × UInt16) :=
  s.m_spellList.map fun i => (i.spellId, i.targetId)

/-- The spells that a message lists and their targets, in order. -/
def read (m : List Buff) : List (UInt16 × UInt16) := m.map fun b => (b.spell_id, b.target_id)

/-- An operation of the shell with the messages that an attached session sends. -/
def sessionNext (t : Spells) (s : SpellShell) (e : SpellEvent) : SpellShell × List (List Buff) :=
  ((s.next t e).1, (s.next t e).2.map onBuffsChanged)

/-- A subscribed session: the shell, and the message that the subscription sent. -/
def subscribed (s : SpellShell) : Watched SpellShell (List Buff) where
  store := s
  shown := sendBuffsUpdate s.m_spellList

/-- The operation changes nothing that only a late signal would show: no list is cleared, no target
    forgotten, and the last item does not expire. -/
def Timely (s : SpellShell) : SpellEvent → Prop
  | .clear => s.m_spellList = []
  | .killSpawn sh deceased => deceased.id = sh.m_player.m_ID → s.m_spellList = []
  | .zoneChanged => ∀ spell ∈ s.m_spellList, spell.targetId = 0
  | .timeout spellTimer =>
      ∀ spell ∈ s.m_spellList.getLast?, SpellShell.expires spellTimer spell = false
  | _ => True

theorem read_sendBuffsUpdate (l : List SpellItem) :
    read (sendBuffsUpdate l) = view { m_spellList := l } := by
  simp [read, sendBuffsUpdate, view, fillBuff]

/-! ## Signals after the change -/

/-- One signal goes out, with the list that the operation leaves, or nothing happens. -/
def Announces (s : SpellShell) (o : SpellShell × List Emit) : Prop :=
  o = (s, []) ∨ ∃ sig, o.2 = [{ signal := sig, spellList := o.1.m_spellList }]

theorem announces_deleteSpell (s : SpellShell) (i : Nat) : Announces s (s.deleteSpell i) := by
  unfold SpellShell.deleteSpell
  split
  · exact Or.inr ⟨_, rfl⟩
  · exact Or.inl rfl

theorem announces_changeAt (s : SpellShell) (i : Nat) (f : SpellItem → SpellItem) :
    Announces s (s.changeAt i f) := by
  unfold SpellShell.changeAt
  split
  · exact Or.inr ⟨_, rfl⟩
  · exact Or.inl rfl

theorem announces_append (s : SpellShell) (f : SpellItem → SpellItem) : Announces s (s.append f) :=
  Or.inr ⟨_, rfl⟩

theorem announces_selfStartSpellCast (t : Spells) (sh : SpawnShell) (s : SpellShell)
    (c : StartCastStruct) : Announces s (s.selfStartSpellCast t sh c) := by
  unfold SpellShell.selfStartSpellCast
  dsimp only
  split
  · exact announces_changeAt s _ _
  · exact announces_append s _

theorem announces_buffLoad (t : Spells) (sh : SpawnShell) (s : SpellShell) (c : SpellBuff) :
    Announces s (s.buffLoad t sh c) := by
  unfold SpellShell.buffLoad
  dsimp only
  split
  · exact announces_changeAt s _ _
  · exact announces_append s _

theorem announces_buff (t : Spells) (sh : SpawnShell) (s : SpellShell) (b : BuffStruct)
    (fromClient : Bool) : Announces s (s.buff t sh b fromClient) := by
  unfold SpellShell.buff
  dsimp only
  split
  · exact Or.inl rfl
  · split
    · exact Or.inl rfl
    · split
      · exact Or.inl rfl
      · split
        · exact announces_deleteSpell s _
        · split
          · exact announces_changeAt s _ _
          · exact Or.inl rfl

theorem announces_action (t : Spells) (sh : SpawnShell) (s : SpellShell) (a : ActionStruct) :
    Announces s (s.action t sh a) := by
  unfold SpellShell.action
  dsimp only
  split
  · exact Or.inl rfl
  · split
    · exact announces_changeAt s _ _
    · split
      · exact announces_append s _
      · exact Or.inl rfl

/-- An announced operation keeps the watcher fresh. -/
theorem keeps_of_announces {t : Spells} {s : SpellShell} {e : SpellEvent}
    (h : Announces s (s.next t e)) : Keeps (sessionNext t) read view s e := by
  obtain hnone | ⟨sig, hsig⟩ := h
  · have hsilent : (sessionNext t s e).2 = [] := by simp [sessionNext, hnone]
    have hsame : (sessionNext t s e).1 = s := by simp [sessionNext, hnone]
    rw [keeps_silent hsilent, hsame]
  · have hsingle : (sessionNext t s e).2 = [sendBuffsUpdate (s.next t e).1.m_spellList] := by
      simp [sessionNext, hsig, onBuffsChanged]
    rw [keeps_single hsingle]
    exact read_sendBuffsUpdate _

/-! ## Silent changes -/

/-- A spell that runs out keeps its place in the list. -/
theorem view_spellMessage (s : SpellShell) (str : QString) :
    view (s.spellMessage str).1 = view s := by
  unfold SpellShell.spellMessage
  split
  · rfl
  · split
    · rename_i i _
      refine List.ext_getElem? fun j => ?_
      simp only [view, List.getElem?_map, List.getElem?_modify]
      cases s.m_spellList[j]? with
      | none => rfl
      | some item =>
          by_cases hij : i = j
          · simp [hij]
          · simp [hij]
    · rfl

theorem spellMessage_silent (s : SpellShell) (str : QString) : (s.spellMessage str).2 = [] := by
  unfold SpellShell.spellMessage
  split
  · rfl
  · split <;> rfl

theorem view_zoneChanged_iff (s : SpellShell) :
    view s = view s.zoneChanged.1 ↔ ∀ spell ∈ s.m_spellList, spell.targetId = 0 := by
  simp only [view, SpellShell.zoneChanged, List.map_map, List.map_inj_left]
  simp

/-! ## Clearing -/

theorem keeps_clear_iff {t : Spells} {s : SpellShell} {e : SpellEvent} (h : s.next t e = s.clear) :
    Keeps (sessionNext t) read view s e ↔ s.m_spellList = [] := by
  have hsingle : (sessionNext t s e).2 = [sendBuffsUpdate s.m_spellList] := by
    simp [sessionNext, h, SpellShell.clear, onBuffsChanged]
  have hempty : (sessionNext t s e).1 = { m_spellList := [] } := by
    simp [sessionNext, h, SpellShell.clear]
  rw [keeps_single hsingle, hempty, read_sendBuffsUpdate]
  simp [view]

/-! ## The loops -/

/-- After each removal the message shows the list as it is then. -/
theorem removeTarget_shown (id : UInt16) (kept rest : List SpellItem) (shown : List Buff)
    (h : read shown = view { m_spellList := kept ++ rest }) :
    read (lastSent shown ((SpellShell.removeTarget id kept rest).2.map onBuffsChanged)) =
      view { m_spellList := (SpellShell.removeTarget id kept rest).1 } := by
  induction rest generalizing kept shown with
  | nil => simpa [SpellShell.removeTarget] using h
  | cons spell rest ih =>
      by_cases hid : spell.targetId = id
      · simp only [SpellShell.removeTarget, if_pos hid, List.map_cons, lastSent_cons]
        exact ih kept _ (read_sendBuffsUpdate _)
      · simp only [SpellShell.removeTarget, if_neg hid]
        exact ih (kept ++ [spell]) shown (by simpa using h)

/-- The message of a tick shows the list after it unless the last item expires. -/
theorem tick_shown_iff (spellTimer : Int32) (kept rest : List SpellItem) (shown : List Buff)
    (h : rest ≠ []) :
    read (lastSent shown ((SpellShell.tick spellTimer kept rest).2.map onBuffsChanged)) =
        view { m_spellList := (SpellShell.tick spellTimer kept rest).1 } ↔
      ∀ spell ∈ rest.getLast?, SpellShell.expires spellTimer spell = false := by
  induction rest generalizing kept shown with
  | nil => exact absurd rfl h
  | cons spell rest ih =>
      cases rest with
      | nil =>
          by_cases hexp : SpellShell.expires spellTimer spell
          · simp [SpellShell.tick, hexp, onBuffsChanged, read_sendBuffsUpdate, view]
          · simp [SpellShell.tick, hexp, onBuffsChanged, read_sendBuffsUpdate]
      | cons spell' rest =>
          have hlast : (spell :: spell' :: rest).getLast? = (spell' :: rest).getLast? := by simp
          by_cases hexp : SpellShell.expires spellTimer spell
          · rw [SpellShell.tick, if_pos hexp, hlast, List.map_cons, lastSent_cons]
            exact ih kept _ (List.cons_ne_nil _ _)
          · rw [SpellShell.tick, if_neg hexp, hlast, List.map_cons, lastSent_cons]
            exact ih _ _ (List.cons_ne_nil _ _)

theorem keeps_killSpawn_iff (t : Spells) (s : SpellShell) (sh : SpawnShell) (deceased : Item) :
    Keeps (sessionNext t) read view s (.killSpawn sh deceased) ↔
      (deceased.id = sh.m_player.m_ID → s.m_spellList = []) := by
  by_cases hself : deceased.id = sh.m_player.m_ID
  · have hclear : s.next t (.killSpawn sh deceased) = s.clear := if_pos hself
    rw [keeps_clear_iff hclear]
    exact ⟨fun h _ => h, fun h => h hself⟩
  · have hnext : s.next t (.killSpawn sh deceased) =
        ({ m_spellList := (SpellShell.removeTarget deceased.id [] s.m_spellList).1 },
          (SpellShell.removeTarget deceased.id [] s.m_spellList).2) := if_neg hself
    have hkept : Keeps (sessionNext t) read view s (.killSpawn sh deceased) := by
      rw [keeps_iff (read_sendBuffsUpdate s.m_spellList), sessionNext, hnext]
      exact removeTarget_shown deceased.id [] s.m_spellList _ (read_sendBuffsUpdate _)
    exact ⟨fun _ h => absurd h hself, fun _ => hkept⟩

theorem keeps_timeout_iff (t : Spells) (s : SpellShell) (spellTimer : Int32) :
    Keeps (sessionNext t) read view s (.timeout spellTimer) ↔
      ∀ spell ∈ s.m_spellList.getLast?, SpellShell.expires spellTimer spell = false := by
  rw [keeps_iff (read_sendBuffsUpdate s.m_spellList)]
  by_cases hempty : s.m_spellList = []
  · simp [sessionNext, SpellShell.next, SpellShell.timeout, hempty, SpellShell.tick,
      read_sendBuffsUpdate]
  · exact tick_shown_iff spellTimer [] s.m_spellList _ hempty

/-! ## Runs -/

/-- An operation keeps the watcher fresh exactly when it is timely. -/
theorem keeps_iff_timely (t : Spells) (s : SpellShell) (e : SpellEvent) :
    Keeps (sessionNext t) read view s e ↔ Timely s e := by
  cases e with
  | selfStartSpellCast sh c =>
      exact iff_of_true (keeps_of_announces (announces_selfStartSpellCast t sh s c)) trivial
  | buffLoad sh c => exact iff_of_true (keeps_of_announces (announces_buffLoad t sh s c)) trivial
  | buff sh b fromClient =>
      exact iff_of_true (keeps_of_announces (announces_buff t sh s b fromClient)) trivial
  | action sh a => exact iff_of_true (keeps_of_announces (announces_action t sh s a)) trivial
  | spellMessage str =>
      have hsilent : (sessionNext t s (.spellMessage str)).2 = [] := by
        simp [sessionNext, SpellShell.next, spellMessage_silent]
      rw [keeps_silent hsilent]
      exact iff_of_true (view_spellMessage s str).symm trivial
  | zoneChanged => exact (keeps_silent rfl).trans (view_zoneChanged_iff s)
  | killSpawn sh deceased => exact keeps_killSpawn_iff t s sh deceased
  | clear => exact keeps_clear_iff rfl
  | timeout spellTimer => exact keeps_timeout_iff t s spellTimer

/-- In a run from a subscription on, every operation leaves the last message listing the spells
    exactly when every operation is timely. -/
theorem buffs_fresh_iff (t : Spells) (s : SpellShell) (es : List SpellEvent) :
    (∀ w ∈ Machine.trace (step (sessionNext t)) (subscribed s) es, read w.shown = view w.store) ↔
      Machine.StepsMeet (fun s e => (s.next t e).1) Timely s es :=
  trace_fresh_iff (w := subscribed s) (keeps_iff_timely t) (read_sendBuffsUpdate s.m_spellList) es

/-- A buff that the profile brings is still listed after the shell was cleared. -/
theorem cleared_buff_stays_shown :
    ¬ ∀ (t : Spells) (s : SpellShell) (es : List SpellEvent),
      ∀ w ∈ Machine.trace (step (sessionNext t)) (subscribed s) es,
        read w.shown = view w.store := by
  intro h
  let t : Spells := { m_maxSpell := 0, m_spells := fun _ => none, spell_name := fun _ => [] }
  let sh := SpawnShell.init { addr := 0, m_ID := 9 } .none (fun _ _ => []) true
  let es : List SpellEvent := [.buffLoad sh { spellid := 17, duration := 5 }, .clear]
  have hend := h t { m_spellList := [] } es _
    ((Machine.mem_trace_iff _ _ _ _).mpr ⟨es, [], (List.append_nil es).symm, rfl⟩)
  exact absurd hend (by decide)

end ShoweqDaemon.Buffs
