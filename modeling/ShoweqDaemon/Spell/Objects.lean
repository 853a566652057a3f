/-
  `SpellShell` with its items as objects.

  Here `m_spellList` holds addresses, `m_lastPlayerSpell` is one, items are made and deleted, and
  the timer is started and stopped. `Safe` is what every run keeps; the loops of `killSpawn` and
  `timeout`, which erase while they walk, come by every item once. `perform_refines` says that the
  list of values moves as in `SpellShell.lean`, with the same signals.

  A deleted item is noted by its address, so that a pointer to it can be told from others.
  `Walked` is the invariant of the loops: they come by every item in order, and those that are
  `gone` leave the list and are deleted.

  Proved:
  * `killLoop_walked`, `timeoutLoop_walked`: the loops visit the items of the list in order, once.
  * `change_performs`, `newSpell_performs`, `deleteSpell_performs`, `killSpawn_performs` and their
    like: each handler leaves a safe shell and does to the values what it does in
    `SpellShell.lean`.
  * `spellShell_safe`: in every run no pointer is left to a deleted item, none is deleted twice,
    and the timer runs exactly while there are spells.
-/
import ShoweqDaemon.Lib.Run
import ShoweqDaemon.Spell.SpellShell

namespace ShoweqDaemon.Buffs

open Spawns

/-- A slot, or a call of the public `deleteSpell` with the item at a place of the list. -/
inductive ShellEvent where
  | slot (e : SpellEvent)
  | deleteSpell (i : Nat)

/-- An event on the values, where a deletion names its item by the place in the list. -/
def SpellShell.perform (t : Spells) (s : SpellShell) : ShellEvent → SpellShell × List Emit
  | .slot e => s.next t e
  | .deleteSpell i => s.deleteSpell i

namespace Owned

/-- The memory of the items is a function; `deleted` lists the addresses given back. -/
structure SpellShell where
  object : Addr → SpellItem
  next : Addr
  deleted : List Addr
  m_spellList : List Addr
  m_lastPlayerSpell : Option Addr
  /-- `m_timer->isActive()` -/
  m_timer : Bool

/-- The state after a slot and the signals that it emitted. -/
abbrev Out := SpellShell × List Emit

namespace SpellShell

/-- A shell with no items and no timer. -/
def init : SpellShell where
  object := fun _ => {}
  next := 0
  deleted := []
  m_spellList := []
  m_lastPlayerSpell := none
  m_timer := false

/-- The list as its readers see it. -/
def values (s : SpellShell) : List SpellItem := s.m_spellList.map s.object

/-- A signal, with the list as its slots find it. -/
def emit (s : SpellShell) (signal : SpellSignal) : Emit := { signal, spellList := s.values }

/-- A write through a pointer. -/
def setObject (s : SpellShell) (a : Addr) (f : SpellItem → SpellItem) : SpellShell :=
  { s with object := fun b => if b = a then f (s.object a) else s.object b }

/-- `delete item`: the address is given back. -/
def delete (s : SpellShell) (a : Addr) : SpellShell := { s with deleted := a :: s.deleted }

/-- The timer stops with the last item. -/
def stopIfEmpty (s : SpellShell) : SpellShell :=
  if s.m_spellList.length = 0 then { s with m_timer := false } else s

/-- `if (m_lastPlayerSpell == item) m_lastPlayerSpell = 0`. -/
def forgetLast (s : SpellShell) (a : Addr) : SpellShell :=
  if s.m_lastPlayerSpell = some a then { s with m_lastPlayerSpell := none } else s

/-- The remembered spell is forgotten when its target is `id`. -/
def forgetTarget (s : SpellShell) (id : UInt16) : SpellShell :=
  if s.m_lastPlayerSpell.any fun a => (s.object a).targetId = id then
    { s with m_lastPlayerSpell := none }
  else s

/-! ## Lookups -/

/-- `SpellShell::findSpell` with a target: by its id, or by its name as long as it has no id. -/
def findSpell (s : SpellShell) (spellId targetId : UInt16) (targetName : QString) : Option Addr :=
  s.m_spellList.find? fun a =>
    (s.object a).spellId = spellId && ((s.object a).targetId = targetId ||
      ((s.object a).targetId = 0 && (s.object a).targetName = targetName))

/-- `SpellShell::findSpell` by the spell alone: the first item with it. -/
def findSpellById (s : SpellShell) (spell_id : UInt16) : Option Addr :=
  s.m_spellList.find? fun a => (s.object a).spellId = spell_id

/-! ## Slots -/

/-- `SpellShell::clear`: the items are deleted one by one before the list is emptied. -/
def clear (s : SpellShell) : Out :=
  let deleted := s.m_spellList.foldl (fun s a => s.delete a) { s with m_lastPlayerSpell := none }
  ({ deleted with m_spellList := [], m_timer := false }, [s.emit .clearSpells])

/-- An address that is not in the list has the index -1 in the source, which `removeAt` must not
    get; every caller has the address out of the list. -/
def deleteSpell (s : SpellShell) (item : Option Addr) : Out :=
  match item with
  | some a =>
      let s := s.forgetLast a
      let s := { s with m_spellList := s.m_spellList.eraseIdx (s.m_spellList.idxOf a) }
      let s := s.stopIfEmpty
      (s.delete a, [s.emit (.delSpell (s.object a))])
  | none => (s, [])

/-- An item that exists is changed and announced. -/
def change (s : SpellShell) (a : Addr) (f : SpellItem → SpellItem) : Out :=
  let s := s.setObject a f
  (s, [s.emit (.changeSpell (s.object a))])

/-- A new item: it is appended, the timer runs, and it is announced. -/
def newSpell (s : SpellShell) (f : SpellItem → SpellItem) : Out :=
  let item := s.next
  let s := { s with
    object := fun b => if b = item then f {} else s.object b
    next := s.next + 1
    m_spellList := s.m_spellList ++ [item] }
  let s := if 0 < s.m_spellList.length ∧ s.m_timer = false then { s with m_timer := true } else s
  (s, [s.emit (.addSpell (s.object item))])

/-- `SpellShell::selfStartSpellCast`: the item of the spell on its target is updated or made, with
    the duration at the level of the player. -/
def selfStartSpellCast (t : Spells) (sh : SpawnShell) (s : SpellShell) (c : StartCastStruct) : Out :=
  let spell := t.spell c.spellId
  let duration : Int32 :=
    match spell with
    | some spell => (spell.calcDuration sh.m_player.level.toUInt32.toUInt8).toInt32 * 6
    | none => 0
  let targetName := if selfOnly spell then sh.m_player.name else nameOf sh c.targetId
  let item :=
    if selfOnly spell then s.findSpellById c.spellId
    else s.findSpell c.spellId c.targetId targetName
  let update := fun item : SpellItem =>
    item.update t c.spellId spell duration sh.m_player.m_ID sh.m_player.name c.targetId targetName
  match item with
  | some a => s.change a update
  | none =>
      let o := s.newSpell update
      ({ o.1 with m_lastPlayerSpell := some s.next }, o.2)

/-- `SpellShell::buffLoad`: the profile's buff, with the duration that the profile gives in ticks.
    -/
def buffLoad (t : Spells) (sh : SpawnShell) (s : SpellShell) (c : SpellBuff) : Out :=
  let spell := t.spell c.spellid
  let duration : Int32 := c.duration.toUInt32.toInt32 * 6
  let update := fun item : SpellItem =>
    item.update t c.spellid spell duration 0 "Buff".toList sh.m_player.m_ID sh.m_player.name
  match s.findSpell c.spellid sh.m_player.m_ID sh.m_player.name with
  | some a => s.change a update
  | none => s.newSpell update

/-- `SpellShell::buff`: only the server's packets count; the item is updated or removed. -/
def buff (t : Spells) (sh : SpawnShell) (s : SpellShell) (b : BuffStruct) (fromClient : Bool) : Out :=
  if fromClient then (s, [])
  else if b.spellid.toUInt32 = 0xffffffff then (s, [])
  else
    let item :=
      if selfOnly (t.spell b.spellid) then s.findSpellById b.spellid
      else s.findSpell b.spellid b.spawnid (nameOf sh b.spawnid)
    match item with
    | none => (s, [])
    | some a =>
        if b.changetype = 1 then s.deleteSpell (some a)
        else if b.changetype = 2 then
          s.change a fun item => { item with duration := b.duration.toUInt32.toInt32 * 6 }
        else (s, [])

/-- `SpellShell::action`: of the actions only the landing of a spell. -/
def action (t : Spells) (sh : SpawnShell) (s : SpellShell) (a : ActionStruct) : Out :=
  if a.type ≠ 0xe7 then (s, [])
  else
    let targetName := nameOf sh a.target
    let spell := t.spell a.spell
    let duration : Int32 :=
      match spell with
      | some spell => (spell.calcDuration a.level.toUInt8).toInt32 * 6
      | none => 0
    let update := fun item : SpellItem =>
      item.update t a.spell spell duration a.source (nameOf sh a.source) a.target targetName
    match s.findSpell a.spell a.target targetName with
    | some item => s.change item update
    | none => if a.target = sh.m_player.m_ID then s.newSpell update else (s, [])

/-- `SpellShell::spellMessage`: the text that a spell faded ends the first item with that name. -/
def spellMessage (s : SpellShell) (str : QString) : Out :=
  match Buffs.SpellShell.faded str with
  | none => (s, [])
  | some spell =>
      match s.m_spellList.find? fun a => (s.object a).spellName = spell with
      | some a => (s.setObject a ({ · with duration := 0 }), [])
      | none => (s, [])

/-- `SpellShell::zoneChanged`: the ids of targets and casters mean nothing in the next zone. -/
def zoneChanged (s : SpellShell) : Out :=
  (s.m_spellList.foldl (fun s a => s.setObject a ({ · with targetId := 0, casterId := 0 }))
    { s with m_lastPlayerSpell := none }, [])

/-- What a loop over the list leaves, and the items it came by. -/
structure Walk where
  shell : SpellShell
  emits : List Emit
  visited : List Addr

/-- The loop of `killSpawn`, with the iterator at `it`. -/
def killLoop (id : UInt16) (s : SpellShell) (it : Nat) : Walk :=
  if h : it < s.m_spellList.length then
    let spell := s.m_spellList[it]
    if (s.object spell).targetId = id then
      let s := { s with m_spellList := s.m_spellList.eraseIdx it }
      let w := killLoop id (s.delete spell) it
      { w with emits := s.emit (.delSpell (s.object spell)) :: w.emits, visited := spell :: w.visited }
    else
      let w := killLoop id s (it + 1)
      { w with visited := spell :: w.visited }
  else { shell := s, emits := [], visited := [] }
termination_by s.m_spellList.length - it
decreasing_by
  · simp only [delete, List.length_eraseIdx, if_pos h]
    omega
  · omega

/-- `SpellShell::killSpawn`: the death of the player clears the list, another one takes the items on
    the deceased. -/
def killSpawn (sh : SpawnShell) (s : SpellShell) (deceased : Item) : Out :=
  let id := deceased.id
  if id = sh.m_player.m_ID then s.clear
  else
    let w := (s.forgetTarget id).killLoop id 0
    (w.shell.stopIfEmpty, w.emits)

/-- The loop of `timeout`, with the iterator at `it`. -/
def timeoutLoop (spellTimer : Int32) (s : SpellShell) (it : Nat) : Walk :=
  if h : it < s.m_spellList.length then
    let spell := s.m_spellList[it]
    let d := (s.object spell).duration - spellTimer
    if -6 < d then
      let s := s.setObject spell ({ · with duration := d })
      let w := timeoutLoop spellTimer s (it + 1)
      { w with
        emits := s.emit (.changeSpell (s.object spell)) :: w.emits
        visited := spell :: w.visited }
    else
      let s := s.forgetLast spell
      let w := timeoutLoop spellTimer
        ({ s with m_spellList := s.m_spellList.eraseIdx it }.delete spell) it
      { w with emits := s.emit (.delSpell (s.object spell)) :: w.emits, visited := spell :: w.visited }
  else { shell := s, emits := [], visited := [] }
termination_by s.m_spellList.length - it
decreasing_by
  · simp only [setObject]
    omega
  · simp only [delete, forgetLast]
    split <;> simp only [List.length_eraseIdx, if_pos h] <;> omega

/-- `SpellShell::timeout`: a tick of the timer for every item, and what has run out goes. -/
def timeout (s : SpellShell) (spellTimer : Int32) : Out :=
  let w := s.timeoutLoop spellTimer 0
  (w.shell.stopIfEmpty, w.emits)

/-- What the shell does on an event. -/
def perform (t : Spells) (s : SpellShell) : ShellEvent → Out
  | .slot (.selfStartSpellCast sh c) => s.selfStartSpellCast t sh c
  | .slot (.buffLoad sh c) => s.buffLoad t sh c
  | .slot (.buff sh b fromClient) => s.buff t sh b fromClient
  | .slot (.action sh a) => s.action t sh a
  | .slot (.spellMessage str) => s.spellMessage str
  | .slot .zoneChanged => s.zoneChanged
  | .slot (.killSpawn sh deceased) => s.killSpawn sh deceased
  | .slot .clear => s.clear
  | .slot (.timeout spellTimer) => s.timeout spellTimer
  | .deleteSpell i => s.deleteSpell s.m_spellList[i]?

/-- The state after an event. -/
def step (t : Spells) (s : SpellShell) (e : ShellEvent) : SpellShell := (s.perform t e).1

/-! ## The invariant -/

/-- What every run keeps: no pointer to a deleted item, no item twice in the list, no address given
    back twice, and a timer exactly while there are items. -/
structure Safe (s : SpellShell) : Prop where
  timer : s.m_timer = true ↔ s.m_spellList ≠ []
  last : ∀ a, s.m_lastPlayerSpell = some a → a ∈ s.m_spellList
  live : ∀ a ∈ s.m_spellList, a ∉ s.deleted
  nodup : s.m_spellList.Nodup
  /-- No object is deleted twice. -/
  deleted_nodup : s.deleted.Nodup
  list_lt : ∀ a ∈ s.m_spellList, a < s.next
  deleted_lt : ∀ a ∈ s.deleted, a < s.next

theorem init_safe : init.Safe where
  timer := by simp [init]
  last a ha := nomatch ha
  live a ha := nomatch ha
  nodup := List.nodup_nil
  deleted_nodup := List.nodup_nil
  list_lt a ha := nomatch ha
  deleted_lt a ha := nomatch ha

theorem Safe.setObject {s : SpellShell} (h : s.Safe) (a : Addr) (f : SpellItem → SpellItem) :
    (s.setObject a f).Safe :=
  ⟨h.timer, h.last, h.live, h.nodup, h.deleted_nodup, h.list_lt, h.deleted_lt⟩

theorem Safe.forget {s : SpellShell} (h : s.Safe) : { s with m_lastPlayerSpell := none }.Safe :=
  ⟨h.timer, fun _ ha => (nomatch ha), h.live, h.nodup, h.deleted_nodup, h.list_lt, h.deleted_lt⟩

@[simp] theorem stopIfEmpty_list (s : SpellShell) : s.stopIfEmpty.m_spellList = s.m_spellList := by
  unfold stopIfEmpty
  split <;> rfl

@[simp] theorem stopIfEmpty_object (s : SpellShell) : s.stopIfEmpty.object = s.object := by
  unfold stopIfEmpty
  split <;> rfl

@[simp] theorem stopIfEmpty_values (s : SpellShell) : s.stopIfEmpty.values = s.values := by
  simp [values]

@[simp] theorem forgetLast_list (s : SpellShell) (a : Addr) :
    (s.forgetLast a).m_spellList = s.m_spellList := by
  unfold forgetLast
  split <;> rfl

@[simp] theorem forgetLast_object (s : SpellShell) (a : Addr) :
    (s.forgetLast a).object = s.object := by
  unfold forgetLast
  split <;> rfl

@[simp] theorem forgetLast_values (s : SpellShell) (a : Addr) :
    (s.forgetLast a).values = s.values := by
  simp [values]

/-- The rest of the shell. -/
theorem forgetLast_frame (s : SpellShell) (a : Addr) : (s.forgetLast a).deleted = s.deleted ∧
    (s.forgetLast a).m_timer = s.m_timer ∧ (s.forgetLast a).next = s.next := by
  unfold forgetLast
  split <;> exact ⟨rfl, rfl, rfl⟩

theorem forgetLast_last {s : SpellShell} {a b : Addr}
    (h : (s.forgetLast a).m_lastPlayerSpell = some b) : s.m_lastPlayerSpell = some b ∧ b ≠ a := by
  unfold forgetLast at h
  split at h
  · cases h
  · rename_i hne
    exact ⟨h, fun heq => hne (heq ▸ h)⟩

/-- What a loop or a deletion has done to a safe list, the timer not yet looked at: the items of
    `gone` left the list and were deleted. -/
structure Thinned (s s' : SpellShell) (gone : List Addr) : Prop where
  list : s'.m_spellList = s.m_spellList.filter fun a => a ∉ gone
  gone_sub : gone.Sublist s.m_spellList
  last : ∀ a, s'.m_lastPlayerSpell = some a → a ∈ s'.m_spellList
  deleted : s'.deleted = gone.reverse ++ s.deleted
  timer : s'.m_timer = s.m_timer
  next : s'.next = s.next

theorem Thinned.safe {s s' : SpellShell} {gone : List Addr} (ht : Thinned s s' gone) (h : s.Safe) :
    s'.stopIfEmpty.Safe := by
  have hsub : ∀ a ∈ s'.m_spellList, a ∈ s.m_spellList ∧ a ∉ gone := by
    intro a ha
    rw [ht.list] at ha
    simpa using List.mem_filter.mp ha
  have hlive : ∀ a ∈ s'.m_spellList, a ∉ s'.deleted := by
    intro a ha hdeleted
    rw [ht.deleted] at hdeleted
    rcases List.mem_append.mp hdeleted with hgone | hold
    · exact (hsub a ha).2 (List.mem_reverse.mp hgone)
    · exact h.live a (hsub a ha).1 hold
  have hdeleted : s'.deleted.Nodup := by
    rw [ht.deleted]
    refine List.Nodup.append (List.nodup_reverse.mpr (h.nodup.sublist ht.gone_sub)) h.deleted_nodup ?_
    intro a hgone hold
    exact h.live a (ht.gone_sub.subset (List.mem_reverse.mp hgone)) hold
  have hlt : ∀ a ∈ s'.deleted, a < s'.next := by
    intro a ha
    rw [ht.deleted] at ha
    rw [ht.next]
    rcases List.mem_append.mp ha with hgone | hold
    · exact h.list_lt a (ht.gone_sub.subset (List.mem_reverse.mp hgone))
    · exact h.deleted_lt a hold
  have hnodup : s'.m_spellList.Nodup := ht.list ▸ h.nodup.filter _
  have hlist : ∀ a ∈ s'.m_spellList, a < s'.next :=
    fun a ha => ht.next ▸ h.list_lt a (hsub a ha).1
  unfold stopIfEmpty
  split
  · rename_i hempty
    have hnil : s'.m_spellList = [] := List.eq_nil_of_length_eq_zero hempty
    exact ⟨by simp [hnil], ht.last, hlive, hnodup, hdeleted, hlist, hlt⟩
  · rename_i hne
    have hnil : s'.m_spellList ≠ [] := fun heq => hne (heq ▸ rfl)
    have hold : s.m_spellList ≠ [] := by
      intro heq
      rw [ht.list, heq] at hnil
      exact hnil rfl
    exact ⟨iff_of_true (ht.timer.trans (h.timer.mpr hold)) hnil, ht.last, hlive, hnodup, hdeleted,
      hlist, hlt⟩

/-! ## The loops that erase -/

/-- A loop that was started in `s` with the items `kept` behind and `rest` before it has come by all
    of `rest` in order, and the items with `gone` left. `r` is what it makes of the values. -/
structure Walked (gone : Addr → Bool) (r : List SpellItem × List Emit) (kept rest : List Addr)
    (s : SpellShell) (w : Walk) : Prop where
  visited : w.visited = rest
  list : w.shell.m_spellList = kept ++ rest.filter (!gone ·)
  deleted : w.shell.deleted = (rest.filter gone).reverse ++ s.deleted
  last : ∀ a, w.shell.m_lastPlayerSpell = some a →
    s.m_lastPlayerSpell = some a ∧ (a ∈ rest → gone a = false)
  timer : w.shell.m_timer = s.m_timer
  next : w.shell.next = s.next
  values : (w.shell.values, w.emits) = r

theorem Walked.thinned {gone : Addr → Bool} {r : List SpellItem × List Emit} {s : SpellShell}
    {w : Walk} (hw : Walked gone r [] s.m_spellList s w)
    (hlast : ∀ a, s.m_lastPlayerSpell = some a → a ∈ s.m_spellList) :
    Thinned s w.shell (s.m_spellList.filter gone) where
  list := by
    rw [hw.list, List.nil_append]
    refine List.filter_congr fun a ha => ?_
    cases hgone : gone a <;> simp [ha, hgone]
  gone_sub := List.filter_sublist
  last a ha := by
    obtain ⟨hold, hkept⟩ := hw.last a ha
    rw [hw.list, List.nil_append]
    refine List.mem_filter.mpr ⟨hlast a hold, ?_⟩
    rw [hkept (hlast a hold)]
    rfl
  deleted := hw.deleted
  timer := hw.timer
  next := hw.next

/-- The end of the list. -/
theorem Walked.nil {gone : Addr → Bool} {kept : List Addr} {s : SpellShell}
    (h : s.m_spellList = kept) :
    Walked gone (kept.map s.object, []) kept [] s { shell := s, emits := [], visited := [] } where
  visited := rfl
  list := h.trans (List.append_nil kept).symm
  deleted := rfl
  last _ ha := ⟨ha, fun hmem => nomatch hmem⟩
  timer := rfl
  next := rfl
  values := congrArg (·, []) (congrArg (List.map s.object) h)

/-- One item leaves, with a signal, and the loop goes on in `s₁`. -/
theorem Walked.erase {gone : Addr → Bool} {r : List SpellItem × List Emit} {kept rest : List Addr}
    {s s₁ : SpellShell} {w : Walk} {a : Addr} (hw : Walked gone r kept rest s₁ w)
    (hgone : gone a = true) (hdeleted : s₁.deleted = a :: s.deleted)
    (hlast : ∀ b, s₁.m_lastPlayerSpell = some b → s.m_lastPlayerSpell = some b ∧ b ≠ a)
    (htimer : s₁.m_timer = s.m_timer) (hnext : s₁.next = s.next) {e e' : Emit} (hemit : e = e') :
    Walked gone (r.1, e' :: r.2) kept (a :: rest) s
      { w with emits := e :: w.emits, visited := a :: w.visited } where
  visited := congrArg (a :: ·) hw.visited
  list := by
    rw [List.filter_cons_of_neg (by simp [hgone])]
    exact hw.list
  deleted := by
    rw [List.filter_cons_of_pos hgone, List.reverse_cons, List.append_assoc]
    exact hw.deleted.trans (congrArg (_ ++ ·) hdeleted)
  last b hb := by
    obtain ⟨hold, hkept⟩ := hw.last b hb
    obtain ⟨hold', hne⟩ := hlast b hold
    exact ⟨hold', fun hmem => hkept ((List.mem_cons.mp hmem).resolve_left hne)⟩
  timer := hw.timer.trans htimer
  next := hw.next.trans hnext
  values := by rw [hemit, ← hw.values]

/-- One item stays. -/
theorem Walked.keep {gone : Addr → Bool} {r : List SpellItem × List Emit} {kept rest : List Addr}
    {s s₁ : SpellShell} {w : Walk} {a : Addr} (hw : Walked gone r (kept ++ [a]) rest s₁ w)
    (hgone : gone a = false) (hdeleted : s₁.deleted = s.deleted)
    (hlast : s₁.m_lastPlayerSpell = s.m_lastPlayerSpell) (htimer : s₁.m_timer = s.m_timer)
    (hnext : s₁.next = s.next) {es es' : List Emit} (hemit : es = es') :
    Walked gone (r.1, es' ++ r.2) kept (a :: rest) s
      { w with emits := es ++ w.emits, visited := a :: w.visited } where
  visited := congrArg (a :: ·) hw.visited
  list := by
    rw [List.filter_cons_of_pos (by simp [hgone])]
    exact hw.list.trans (List.append_cons kept a _).symm
  deleted := by
    rw [List.filter_cons_of_neg (by simp [hgone])]
    exact hw.deleted.trans (congrArg (_ ++ ·) hdeleted)
  last b hb := by
    obtain ⟨hold, hkeeps⟩ := hw.last b hb
    refine ⟨hlast ▸ hold, fun hmem => ?_⟩
    rcases List.mem_cons.mp hmem with rfl | hmem
    · exact hgone
    · exact hkeeps hmem
  timer := hw.timer.trans htimer
  next := hw.next.trans hnext
  values := by rw [hemit, ← hw.values]

theorem getElem_at {α : Type} {kept rest : List α} {a : α} {l : List α} (h : l = kept ++ a :: rest)
    (hlt : kept.length < l.length) : l[kept.length] = a := by
  subst h
  simp

theorem eraseIdx_at {α : Type} {kept rest : List α} {a : α} {l : List α}
    (h : l = kept ++ a :: rest) :
    l.eraseIdx kept.length = kept ++ rest := by
  subst h
  rw [List.eraseIdx_append_of_length_le (Nat.le_refl _), Nat.sub_self, List.eraseIdx_zero,
    List.tail_cons]

/-- The object of an item that was passed is not written any more. -/
theorem map_setObject {s : SpellShell} {a : Addr} {l : List Addr} (h : a ∉ l)
    (f : SpellItem → SpellItem) : l.map (s.setObject a f).object = l.map s.object :=
  List.map_congr_left fun b hb => if_neg fun heq : b = a => h (heq ▸ hb)

theorem setObject_self (s : SpellShell) (a : Addr) (f : SpellItem → SpellItem) :
    (s.setObject a f).object a = f (s.object a) := if_pos rfl

theorem killLoop_nil {id : UInt16} {s : SpellShell} {kept : List Addr} (h : s.m_spellList = kept) :
    s.killLoop id kept.length = { shell := s, emits := [], visited := [] } := by
  rw [killLoop, dif_neg (by rw [h]; exact Nat.lt_irrefl _)]

theorem killLoop_cons {id : UInt16} {s : SpellShell} {kept rest : List Addr} {a : Addr}
    (h : s.m_spellList = kept ++ a :: rest) :
    s.killLoop id kept.length =
      if (s.object a).targetId = id then
        let s' := { s with m_spellList := kept ++ rest }
        let w := (s'.delete a).killLoop id kept.length
        { w with emits := s'.emit (.delSpell (s.object a)) :: w.emits, visited := a :: w.visited }
      else
        let w := s.killLoop id (kept ++ [a]).length
        { w with visited := a :: w.visited } := by
  have hlt : kept.length < s.m_spellList.length := by
    rw [h, List.length_append, List.length_cons]
    omega
  rw [killLoop, dif_pos hlt]
  simp only [getElem_at h hlt, eraseIdx_at h, List.length_append, List.length_singleton]

/-- `m_lastPlayerSpell` was taken care of before the loop. -/
theorem killLoop_walked (id : UInt16) (rest : List Addr) : ∀ (kept : List Addr) (s : SpellShell),
    s.m_spellList = kept ++ rest →
    (∀ a, s.m_lastPlayerSpell = some a → (s.object a).targetId ≠ id) →
    Walked (fun a => decide ((s.object a).targetId = id))
      (Buffs.SpellShell.removeTarget id (kept.map s.object) (rest.map s.object)) kept rest s
      (s.killLoop id kept.length) := by
  induction rest with
  | nil =>
      intro kept s h _
      rw [List.append_nil] at h
      rw [killLoop_nil h]
      exact Walked.nil h
  | cons a rest ih =>
      intro kept s h hlast
      rw [killLoop_cons h]
      split
      · rename_i htarget
        have hw := ih kept ({ s with m_spellList := kept ++ rest }.delete a) rfl hlast
        have hemit : { s with m_spellList := kept ++ rest }.emit (.delSpell (s.object a)) =
            ⟨.delSpell (s.object a), kept.map s.object ++ rest.map s.object⟩ :=
          congrArg (Emit.mk _) List.map_append
        have hne : ∀ b, s.m_lastPlayerSpell = some b → s.m_lastPlayerSpell = some b ∧ b ≠ a := by
          intro b hb
          refine ⟨hb, ?_⟩
          rintro rfl
          exact hlast b hb htarget
        rw [List.map_cons, Buffs.SpellShell.removeTarget, if_pos htarget]
        exact hw.erase (s := s) (decide_eq_true htarget) rfl hne rfl rfl hemit
      · rename_i htarget
        have h' : s.m_spellList = (kept ++ [a]) ++ rest := h.trans (List.append_cons kept a rest)
        have hw := ih (kept ++ [a]) s h' hlast
        rw [List.map_append] at hw
        rw [List.map_cons, Buffs.SpellShell.removeTarget, if_neg htarget]
        exact hw.keep (decide_eq_false htarget) rfl rfl rfl rfl (rfl : ([] : List Emit) = [])

theorem timeoutLoop_nil {spellTimer : Int32} {s : SpellShell} {kept : List Addr}
    (h : s.m_spellList = kept) :
    s.timeoutLoop spellTimer kept.length = { shell := s, emits := [], visited := [] } := by
  rw [timeoutLoop, dif_neg (by rw [h]; exact Nat.lt_irrefl _)]

/-- The item runs out at this tick. -/
def expired (s : SpellShell) (spellTimer : Int32) (a : Addr) : Bool :=
  Buffs.SpellShell.expires spellTimer (s.object a)

theorem timeoutLoop_cons {spellTimer : Int32} {s : SpellShell} {kept rest : List Addr} {a : Addr}
    (h : s.m_spellList = kept ++ a :: rest) :
    s.timeoutLoop spellTimer kept.length =
      if s.expired spellTimer a then
        let w := ({ s.forgetLast a with m_spellList := kept ++ rest }.delete a).timeoutLoop spellTimer
          kept.length
        { w with emits := s.emit (.delSpell (s.object a)) :: w.emits, visited := a :: w.visited }
      else
        let s' := s.setObject a fun i => { i with duration := i.duration - spellTimer }
        let w := s'.timeoutLoop spellTimer (kept ++ [a]).length
        { w with emits := s'.emit (.changeSpell (s'.object a)) :: w.emits, visited := a :: w.visited } := by
  have hlt : kept.length < s.m_spellList.length := by
    rw [h, List.length_append, List.length_cons]
    omega
  rw [timeoutLoop, dif_pos hlt]
  simp only [getElem_at h hlt, List.length_append, List.length_singleton]
  by_cases hd : -6 < (s.object a).duration - spellTimer
  · have hexpired : s.expired spellTimer a = false := by
      simp [expired, Buffs.SpellShell.expires, hd]
    rw [if_pos hd, hexpired]
    rfl
  · have hexpired : s.expired spellTimer a = true := by
      simp [expired, Buffs.SpellShell.expires, hd]
    rw [if_neg hd, hexpired, if_pos rfl]
    have herase : (s.forgetLast a).m_spellList.eraseIdx kept.length = kept ++ rest := by
      rw [forgetLast_list, eraseIdx_at h]
    have hemit : ∀ signal, (s.forgetLast a).emit signal = s.emit signal := by
      intro signal
      rw [emit, forgetLast_values]
      rfl
    rw [herase, hemit, forgetLast_object]

/-- `gone` is read off the items that are still before the iterator. -/
theorem Walked.congr {gone : Addr → Bool} {r : List SpellItem × List Emit}
    {kept rest : List Addr} {s : SpellShell} {w : Walk} (h : Walked gone r kept rest s w)
    (gone' : Addr → Bool) (hgone : ∀ a ∈ rest, gone a = gone' a) :
    Walked gone' r kept rest s w where
  visited := h.visited
  list := by
    rw [h.list]
    exact congrArg _ (List.filter_congr fun a ha => congrArg _ (hgone a ha))
  deleted := by
    rw [h.deleted]
    exact congrArg (fun l => List.reverse l ++ s.deleted) (List.filter_congr hgone)
  last a ha := ⟨(h.last a ha).1, fun hmem => (hgone a hmem).symm.trans ((h.last a ha).2 hmem)⟩
  timer := h.timer
  next := h.next
  values := h.values

theorem timeoutLoop_walked (spellTimer : Int32) (rest : List Addr) :
    ∀ (kept : List Addr) (s : SpellShell), s.m_spellList = kept ++ rest → s.m_spellList.Nodup →
    Walked (s.expired spellTimer)
      (Buffs.SpellShell.tick spellTimer (kept.map s.object) (rest.map s.object)) kept rest s
      (s.timeoutLoop spellTimer kept.length) := by
  induction rest with
  | nil =>
      intro kept s h _
      rw [List.append_nil] at h
      rw [timeoutLoop_nil h]
      exact Walked.nil h
  | cons a rest ih =>
      intro kept s h hn
      have hn' : (kept ++ a :: rest).Nodup := h ▸ hn
      have hrest : a ∉ rest := (List.nodup_cons.mp hn'.of_append_right).1
      rw [timeoutLoop_cons h]
      split
      · rename_i hexpired
        have hsub : (kept ++ rest).Nodup :=
          hn'.sublist ((List.sublist_cons_self a rest).append_left kept)
        obtain ⟨hdeleted', htimer', hnext'⟩ := forgetLast_frame s a
        have hw := ih kept ({ s.forgetLast a with m_spellList := kept ++ rest }.delete a) rfl hsub
        have hobject : ({ s.forgetLast a with m_spellList := kept ++ rest }.delete a).object =
          s.object := forgetLast_object s a
        rw [hobject] at hw
        have hw' := hw.congr (s.expired spellTimer) fun b _ => by rw [expired, hobject, expired]
        have hexpires : Buffs.SpellShell.expires spellTimer (s.object a) = true := hexpired
        have hemit : s.emit (.delSpell (s.object a)) =
            ⟨.delSpell (s.object a), kept.map s.object ++ s.object a :: rest.map s.object⟩ :=
          congrArg (Emit.mk _) ((congrArg (List.map s.object) h).trans List.map_append)
        rw [List.map_cons, Buffs.SpellShell.tick, if_pos hexpires]
        exact hw'.erase hexpired (congrArg (List.cons a) hdeleted')
          (fun b hb => forgetLast_last hb) htimer' hnext' hemit
      · rename_i hexpired
        let s' := s.setObject a fun i => { i with duration := i.duration - spellTimer }
        have h' : s'.m_spellList = (kept ++ [a]) ++ rest := h.trans (List.append_cons kept a rest)
        have hobject : ∀ b ∈ rest, s'.object b = s.object b :=
          fun b hb => if_neg fun heq : b = a => hrest (heq ▸ hb)
        have hself : s'.object a = { s.object a with duration := (s.object a).duration - spellTimer } :=
          setObject_self s a _
        have hkept : kept.map s'.object = kept.map s.object :=
          map_setObject (fun hmem => (List.disjoint_of_nodup_append hn' hmem) List.mem_cons_self) _
        have hrest' : rest.map s'.object = rest.map s.object := map_setObject hrest _
        have hw := ih (kept ++ [a]) s' h' hn
        rw [List.map_append, hkept, hrest', List.map_singleton, hself] at hw
        have hw' := hw.congr (s.expired spellTimer)
          fun b hb => congrArg (Buffs.SpellShell.expires spellTimer) (hobject b hb)
        have hexpires : ¬ Buffs.SpellShell.expires spellTimer (s.object a) = true := hexpired
        have hvalues : s'.values = kept.map s.object ++ { s.object a with
            duration := (s.object a).duration - spellTimer } :: rest.map s.object := by
          have hmap : s'.values = (kept ++ a :: rest).map s'.object :=
            congrArg (List.map s'.object) h
          rw [hmap, List.map_append, List.map_cons, hkept, hrest', hself]
        have hemit : [s'.emit (.changeSpell (s'.object a))] =
            [⟨.changeSpell { s.object a with duration := (s.object a).duration - spellTimer },
              kept.map s.object ++ { s.object a with
                duration := (s.object a).duration - spellTimer } :: rest.map s.object⟩] := by
          rw [emit, hvalues, hself]
        rw [List.map_cons, Buffs.SpellShell.tick, if_neg hexpires]
        exact hw'.keep (s := s) (Bool.eq_false_iff.mpr hexpired) rfl rfl rfl rfl hemit

/-! ## One item -/

/-- The shell of values. -/
def abs (s : SpellShell) : Buffs.SpellShell := { m_spellList := s.values }

/-- The handler leaves a safe shell and does to the values what `v` does. -/
structure Performs (o : Out) (v : Buffs.SpellShell × List Emit) : Prop where
  safe : o.1.Safe
  values : (o.1.abs, o.2) = v

/-- Nothing happens. -/
theorem Performs.idle {s : SpellShell} (h : s.Safe) : Performs (s, []) (s.abs, []) := ⟨h, rfl⟩

theorem values_getElem? (s : SpellShell) (i : Nat) : s.values[i]? = s.m_spellList[i]?.map s.object :=
  List.getElem?_map ..

theorem setObject_values {s : SpellShell} (h : s.Safe) {i : Nat} {a : Addr}
    (ha : s.m_spellList[i]? = some a) (f : SpellItem → SpellItem) :
    (s.setObject a f).values = s.values.set i (f (s.object a)) := by
  refine List.ext_getElem? fun j => ?_
  have hlt : i < s.m_spellList.length := (List.getElem?_eq_some_iff.mp ha).1
  have hlt' : i < s.values.length := by
    rw [values, List.length_map]
    exact hlt
  rw [values_getElem?, List.getElem?_set, values_getElem?]
  show s.m_spellList[j]?.map (s.setObject a f).object = _
  by_cases hij : i = j
  · subst hij
    rw [if_pos rfl, if_pos hlt', ha]
    exact congrArg some (setObject_self s a f)
  · rw [if_neg hij]
    cases hb : s.m_spellList[j]? with
    | none => rfl
    | some b =>
        have hne : b ≠ a := by
          rintro rfl
          exact hij ((List.getElem?_inj hlt h.nodup).mp (ha.trans hb.symm))
        exact congrArg some (if_neg hne)

theorem change_performs {s : SpellShell} (h : s.Safe) {i : Nat} {a : Addr}
    (ha : s.m_spellList[i]? = some a) (f : SpellItem → SpellItem) :
    Performs (s.change a f) (s.abs.changeAt i f) := by
  refine ⟨h.setObject a f, ?_⟩
  have hitem : s.abs.m_spellList[i]? = some (s.object a) := by
    rw [abs, values_getElem?, ha]
    rfl
  unfold change Buffs.SpellShell.changeAt
  rw [hitem]
  dsimp only
  rw [emit, abs, setObject_values h ha, setObject_self]
  rfl

theorem newSpell_performs {s : SpellShell} (h : s.Safe) (f : SpellItem → SpellItem) :
    Performs (s.newSpell f) (s.abs.append f) := by
  have hfresh : s.next ∉ s.m_spellList := fun hmem => Nat.lt_irrefl _ (h.list_lt _ hmem)
  have hgone : s.next ∉ s.deleted := fun hmem => Nat.lt_irrefl _ (h.deleted_lt _ hmem)
  let s₁ : SpellShell := { s with
    object := fun b => if b = s.next then f {} else s.object b
    next := s.next + 1
    m_spellList := s.m_spellList ++ [s.next]
    m_timer := true }
  have hnew : (s.newSpell f).1 = s₁ := by
    have hlength : 0 < (s.m_spellList ++ [s.next]).length := by simp
    unfold newSpell
    dsimp only
    by_cases htimer : s.m_timer = false
    · rw [if_pos ⟨hlength, htimer⟩]
    · rw [if_neg fun hc => htimer hc.2]
      have hrunning : s.m_timer = true := Bool.eq_true_of_not_eq_false htimer
      simp only [s₁, ← hrunning]
  have hvalues : s₁.values = s.values ++ [f {}] := by
    show (s.m_spellList ++ [s.next]).map s₁.object = _
    rw [List.map_append, List.map_singleton]
    refine congrArg₂ _ (List.map_congr_left fun b hb => if_neg fun heq : b = s.next => ?_) ?_
    · exact hfresh (heq ▸ hb)
    · exact congrArg (fun x => [x]) (if_pos rfl)
  have hsafe : s₁.Safe := by
    refine ⟨by simp [s₁], fun a ha => List.mem_append_left _ (h.last a ha), ?_, ?_, h.deleted_nodup,
      ?_, fun a ha => Nat.lt_succ_of_lt (h.deleted_lt a ha)⟩
    · intro a ha
      rcases List.mem_append.mp ha with ha | ha
      · exact h.live a ha
      · exact List.mem_singleton.mp ha ▸ hgone
    · refine List.Nodup.append h.nodup (List.nodup_singleton _) ?_
      intro a ha hnext
      exact hfresh (List.mem_singleton.mp hnext ▸ ha)
    · intro a ha
      rcases List.mem_append.mp ha with ha | ha
      · exact Nat.lt_succ_of_lt (h.list_lt a ha)
      · rw [List.mem_singleton.mp ha]
        exact Nat.lt_succ_self s.next
  refine ⟨hnew ▸ hsafe, ?_⟩
  have hemit : (s.newSpell f).2 = [s₁.emit (.addSpell (s₁.object s.next))] :=
    congrArg (fun s' : SpellShell => [s'.emit (.addSpell (s'.object s.next))]) hnew
  have hobject : s₁.object s.next = f {} := if_pos rfl
  rw [hnew, hemit, abs, emit, hvalues, hobject]
  rfl

/-- The player's own new cast is remembered. -/
theorem newSpell_last_performs {s : SpellShell} (h : s.Safe) (f : SpellItem → SpellItem) :
    Performs ({ (s.newSpell f).1 with m_lastPlayerSpell := some s.next }, (s.newSpell f).2)
      (s.abs.append f) := by
  obtain ⟨⟨htimer, -, hlive, hnodup, hdeleted, hlist, hlt⟩, hvalues⟩ := newSpell_performs h f
  refine ⟨⟨htimer, ?_, hlive, hnodup, hdeleted, hlist, hlt⟩, hvalues⟩
  intro a ha
  have hmem : s.next ∈ (s.newSpell f).1.m_spellList := by
    unfold newSpell
    dsimp only
    split <;> simp
  exact Option.some.inj ha ▸ hmem

theorem eraseIdx_of_nodup {l : List Addr} (hn : l.Nodup) {i : Nat} {a : Addr}
    (ha : l[i]? = some a) : l.eraseIdx i = l.filter fun b => b ∉ [a] := by
  obtain ⟨hlt, rfl⟩ := List.getElem?_eq_some_iff.mp ha
  rw [← List.erase_eq_eraseIdx_of_idxOf (hn.idxOf_getElem i hlt), hn.erase_eq_filter]
  refine List.filter_congr fun b _ => ?_
  simp only [List.mem_singleton, decide_not]
  rfl

theorem stopIfEmpty_delete (s : SpellShell) (a : Addr) :
    s.stopIfEmpty.delete a = (s.delete a).stopIfEmpty := by
  unfold stopIfEmpty delete
  split <;> rfl

theorem deleteSpell_performs {s : SpellShell} (h : s.Safe) {i : Nat} {a : Addr}
    (ha : s.m_spellList[i]? = some a) :
    Performs (s.deleteSpell (some a)) (s.abs.deleteSpell i) := by
  obtain ⟨hlt, hget⟩ := List.getElem?_eq_some_iff.mp ha
  have hidx : s.m_spellList.idxOf a = i := hget ▸ h.nodup.idxOf_getElem i hlt
  let s₁ : SpellShell := { s.forgetLast a with m_spellList := s.m_spellList.eraseIdx i }
  have hdelete : s.deleteSpell (some a) =
      (s₁.stopIfEmpty.delete a, [s₁.stopIfEmpty.emit (.delSpell (s₁.stopIfEmpty.object a))]) := by
    unfold deleteSpell
    simp only [forgetLast_list, hidx]
    rfl
  have hvalues : s₁.values = s.values.eraseIdx i := by
    show (s.m_spellList.eraseIdx i).map (s.forgetLast a).object = _
    rw [forgetLast_object, ← List.eraseIdx_map]
    rfl
  have hitem : s.abs.m_spellList[i]? = some (s.object a) := by
    rw [abs, values_getElem?, ha]
    rfl
  obtain ⟨hdeleted, htimer, hnext⟩ := forgetLast_frame s a
  have hthinned : Thinned s (s₁.delete a) [a] := by
    refine ⟨eraseIdx_of_nodup h.nodup ha, ?_, ?_, congrArg (a :: ·) hdeleted, htimer, hnext⟩
    · exact List.singleton_sublist.mpr (List.mem_of_getElem? ha)
    · intro b hb
      obtain ⟨hold, hne⟩ := forgetLast_last hb
      show b ∈ s.m_spellList.eraseIdx i
      rw [eraseIdx_of_nodup h.nodup ha]
      exact List.mem_filter.mpr ⟨h.last b hold, by simpa using hne⟩
  rw [hdelete, stopIfEmpty_delete]
  refine ⟨hthinned.safe h, ?_⟩
  unfold Buffs.SpellShell.deleteSpell
  rw [hitem]
  dsimp only
  have habs : (s₁.delete a).stopIfEmpty.abs = { m_spellList := s.abs.m_spellList.eraseIdx i } :=
    congrArg Buffs.SpellShell.mk ((stopIfEmpty_values (s₁.delete a)).trans hvalues)
  have hobject : s₁.stopIfEmpty.object a = s.object a := by
    rw [stopIfEmpty_object]
    exact congrFun (forgetLast_object s a) a
  rw [habs, hobject, emit, stopIfEmpty_values, hvalues]
  rfl

/-! ## The whole list -/

theorem foldl_delete (l : List Addr) (s : SpellShell) :
    l.foldl (fun s a => s.delete a) s = { s with deleted := l.reverse ++ s.deleted } :=
  Machine.foldl_push (fun s a => s.delete a) deleted (fun s l => { s with deleted := l })
    (fun _ _ => rfl) (fun _ _ => rfl) (fun _ _ _ => rfl) (fun _ => rfl) l s

theorem clear_performs {s : SpellShell} (h : s.Safe) : Performs s.clear s.abs.clear := by
  have hclear : s.clear = ({ s with
      deleted := s.m_spellList.reverse ++ s.deleted
      m_spellList := []
      m_lastPlayerSpell := none
      m_timer := false }, [s.emit .clearSpells]) := by
    unfold clear
    rw [foldl_delete]
  rw [hclear]
  refine ⟨⟨by simp, fun _ ha => (nomatch ha), fun _ ha => (nomatch ha), List.nodup_nil, ?_,
    fun _ ha => (nomatch ha), ?_⟩, rfl⟩
  · refine List.Nodup.append (List.nodup_reverse.mpr h.nodup) h.deleted_nodup fun a ha hold => ?_
    exact h.live a (List.mem_reverse.mp ha) hold
  · intro a ha
    rcases List.mem_append.mp ha with ha | ha
    · exact h.list_lt a (List.mem_reverse.mp ha)
    · exact h.deleted_lt a ha

theorem foldl_setObject (f : SpellItem → SpellItem) (l : List Addr) (s : SpellShell) :
    ∃ object, l.foldl (fun s a => s.setObject a f) s = { s with object } ∧
      (l.Nodup → l.map object = l.map fun a => f (s.object a)) ∧
      ∀ b ∉ l, object b = s.object b := by
  induction l generalizing s with
  | nil => exact ⟨s.object, rfl, fun _ => rfl, fun _ _ => rfl⟩
  | cons a l ih =>
      obtain ⟨object, hfold, hmap, hother⟩ := ih (s.setObject a f)
      refine ⟨object, hfold, fun hn => ?_, fun b hb => ?_⟩
      · obtain ⟨ha, hn⟩ := List.nodup_cons.mp hn
        rw [List.map_cons, List.map_cons, hother a ha, setObject_self, hmap hn]
        refine congrArg _ (List.map_congr_left fun b hb => congrArg f ?_)
        exact if_neg fun heq : b = a => ha (heq ▸ hb)
      · rw [hother b fun hmem => hb (List.mem_cons_of_mem a hmem)]
        exact if_neg fun heq : b = a => hb (heq ▸ List.mem_cons_self)

theorem zoneChanged_performs {s : SpellShell} (h : s.Safe) :
    Performs s.zoneChanged s.abs.zoneChanged := by
  obtain ⟨object, hfold, hmap, -⟩ := foldl_setObject ({ · with targetId := 0, casterId := 0 })
    s.m_spellList { s with m_lastPlayerSpell := none }
  unfold zoneChanged
  rw [hfold]
  refine ⟨⟨h.timer, fun _ ha => (nomatch ha), h.live, h.nodup, h.deleted_nodup, h.list_lt,
    h.deleted_lt⟩, ?_⟩
  refine congrArg (fun l => (Buffs.SpellShell.mk l, [])) ?_
  show s.m_spellList.map object = (s.m_spellList.map s.object).map _
  rw [hmap h.nodup, List.map_map]
  rfl

theorem forgetTarget_walked {s : SpellShell} (h : s.Safe) (id : UInt16) :
    (s.forgetTarget id).Safe ∧ Walked (fun a => decide ((s.object a).targetId = id))
      (Buffs.SpellShell.removeTarget id [] s.values) [] s.m_spellList (s.forgetTarget id)
      ((s.forgetTarget id).killLoop id 0) := by
  have hsafe : (s.forgetTarget id).Safe := by
    unfold forgetTarget
    split
    · exact h.forget
    · exact h
  have hlist : (s.forgetTarget id).m_spellList = s.m_spellList := by
    unfold forgetTarget
    split <;> rfl
  have hobject : (s.forgetTarget id).object = s.object := by
    unfold forgetTarget
    split <;> rfl
  have hlast : ∀ a, (s.forgetTarget id).m_lastPlayerSpell = some a →
      ((s.forgetTarget id).object a).targetId ≠ id := by
    intro a ha htarget
    rw [hobject] at htarget
    unfold forgetTarget at ha
    split at ha
    · cases ha
    · rename_i hany
      rw [ha] at hany
      simp [htarget] at hany
  have hwalked := killLoop_walked id s.m_spellList [] (s.forgetTarget id) hlist hlast
  rw [hobject] at hwalked
  exact ⟨hsafe, hwalked⟩

theorem killSpawn_performs {s : SpellShell} (h : s.Safe) (sh : SpawnShell) (deceased : Item) :
    Performs (s.killSpawn sh deceased) (s.abs.killSpawn sh deceased) := by
  unfold killSpawn Buffs.SpellShell.killSpawn
  dsimp only
  split
  · exact clear_performs h
  · obtain ⟨hsafe, hwalked⟩ := forgetTarget_walked h deceased.id
    have hlist : (s.forgetTarget deceased.id).m_spellList = s.m_spellList := by
      unfold forgetTarget
      split <;> rfl
    have hvalues := hwalked.values
    rw [← hlist] at hwalked
    refine ⟨(hwalked.thinned hsafe.last).safe hsafe, ?_⟩
    have hshell := congrArg Prod.fst hvalues
    have hemits := congrArg Prod.snd hvalues
    refine Prod.ext (congrArg Buffs.SpellShell.mk ?_) hemits
    exact (stopIfEmpty_values _).trans hshell

theorem timeout_performs {s : SpellShell} (h : s.Safe) (spellTimer : Int32) :
    Performs (s.timeout spellTimer) (s.abs.timeout spellTimer) := by
  have hwalked := timeoutLoop_walked spellTimer s.m_spellList [] s rfl h.nodup
  refine ⟨(hwalked.thinned h.last).safe h, ?_⟩
  have hvalues := hwalked.values
  have hshell := congrArg Prod.fst hvalues
  have hemits := congrArg Prod.snd hvalues
  refine Prod.ext (congrArg Buffs.SpellShell.mk ?_) hemits
  exact (stopIfEmpty_values _).trans hshell

/-! ## Every operation -/

/-- The place in the list of values, and the address there. -/
def Points (s : SpellShell) (i : Option Nat) (a : Option Addr) : Prop :=
  (i = none ∧ a = none) ∨ ∃ j b, i = some j ∧ a = some b ∧ s.m_spellList[j]? = some b

theorem find_points (s : SpellShell) (p : SpellItem → Bool) :
    s.Points (s.values.findIdx? p) (s.m_spellList.find? fun a => p (s.object a)) := by
  have hidx : s.values.findIdx? p = s.m_spellList.findIdx? fun a => p (s.object a) :=
    List.findIdx?_map
  rw [hidx, List.find?_eq_bind_findIdx?_getElem?]
  cases h : s.m_spellList.findIdx? fun a => p (s.object a) with
  | none => exact Or.inl ⟨rfl, rfl⟩
  | some i =>
      obtain ⟨hlt, -⟩ := List.findIdx?_eq_some_iff_getElem.mp h
      have hget := List.getElem?_eq_getElem hlt
      exact Or.inr ⟨i, s.m_spellList[i], rfl, hget, hget⟩

theorem findSpell_points (s : SpellShell) (spellId targetId : UInt16) (targetName : QString) :
    s.Points (s.abs.findSpell spellId targetId targetName)
      (s.findSpell spellId targetId targetName) := find_points s _

theorem findSpellById_points (s : SpellShell) (spell_id : UInt16) :
    s.Points (s.abs.findSpellById spell_id) (s.findSpellById spell_id) := find_points s _

theorem selfStartSpellCast_performs {s : SpellShell} (h : s.Safe) (t : Spells) (sh : SpawnShell)
    (c : StartCastStruct) :
    Performs (s.selfStartSpellCast t sh c) (s.abs.selfStartSpellCast t sh c) := by
  unfold selfStartSpellCast Buffs.SpellShell.selfStartSpellCast
  dsimp only
  have hpoints : ∀ targetName, s.Points
      (if selfOnly (t.spell c.spellId) then s.abs.findSpellById c.spellId
        else s.abs.findSpell c.spellId c.targetId targetName)
      (if selfOnly (t.spell c.spellId) then s.findSpellById c.spellId
        else s.findSpell c.spellId c.targetId targetName) := by
    intro targetName
    split
    · exact findSpellById_points s _
    · exact findSpell_points s _ _ _
  rcases hpoints (if selfOnly (t.spell c.spellId) = true then sh.m_player.name
    else nameOf sh c.targetId) with ⟨hi, ha⟩ | ⟨i, a, hi, ha, hget⟩
  · rw [hi, ha]
    exact newSpell_last_performs h _
  · rw [hi, ha]
    exact change_performs h hget _

theorem buffLoad_performs {s : SpellShell} (h : s.Safe) (t : Spells) (sh : SpawnShell)
    (c : SpellBuff) : Performs (s.buffLoad t sh c) (s.abs.buffLoad t sh c) := by
  unfold buffLoad Buffs.SpellShell.buffLoad
  dsimp only
  rcases findSpell_points s c.spellid sh.m_player.m_ID sh.m_player.name with
    ⟨hi, ha⟩ | ⟨i, a, hi, ha, hget⟩
  · rw [hi, ha]
    exact newSpell_performs h _
  · rw [hi, ha]
    exact change_performs h hget _

theorem buff_performs {s : SpellShell} (h : s.Safe) (t : Spells) (sh : SpawnShell)
    (b : BuffStruct) (fromClient : Bool) :
    Performs (s.buff t sh b fromClient) (s.abs.buff t sh b fromClient) := by
  unfold buff Buffs.SpellShell.buff
  dsimp only
  split
  · exact Performs.idle h
  · split
    · exact Performs.idle h
    · have hpoints : s.Points
          (if selfOnly (t.spell b.spellid) then s.abs.findSpellById b.spellid
            else s.abs.findSpell b.spellid b.spawnid (nameOf sh b.spawnid))
          (if selfOnly (t.spell b.spellid) then s.findSpellById b.spellid
            else s.findSpell b.spellid b.spawnid (nameOf sh b.spawnid)) := by
        split
        · exact findSpellById_points s _
        · exact findSpell_points s _ _ _
      rcases hpoints with ⟨hi, ha⟩ | ⟨i, a, hi, ha, hget⟩
      · rw [hi, ha]
        exact Performs.idle h
      · rw [hi, ha]
        dsimp only
        split
        · exact deleteSpell_performs h hget
        · split
          · exact change_performs h hget _
          · exact Performs.idle h

theorem action_performs {s : SpellShell} (h : s.Safe) (t : Spells) (sh : SpawnShell)
    (a : ActionStruct) : Performs (s.action t sh a) (s.abs.action t sh a) := by
  unfold action Buffs.SpellShell.action
  dsimp only
  split
  · exact Performs.idle h
  · rcases findSpell_points s a.spell a.target (nameOf sh a.target) with
      ⟨hi, ha⟩ | ⟨i, item, hi, ha, hget⟩
    · rw [hi, ha]
      dsimp only
      split
      · exact newSpell_performs h _
      · exact Performs.idle h
    · rw [hi, ha]
      exact change_performs h hget _

theorem modify_of_getElem? {α : Type} {l : List α} {i : Nat} {x : α} (h : l[i]? = some x)
    (f : α → α) : l.modify i f = l.set i (f x) := by
  obtain ⟨hlt, rfl⟩ := List.getElem?_eq_some_iff.mp h
  refine List.ext_getElem? fun j => ?_
  rw [List.getElem?_modify, List.getElem?_set]
  by_cases hij : i = j
  · subst hij
    simp [hlt]
  · simp [hij]

theorem spellMessage_performs {s : SpellShell} (h : s.Safe) (str : QString) :
    Performs (s.spellMessage str) (s.abs.spellMessage str) := by
  unfold spellMessage Buffs.SpellShell.spellMessage
  cases Buffs.SpellShell.faded str with
  | none => exact Performs.idle h
  | some spell =>
      dsimp only
      have hpoints : s.Points (s.abs.m_spellList.findIdx? fun i => decide (i.spellName = spell))
        (s.m_spellList.find? fun a => decide ((s.object a).spellName = spell)) := find_points s _
      rcases hpoints with ⟨hi, ha⟩ | ⟨i, a, hi, ha, hget⟩
      · rw [hi, ha]
        exact Performs.idle h
      · rw [hi, ha]
        dsimp only
        refine ⟨?_, congrArg (fun l => (Buffs.SpellShell.mk l, [])) ?_⟩
        · have hsafe := h.setObject a fun i => { i with duration := 0 }
          exact hsafe
        have hitem : s.abs.m_spellList[i]? = some (s.object a) := by
          rw [abs, values_getElem?, hget]
          rfl
        rw [setObject_values h hget, modify_of_getElem? hitem]
        rfl

theorem perform_performs {s : SpellShell} (h : s.Safe) (t : Spells) (e : ShellEvent) :
    Performs (s.perform t e) (s.abs.perform t e) := by
  cases e with
  | slot e =>
      cases e with
      | selfStartSpellCast sh c => exact selfStartSpellCast_performs h t sh c
      | buffLoad sh c => exact buffLoad_performs h t sh c
      | buff sh b fromClient => exact buff_performs h t sh b fromClient
      | action sh a => exact action_performs h t sh a
      | spellMessage str => exact spellMessage_performs h str
      | zoneChanged => exact zoneChanged_performs h
      | killSpawn sh deceased => exact killSpawn_performs h sh deceased
      | clear => exact clear_performs h
      | timeout spellTimer => exact timeout_performs h spellTimer
  | deleteSpell i =>
      show Performs (s.deleteSpell s.m_spellList[i]?) (s.abs.deleteSpell i)
      cases hget : s.m_spellList[i]? with
      | some a => exact deleteSpell_performs h hget
      | none =>
          have hnone : s.abs.m_spellList[i]? = none := by
            rw [abs, values_getElem?, hget]
            rfl
          unfold Buffs.SpellShell.deleteSpell
          rw [hnone]
          exact Performs.idle h

end SpellShell

/-- The list of values moves as in the shell without pointers, with the same signals. -/
theorem perform_refines {s : SpellShell} (h : s.Safe) (t : Spells) (e : ShellEvent) :
    ((s.perform t e).1.abs, (s.perform t e).2) = s.abs.perform t e :=
  (SpellShell.perform_performs h t e).values

/-- The loops that erase come by the items of the list in order, each once. -/
structure SpellShell.WalksOnce (s : SpellShell) : Prop where
  killSpawn : ∀ id, ((s.forgetTarget id).killLoop id 0).visited = s.m_spellList
  timeout : ∀ spellTimer, (s.timeoutLoop spellTimer 0).visited = s.m_spellList

/-- In every state of a run the timer runs when there are spells, the remembered spell is in the
    list, the list has every item once and none that was deleted, and the loops come by all. -/
theorem spellShell_safe (t : Spells) (es : List ShellEvent) :
    ∀ s ∈ Machine.trace (SpellShell.step t) SpellShell.init es, s.Safe ∧ s.WalksOnce := by
  have hstep : ∀ (s : SpellShell) (e : ShellEvent), s.Safe → (s.step t e).Safe :=
    fun s e h => (SpellShell.perform_performs h t e).safe
  intro s hs
  have h : s.Safe :=
    Machine.trace_invariant (SpellShell.step t) hstep SpellShell.init_safe es s hs
  refine ⟨h, fun id => (SpellShell.forgetTarget_walked h id).2.visited, fun spellTimer => ?_⟩
  exact (SpellShell.timeoutLoop_walked spellTimer s.m_spellList [] s rfl h.nodup).visited

/-- A table without spells. -/
def noSpells : Spells where
  m_maxSpell := 0
  m_spells _ := none
  spell_name _ := []

/-- A buff of the profile that runs out. -/
def buffRunsOut : List ShellEvent :=
  [.slot (.buffLoad (SpawnShell.init { addr := 0, m_ID := 9 } .none (fun _ _ => []) true)
    { spellid := 17, duration := 5 }), .slot (.timeout 60)]

theorem spellShell_safe_runsOut :
    (buffRunsOut.foldl (SpellShell.step noSpells) SpellShell.init).Safe ∧
      (buffRunsOut.foldl (SpellShell.step noSpells) SpellShell.init).WalksOnce :=
  spellShell_safe noSpells buffRunsOut _
    ((Machine.mem_trace_iff _ _ _ _).mpr ⟨buffRunsOut, [], (List.append_nil _).symm, rfl⟩)

end Owned

end ShoweqDaemon.Buffs
