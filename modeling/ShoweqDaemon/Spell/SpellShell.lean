/-
  `SpellShell`: the buffs and casts that are shown, a list of `SpellItem`s.

  A handler gives the next shell and the signals it emits, each with the list as it is when the
  signal goes out: `SessionAdapter::onBuffsChanged` reads it there. A pointer to an item is its
  index in the list. `m_lastPlayerSpell` and the cast times are written and not read, and the timer
  decides only when `timeout` comes; they are left out.
-/
import ShoweqDaemon.Spawn.SpawnShell

namespace ShoweqDaemon.Buffs

open Spawns

/-! ## Spells -/

/-- What `Spell` keeps of a line of the spell file. -/
structure Spell where
  m_name : QString
  m_buffDurationFormula : Int16
  m_buffDurationArgument : Int16
  m_targetType : UInt8
  deriving DecidableEq, Repr

/-- `Spells`, the table of known spells, and the names built into the program. -/
structure Spells where
  m_maxSpell : UInt16
  m_spells : UInt16 → Option Spell
  spell_name : UInt16 → QString

/-- `Spells::spell`, none for an id behind the table. -/
def Spells.spell (t : Spells) (spell : UInt16) : Option Spell :=
  if t.m_maxSpell ≤ spell then none else t.m_spells spell

/-- Ticks. `lroundf` of `level / 2` and of `level * 0.6` are in integers; 65535 does not fit. -/
def Spell.calcDuration (s : Spell) (level : UInt8) : Int16 :=
  let limit (n : Nat) : Int16 :=
    if s.m_buffDurationArgument < Int16.ofNat n then s.m_buffDurationArgument else Int16.ofNat n
  match s.m_buffDurationFormula.toInt with
  | 0 => 0
  | 1 | 6 => limit ((level.toNat + 1) / 2)
  | 3 | 4 | 11 | 12 => s.m_buffDurationArgument
  | 2 => limit ((6 * level.toNat + 5) / 10)
  | 5 => 3
  | 7 => limit level.toNat
  | 8 => limit (level.toNat + 10)
  | 9 => limit (level.toNat * 2 + 10)
  | 10 => limit (level.toNat * 3 + 10)
  | 50 => Int16.ofNat 65535
  | 51 => s.m_buffDurationArgument
  | 3600 => 3600
  | _ => s.m_buffDurationArgument

/-- `spell && spell->targetType() == 6`. -/
def selfOnly (spell : Option Spell) : Bool := spell.any fun spell => spell.m_targetType = 6

/-! ## Items -/

/-- `SpellItem`, a buff that the shell shows: the spell, who cast it on whom, and the seconds that
    are left. -/
structure SpellItem where
  spellId : UInt16 := 0
  targetId : UInt16 := 0
  casterId : UInt16 := 0
  spellName : QString := []
  casterName : QString := []
  targetName : QString := []
  duration : Int32 := 0
  deriving DecidableEq, Repr

/-- The target of a spell on the caster alone is not set. -/
def SpellItem.update (t : Spells) (item : SpellItem) (spellId : UInt16) (spell : Option Spell)
    (duration : Int32) (casterId : UInt16) (casterName : QString) (targetId : UInt16)
    (targetName : QString) : SpellItem where
  spellId := spellId
  duration := duration
  spellName :=
    match spell with
    | some spell => spell.m_name
    | none => t.spell_name spellId
  targetId := if selfOnly spell then item.targetId else targetId
  casterId := casterId
  casterName := if casterName = [] then "N/A".toList else casterName
  targetName := if targetName = [] then "N/A".toList else targetName

/-- `SpellShell` by its values; `Objects.lean` has the pointers. -/
structure SpellShell where
  m_spellList : List SpellItem
  deriving DecidableEq, Repr

/-- The signals of the shell, with the item as it was when they were emitted. -/
inductive SpellSignal where
  | addSpell (item : SpellItem)
  | delSpell (item : SpellItem)
  | changeSpell (item : SpellItem)
  | clearSpells
  deriving DecidableEq, Repr

/-- A signal, and the list that its slots find. -/
structure Emit where
  signal : SpellSignal
  spellList : List SpellItem
  deriving DecidableEq, Repr

/-! ## Packets -/

/-- What `selfStartSpellCast` reads of its packet. -/
structure StartCastStruct where
  spellId : UInt16
  targetId : UInt16
  deriving DecidableEq, Repr

/-- What `buffLoad` reads of a buff in the profile. -/
structure SpellBuff where
  spellid : UInt16
  duration : UInt16
  deriving DecidableEq, Repr

/-- What `buff` reads of its packet: whose buff is changed, which spell, for how long, and how. -/
structure BuffStruct where
  spawnid : UInt16
  spellid : UInt16
  duration : UInt16
  changetype : UInt32
  deriving DecidableEq, Repr

/-- What `action` reads of its packet: who cast which spell on whom, at what level, and the kind of
    action. -/
structure ActionStruct where
  target : UInt16
  source : UInt16
  level : UInt16
  type : UInt8
  spell : UInt16
  deriving DecidableEq, Repr

/-! ## Lookups -/

/-- `SpawnShell::findID(tSpawn, id)`. -/
def findID (sh : SpawnShell) (id : UInt16) : Option Item :=
  if id = sh.m_player.m_ID then some (.player sh.m_player)
  else (sh.m_spawns.lookup (id.toNat : Int)).map .spawn

/-- The name of the spawn with that id, empty when there is none. -/
def nameOf (sh : SpawnShell) (id : UInt16) : QString :=
  if id = 0 then []
  else
    match findID sh id with
    | some item => item.name
    | none => []

namespace SpellShell

/-- The first item of that spell on that target. -/
def findSpell (s : SpellShell) (spellId targetId : UInt16) (targetName : QString) : Option Nat :=
  s.m_spellList.findIdx? fun i =>
    i.spellId = spellId &&
      (i.targetId = targetId || (i.targetId = 0 && i.targetName = targetName))

/-- The first item of that spell. -/
def findSpellById (s : SpellShell) (spell_id : UInt16) : Option Nat :=
  s.m_spellList.findIdx? fun i => i.spellId = spell_id

/-! ## Slots -/

/-- `SpellShell::clear`; the slots of the signal still find the list. -/
def clear (s : SpellShell) : SpellShell × List Emit :=
  ({ m_spellList := [] }, [{ signal := .clearSpells, spellList := s.m_spellList }])

/-- The item leaves the list, then the signal goes out. -/
def deleteSpell (s : SpellShell) (i : Nat) : SpellShell × List Emit :=
  match s.m_spellList[i]? with
  | some item =>
      let l := s.m_spellList.eraseIdx i
      ({ m_spellList := l }, [{ signal := .delSpell item, spellList := l }])
  | none => (s, [])

/-- An item changed in its place in the list, and announced as it is then. -/
def changeAt (s : SpellShell) (i : Nat) (f : SpellItem → SpellItem) : SpellShell × List Emit :=
  match s.m_spellList[i]? with
  | some item =>
      let l := s.m_spellList.set i (f item)
      ({ m_spellList := l }, [{ signal := .changeSpell (f item), spellList := l }])
  | none => (s, [])

/-- A new item at the end. -/
def append (s : SpellShell) (f : SpellItem → SpellItem) : SpellShell × List Emit :=
  let l := s.m_spellList ++ [f {}]
  ({ m_spellList := l }, [{ signal := .addSpell (f {}), spellList := l }])

/-- `SpellShell::selfStartSpellCast`: the item of the spell on its target is updated or made, with
    the duration at the level of the player. -/
def selfStartSpellCast (t : Spells) (sh : SpawnShell) (s : SpellShell) (c : StartCastStruct) :
    SpellShell × List Emit :=
  let spell := t.spell c.spellId
  let duration : Int32 :=
    match spell with
    | some spell => (spell.calcDuration sh.m_player.level.toUInt32.toUInt8).toInt32 * 6
    | none => 0
  let targetName := if selfOnly spell then sh.m_player.name else nameOf sh c.targetId
  let item :=
    if selfOnly spell then s.findSpellById c.spellId
    else s.findSpell c.spellId c.targetId targetName
  let update := fun item : SpellItem =>
    item.update t c.spellId spell duration sh.m_player.m_ID sh.m_player.name c.targetId targetName
  match item with
  | some i => s.changeAt i update
  | none => s.append update

/-- `SpellShell::buffLoad`: a buff of the profile, with the ticks that the profile gives. -/
def buffLoad (t : Spells) (sh : SpawnShell) (s : SpellShell) (c : SpellBuff) :
    SpellShell × List Emit :=
  let spell := t.spell c.spellid
  let duration : Int32 := c.duration.toUInt32.toInt32 * 6
  let update := fun item : SpellItem =>
    item.update t c.spellid spell duration 0 "Buff".toList sh.m_player.m_ID sh.m_player.name
  match s.findSpell c.spellid sh.m_player.m_ID sh.m_player.name with
  | some i => s.changeAt i update
  | none => s.append update

/-- No 16-bit `spellid` is 0xffffffff, so the test for a second packet never holds. -/
def buff (t : Spells) (sh : SpawnShell) (s : SpellShell) (b : BuffStruct) (fromClient : Bool) :
    SpellShell × List Emit :=
  if fromClient then (s, [])
  else if b.spellid.toUInt32 = 0xffffffff then (s, [])
  else
    let item :=
      if selfOnly (t.spell b.spellid) then s.findSpellById b.spellid
      else s.findSpell b.spellid b.spawnid (nameOf sh b.spawnid)
    match item with
    | none => (s, [])
    | some i =>
        if b.changetype = 1 then s.deleteSpell i
        else if b.changetype = 2 then
          s.changeAt i fun item => { item with duration := b.duration.toUInt32.toInt32 * 6 }
        else (s, [])

/-- `SpellShell::action`: of the actions only a spell that lands; an item that is not known is made
    when it lands on the player. -/
def action (t : Spells) (sh : SpawnShell) (s : SpellShell) (a : ActionStruct) :
    SpellShell × List Emit :=
  if a.type ≠ 0xe7 then (s, [])
  else
    let targetName := nameOf sh a.target
    let spell := t.spell a.spell
    let duration : Int32 :=
      match spell with
      | some spell => (spell.calcDuration a.level.toUInt8).toInt32 * 6
      | none => 0
    let update := fun item : SpellItem =>
      item.update t a.spell spell duration a.source (nameOf sh a.source) a.target targetName
    match s.findSpell a.spell a.target targetName with
    | some i => s.changeAt i update
    | none => if a.target = sh.m_player.m_ID then s.append update else (s, [])

/-- `QString::left`: the whole text for a count out of range. -/
def left (str : QString) (n : Int) : QString :=
  if 0 ≤ n ∧ n < str.length then str.take n.toNat else str

/-- `QString::right`: the whole text for a count out of range. -/
def right (str : QString) (n : Int) : QString :=
  if 0 ≤ n ∧ n < str.length then str.drop (str.length - n.toNat) else str

/-- The spell that the message says was resisted or wore off. -/
def faded (str : QString) : Option QString :=
  let spell := right str (str.length - 7)
  if left spell 25 = "Your target resisted the ".toList then
    let spell := right spell (spell.length - 25)
    some (left spell (spell.length - 7))
  else if right spell 20 = " spell has worn off.".toList then
    let spell := right spell (spell.length - 5)
    some (left spell (spell.length - 20))
  else none

/-- The first item of that name runs out; nobody is told. -/
def spellMessage (s : SpellShell) (str : QString) : SpellShell × List Emit :=
  match faded str with
  | none => (s, [])
  | some spell =>
      match s.m_spellList.findIdx? fun i => i.spellName = spell with
      | some i => ({ m_spellList := s.m_spellList.modify i ({ · with duration := 0 }) }, [])
      | none => (s, [])

/-- `SpellShell::zoneChanged`: the ids are forgotten, the items stay; no signal says so. -/
def zoneChanged (s : SpellShell) : SpellShell × List Emit :=
  ({ m_spellList := s.m_spellList.map ({ · with targetId := 0, casterId := 0 }) }, [])

/-- The loop of `killSpawn`, with the items in front of the iterator. -/
def removeTarget (id : UInt16) (kept : List SpellItem) : List SpellItem → List SpellItem × List Emit
  | [] => (kept, [])
  | spell :: rest =>
      if spell.targetId = id then
        let r := removeTarget id kept rest
        (r.1, { signal := .delSpell spell, spellList := kept ++ rest } :: r.2)
      else removeTarget id (kept ++ [spell]) rest

/-- `SpellShell::killSpawn`: the death of the player clears the list, another one takes the items on
    the deceased. -/
def killSpawn (sh : SpawnShell) (s : SpellShell) (deceased : Item) : SpellShell × List Emit :=
  if deceased.id = sh.m_player.m_ID then s.clear
  else
    let r := removeTarget deceased.id [] s.m_spellList
    ({ m_spellList := r.1 }, r.2)

/-- The item is left with no more than minus six seconds after this tick. -/
def expires (spellTimer : Int32) (spell : SpellItem) : Bool := !(-6 < spell.duration - spellTimer)

/-- The loop of `timeout`, with the items in front of the iterator. An item that expires is
    still in the list when its signal goes out. -/
def tick (spellTimer : Int32) (kept : List SpellItem) :
    List SpellItem → List SpellItem × List Emit
  | [] => (kept, [])
  | spell :: rest =>
      if expires spellTimer spell then
        let r := tick spellTimer kept rest
        (r.1, { signal := .delSpell spell, spellList := kept ++ spell :: rest } :: r.2)
      else
        let spell' := { spell with duration := spell.duration - spellTimer }
        let r := tick spellTimer (kept ++ [spell']) rest
        (r.1, { signal := .changeSpell spell', spellList := kept ++ spell' :: rest } :: r.2)

/-- `spellTimer` is the preference `SpellTimer`. -/
def timeout (s : SpellShell) (spellTimer : Int32) : SpellShell × List Emit :=
  let r := tick spellTimer [] s.m_spellList
  ({ m_spellList := r.1 }, r.2)

end SpellShell

/-! ## Runs -/

/-- An operation, with what it finds in `SpawnShell` and in the preferences. -/
inductive SpellEvent where
  | selfStartSpellCast (sh : SpawnShell) (c : StartCastStruct)
  | buffLoad (sh : SpawnShell) (c : SpellBuff)
  | buff (sh : SpawnShell) (b : BuffStruct) (fromClient : Bool)
  | action (sh : SpawnShell) (a : ActionStruct)
  | spellMessage (str : QString)
  | zoneChanged
  | killSpawn (sh : SpawnShell) (deceased : Item)
  | clear
  | timeout (spellTimer : Int32)

/-- The state after an event, and the signals that it emitted. -/
def SpellShell.next (t : Spells) (s : SpellShell) : SpellEvent → SpellShell × List Emit
  | .selfStartSpellCast sh c => s.selfStartSpellCast t sh c
  | .buffLoad sh c => s.buffLoad t sh c
  | .buff sh b fromClient => s.buff t sh b fromClient
  | .action sh a => s.action t sh a
  | .spellMessage str => s.spellMessage str
  | .zoneChanged => s.zoneChanged
  | .killSpawn sh deceased => s.killSpawn sh deceased
  | .clear => s.clear
  | .timeout spellTimer => s.timeout spellTimer

/-! ## The session's messages -/

/-- A row of the `BuffsUpdate` message: the spell, the time that is left, the caster and the target,
    with their names. -/
structure Buff where
  spell_id : UInt16
  spell_name : QString
  duration_s : Int32
  caster_id : UInt16
  caster_name : QString
  target_id : UInt16
  target_name : QString
  deriving DecidableEq, Repr

/-- `fillBuff`: a row of what the clients see. -/
def fillBuff (s : SpellItem) : Buff where
  spell_id := s.spellId
  spell_name := s.spellName
  duration_s := s.duration
  caster_id := s.casterId
  caster_name := s.casterName
  target_id := s.targetId
  target_name := s.targetName

/-- `SessionAdapter::sendBuffsUpdate`, at the list it finds. -/
def sendBuffsUpdate (spellList : List SpellItem) : List Buff := spellList.map fillBuff

/-- `SessionAdapter::onBuffsChanged`, connected to all four signals. -/
def onBuffsChanged (e : Emit) : List Buff := sendBuffsUpdate e.spellList

end ShoweqDaemon.Buffs
