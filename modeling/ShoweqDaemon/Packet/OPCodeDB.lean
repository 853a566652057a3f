/-
  `EQPacketOPCodeDB`: the opcodes, in a table by value and in a table by name.

  Objects live in `memory`; `deleted` marks those that were deleted, whose memory may still be read
  through a pointer that dangles. A table holds pointers. `add` and `move` put an object under a key
  without a look at the one that they displace there; it stays in the other table.
  `consistent_iff` is the exact condition on a run.

  Proved:
  * `add_inv`, `drop_inv`, `move_eq`, `rename_inv`: what one operation does to the tables, and
    that each object stays under the key that it has.
  * `keyed_runs`: this in every run, and what is looked up is not a deleted object.
  * `step_same_iff`, `consistent_iff`: the condition on one operation, and on a run from the empty
    database.
  * `repeated_opcode_displaces`: two unresolved opcodes of one value.
-/
import ShoweqDaemon.Lib.Index
import ShoweqDaemon.Lib.Run
import ShoweqDaemon.Spawn.Item

namespace ShoweqDaemon.Packet

open Index
open Spawns (QString)

/-- The fields of an opcode object that are keys of the tables. -/
structure EQPacketOPCode where
  m_opcode : UInt16
  m_name : QString
  deriving DecidableEq, Repr

/-- What `new` returns. No address is used twice, so that a dangling pointer stays one. -/
abbrev ObjectAddr := Nat

/-- `EQPacketOPCodeDB`: two hash tables with pointers to the same objects, and the memory that the
    pointers go to. -/
structure EQPacketOPCodeDB where
  m_opcodes : Table UInt16 ObjectAddr := ∅
  m_opcodesByName : Table QString ObjectAddr := ∅
  memory : ObjectAddr → EQPacketOPCode := fun _ => { m_opcode := 0, m_name := [] }
  deleted : ObjectAddr → Bool := fun _ => false
  allocated : Nat := 0

namespace EQPacketOPCodeDB

/-- `EQPacketOPCodeDB::add`: a new object under both keys; what a key had before is lost from its
    table. -/
def add (db : EQPacketOPCodeDB) (opcode : UInt16) (name : QString) : EQPacketOPCodeDB :=
  let newOPCode := db.allocated
  { db with
    memory := Function.update db.memory newOPCode { m_opcode := opcode, m_name := name }
    allocated := db.allocated + 1
    m_opcodes := db.m_opcodes.insert opcode newOPCode
    m_opcodesByName := db.m_opcodesByName.insert name newOPCode }

/-- `EQPacketOPCodeDB::edit`: the pointer under a number. -/
def edit (db : EQPacketOPCodeDB) (opcode : UInt16) : Option ObjectAddr :=
  db.m_opcodes.lookup opcode

/-- `EQPacketOPCodeDB::edit` by name. -/
def editByName (db : EQPacketOPCodeDB) (name : QString) : Option ObjectAddr :=
  db.m_opcodesByName.lookup name

/-- `delete` of an opcode object. -/
def delete (db : EQPacketOPCodeDB) (opcode : ObjectAddr) : EQPacketOPCodeDB :=
  { db with deleted := Function.update db.deleted opcode true }

/-- `EQPacketOPCodeDB::remove`: the object under a number is deleted and taken out of both tables.
    -/
def remove (db : EQPacketOPCodeDB) (opcode : UInt16) : EQPacketOPCodeDB :=
  match db.m_opcodes.lookup opcode with
  | some opcodeObj =>
      { db.delete opcodeObj with
        m_opcodes := db.m_opcodes.erase opcode
        m_opcodesByName := db.m_opcodesByName.erase (db.memory opcodeObj).m_name }
  | none => db

/-- `EQPacketOPCodeDB::remove` by name: the object is deleted and taken from both tables, from the
    one by value under the value that it has. -/
def removeByName (db : EQPacketOPCodeDB) (opcodeName : QString) : EQPacketOPCodeDB :=
  match db.m_opcodesByName.lookup opcodeName with
  | some opcode =>
      { db.delete opcode with
        m_opcodesByName := db.m_opcodesByName.erase opcodeName
        m_opcodes := db.m_opcodes.erase (db.memory opcode).m_opcode }
  | none => db

/-- Without an object under the old value `move` fails. -/
def move (db : EQPacketOPCodeDB) (oldOPCode newOPCode : UInt16) : EQPacketOPCodeDB :=
  match db.m_opcodes.lookup oldOPCode with
  | some opcode =>
      { db with
        memory := Function.update db.memory opcode
          { db.memory opcode with m_opcode := newOPCode }
        m_opcodes := (db.m_opcodes.erase oldOPCode).insert newOPCode opcode }
  | none => db

/-- `EQPacketOPCodeDB::move` by name: the object gets the new name and is put under it, over
    whatever is there; the table by value is left alone. -/
def moveByName (db : EQPacketOPCodeDB) (oldOPCodeName newOPCodeName : QString) :
    EQPacketOPCodeDB :=
  match db.m_opcodesByName.lookup oldOPCodeName with
  | some opcode =>
      { db with
        memory := Function.update db.memory opcode
          { db.memory opcode with m_name := newOPCodeName }
        m_opcodesByName := (db.m_opcodesByName.erase oldOPCodeName).insert newOPCodeName opcode }
  | none => db

/-- The operations of the database. `edit` only gives an object out. -/
inductive Op where
  | add (opcode : UInt16) (name : QString)
  | edit (opcode : UInt16)
  | editByName (name : QString)
  | remove (opcode : UInt16)
  | removeByName (name : QString)
  | move (oldOPCode newOPCode : UInt16)
  | moveByName (oldName newName : QString)

/-- The database after an operation; `edit` only looks an object up. -/
def step (db : EQPacketOPCodeDB) : Op → EQPacketOPCodeDB
  | .add opcode name => db.add opcode name
  | .edit _ | .editByName _ => db
  | .remove opcode => db.remove opcode
  | .removeByName name => db.removeByName name
  | .move oldOPCode newOPCode => db.move oldOPCode newOPCode
  | .moveByName oldName newName => db.moveByName oldName newName

/-! ## What holds always -/

/-- The number that an object has. -/
def opcodeOf (db : EQPacketOPCodeDB) (a : ObjectAddr) : UInt16 := (db.memory a).m_opcode

/-- The name that an object has. -/
def nameOf (db : EQPacketOPCodeDB) (a : ObjectAddr) : QString := (db.memory a).m_name

/-- Every entry is stored under its own key, and no table refers to a deleted object. -/
structure Keyed (db : EQPacketOPCodeDB) : Prop where
  byOpcode : Indexes db.opcodeOf db.m_opcodes
  byName : Indexes db.nameOf db.m_opcodesByName
  alive : ∀ a, Holds db.m_opcodes a ∨ Holds db.m_opcodesByName a → db.deleted a = false

/-- Objects are allocated in order. -/
structure Inv (db : EQPacketOPCodeDB) : Prop extends db.Keyed where
  old : ∀ a, Holds db.m_opcodes a ∨ Holds db.m_opcodesByName a → a < db.allocated
  fresh : ∀ a, db.allocated ≤ a → db.deleted a = false

/-- The entries are keyed right and the two tables hold the same objects. -/
def Consistent (db : EQPacketOPCodeDB) : Prop :=
  db.Keyed ∧ SameObjects db.m_opcodes db.m_opcodesByName

variable {db : EQPacketOPCodeDB}

theorem Inv.unused (h : db.Inv) :
    ¬ (Holds db.m_opcodes db.allocated ∨ Holds db.m_opcodesByName db.allocated) :=
  fun hmem => Nat.lt_irrefl _ (h.old _ hmem)

theorem add_inv (h : db.Inv) (opcode : UInt16) (name : QString) : (db.add opcode name).Inv := by
  have hother : ∀ b, Holds db.m_opcodes b ∨ Holds db.m_opcodesByName b →
      (db.add opcode name).memory b = db.memory b := by
    intro b hb
    refine Function.update_of_ne (fun heq => ?_) _ _
    rw [heq] at hb
    exact h.unused hb
  have hnew : (db.add opcode name).memory db.allocated = { m_opcode := opcode, m_name := name } :=
    Function.update_self _ _ _
  have hopcodes : Indexes (db.add opcode name).opcodeOf db.m_opcodes :=
    h.byOpcode.congr fun b hb => congrArg EQPacketOPCode.m_opcode (hother b (Or.inl hb))
  have hnames : Indexes (db.add opcode name).nameOf db.m_opcodesByName :=
    h.byName.congr fun b hb => congrArg EQPacketOPCode.m_name (hother b (Or.inr hb))
  have hheld : ∀ b, Holds (db.add opcode name).m_opcodes b ∨
      Holds (db.add opcode name).m_opcodesByName b →
        b = db.allocated ∨ Holds db.m_opcodes b ∨ Holds db.m_opcodesByName b := by
    rintro b (hb | hb)
    · exact ((holds_insert hopcodes _ _ _).mp hb).imp_right fun hb' => Or.inl hb'.1
    · exact ((holds_insert hnames _ _ _).mp hb).imp_right fun hb' => Or.inr hb'.1
  exact
    { byOpcode := hopcodes.insert (congrArg EQPacketOPCode.m_opcode hnew)
      byName := hnames.insert (congrArg EQPacketOPCode.m_name hnew)
      alive := fun b hb => (hheld b hb).elim
        (fun heq => by rw [heq]; exact h.fresh _ le_rfl) (h.alive b)
      old := fun b hb => (hheld b hb).elim
        (fun heq => by rw [heq]; exact Nat.lt_succ_self _)
        (fun hb' => Nat.lt_succ_of_lt (h.old b hb'))
      fresh := fun b hb => h.fresh b (Nat.le_of_succ_le hb) }

/-- An object deleted, and dropped from both tables. -/
def drop (db : EQPacketOPCodeDB) (a : ObjectAddr) : EQPacketOPCodeDB :=
  { db.delete a with
    m_opcodes := db.m_opcodes.erase (db.opcodeOf a)
    m_opcodesByName := db.m_opcodesByName.erase (db.nameOf a) }

theorem remove_eq (h : db.Inv) (opcode : UInt16) :
    db.remove opcode = (db.m_opcodes.lookup opcode).elim db db.drop := by
  unfold remove
  cases hfound : db.m_opcodes.lookup opcode with
  | none => rfl
  | some a =>
      have hkey : db.opcodeOf a = opcode := h.byOpcode opcode a hfound
      show _ = db.drop a
      unfold drop
      rw [hkey]
      rfl

theorem removeByName_eq (h : db.Inv) (name : QString) :
    db.removeByName name = (db.m_opcodesByName.lookup name).elim db db.drop := by
  unfold removeByName
  cases hfound : db.m_opcodesByName.lookup name with
  | none => rfl
  | some a =>
      have hkey : db.nameOf a = name := h.byName name a hfound
      show _ = db.drop a
      unfold drop
      rw [hkey]
      rfl

theorem drop_inv (h : db.Inv) {a : ObjectAddr}
    (ha : Holds db.m_opcodes a ∨ Holds db.m_opcodesByName a) : (db.drop a).Inv := by
  have hheld : ∀ b, Holds (db.drop a).m_opcodes b ∨ Holds (db.drop a).m_opcodesByName b →
      b ≠ a ∧ (Holds db.m_opcodes b ∨ Holds db.m_opcodesByName b) := by
    rintro b (hb | hb)
    · have hb' := (holds_erase h.byOpcode _ b).mp hb
      exact ⟨fun heq => hb'.2 (congrArg db.opcodeOf heq), Or.inl hb'.1⟩
    · have hb' := (holds_erase h.byName _ b).mp hb
      exact ⟨fun heq => hb'.2 (congrArg db.nameOf heq), Or.inr hb'.1⟩
  have hdeleted : ∀ b, b ≠ a → (db.drop a).deleted b = db.deleted b :=
    fun b hb => Function.update_of_ne hb _ _
  exact
    { byOpcode := h.byOpcode.erase _
      byName := h.byName.erase _
      alive := fun b hb => (hdeleted b (hheld b hb).1).trans (h.alive b (hheld b hb).2)
      old := fun b hb => h.old b (hheld b hb).2
      fresh := fun b hb => (hdeleted b (Nat.ne_of_gt (Nat.lt_of_lt_of_le (h.old a ha) hb))).trans
        (h.fresh b hb) }

/-- The object under the old value, put under the new one. -/
def renumber (db : EQPacketOPCodeDB) (oldOPCode newOPCode : UInt16) (a : ObjectAddr) :
    EQPacketOPCodeDB :=
  { db with
    memory := Function.update db.memory a { db.memory a with m_opcode := newOPCode }
    m_opcodes := (db.m_opcodes.erase oldOPCode).insert newOPCode a }

/-- The object under the old name, put under the new one. -/
def rename (db : EQPacketOPCodeDB) (oldName newName : QString) (a : ObjectAddr) :
    EQPacketOPCodeDB :=
  { db with
    memory := Function.update db.memory a { db.memory a with m_name := newName }
    m_opcodesByName := (db.m_opcodesByName.erase oldName).insert newName a }

theorem move_eq (db : EQPacketOPCodeDB) (oldOPCode newOPCode : UInt16) :
    db.move oldOPCode newOPCode =
      (db.m_opcodes.lookup oldOPCode).elim db (db.renumber oldOPCode newOPCode) := by
  unfold move
  cases db.m_opcodes.lookup oldOPCode <;> rfl

theorem moveByName_eq (db : EQPacketOPCodeDB) (oldName newName : QString) :
    db.moveByName oldName newName =
      (db.m_opcodesByName.lookup oldName).elim db (db.rename oldName newName) := by
  unfold moveByName
  cases db.m_opcodesByName.lookup oldName <;> rfl

/-- Only the opcode of the object itself changes. -/
theorem renumber_opcodeOf (oldOPCode newOPCode : UInt16) (a b : ObjectAddr) :
    (db.renumber oldOPCode newOPCode a).opcodeOf b = if b = a then newOPCode else db.opcodeOf b := by
  show (Function.update db.memory a _ b).m_opcode = _
  rw [Function.update_apply]
  split <;> rfl

theorem renumber_nameOf (oldOPCode newOPCode : UInt16) (a : ObjectAddr) :
    (db.renumber oldOPCode newOPCode a).nameOf = db.nameOf := by
  funext b
  show (Function.update db.memory a _ b).m_name = _
  rw [Function.update_apply]
  split
  · rename_i heq
    rw [heq]
    rfl
  · rfl

theorem rename_nameOf (oldName newName : QString) (a b : ObjectAddr) :
    (db.rename oldName newName a).nameOf b = if b = a then newName else db.nameOf b := by
  show (Function.update db.memory a _ b).m_name = _
  rw [Function.update_apply]
  split <;> rfl

theorem rename_opcodeOf (oldName newName : QString) (a : ObjectAddr) :
    (db.rename oldName newName a).opcodeOf = db.opcodeOf := by
  funext b
  show (Function.update db.memory a _ b).m_opcode = _
  rw [Function.update_apply]
  split
  · rename_i heq
    rw [heq]
    rfl
  · rfl

theorem renumber_inv (h : db.Inv) (newOPCode : UInt16) {oldOPCode : UInt16} {a : ObjectAddr}
    (hold : db.m_opcodes.lookup oldOPCode = some a) :
    (db.renumber oldOPCode newOPCode a).Inv := by
  have hmoved : ∀ b, b ≠ a → (db.renumber oldOPCode newOPCode a).opcodeOf b = db.opcodeOf b :=
    fun b hb => (renumber_opcodeOf oldOPCode newOPCode a b).trans (if_neg hb)
  have hself : (db.renumber oldOPCode newOPCode a).opcodeOf a = newOPCode :=
    (renumber_opcodeOf oldOPCode newOPCode a a).trans (if_pos rfl)
  have hheld : ∀ b, Holds (db.renumber oldOPCode newOPCode a).m_opcodes b ∨
      Holds db.m_opcodesByName b → Holds db.m_opcodes b ∨ Holds db.m_opcodesByName b := by
    refine fun b hb => hb.imp_left fun hb' => ?_
    obtain rfl | hb' := (holds_move h.byOpcode hold hmoved newOPCode b).mp hb'
    · exact ⟨oldOPCode, hold⟩
    · exact hb'.1
  have hopcodes := h.byOpcode.move hold hmoved
  rw [hself] at hopcodes
  exact
    { byOpcode := hopcodes
      byName := by rw [renumber_nameOf]; exact h.byName
      alive := fun b hb => h.alive b (hheld b hb)
      old := fun b hb => h.old b (hheld b hb)
      fresh := h.fresh }

theorem rename_inv (h : db.Inv) (newName : QString) {oldName : QString} {a : ObjectAddr}
    (hold : db.m_opcodesByName.lookup oldName = some a) : (db.rename oldName newName a).Inv := by
  have hmoved : ∀ b, b ≠ a → (db.rename oldName newName a).nameOf b = db.nameOf b :=
    fun b hb => (rename_nameOf oldName newName a b).trans (if_neg hb)
  have hself : (db.rename oldName newName a).nameOf a = newName :=
    (rename_nameOf oldName newName a a).trans (if_pos rfl)
  have hheld : ∀ b, Holds db.m_opcodes b ∨
      Holds (db.rename oldName newName a).m_opcodesByName b →
        Holds db.m_opcodes b ∨ Holds db.m_opcodesByName b := by
    refine fun b hb => hb.imp_right fun hb' => ?_
    obtain rfl | hb' := (holds_move h.byName hold hmoved newName b).mp hb'
    · exact ⟨oldName, hold⟩
    · exact hb'.1
  have hnames := h.byName.move hold hmoved
  rw [hself] at hnames
  exact
    { byOpcode := by rw [rename_opcodeOf]; exact h.byOpcode
      byName := hnames
      alive := fun b hb => h.alive b (hheld b hb)
      old := fun b hb => h.old b (hheld b hb)
      fresh := h.fresh }

theorem step_inv (h : db.Inv) (op : Op) : (db.step op).Inv := by
  cases op with
  | add opcode name => exact add_inv h opcode name
  | edit opcode => exact h
  | editByName name => exact h
  | remove opcode =>
      show (db.remove opcode).Inv
      rw [remove_eq h]
      cases hfound : db.m_opcodes.lookup opcode with
      | none => exact h
      | some a => exact drop_inv h (Or.inl ⟨opcode, hfound⟩)
  | removeByName name =>
      show (db.removeByName name).Inv
      rw [removeByName_eq h]
      cases hfound : db.m_opcodesByName.lookup name with
      | none => exact h
      | some a => exact drop_inv h (Or.inr ⟨name, hfound⟩)
  | move oldOPCode newOPCode =>
      show (db.move oldOPCode newOPCode).Inv
      rw [move_eq]
      cases hfound : db.m_opcodes.lookup oldOPCode with
      | none => exact h
      | some a => exact renumber_inv h newOPCode hfound
  | moveByName oldName newName =>
      show (db.moveByName oldName newName).Inv
      rw [moveByName_eq]
      cases hfound : db.m_opcodesByName.lookup oldName with
      | none => exact h
      | some a => exact rename_inv h newName hfound

/-! ## The same objects -/

/-- The operation displaces no object from one table that stays in the other: `add` finds the same
    object, or none, under both keys; `move` goes to a free key. -/
def Keeps (db : EQPacketOPCodeDB) : Op → Prop
  | .add opcode name => db.m_opcodes.lookup opcode = db.m_opcodesByName.lookup name
  | .move oldOPCode newOPCode =>
      db.m_opcodes.lookup oldOPCode = none ∨ newOPCode = oldOPCode ∨
        db.m_opcodes.lookup newOPCode = none
  | .moveByName oldName newName =>
      db.m_opcodesByName.lookup oldName = none ∨ newName = oldName ∨
        db.m_opcodesByName.lookup newName = none
  | _ => True

theorem drop_same (h : db.Inv) (hsame : SameObjects db.m_opcodes db.m_opcodesByName)
    {a : ObjectAddr} (ha : Holds db.m_opcodes a) :
    SameObjects (db.drop a).m_opcodes (db.drop a).m_opcodesByName :=
  sameObjects_erase h.byOpcode h.byName hsame ha

theorem step_same_iff (h : db.Inv) (hsame : SameObjects db.m_opcodes db.m_opcodesByName)
    (op : Op) :
    SameObjects (db.step op).m_opcodes (db.step op).m_opcodesByName ↔ db.Keeps op := by
  cases op with
  | add opcode name =>
      have hunused : ¬ Holds db.m_opcodes db.allocated := fun hmem => h.unused (Or.inl hmem)
      exact sameObjects_insert_iff h.byOpcode h.byName hsame hunused opcode name
  | edit opcode => exact iff_of_true hsame trivial
  | editByName name => exact iff_of_true hsame trivial
  | remove opcode =>
      refine iff_of_true ?_ trivial
      show SameObjects (db.remove opcode).m_opcodes (db.remove opcode).m_opcodesByName
      rw [remove_eq h]
      cases hfound : db.m_opcodes.lookup opcode with
      | none => exact hsame
      | some a => exact drop_same h hsame ⟨opcode, hfound⟩
  | removeByName name =>
      refine iff_of_true ?_ trivial
      show SameObjects (db.removeByName name).m_opcodes (db.removeByName name).m_opcodesByName
      rw [removeByName_eq h]
      cases hfound : db.m_opcodesByName.lookup name with
      | none => exact hsame
      | some a => exact drop_same h hsame ((hsame a).mpr ⟨name, hfound⟩)
  | move oldOPCode newOPCode =>
      show SameObjects (db.move oldOPCode newOPCode).m_opcodes
        (db.move oldOPCode newOPCode).m_opcodesByName ↔ _
      rw [move_eq]
      cases hfound : db.m_opcodes.lookup oldOPCode with
      | none => exact iff_of_true hsame (Or.inl hfound)
      | some a =>
          have hmoved : ∀ b, b ≠ a →
              (db.renumber oldOPCode newOPCode a).opcodeOf b = db.opcodeOf b :=
            fun b hb => (renumber_opcodeOf oldOPCode newOPCode a b).trans (if_neg hb)
          have hthere : db.m_opcodes.lookup oldOPCode ≠ none := by simp [hfound]
          refine (sameObjects_move_iff h.byOpcode hsame hfound hmoved).trans ?_
          exact (or_iff_right hthere).symm
  | moveByName oldName newName =>
      show SameObjects (db.moveByName oldName newName).m_opcodes
        (db.moveByName oldName newName).m_opcodesByName ↔ _
      rw [moveByName_eq]
      cases hfound : db.m_opcodesByName.lookup oldName with
      | none => exact iff_of_true hsame (Or.inl hfound)
      | some a =>
          have hmoved : ∀ b, b ≠ a → (db.rename oldName newName a).nameOf b = db.nameOf b :=
            fun b hb => (rename_nameOf oldName newName a b).trans (if_neg hb)
          have hthere : db.m_opcodesByName.lookup oldName ≠ none := by simp [hfound]
          refine SameObjects.comm.trans ?_
          refine (sameObjects_move_iff h.byName hsame.symm hfound hmoved).trans ?_
          exact (or_iff_right hthere).symm

/-! ## Runs -/

/-- The empty database. -/
def init : EQPacketOPCodeDB := {}

theorem init_inv : init.Inv where
  byOpcode := fun k a ha => nomatch ha
  byName := fun k a ha => nomatch ha
  alive := fun _ _ => rfl
  old := fun a ha => by
    obtain ⟨k, hk⟩ | ⟨k, hk⟩ := ha <;> cases hk
  fresh := fun _ _ => rfl

theorem init_same : SameObjects init.m_opcodes init.m_opcodesByName :=
  fun a => iff_of_false (fun ⟨k, hk⟩ => by cases hk) (fun ⟨k, hk⟩ => by cases hk)

/-- In every run all entries are stored under their own keys and none refers to a deleted object,
    also when the tables hold different objects. -/
theorem keyed_runs (ops : List Op) : ∀ db ∈ Machine.trace step init ops, db.Keyed := by
  have hinv : ∀ db op, Inv db → Inv (step db op) := fun db op h => step_inv h op
  exact fun db hdb => (Machine.trace_invariant step hinv init_inv ops db hdb).toKeyed

/-- In a run from the empty database the tables are consistent in every state exactly when no
    operation displaces an object from one table alone. -/
theorem consistent_iff (ops : List Op) :
    (∀ db ∈ Machine.trace step init ops, db.Consistent) ↔ Machine.StepsMeet step Keeps init ops := by
  have hinv : ∀ db op, Inv db → Inv (step db op) := fun db op h => step_inv h op
  have hexact : ∀ db op, Inv db → Consistent db → (Consistent (step db op) ↔ Keeps db op) := by
    intro db op h hdb
    exact (and_iff_right (step_inv h op).toKeyed).trans (step_same_iff h hdb.2 op)
  exact Machine.trace_forall_iff_stepsMeet step hinv hexact init_inv
    ⟨init_inv.toKeyed, init_same⟩ ops

/-- Two unresolved opcodes of one value: the first one is only in the table by name. -/
theorem repeated_opcode_displaces :
    ¬ ∀ (ops : List Op), ∀ db ∈ Machine.trace step init ops, db.Consistent := by
  intro h
  let ops : List Op := [.add 0xffff ['A'], .add 0xffff ['B']]
  have hend := h ops _
    ((Machine.mem_trace_iff _ _ _ _).mpr ⟨ops, [], (List.append_nil ops).symm, rfl⟩)
  obtain ⟨k, hk⟩ := (hend.2 0).mpr ⟨['A'], by decide⟩
  have hkey : ∀ k : UInt16, (ops.foldl step init).m_opcodes.lookup k = some 0 → k = 0xffff := by
    intro k hk
    exact ((hend.1.byOpcode k 0 hk).symm.trans rfl)
  rw [hkey k hk] at hk
  exact absurd hk (by decide)

end EQPacketOPCodeDB

end ShoweqDaemon.Packet
