/-
  The opcode files: `EQPacketOPCodeDB::load` and `EQPacketOPCodeDB::save`.

  `load` adds an object for each opcode element and fills it from what stands in the element. An
  object that another one displaces stays in the other table. `save` writes the objects of the table
  by value in their order, with the texts as they are, and looks the direction of a payload up in an
  array that has nothing for none.

  Proved:
  * `load_written`: a file with any elements, in any order, gives under each value the last
    element with that value, and under each name the last with that name.
  * `load_saved`: what was saved is loaded under each value as it was, and under each name the
    object with the greatest value. That is as it was if the two tables had the same objects.
  * `save_isSome_iff`: when `save` stays within its array.
-/
import ShoweqDaemon.Lib.Numeral
import ShoweqDaemon.Lib.XmlWriter
import ShoweqDaemon.Message.EQStr
import ShoweqDaemon.Packet.Dispatch
import ShoweqDaemon.Packet.OPCodeDB

namespace ShoweqDaemon.Packet

open Index
open Spawns (QString)
open XmlReader
open Numeral (printPadded ushort)

/-! ## The database -/

/-- The characters of the type names that the tables have. -/
def isIdentifierChar : Char → Bool :=
  inRanges [(0x30, 0x39), (0x41, 0x5A), (0x5F, 0x5F), (0x61, 0x7A)]

/-- The sizes of the types, by the names that they have in C. `toLatin1` leaves such a name as it
is, and makes one of no other text. -/
structure EQPacketTypeDB where
  m_typeSizeDict : Table QString ℕ
  names : ∀ typeName size, m_typeSizeDict.lookup typeName = some size →
    typeName.all isIdentifierChar = true

namespace EQPacketTypeDB

variable (db : EQPacketTypeDB) (typeName : QString)

/-- The size of a type, 0 for one that is not known. -/
def size : ℕ := (db.m_typeSizeDict.lookup typeName).getD 0

/-- A type without a size is none. -/
def valid : Bool := db.size typeName ≠ 0

end EQPacketTypeDB

/-- `EQPacketPayload::setType`: an unknown type changes nothing. -/
def EQPacketPayload.setType (payload : EQPacketPayload) (db : EQPacketTypeDB) (typeName : QString) :
    EQPacketPayload :=
  if db.valid typeName = true then
    { payload with m_typeName := typeName, m_typeSize := db.size typeName }
  else payload

/-- What an opcode object has beside its keys. -/
structure OPCodeRest where
  m_implicitLen : UInt16 := 0
  m_updated : QString := []
  m_comments : List QString := []
  payloads : List EQPacketPayload := []
  deriving DecidableEq, Repr

/-- An opcode object as a whole. -/
structure OPCodeObject extends EQPacketOPCode, OPCodeRest
  deriving DecidableEq, Repr

/-- The database, with all that its objects have. -/
structure OPCodes where
  db : EQPacketOPCodeDB := .init
  rest : ObjectAddr → OPCodeRest := fun _ => {}

namespace OPCodes

variable (c : OPCodes)

/-- The opcode object at an address, put together from its two parts. -/
def object (a : ObjectAddr) : OPCodeObject :=
  { toEQPacketOPCode := c.db.memory a, toOPCodeRest := c.rest a }

/-- The object under an opcode number. -/
def find (opcode : UInt16) : Option OPCodeObject := (c.db.edit opcode).map c.object

/-- The object under a name. -/
def findByName (name : QString) : Option OPCodeObject := (c.db.editByName name).map c.object

/-- `add` of an opcode that has `rest` when it is looked at next. -/
def addObject (o : OPCodeObject) : OPCodes where
  db := c.db.add o.m_opcode o.m_name
  rest := Function.update c.rest c.db.allocated o.toOPCodeRest

/-- A change of what the tables of numbers and names do not look at. -/
def modify (a : ObjectAddr) (f : OPCodeRest → OPCodeRest) : OPCodes :=
  { c with rest := Function.update c.rest a (f (c.rest a)) }

end OPCodes

/-! ## Loading -/

/-- The attribute as a number of 16 bits, 0 where it is none. -/
def implicitLenOf (attr : List (QString × QString)) : UInt16 :=
  (ushort Messages.isSpace 10 ((attr.lookup "implicitlen".toList).getD [])).getD 0

/-- The directions that the text of `dir` names, none for another text. -/
def dirOf (value : QString) : UInt8 :=
  if value = "both".toList then DIR_Client ||| DIR_Server
  else if value = "server".toList then DIR_Server
  else if value = "client".toList then DIR_Client
  else 0

/-- The size check that the text of `sizechecktype` names, none for another text. -/
def sizeCheckTypeOf (value : QString) : EQSizeCheckType :=
  if value = "match".toList then .SZC_Match
  else if value = "modulus".toList then .SZC_Modulus
  else .SZC_None

/-- A payload element. The attributes that are not there leave what the constructor set. -/
def readPayload (typeDB : EQPacketTypeDB) (attr : List (QString × QString)) : EQPacketPayload :=
  let payload : EQPacketPayload :=
    { m_dir := dirOf ((attr.lookup "dir".toList).getD [])
      m_sizeCheckType := sizeCheckTypeOf ((attr.lookup "sizechecktype".toList).getD []) }
  let typeName := (attr.lookup "typename".toList).getD []
  if typeName ≠ [] then payload.setType typeDB typeName else payload

/-- The locals of `load`. -/
structure Loader where
  opcodes : OPCodes
  currentOPCode : Option ObjectAddr := none
  /-- The text that `readElementText` has so far, while it reads a comment. -/
  elementText : Option QString := none

namespace Loader

section
variable (typeDB : EQPacketTypeDB) (l : Loader)

/-- A change of the opcode whose element is open. -/
def modifyCurrent (f : OPCodeRest → OPCodeRest) : Loader :=
  match l.currentOPCode with
  | some a => { l with opcodes := l.opcodes.modify a f }
  | none => l

/-- `addComment` of what `readElementText` returns. -/
def addComment (text : QString) : Loader :=
  { l.modifyCurrent fun o => { o with m_comments := o.m_comments ++ [text] } with
    elementText := none }

/-- A token within a comment. An element there is an error of the reader. -/
def readElementText (text : QString) : Token → Loader × Bool
  | .characters t => ({ l with elementText := some (text ++ t) }, true)
  | .entityReference _ | .processingInstruction | .comment => (l, true)
  | .endElement _ => (l.addComment text, true)
  | _ => (l.addComment text, false)

/-- The start of an opcode element: an id in base sixteen and a name are asked for, and a new object
    with them becomes the current one. Without them the loading ends. -/
def startOPCode (attr : List (QString × QString)) : Loader × Bool :=
  match attr.lookup "id".toList with
  | none => (l, false)
  | some idStr =>
      match ushort Messages.isSpace 16 idStr with
      | none => (l, false)
      | some opcode =>
          match attr.lookup "name".toList with
          | none => (l, false)
          | some name =>
              ({ l with
                  currentOPCode := some l.opcodes.db.allocated
                  opcodes := l.opcodes.addObject
                    { m_opcode := opcode
                      m_name := name
                      m_updated := (attr.lookup "updated".toList).getD []
                      m_implicitLen := implicitLenOf attr } },
                true)

/-- The start of an element in the loop of `load`; false stops the reading. -/
def startElement (name : QString) (attr : List (QString × QString)) :
    Loader × Bool :=
  if name = "opcode".toList then l.startOPCode attr
  else if name = "comment".toList ∧ l.currentOPCode.isSome = true then
    ({ l with elementText := some [] }, true)
  else if name = "payload".toList then
    (l.modifyCurrent fun o => { o with payloads := o.payloads ++ [readPayload typeDB attr] }, true)
  else (l, true)

/-- One token of the loop, and whether it goes on. -/
def next (tok : Token) : Loader × Bool :=
  match l.elementText with
  | some text => l.readElementText text tok
  | none =>
      match tok with
      | .startElement name attr => l.startElement typeDB name attr
      | .endElement name =>
          (if name = "opcode".toList then { l with currentOPCode := none } else l, true)
      | .invalid => (l, false)
      | _ => (l, true)

end

end Loader

namespace OPCodes

/-- `EQPacketOPCodeDB::load`: the tokens of the file up to the end or the first error. -/
def load (typeDB : EQPacketTypeDB) (c : OPCodes) (file : QString) : OPCodes × Bool :=
  let loaded := consume (Loader.next typeDB) { opcodes := c } (tokens file)
  (loaded.1.opcodes, loaded.2)

end OPCodes

/-! ## Saving -/

/-- The texts of the directions, by value. -/
def dirStrs : List String := ["client", "server", "both"]

/-- `dirStrs[dir - 1]`, if there is such an element. -/
def dirStr (dir : UInt8) : Option QString :=
  if dir = 0 then none else dirStrs[dir.toNat - 1]?.map String.toList

/-- The texts of the size checks. -/
def sztStr : EQSizeCheckType → QString
  | .SZC_None => "none".toList
  | .SZC_Match => "match".toList
  | .SZC_Modulus => "modulus".toList

/-- A payload as a line of the file; a direction that has no text is outside of the table. -/
def EQPacketPayload.save (indent : QString) (payload : EQPacketPayload) : Option QString :=
  (dirStr payload.m_dir).map fun dirStr =>
    indent ++ "<payload dir=\"".toList ++ dirStr ++ "\" typename=\"".toList ++
      payload.m_typeName ++ "\" sizechecktype=\"".toList ++ sztStr payload.m_sizeCheckType ++
      "\"/>".toList ++ ['\n']

namespace OPCodeObject

variable (indent : QString) (o : OPCodeObject)

/-- The opening tag of an opcode: its value in at least four digits of base sixteen, its name, and
    the length and the date if there are any. The texts are written as they are. -/
def saveStart : QString :=
  "<opcode id=\"".toList ++ printPadded 16 4 o.m_opcode.toNat ++ "\" name=\"".toList ++
  o.m_name ++ "\"".toList ++
  (if o.m_implicitLen ≠ 0 then
    " implicitlen=\"".toList ++ Nat.toDigits 10 o.m_implicitLen.toNat ++ "\"".toList
  else []) ++
  (if o.m_updated ≠ [] then " updated=\"".toList ++ o.m_updated ++ "\"".toList else []) ++
  ">".toList

/-- A comment as a line of the file. -/
def saveComment (comment : QString) : QString :=
  indent ++ "<comment>".toList ++ comment ++ "</comment>".toList ++ ['\n']

/-- An opcode as its element: start tag, comments and payloads, each on a line of its own. -/
def save : Option QString :=
  (o.payloads.mapM (EQPacketPayload.save (indent ++ "    ".toList))).map fun payloads =>
    indent ++ o.saveStart ++ ['\n'] ++
    o.m_comments.flatMap (saveComment (indent ++ "    ".toList)) ++ payloads.flatten ++
    indent ++ "</opcode>".toList ++ ['\n']

end OPCodeObject

/-- What a saved file begins with. -/
def opcodeFileHead : QString :=
  "<?xml version=\"1.0\" encoding=\"UTF-8\"?>\n".toList ++
  "<!DOCTYPE seqopcodes SYSTEM \"seqopcodes.dtd\">\n".toList ++
  "<seqopcodes>\n".toList

/-- What a saved file ends with. -/
def opcodeFileTail : QString := "</seqopcodes>\n".toList

/-- A file with these elements. -/
def writeOPCodes (es : List OPCodeObject) : Option QString :=
  (es.mapM (OPCodeObject.save "    ".toList)).map fun texts =>
    opcodeFileHead ++ texts.flatten ++ opcodeFileTail

namespace OPCodes

variable (c : OPCodes)

/-- The ordered map of `save`, filled in the order of the hash table. -/
def ordered (order : Table.Order) : List OPCodeObject :=
  (order.visit c.db.m_opcodes.values).foldl
    (fun es a => Table.insertNew (fun o : OPCodeObject => o.m_opcode.toNat) (c.object a) es) []

/-- The text of the file, or none if there is no text for a direction. -/
def save (order : Table.Order) : Option QString := writeOPCodes (c.ordered order)

end OPCodes

/-! ## What can be written -/

/-- A payload that `load` makes of an element, with a direction. -/
structure EQPacketPayload.Writable (typeDB : EQPacketTypeDB) (payload : EQPacketPayload) :
    Prop where
  dir : payload.m_dir ∈ [DIR_Client, DIR_Server, DIR_Client ||| DIR_Server]
  type : payload.m_typeName = [] ∧ payload.m_typeSize = 0 ∨
    payload.m_typeName ≠ [] ∧ typeDB.valid payload.m_typeName = true ∧
      payload.m_typeSize = typeDB.size payload.m_typeName

/-- The texts stand for themselves in the file. -/
structure OPCodeObject.Writable (typeDB : EQPacketTypeDB) (o : OPCodeObject) : Prop where
  name : attrPlain o.m_name = true
  updated : attrPlain o.m_updated = true
  comments : ∀ comment ∈ o.m_comments, isPlain comment = true
  payloads : ∀ payload ∈ o.payloads, payload.Writable typeDB

theorem attrPlain_of_identifier {s : QString} (h : s.all isIdentifierChar = true) :
    attrPlain s = true := by
  have hall : ∀ n < 128, isIdentifierChar (Char.ofNat n) = true →
      attrPlain [Char.ofNat n] = true := by
    decide +kernel
  refine List.all_eq_true.mpr fun c hc => ?_
  have hident := List.all_eq_true.mp h c hc
  have hascii : c.toNat < 128 := by
    have hends : ∀ range ∈ [(0x30, 0x39), (0x41, 0x5A), (0x5F, 0x5F), (0x61, 0x7A)],
        range.2 < 128 := by decide
    obtain ⟨range, hrange, hin⟩ := List.any_eq_true.mp hident
    have hle := of_decide_eq_true (Bool.and_eq_true_iff.mp hin).2
    exact Nat.lt_of_le_of_lt hle (hends range hrange)
  have hplain := hall c.toNat hascii
  rw [Char.ofNat_toNat] at hplain
  exact List.all_eq_true.mp (hplain hident) c List.mem_cons_self

theorem EQPacketTypeDB.attrPlain_of_valid {typeDB : EQPacketTypeDB} {typeName : QString}
    (h : typeDB.valid typeName = true) : attrPlain typeName = true := by
  cases hsize : typeDB.m_typeSizeDict.lookup typeName with
  | none =>
      have hzero : typeDB.size typeName = 0 := by rw [EQPacketTypeDB.size, hsize, Option.getD_none]
      exact absurd hzero (of_decide_eq_true h)
  | some size => exact attrPlain_of_identifier (typeDB.names typeName size hsize)

theorem EQPacketPayload.Writable.plain {typeDB : EQPacketTypeDB} {payload : EQPacketPayload}
    (h : payload.Writable typeDB) : attrPlain payload.m_typeName = true := by
  rcases h.type with ⟨hnil, -⟩ | ⟨-, hvalid, -⟩
  · rw [hnil]
    rfl
  · exact EQPacketTypeDB.attrPlain_of_valid hvalid

theorem not_isSpace_digitChar : ∀ d < 16, Messages.isSpace (Nat.digitChar d) = false := by decide

/-- A printed number is read. -/
theorem ushort_printPadded {base : ℕ} (hlow : 1 < base) (hhigh : base ≤ 16) (width : ℕ)
    (n : UInt16) : ushort Messages.isSpace base (printPadded base width n.toNat) = some n := by
  rw [ushort, Numeral.natural_printPadded not_isSpace_digitChar hlow hhigh]
  simpa [Option.filter] using n.toNat_lt

theorem attrPlain_printPadded {base : ℕ} (hlow : 1 < base) (hhigh : base ≤ 16) (width n : ℕ) :
    attrPlain (printPadded base width n) = true := by
  have hdigit : ∀ d < 16, attrPlain [Nat.digitChar d] = true := by decide
  refine List.all_eq_true.mpr fun c hc => ?_
  obtain ⟨d, hd, rfl⟩ := Numeral.digit_of_printPadded hlow hhigh hc
  exact List.all_eq_true.mp (hdigit d hd) _ List.mem_cons_self

/-! ### The tags -/

namespace OPCodeObject

variable (o : OPCodeObject)

/-- The attributes of the opening tag. -/
def attrs : List (Text × Text) :=
  [("id".toList, printPadded 16 4 o.m_opcode.toNat), ("name".toList, o.m_name)] ++
  (if o.m_implicitLen ≠ 0 then
    [("implicitlen".toList, printPadded 10 0 o.m_implicitLen.toNat)]
  else []) ++
  (if o.m_updated ≠ [] then [("updated".toList, o.m_updated)] else [])

theorem saveStart_eq : o.saveStart = openTag "opcode".toList o.attrs := by
  unfold saveStart attrs openTag tagText attrsText
  rw [Numeral.printPadded_zero]
  split_ifs <;> simp [attrText]

theorem attrs_updated : (o.attrs.lookup "updated".toList).getD [] = o.m_updated := by
  unfold attrs
  split_ifs with hlen hupdated hupdated
  · rfl
  · exact (not_not.mp hupdated).symm
  · rfl
  · exact (not_not.mp hupdated).symm

theorem attrs_implicitLen :
    implicitLenOf o.attrs = o.m_implicitLen := by
  have hread : ushort Messages.isSpace 10 (printPadded 10 0 o.m_implicitLen.toNat) =
      some o.m_implicitLen := @ushort_printPadded 10 (by omega) (by omega) 0 o.m_implicitLen
  have hnone : (ushort Messages.isSpace 10 []).getD 0 = 0 := by decide
  unfold attrs
  split_ifs with hlen hupdated hupdated
  · exact congrArg (fun n => n.getD 0) hread
  · exact congrArg (fun n => n.getD 0) hread
  · exact hnone.trans (not_not.mp hlen).symm
  · exact hnone.trans (not_not.mp hlen).symm

theorem attrs_plain {typeDB : EQPacketTypeDB} (h : o.Writable typeDB) : AttrsPlain o.attrs := by
  have hid := attrPlain_printPadded (by omega : 1 < 16) (by omega) 4 o.m_opcode.toNat
  have hlen := attrPlain_printPadded (by omega : 1 < 10) (by omega) 0 o.m_implicitLen.toNat
  unfold attrs
  split_ifs
  all_goals
    constructor
    · simp only [List.cons_append, List.nil_append, List.append_nil, List.forall_mem_cons,
        List.not_mem_nil, IsEmpty.forall_iff, implies_true, and_true]
      decide
    · simp [hid, hlen, h.name, h.updated]
    · simp only [List.cons_append, List.nil_append, List.append_nil, List.map_cons, List.map_nil]
      decide

end OPCodeObject

namespace EQPacketPayload

variable (payload : EQPacketPayload)

/-- The attributes that a saved payload is read with. -/
def attrs (dirStr : QString) : List (Text × Text) :=
  [("dir".toList, dirStr), ("typename".toList, payload.m_typeName),
    ("sizechecktype".toList, sztStr payload.m_sizeCheckType)]

/-- The text of a direction. -/
theorem dirStr_spec {dir : UInt8} (h : dir ∈ [DIR_Client, DIR_Server, DIR_Client ||| DIR_Server]) :
    ∃ s, dirStr dir = some s ∧ dirOf s = dir ∧ attrPlain s = true := by
  have hall : ∀ dir ∈ [DIR_Client, DIR_Server, DIR_Client ||| DIR_Server],
      dirOf ((dirStr dir).getD []) = dir ∧ attrPlain ((dirStr dir).getD []) = true ∧
        (dirStr dir).isSome = true := by decide +kernel
  obtain ⟨hdir, hplain, hsome⟩ := hall dir h
  obtain ⟨s, hs⟩ := Option.isSome_iff_exists.mp hsome
  rw [hs] at hdir hplain
  exact ⟨s, hs, hdir, hplain⟩

theorem dirStr_isSome_iff (dir : UInt8) : (dirStr dir).isSome = true ↔
    dir ∈ [DIR_Client, DIR_Server, DIR_Client ||| DIR_Server] := by
  have hmem : dir ∈ [DIR_Client, DIR_Server, DIR_Client ||| DIR_Server] ↔
      dir.toNat = 1 ∨ dir.toNat = 2 ∨ dir.toNat = 3 := by
    simp only [List.mem_cons, List.not_mem_nil, or_false, ← UInt8.toNat_inj]
    rfl
  rw [hmem, dirStr]
  split_ifs with hzero
  · rw [hzero]
    decide
  · have hpos : dir.toNat ≠ 0 := fun h => hzero (UInt8.toNat_inj.mp h)
    have hlen : dirStrs.length = 3 := rfl
    rw [Option.isSome_map, Option.isSome_iff_ne_none, ne_eq, List.getElem?_eq_none_iff, hlen]
    omega

theorem sizeCheckTypeOf_sztStr (szt : EQSizeCheckType) :
    sizeCheckTypeOf (sztStr szt) = szt ∧ attrPlain (sztStr szt) = true := by
  cases szt <;> decide

/-- A payload is written as an element from which it is read. -/
theorem save_spec {typeDB : EQPacketTypeDB} (h : payload.Writable typeDB) (indent : QString) :
    ∃ attrs, payload.save indent = some (indent ++ (emptyTag "payload".toList attrs ++ ['\n'])) ∧
      AttrsPlain attrs ∧ readPayload typeDB attrs = payload := by
  obtain ⟨s, hs, hdir, hplain⟩ := dirStr_spec h.dir
  obtain ⟨hszt, hsztPlain⟩ := sizeCheckTypeOf_sztStr payload.m_sizeCheckType
  refine ⟨payload.attrs s, ?_, ?_, ?_⟩
  · rw [save, hs]
    simp [emptyTag, tagText, attrsText, attrText, attrs]
  · constructor
    · simp only [attrs, List.forall_mem_cons, List.not_mem_nil, IsEmpty.forall_iff, implies_true,
        and_true]
      decide
    · simp [attrs, hplain, h.plain, hsztPlain]
    · simp only [attrs, List.map_cons, List.map_nil]
      decide
  · have hdirAttr : (payload.attrs s).lookup "dir".toList = some s := rfl
    have htypeAttr : (payload.attrs s).lookup "typename".toList = some payload.m_typeName := rfl
    have hsztAttr : (payload.attrs s).lookup "sizechecktype".toList =
        some (sztStr payload.m_sizeCheckType) := rfl
    unfold readPayload
    rw [hdirAttr, htypeAttr, hsztAttr, Option.getD_some, Option.getD_some, Option.getD_some, hdir,
      hszt]
    rcases h.type with ⟨hnil, hsize⟩ | ⟨hname, hvalid, hsize⟩
    · rw [if_neg fun hne => hne hnil, ← hnil, ← hsize]
    · rw [if_pos hname, setType, if_pos hvalid, ← hsize]

end EQPacketPayload

/-! ## What was written is loaded -/

namespace Loader

variable {typeDB : EQPacketTypeDB}

/-- Outside of a comment text is left alone. -/
theorem consume_flush {l : Loader} (hout : l.elementText = none) (run : QString)
    (toks : List Token) :
    consume (next typeDB) l (flush run ++ toks) = consume (next typeDB) l toks := by
  unfold flush
  split_ifs
  · rfl
  · have hnext : l.next typeDB (.characters run) = (l, true) := by
      unfold next
      rw [hout]
    rw [List.singleton_append, consume, hnext, if_pos rfl]

/-- Within a comment it is collected. -/
theorem consume_flush_comment (l : Loader) (run : QString) (toks : List Token) :
    consume (next typeDB) { l with elementText := some [] } (flush run ++ toks) =
      consume (next typeDB) { l with elementText := some run } toks := by
  unfold flush
  split_ifs with hrun
  · rw [hrun]
    rfl
  · have hnext : next typeDB { l with elementText := some [] } (.characters run) =
        ({ l with elementText := some run }, true) := rfl
    rw [List.singleton_append, consume, hnext, if_pos rfl]

/-- The object added last, while its element is read. -/
def within (c : OPCodes) (o : OPCodeObject) : Loader :=
  { opcodes := c.addObject o, currentOPCode := some c.db.allocated }

variable (c : OPCodes) (o : OPCodeObject)

theorem modifyCurrent_within (f : OPCodeRest → OPCodeRest) :
    (within c o).modifyCurrent f = within c { o with toOPCodeRest := f o.toOPCodeRest } := by
  unfold modifyCurrent within OPCodes.modify OPCodes.addObject
  dsimp only
  rw [Function.update_self, Function.update_idem]

/-- The object before anything in its element is read. -/
def opened : OPCodeObject := { o with m_comments := [], payloads := [] }

theorem startOPCode_attrs :
    ({ opcodes := c } : Loader).startOPCode o.attrs = (within c (opened o), true) := by
  have hid : o.attrs.lookup "id".toList = some (printPadded 16 4 o.m_opcode.toNat) := rfl
  have hname : o.attrs.lookup "name".toList = some o.m_name := rfl
  have hopcode : ushort Messages.isSpace 16 (printPadded 16 4 o.m_opcode.toNat) = some o.m_opcode :=
    @ushort_printPadded 16 (by omega) (by omega) 4 o.m_opcode
  unfold startOPCode
  rw [hid]
  dsimp only
  rw [hopcode]
  dsimp only
  rw [hname]
  dsimp only
  rw [o.attrs_updated, o.attrs_implicitLen]
  rfl

/-- The elements opened in the file. -/
def root : List QString := ["seqopcodes".toList]

/-- The elements that are open inside of an opcode. -/
def inOPCode : List QString := "opcode".toList :: root

/-- In front of an element of an opcode. -/
def indent : QString := "        ".toList

theorem attrsPlain_nil : AttrsPlain [] := ⟨by simp, by simp, List.nodup_nil⟩

section
variable {o : OPCodeObject}

theorem feeds_comment {comment : QString} (hplain : isPlain comment = true) :
    Feeds (next typeDB) (within c o, .content inOPCode ['\n'])
      (OPCodeObject.saveComment indent comment)
      (within c { o with m_comments := o.m_comments ++ [comment] }, .content inOPCode ['\n']) := by
  let inside : Loader := { within c o with elementText := some [] }
  let heard : Loader := within c { o with m_comments := o.m_comments ++ [comment] }
  have hlt : '<' ∉ comment := fun hmem => ((isPlain_iff.mp hplain).1 '<' hmem).2.1 rfl
  have hopen : Feeds (next typeDB) (within c o, .content inOPCode ('\n' :: indent))
      (openTag "comment".toList []) (inside, .content ("comment".toList :: inOPCode) []) := by
    refine (reads_open (List.cons_ne_nil _ _) (by decide) (by decide) attrsPlain_nil).feeds ?_
    rw [consume_flush rfl]
    rfl
  have hclose : Feeds (next typeDB) (inside, .content ("comment".toList :: inOPCode) comment)
      (closeTag "comment".toList) (heard, .content inOPCode []) := by
    refine (reads_close hplain (by decide)).feeds ?_
    have hend : next typeDB { within c o with elementText := some comment }
        (.endElement "comment".toList) = (heard, true) := by
      show (({ within c o with elementText := some comment } : Loader).addComment comment, true) = _
      have hmodify := modifyCurrent_within c o fun r =>
        { r with m_comments := r.m_comments ++ [comment] }
      exact congrArg (fun l : Loader => (l, true)) hmodify
    rw [consume_flush_comment, consume, hend]
    rfl
  have htext : OPCodeObject.saveComment indent comment =
      indent ++ (openTag "comment".toList [] ++
        (comment ++ (closeTag "comment".toList ++ ['\n']))) := by
    simp [OPCodeObject.saveComment, openTag, closeTag, tagText]
  rw [htext]
  exact ((reads_text inOPCode ['\n'] (by decide)).feeds rfl).trans (hopen.trans
    (((reads_text _ [] hlt).feeds rfl).trans (hclose.trans
      ((reads_text inOPCode [] (by decide)).feeds rfl))))

theorem feeds_comments {comments : List QString}
    (hplain : ∀ comment ∈ comments, isPlain comment = true) :
    Feeds (next typeDB) (within c o, .content inOPCode ['\n'])
      (comments.flatMap (OPCodeObject.saveComment indent))
      (within c { o with m_comments := o.m_comments ++ comments }, .content inOPCode ['\n']) := by
  induction comments generalizing o with
  | nil =>
      rw [List.append_nil]
      exact .nil _
  | cons comment comments ih =>
      obtain ⟨hfirst, hrest⟩ := List.forall_mem_cons.mp hplain
      have hih := @ih { o with m_comments := o.m_comments ++ [comment] } hrest
      rw [List.append_assoc] at hih
      exact (feeds_comment c hfirst).trans hih

theorem feeds_payload {payload : EQPacketPayload} (hwritable : payload.Writable typeDB) :
    ∃ text, payload.save indent = some text ∧ '\r' ∉ text ∧
      Feeds (next typeDB) (within c o, .content inOPCode ['\n']) text
        (within c { o with payloads := o.payloads ++ [payload] }, .content inOPCode ['\n']) := by
  obtain ⟨attrs, hsave, hattrs, hread⟩ := payload.save_spec hwritable indent
  have hcr : '\r' ∉ indent ++ (emptyTag "payload".toList attrs ++ ['\n']) := by
    have htag : '\r' ∉ tagText "payload".toList attrs := cr_notMem_tagText (by decide) hattrs
    simp only [emptyTag, List.mem_append, List.mem_cons, htag, false_or]
    decide
  refine ⟨_, hsave, hcr, ?_⟩
  have hstart : next typeDB (within c o) (.startElement "payload".toList attrs) =
      (within c { o with payloads := o.payloads ++ [payload] }, true) := by
    have hmodify := modifyCurrent_within c o fun r =>
      { r with payloads := r.payloads ++ [readPayload typeDB attrs] }
    exact congrArg (fun l : Loader => (l, true)) (hmodify.trans (by rw [hread]))
  have htag : Feeds (next typeDB) (within c o, .content inOPCode ('\n' :: indent))
      (emptyTag "payload".toList attrs)
      (within c { o with payloads := o.payloads ++ [payload] }, .content inOPCode []) := by
    refine (reads_empty (List.cons_ne_nil _ _) (by decide) (by decide) hattrs).feeds ?_
    rw [consume_flush rfl, consume, hstart]
    rfl
  exact ((reads_text inOPCode ['\n'] (by decide)).feeds rfl).trans (htag.trans
    ((reads_text inOPCode [] (by decide)).feeds rfl))

theorem feeds_payloads {payloads : List EQPacketPayload}
    (hwritable : ∀ payload ∈ payloads, payload.Writable typeDB) :
    ∃ texts, payloads.mapM (EQPacketPayload.save indent) = some texts ∧ '\r' ∉ texts.flatten ∧
      Feeds (next typeDB) (within c o, .content inOPCode ['\n']) texts.flatten
        (within c { o with payloads := o.payloads ++ payloads }, .content inOPCode ['\n']) := by
  induction payloads generalizing o with
  | nil =>
      refine ⟨[], rfl, List.not_mem_nil, ?_⟩
      rw [List.append_nil]
      exact .nil _
  | cons payload payloads ih =>
      obtain ⟨hfirst, hrest⟩ := List.forall_mem_cons.mp hwritable
      obtain ⟨text, hsave, hcr, hfeeds⟩ := feeds_payload (o := o) c hfirst
      obtain ⟨texts, hsaves, hcrs, hfeeds'⟩ :=
        @ih { o with payloads := o.payloads ++ [payload] } hrest
      refine ⟨text :: texts, ?_, ?_, ?_⟩
      · rw [List.mapM_cons, hsave, hsaves]
        rfl
      · rw [List.flatten_cons, List.mem_append]
        exact not_or.mpr ⟨hcr, hcrs⟩
      · rw [List.append_assoc] at hfeeds'
        exact hfeeds.trans hfeeds'

variable (o)

/-- An opcode element adds its object. -/
theorem feeds_opcode (hwritable : o.Writable typeDB) :
    ∃ text, o.save "    ".toList = some text ∧ '\r' ∉ text ∧
      Feeds (next typeDB) ({ opcodes := c }, .content root ['\n']) text
        ({ opcodes := c.addObject o }, .content root ['\n']) := by
  obtain ⟨texts, hsave, hcrs, hpayloads⟩ :=
    feeds_payloads (o := { o with payloads := [] }) c hwritable.payloads
  have hcomments : Feeds (next typeDB) (within c (opened o), .content inOPCode ['\n'])
      (o.m_comments.flatMap (OPCodeObject.saveComment indent))
      (within c { o with payloads := [] }, .content inOPCode ['\n']) :=
    feeds_comments c hwritable.comments
  let text : QString := "    ".toList ++ (o.saveStart ++ (['\n'] ++
    (o.m_comments.flatMap (OPCodeObject.saveComment indent) ++ (texts.flatten ++
      ("    ".toList ++ (closeTag "opcode".toList ++ ['\n']))))))
  have htext : o.save "    ".toList = some text := by
    have hmap : o.payloads.mapM (EQPacketPayload.save ("    ".toList ++ "    ".toList)) =
      some texts := hsave
    rw [OPCodeObject.save, hmap, Option.map_some]
    simp only [List.append_assoc]
    rfl
  have hcr : '\r' ∉ text := by
    have htag : '\r' ∉ tagText "opcode".toList o.attrs :=
      cr_notMem_tagText (by decide) (o.attrs_plain hwritable)
    have hcomments : '\r' ∉ o.m_comments.flatMap (OPCodeObject.saveComment indent) := by
      intro hmem
      obtain ⟨comment, hcomment, hmem⟩ := List.mem_flatMap.mp hmem
      have hplain := cr_notMem_of_plain (hwritable.comments comment hcomment)
      simp only [OPCodeObject.saveComment, List.mem_append, hplain, or_false] at hmem
      exact absurd hmem (by decide)
    simp only [text, o.saveStart_eq, openTag, closeTag, List.mem_append, List.mem_cons, htag,
      hcomments, hcrs, false_or]
    decide
  refine ⟨text, htext, hcr, ?_⟩
  have hstart : Feeds (next typeDB) ({ opcodes := c }, .content root ('\n' :: "    ".toList))
      o.saveStart (within c (opened o), .content inOPCode []) := by
    have hnext : next typeDB { opcodes := c } (.startElement "opcode".toList o.attrs) =
        (within c (opened o), true) := startOPCode_attrs c o
    rw [o.saveStart_eq]
    refine (reads_open (List.cons_ne_nil _ _) (by decide) (by decide)
      (o.attrs_plain hwritable)).feeds ?_
    rw [consume_flush rfl, consume, hnext]
    rfl
  have hstop : Feeds (next typeDB) (within c o, .content inOPCode ('\n' :: "    ".toList))
      (closeTag "opcode".toList) ({ opcodes := c.addObject o }, .content root []) := by
    refine (reads_close (by decide) (by decide)).feeds ?_
    rw [consume_flush rfl]
    rfl
  exact ((reads_text root ['\n'] (by decide)).feeds rfl).trans (hstart.trans
    (((reads_text inOPCode [] (by decide)).feeds rfl).trans (hcomments.trans (hpayloads.trans
      (((reads_text inOPCode ['\n'] (by decide)).feeds rfl).trans (hstop.trans
        ((reads_text root [] (by decide)).feeds rfl)))))))

theorem feeds_opcodes {es : List OPCodeObject} (hwritable : ∀ o ∈ es, o.Writable typeDB) :
    ∃ texts, es.mapM (OPCodeObject.save "    ".toList) = some texts ∧ '\r' ∉ texts.flatten ∧
      Feeds (next typeDB) ({ opcodes := c }, .content root ['\n']) texts.flatten
        ({ opcodes := es.foldl OPCodes.addObject c }, .content root ['\n']) := by
  induction es generalizing c with
  | nil => exact ⟨[], rfl, List.not_mem_nil, .nil _⟩
  | cons o es ih =>
      obtain ⟨hfirst, hrest⟩ := List.forall_mem_cons.mp hwritable
      obtain ⟨text, hsave, hcr, hfeeds⟩ := feeds_opcode c o hfirst
      obtain ⟨texts, hsaves, hcrs, hfeeds'⟩ := ih (c.addObject o) hrest
      refine ⟨text :: texts, ?_, ?_, hfeeds.trans hfeeds'⟩
      · rw [List.mapM_cons, hsave, hsaves]
        rfl
      · rw [List.flatten_cons, List.mem_append]
        exact not_or.mpr ⟨hcr, hcrs⟩

end

theorem run_opcodeFileHead : State.run {} opcodeFileHead =
    some ([.dtd, .startElement "seqopcodes".toList []], .content root ['\n']) := by
  decide +kernel

theorem scan_opcodeFileTail : scan (.content root ['\n']) opcodeFileTail =
    [.characters ['\n'], .endElement "seqopcodes".toList, .endDocument] := by
  decide +kernel

end Loader

namespace OPCodes

variable {typeDB : EQPacketTypeDB}

/-- The elements of a file are added one after the other. -/
theorem load_writeOPCodes (c : OPCodes) {es : List OPCodeObject}
    (hwritable : ∀ o ∈ es, o.Writable typeDB) :
    ∃ file, writeOPCodes es = some file ∧ load typeDB c file = (es.foldl addObject c, true) := by
  obtain ⟨texts, hsave, hcr, hfeeds⟩ := Loader.feeds_opcodes c hwritable
  refine ⟨opcodeFileHead ++ texts.flatten ++ opcodeFileTail, ?_, ?_⟩
  · rw [writeOPCodes, hsave, Option.map_some]
  · have hfile : '\r' ∉ opcodeFileHead ++ texts.flatten ++ opcodeFileTail := by
      simp only [List.mem_append, hcr, or_false]
      decide
    have hhead : Feeds (Loader.next typeDB) ({ opcodes := c }, {}) opcodeFileHead
        ({ opcodes := c }, .content Loader.root ['\n']) :=
      (Reads.of_run Loader.run_opcodeFileHead).feeds rfl
    have hbody := hhead.trans hfeeds opcodeFileTail
    have hstart : consume (Loader.next typeDB) { opcodes := c }
        (tokens (opcodeFileHead ++ texts.flatten ++ opcodeFileTail)) =
        (({ opcodes := es.foldl addObject c } : Loader), true) := by
      have hfirst : Loader.next typeDB { opcodes := c } .startDocument = ({ opcodes := c }, true) :=
        rfl
      rw [tokens, normalizeEol_of_notMem hfile, consume, hfirst, if_pos rfl]
      refine hbody.trans ?_
      rw [Loader.scan_opcodeFileTail]
      rfl
    unfold load
    rw [hstart]

/-! ### What the tables have then -/

theorem addObject_inv {c : OPCodes} (h : c.db.Inv) (o : OPCodeObject) : (c.addObject o).db.Inv :=
  EQPacketOPCodeDB.add_inv h o.m_opcode o.m_name

theorem object_addObject {c : OPCodes} (h : c.db.Inv) (o : OPCodeObject) :
    (c.addObject o).object c.db.allocated = o ∧
    ∀ a, Holds c.db.m_opcodes a ∨ Holds c.db.m_opcodesByName a →
      (c.addObject o).object a = c.object a := by
  unfold object addObject EQPacketOPCodeDB.add
  dsimp only
  constructor
  · rw [Function.update_self, Function.update_self]
  · intro a ha
    have hne : a ≠ c.db.allocated := Nat.ne_of_lt (h.old a ha)
    rw [Function.update_of_ne hne, Function.update_of_ne hne]

theorem find_addObject {c : OPCodes} (h : c.db.Inv) (o : OPCodeObject) :
    (∀ opcode, (c.addObject o).find opcode =
      if o.m_opcode = opcode then some o else c.find opcode) ∧
    ∀ name, (c.addObject o).findByName name =
      if o.m_name = name then some o else c.findByName name := by
  obtain ⟨hnew, hold⟩ := object_addObject h o
  constructor
  · intro opcode
    have hlookup : (c.addObject o).db.edit opcode =
        if opcode = o.m_opcode then some c.db.allocated else c.db.m_opcodes.lookup opcode :=
      Table.lookup_insert _ _ _ _
    rw [find, hlookup]
    by_cases heq : o.m_opcode = opcode
    · rw [if_pos heq, if_pos heq.symm, Option.map_some, hnew]
    · rw [if_neg heq, if_neg fun h => heq h.symm, find, EQPacketOPCodeDB.edit]
      exact Option.map_congr fun a ha => hold a (.inl ⟨opcode, ha⟩)
  · intro name
    have hlookup : (c.addObject o).db.editByName name =
        if name = o.m_name then some c.db.allocated else c.db.m_opcodesByName.lookup name :=
      Table.lookup_insert _ _ _ _
    rw [findByName, hlookup]
    by_cases heq : o.m_name = name
    · rw [if_pos heq, if_pos heq.symm, Option.map_some, hnew]
    · rw [if_neg heq, if_neg fun h => heq h.symm, findByName, EQPacketOPCodeDB.editByName]
      exact Option.map_congr fun a ha => hold a (.inr ⟨name, ha⟩)

/-- The last of the elements that were added, or what was there. -/
theorem find_addObjects {c : OPCodes} (h : c.db.Inv) (es : List OPCodeObject) :
    (∀ opcode, (es.foldl addObject c).find opcode =
      (es.reverse.find? fun o => o.m_opcode = opcode).or (c.find opcode)) ∧
    ∀ name, (es.foldl addObject c).findByName name =
      (es.reverse.find? fun o => o.m_name = name).or (c.findByName name) := by
  induction es generalizing c with
  | nil => exact ⟨fun _ => rfl, fun _ => rfl⟩
  | cons o es ih =>
      obtain ⟨hopcodes, hnames⟩ := ih (addObject_inv h o)
      obtain ⟨hopcode, hname⟩ := find_addObject h o
      constructor
      · intro opcode
        rw [List.foldl_cons, hopcodes, hopcode, List.reverse_cons, List.find?_append,
          Option.or_assoc]
        congr 1
        by_cases heq : o.m_opcode = opcode
        · simp [heq]
        · simp [heq]
      · intro name
        rw [List.foldl_cons, hnames, hname, List.reverse_cons, List.find?_append, Option.or_assoc]
        congr 1
        by_cases heq : o.m_name = name
        · simp [heq]
        · simp [heq]

/-- A file with these elements, whatever their order and however often a value or a name comes. -/
theorem load_written {es : List OPCodeObject} (hwritable : ∀ o ∈ es, o.Writable typeDB) :
    ∃ file, writeOPCodes es = some file ∧
      let loaded := load typeDB {} file
      loaded.2 = true ∧
      (∀ opcode, loaded.1.find opcode = es.reverse.find? fun o => o.m_opcode = opcode) ∧
      ∀ name, loaded.1.findByName name = es.reverse.find? fun o => o.m_name = name := by
  obtain ⟨file, hfile, hload⟩ := load_writeOPCodes {} hwritable
  obtain ⟨hopcodes, hnames⟩ := @find_addObjects {} EQPacketOPCodeDB.init_inv es
  refine ⟨file, hfile, ?_⟩
  rw [hload]
  refine ⟨rfl, fun opcode => ?_, fun name => ?_⟩
  · exact (hopcodes opcode).trans Option.or_none
  · exact (hnames name).trans Option.or_none

/-- A database with one type, that of a single byte, which every payload without a struct has. -/
def EQPacketTypeDB.octets : EQPacketTypeDB where
  m_typeSizeDict := AList.singleton "uint8_t".toList 1
  names := by
    intro typeName size hlookup
    have hkey : typeName ∈ (AList.singleton "uint8_t".toList 1 : Table QString ℕ) :=
      AList.lookup_isSome.mp (Option.isSome_iff_exists.mpr ⟨size, hlookup⟩)
    obtain rfl := List.mem_singleton.mp hkey
    decide

/-- An opcode with a comment and no payload. -/
def zoneOPCode : OPCodeObject :=
  { m_opcode := 0x4041, m_name := "OP_Zone".toList, m_comments := ["old".toList] }

/-- An opcode of the same name with a length and a payload. -/
def movedOPCode : OPCodeObject :=
  { m_opcode := 0x4142, m_name := "OP_Zone".toList, m_implicitLen := 12
    payloads := [{ m_dir := DIR_Server, m_typeName := "uint8_t".toList, m_typeSize := 1 }] }

theorem zone_writable : ∀ o ∈ [zoneOPCode, movedOPCode],
    o.Writable EQPacketTypeDB.octets := by
  intro o ho
  rcases List.mem_cons.mp ho with rfl | ho
  · exact ⟨by decide, by decide, by decide, by simp [zoneOPCode]⟩
  · obtain rfl := List.mem_singleton.mp ho
    refine ⟨by decide, by decide, by decide, fun payload hpayload => ?_⟩
    obtain rfl := List.mem_singleton.mp hpayload
    exact ⟨by decide, .inr ⟨by decide, by decide +kernel, by decide +kernel⟩⟩

/-- The second element displaces the first in the table by name. -/
theorem load_written_zone :
    ∃ file, writeOPCodes [zoneOPCode, movedOPCode] = some file ∧
      let loaded := (load EQPacketTypeDB.octets {} file).1
      loaded.find 0x4041 = some zoneOPCode ∧ loaded.find 0x4142 = some movedOPCode ∧
      loaded.findByName "OP_Zone".toList = some movedOPCode := by
  obtain ⟨file, hfile, -, hopcodes, hnames⟩ := load_written zone_writable
  exact ⟨file, hfile, (hopcodes _).trans (by decide +kernel),
    (hopcodes _).trans (by decide +kernel), (hnames _).trans (by decide +kernel)⟩

/-! ### What was saved -/

section
variable {c : OPCodes}

/-- `save` writes the objects of the table by value, each once. -/
theorem ordered_perm (h : c.db.Keyed) (order : Table.Order) :
    (c.ordered order).Perm (c.db.m_opcodes.values.map c.object) := by
  have hkeys : (c.db.m_opcodes.values.map fun a => (c.object a).m_opcode.toNat).Nodup := by
    have hnodup : (c.db.m_opcodes.values.map c.db.opcodeOf).Nodup := by
      rw [h.byOpcode.map_values]
      exact c.db.m_opcodes.nodupKeys
    have hinj : Function.Injective UInt16.toNat := fun _ _ heq => UInt16.toNat_inj.mp heq
    have hmap := hnodup.map hinj
    rwa [List.map_map] at hmap
  have hvisit := order.perm c.db.m_opcodes.values
  have hfold : (c.ordered order).Perm ([] ++ (order.visit c.db.m_opcodes.values).map c.object) :=
    Table.foldl_insertNew_perm ((hvisit.map _).nodup_iff.mpr hkeys)
      fun _ _ _ hx => absurd hx List.not_mem_nil
  exact hfold.trans (hvisit.map c.object)

theorem mem_ordered (h : c.db.Keyed) (order : Table.Order) (o : OPCodeObject) :
    o ∈ c.ordered order ↔ ∃ a, Holds c.db.m_opcodes a ∧ c.object a = o := by
  rw [(ordered_perm h order).mem_iff, List.mem_map]
  exact exists_congr fun a => and_congr_left fun _ => Table.mem_values

theorem mem_ordered_find (h : c.db.Keyed) (order : Table.Order) (o : OPCodeObject) :
    o ∈ c.ordered order ↔ c.find o.m_opcode = some o := by
  rw [mem_ordered h order, find, EQPacketOPCodeDB.edit, Option.map_eq_some_iff]
  constructor
  · rintro ⟨a, ha, rfl⟩
    exact ⟨a, (h.byOpcode.lookup_iff _ a).mpr ⟨ha, rfl⟩, rfl⟩
  · rintro ⟨a, ha, hobject⟩
    exact ⟨a, ⟨_, ha⟩, hobject⟩

theorem ordered_pairwise (order : Table.Order) :
    (c.ordered order).Pairwise fun o o' => o.m_opcode.toNat < o'.m_opcode.toNat :=
  Table.foldl_insertNew_pairwise _ _ .nil

/-- Elements are found in a list that has the objects of an index as in the index. -/
theorem find_reverse {κ : Type} [DecidableEq κ] {key : ObjectAddr → κ} {t : Table κ ObjectAddr}
    (ht : Indexes key t) {keyOf : OPCodeObject → κ} (hkey : ∀ a, keyOf (c.object a) = key a)
    {es : List OPCodeObject} (hes : ∀ o, o ∈ es ↔ ∃ a, Holds t a ∧ c.object a = o) (k : κ) :
    (es.reverse.find? fun o => keyOf o = k) = (t.lookup k).map c.object := by
  cases hfound : es.reverse.find? fun o => keyOf o = k with
  | none =>
      have hnone := List.find?_eq_none.mp hfound
      cases hlookup : t.lookup k with
      | none => rfl
      | some a =>
          have hmem : c.object a ∈ es := (hes _).mpr ⟨a, ⟨k, hlookup⟩, rfl⟩
          have hne := hnone _ (List.mem_reverse.mpr hmem)
          rw [hkey, ht k a hlookup] at hne
          exact absurd (decide_eq_true rfl) hne
  | some o =>
      have hmem := List.mem_reverse.mp (List.mem_of_find?_eq_some hfound)
      have hk : keyOf o = k :=
        of_decide_eq_true (List.find?_some (p := fun o => keyOf o = k) hfound)
      obtain ⟨a, ha, rfl⟩ := (hes o).mp hmem
      rw [hkey] at hk
      rw [(ht.lookup_iff k a).mpr ⟨ha, hk⟩, Option.map_some]

variable (c) in
/-- Of the objects found by value, the one with this name that has the greatest value. -/
def LastNamed (name : QString) (o : OPCodeObject) : Prop :=
  c.find o.m_opcode = some o ∧ o.m_name = name ∧
    ∀ o', c.find o'.m_opcode = some o' → o'.m_name = name → o'.m_opcode ≤ o.m_opcode

theorem find_reverse_ordered (h : c.db.Keyed) (order : Table.Order) (name : QString)
    (o : OPCodeObject) :
    ((c.ordered order).reverse.find? fun o => o.m_name = name) = some o ↔ c.LastNamed name o := by
  rw [Table.find?_reverse_eq_some_iff (ordered_pairwise order), decide_eq_true_iff, LastNamed,
    mem_ordered_find h]
  refine and_congr_right fun _ => and_congr_right fun _ => forall_congr' fun o' => ?_
  rw [mem_ordered_find h, decide_eq_true_iff, UInt16.le_iff_toNat_le]

/-- What was saved is loaded. An object that was only in the table by name is lost, and one that
another displaced there comes back if its value is greater. -/
theorem load_saved (h : c.db.Keyed)
    (hwritable : ∀ opcode o, c.find opcode = some o → o.Writable typeDB) (order : Table.Order) :
    ∃ file, c.save order = some file ∧
      let loaded := load typeDB {} file
      loaded.2 = true ∧ (∀ opcode, loaded.1.find opcode = c.find opcode) ∧
      (∀ name o, loaded.1.findByName name = some o ↔ c.LastNamed name o) ∧
      (c.db.Consistent → ∀ name, loaded.1.findByName name = c.findByName name) := by
  have hmem := mem_ordered h order
  have hwritten : ∀ o ∈ c.ordered order, o.Writable typeDB :=
    fun o ho => hwritable _ o ((mem_ordered_find h order o).mp ho)
  obtain ⟨file, hfile, hload⟩ := load_writeOPCodes {} hwritten
  obtain ⟨hopcodes, hnames⟩ := @find_addObjects {} EQPacketOPCodeDB.init_inv (c.ordered order)
  refine ⟨file, hfile, ?_⟩
  rw [hload]
  refine ⟨rfl, fun opcode => ?_, fun name o => ?_, fun hconsistent name => ?_⟩
  · refine (hopcodes opcode).trans (Option.or_none.trans ?_)
    exact find_reverse h.byOpcode (fun _ => rfl) hmem opcode
  · rw [← find_reverse_ordered h order]
    exact iff_of_eq (congrArg (· = some o) ((hnames name).trans Option.or_none))
  · have hmem' : ∀ o, o ∈ c.ordered order ↔ ∃ a, Holds c.db.m_opcodesByName a ∧ c.object a = o :=
      fun o => (hmem o).trans (exists_congr fun a => and_congr_left fun _ => hconsistent.2 a)
    refine (hnames name).trans (Option.or_none.trans ?_)
    exact find_reverse h.byName (fun _ => rfl) hmem' name

/-- The displaced object is saved and loaded with the other one. -/
theorem load_saved_zone :
    let c := [zoneOPCode, movedOPCode].foldl addObject {}
    ∃ file, c.save .entries = some file ∧
      let loaded := (load EQPacketTypeDB.octets {} file).1
      loaded.find 0x4041 = some zoneOPCode ∧
      loaded.findByName "OP_Zone".toList = some movedOPCode := by
  intro c
  have hinv : c.db.Inv :=
    addObject_inv (@addObject_inv {} EQPacketOPCodeDB.init_inv zoneOPCode) movedOPCode
  have hfind : ∀ opcode, c.find opcode =
      ([movedOPCode, zoneOPCode].find? fun o => o.m_opcode = opcode) := fun opcode =>
    ((@find_addObjects {} EQPacketOPCodeDB.init_inv [zoneOPCode, movedOPCode]).1 opcode).trans
      Option.or_none
  have hwritable : ∀ opcode o, c.find opcode = some o → o.Writable EQPacketTypeDB.octets := by
    intro opcode o ho
    rw [hfind] at ho
    exact zone_writable o (List.mem_reverse.mp (List.mem_of_find?_eq_some ho))
  obtain ⟨file, hfile, -, hopcodes, hnames, -⟩ := load_saved hinv.toKeyed hwritable .entries
  refine ⟨file, hfile, (hopcodes _).trans ((hfind _).trans (by decide +kernel)), ?_⟩
  rw [hnames, LastNamed, hfind]
  refine ⟨by decide +kernel, rfl, fun o ho _ => ?_⟩
  rw [hfind] at ho
  have hmax : ∀ o ∈ [movedOPCode, zoneOPCode], o.m_opcode ≤ movedOPCode.m_opcode := by decide
  exact hmax o (List.mem_of_find?_eq_some ho)

theorem mapM_isSome {α β : Type} (f : α → Option β) (l : List α) :
    (l.mapM f).isSome = true ↔ ∀ x ∈ l, (f x).isSome = true := by
  induction l with
  | nil => exact iff_of_true rfl fun _ hx => absurd hx List.not_mem_nil
  | cons x l ih =>
      rw [List.forall_mem_cons, ← ih, List.mapM_cons]
      cases hx : f x with
      | none => exact iff_of_false Bool.false_ne_true fun h => Bool.false_ne_true h.1
      | some y =>
          cases hl : l.mapM f with
          | none => exact iff_of_false Bool.false_ne_true fun h => Bool.false_ne_true h.2
          | some ys => exact iff_of_true rfl ⟨rfl, rfl⟩

/-- `save` stays within its array of directions exactly when every payload has one. -/
theorem save_isSome_iff (h : c.db.Keyed) (order : Table.Order) :
    (c.save order).isSome = true ↔
      ∀ a, Holds c.db.m_opcodes a → ∀ payload ∈ (c.object a).payloads,
        payload.m_dir ∈ [DIR_Client, DIR_Server, DIR_Client ||| DIR_Server] := by
  have hobject : ∀ o : OPCodeObject, (o.save "    ".toList).isSome = true ↔
      ∀ payload ∈ o.payloads,
        payload.m_dir ∈ [DIR_Client, DIR_Server, DIR_Client ||| DIR_Server] := by
    intro o
    rw [OPCodeObject.save, Option.isSome_map, mapM_isSome]
    refine forall₂_congr fun payload _ => ?_
    rw [EQPacketPayload.save, Option.isSome_map]
    exact EQPacketPayload.dirStr_isSome_iff payload.m_dir
  rw [save, writeOPCodes, Option.isSome_map, mapM_isSome]
  constructor
  · exact fun hall a ha => (hobject _).mp (hall _ ((mem_ordered h order _).mpr ⟨a, ha, rfl⟩))
  · intro hall o ho
    obtain ⟨a, ha, rfl⟩ := (mem_ordered h order o).mp ho
    exact (hobject _).mpr (hall a ha)

end

end OPCodes

end ShoweqDaemon.Packet
