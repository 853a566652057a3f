/-
  `XMLPreferences`: preferences by section and name, and the file they are kept in.

  A document is what the loader and the saver look at: sections, in them properties, in them the
  elements, all in their order; the text between them, comments and other elements are left out.
  The text of a file is its document with what stands between the quotes of every attribute. The
  rest of the text is Qt's and is taken to be written and read faithfully.

  A `QHash` is iterated in any order.
-/
import ShoweqDaemon.Lib.FirstMatch
import ShoweqDaemon.Lib.Table
import ShoweqDaemon.Prefs.Variant

namespace ShoweqDaemon.Preferences

open Spawns (QString)

/-! ## Documents -/

/-- A `property` element of a preference file: its attributes, the name among them, and the elements
    in it. -/
structure Property where
  attributes : Attributes
  elements : List Element := []
  deriving DecidableEq, Repr

/-- A `section` element, with the properties in it in their order. -/
structure Section where
  attributes : Attributes
  properties : List Property := []
  deriving DecidableEq, Repr

/-- A preference file as far as the daemon reads it: its sections, in order. -/
structure Document where
  sections : List Section
  deriving DecidableEq, Repr

namespace Property

/-- The name of the property, if it has one. -/
def name (p : Property) : Option QString := p.attributes.lookup "name"

/-- An element that was created for a name. -/
def new (name : QString) : Property where
  attributes := [("name", name)]

/-- The same property with its texts changed, as a way through a file changes them. -/
def mapTexts (f : QString → QString) (p : Property) : Property where
  attributes := p.attributes.mapTexts f
  elements := p.elements.map (·.mapTexts f)

end Property

namespace Section

/-- The name of the section, if it has one. -/
def name (s : Section) : Option QString := s.attributes.lookup "name"

/-- A section as `savePreferences` appends it. -/
def new (name : QString) : Section where
  attributes := [("name", name)]

/-- The same section with its texts changed. -/
def mapTexts (f : QString → QString) (s : Section) : Section where
  attributes := s.attributes.mapTexts f
  properties := s.properties.map (·.mapTexts f)

end Section

namespace Document

/-- The template for a file that is not there: a comment. -/
def template : Document where
  sections := []

/-- The same document with its texts changed. -/
def mapTexts (f : QString → QString) (d : Document) : Document where
  sections := d.sections.map (·.mapTexts f)

end Document

/-! ## Dictionaries -/

/-- The preferences of a section by name, and the sections by name, both hash tables. -/
abbrev PreferenceDict (δ : Type) := Table QString (QVariant δ)
abbrev PrefSectionDict (δ : Type) := Table QString (PreferenceDict δ)

namespace PrefSectionDict

variable {δ : Type} (dict : PrefSectionDict δ)

/-- With a dictionary for the section. -/
def ensure (inSection : QString) : PrefSectionDict δ :=
  match dict.lookup inSection with
  | some _ => dict
  | none => dict.insert inSection ∅

/-- A value under its section and name, in place of the one that was there. -/
def setPref (inName inSection : QString) (inValue : QVariant δ) : PrefSectionDict δ :=
  Table.modify inSection (·.insert inName inValue) (ensure dict inSection)

/-- The value under a section and a name. -/
def find (inSection inName : QString) : Option (QVariant δ) :=
  (dict.lookup inSection).bind (·.lookup inName)

end PrefSectionDict

/-! ## Loading -/

section
variable {δ : Type} (qt : Qt δ)

/-- The value of an element that is no comment and none of the tags of the desktop program. -/
def Element.value (e : Element) : Option (QVariant δ) :=
  if e.tagName = "comment" ∨ e.tagName = "font" ∨ e.tagName = "key" then none
  else elementToVariant qt e

/-- The first element that has a value. -/
def Property.value (p : Property) : Option (QVariant δ) := p.elements.findSome? (·.value qt)

/-- One property is read: without a name or a value that can be read it is passed over. -/
def loadProperty (sectionName : QString) (dict : PrefSectionDict δ) (p : Property) :
    PrefSectionDict δ :=
  match p.name, p.value qt with
  | some propertyName, some value => dict.setPref propertyName sectionName value
  | _, _ => dict

/-- One section is read: its properties go over those that the dictionary has. -/
def loadSection (dict : PrefSectionDict δ) (s : Section) : PrefSectionDict δ :=
  match s.name with
  | none => dict
  | some sectionName =>
      s.properties.foldl (loadProperty qt sectionName) (dict.ensure sectionName)

/-- `QDomDocument::setContent`. -/
def setContent (text : Document) : Document :=
  text.mapTexts (AttributeText.decode qt.lineFeed none)

/-- `none` is a file that is not there or is not well formed. -/
def loadPreferences (file : Option Document) (dict : PrefSectionDict δ) : PrefSectionDict δ :=
  match file with
  | none => dict
  | some text => (setContent qt text).sections.foldl (loadSection qt) dict

/-! ## Saving -/

/-- An element that is no comment, so the one that has the value of a property. -/
def Element.noComment (e : Element) : Bool := e.tagName ≠ "comment"

/-- The first element that is no comment is written over. -/
def Property.setValue (value : QVariant δ) (p : Property) : Property :=
  { p with
    elements := FirstMatch.upsert Element.noComment { tagName := "bogus" }
      (variantToElement qt value) p.elements }

/-- The values of a section are written over the properties with their names, new ones at the end,
    in the order in which the hash table is iterated. -/
def Section.setProperties (order : Table.Order) (dict : PreferenceDict δ) (s : Section) :
    Section :=
  { s with
    properties := FirstMatch.putAll Property.name Property.new (Property.setValue qt)
      (order.visit dict.entries) s.properties }

/-- The same for the sections of the document. -/
def Document.setSections (order : Table.Order) (dict : PrefSectionDict δ) (d : Document) :
    Document where
  sections := FirstMatch.putAll Section.name Section.new (Section.setProperties qt order)
    (order.visit dict.entries) d.sections

/-- The text that `QDomDocument::save` makes of a document, with a line feed behind every "-->". -/
def docText (d : Document) : Document :=
  (d.mapTexts (AttributeText.encode 0)).mapTexts (AttributeText.arrows '\n' 0)

/-- The document that is written over. -/
def existing (file : Option Document) : Document :=
  match file with
  | some text => setContent qt text
  | none => .template

/-- `XMLPreferences::savePreferences`: the file that is there is read again, the values are written
    into it, and the text goes out. -/
def savePreferences (order : Table.Order) (file : Option Document) (dict : PrefSectionDict δ) :
    Document :=
  docText ((existing qt file).setSections qt order dict)

end

/-! ## XMLPreferences -/

/-- `Persistence`, as flags. -/
def Runtime : UInt8 := 1
def User : UInt8 := 2
def Defaults : UInt8 := 4
def Any : UInt8 := Runtime ||| User ||| Defaults

/-- The two files, as texts. -/
structure Files where
  user : Option Document
  defaults : Option Document

/-- `XMLPreferences`: three dictionaries, of which the runtime one goes before the user's and that
    before the defaults, and a mask of those that were changed. -/
structure XMLPreferences (δ : Type) where
  m_modified : UInt8 := 0
  m_runtimeSections : PrefSectionDict δ := ∅
  m_userSections : PrefSectionDict δ := ∅
  m_defaultsSections : PrefSectionDict δ := ∅

namespace XMLPreferences

variable {δ : Type} (qt : Qt δ)

/-- `XMLPreferences::load`: both files are read over what the dictionaries have. -/
def load (files : Files) (prefs : XMLPreferences δ) : XMLPreferences δ :=
  { prefs with
    m_defaultsSections := loadPreferences qt files.defaults prefs.m_defaultsSections
    m_userSections := loadPreferences qt files.user prefs.m_userSections }

/-- The constructor. -/
def construct (files : Files) : XMLPreferences δ := load qt files {}

/-- What was modified is written to its file. -/
def save (order : Table.Order) (prefs : XMLPreferences δ) (files : Files) : Files where
  user :=
    if prefs.m_modified &&& User ≠ 0 then
      some (savePreferences qt order files.user prefs.m_userSections)
    else files.user
  defaults :=
    if prefs.m_modified &&& Defaults ≠ 0 then
      some (savePreferences qt order files.defaults prefs.m_defaultsSections)
    else files.defaults

/-- `XMLPreferences::setPref`: the value goes into each dictionary that the mask names. -/
def setPref (inName inSection : QString) (inValue : QVariant δ) (pers : UInt8)
    (prefs : XMLPreferences δ) : XMLPreferences δ :=
  let set (bit : UInt8) (dict : PrefSectionDict δ) : PrefSectionDict δ :=
    if pers &&& bit ≠ 0 then dict.setPref inName inSection inValue else dict
  { m_runtimeSections := set Runtime prefs.m_runtimeSections
    m_userSections := set User prefs.m_userSections
    m_defaultsSections := set Defaults prefs.m_defaultsSections
    m_modified := prefs.m_modified ||| pers }

/-- The stored value: of this run, else the user's, else the default one. -/
def getPref (inName inSection : QString) (pers : UInt8) (prefs : XMLPreferences δ) :
    Option (QVariant δ) :=
  let get (bit : UInt8) (dict : PrefSectionDict δ) : Option (QVariant δ) :=
    if pers &&& bit ≠ 0 then dict.find inSection inName else none
  ((get Runtime prefs.m_runtimeSections).or (get User prefs.m_userSections)).or
    (get Defaults prefs.m_defaultsSections)

end XMLPreferences

section
variable {δ : Type} (qt : Qt δ)

/-- The conversion of `getPrefInt64`: every number is cast to 64 bits with a sign, a text is read by
    `strtoll`, and all other types are refused. -/
def asInt64 (preference : QVariant δ) : Option Int64 :=
  match preference with
  | .string s => some (qt.strtoll s)
  | .int i => some i.toInt64
  | .uint u => some u.toUInt64.toInt64
  | .int64 i => some i
  | .uint64 u => some u.toInt64
  | .double d => some (qt.doubleToInt64 d)
  | _ => none

/-- The conversion of `getPrefUInt64`: every number is cast to 64 bits without a sign, a text is
    read by `strtoull`, and all other types are refused. -/
def asUInt64 (preference : QVariant δ) : Option UInt64 :=
  match preference with
  | .string s => some (qt.strtoull s)
  | .int i => some i.toInt64.toUInt64
  | .uint u => some u.toUInt64
  | .int64 i => some i.toUInt64
  | .uint64 u => some u
  | .double d => some (qt.doubleToUInt64 d)
  | _ => none

/-- A stored value as the `getPref` method of a type returns it. -/
def asType (type : PrefType) (preference default : QVariant δ) : QVariant δ :=
  match type with
  | .int64 => ((asInt64 qt preference).map .int64).getD default
  | .uint64 => ((asUInt64 qt preference).map .uint64).getD default
  | type => qt.value type preference

/-- The `getPref` method of a type: the value that is found is converted to it, and the default
    stands for one that is not found or cannot be converted. -/
def XMLPreferences.getPrefAs (type : PrefType) (inName inSection : QString) (default : QVariant δ)
    (pers : UInt8) (prefs : XMLPreferences δ) : QVariant δ :=
  match prefs.getPref inName inSection pers with
  | some preference => asType qt type preference default
  | none => default

end

end ShoweqDaemon.Preferences
