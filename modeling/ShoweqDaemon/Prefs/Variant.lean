/-
  The values of preferences and the elements that hold them in a file: `DomConvenience`.

  An element is what the readers look at: its tag, its attributes and the attributes of the string
  elements in it. `variantToElement` writes a value over an element, `elementToVariant` reads one.

  `Qt` collects what is read from outside: the characters that are space, the printing and reading
  of doubles, and the conversions between the types of a `QVariant`.

  Proved:
  * `elementToVariant_variantToElement`: what is read of an element that was written.
  * `elementToVariant_mapTexts`: what becomes of it when a blank comes behind every "-->".
-/
import Mathlib.Data.UInt
import ShoweqDaemon.Lib.AttributeText
import ShoweqDaemon.Lib.Numeral
import ShoweqDaemon.Spawn.Item

namespace ShoweqDaemon.Preferences

open AttributeText (arrows)
open Spawns (QString)

/-! ## Values -/

/-- An RGB colour, or none. -/
structure SeqColor where
  r : UInt8 := 0
  g : UInt8 := 0
  b : UInt8 := 0
  valid : Bool := false
  deriving DecidableEq, Repr

/-- `QRect`, by its corners. -/
structure QRect where
  x1 : Int32
  y1 : Int32
  x2 : Int32
  y2 : Int32
  deriving DecidableEq, Repr

namespace QRect

/-- `QRect(x, y, width, height)`. -/
def ofSize (x y width height : Int32) : QRect where
  x1 := x
  y1 := y
  x2 := x + width - 1
  y2 := y + height - 1

/-- The extents of a rectangle, both corners included. -/
def width (rect : QRect) : Int32 := rect.x2 - rect.x1 + 1
def height (rect : QRect) : Int32 := rect.y2 - rect.y1 + 1

end QRect

/-- The types of values that a preference file names. -/
inductive PrefType where
  | string
  | int
  | uint
  | int64
  | uint64
  | double
  | bool
  | color
  | point
  | rect
  | size
  | stringList
  deriving DecidableEq, Repr

/-- A `QVariant` of one of the types that preferences have; doubles are of type `δ`. -/
inductive QVariant (δ : Type) where
  | string (s : QString)
  | int (i : Int32)
  | uint (u : UInt32)
  | int64 (i : Int64)
  | uint64 (u : UInt64)
  | double (d : δ)
  | bool (b : Bool)
  | color (c : SeqColor)
  | point (x y : Int32)
  | rect (rect : QRect)
  | size (width height : Int32)
  | stringList (l : List QString)

/-- The type of a value, as `QVariant::type` gives it. -/
def QVariant.type {δ : Type} : QVariant δ → PrefType
  | string _ => .string
  | int _ => .int
  | uint _ => .uint
  | int64 _ => .int64
  | uint64 _ => .uint64
  | double _ => .double
  | bool _ => .bool
  | color _ => .color
  | point _ _ => .point
  | rect _ => .rect
  | size _ _ => .size
  | stringList _ => .stringList

/-! ## What is read from outside -/

/-- What the modules use of Qt and do not compute themselves: white space, case, doubles and the
    conversions of variants, with what is documented of them. -/
structure Qt (δ : Type) where
  isSpace : Char → Bool
  isSpace_ascii : ∀ c, '!' ≤ c → c ≤ '~' → isSpace c = false
  foldCase : Char → Char
  foldCase_arrow : foldCase '>' = '>'
  /-- What a line feed in the text of an attribute is read as. -/
  lineFeed : Char
  toDouble : QString → Option δ
  toDouble_arrow : ∀ s, '>' ∈ s → toDouble s = none
  /-- `QDomElement::setAttribute` of a double. -/
  ofDouble : δ → QString
  /-- `QVariant::value` at a type. -/
  value : PrefType → QVariant δ → QVariant δ
  value_own : ∀ v, value v.type v = v
  /-- `strtoll` and `strtoull` in base 16 of a text in Latin-1. -/
  strtoll : QString → Int64
  strtoull : QString → UInt64
  doubleToInt64 : δ → Int64
  doubleToUInt64 : δ → UInt64

namespace Qt

variable {δ : Type} (qt : Qt δ)

/-- `QString::toInt`, none for what is no number of 32 bits. -/
def toInt (base : ℤ) (s : QString) : Option Int32 :=
  ((Numeral.integer qt.isSpace base s).filter fun i => -2 ^ 31 ≤ i ∧ i < 2 ^ 31).map Int32.ofInt

/-- `QString::toUInt`, none for what is no number of 32 bits without a sign. -/
def toUInt (base : ℤ) (s : QString) : Option UInt32 :=
  ((Numeral.natural qt.isSpace base s).filter fun n => n < 2 ^ 32).map UInt32.ofNat

/-- `QString::toULongLong`, none for what is no number of 64 bits without a sign. -/
def toULongLong (base : ℤ) (s : QString) : Option UInt64 :=
  ((Numeral.natural qt.isSpace base s).filter fun n => n < 2 ^ 64).map UInt64.ofNat

/-- What was put into the text behind every "-->" by the time it is read. -/
def spaced (s : QString) : QString := arrows qt.lineFeed 0 s

end Qt

/-! ## Elements -/

/-- The attributes of an element by name, in their order. -/
abbrev Attributes := List (String × QString)

/-- An element that a value is written as: its tag, its attributes and the string elements in it. -/
structure Element where
  tagName : String
  attributes : Attributes := []
  /-- The attributes of the string elements in it. -/
  strings : List Attributes := []
  deriving DecidableEq, Repr

namespace Element

/-- `QDomElement::attribute`, empty for an attribute that is not there. -/
def attributeText (e : Element) (name : String) : QString := (e.attributes.lookup name).getD []

/-- The element has the attribute. -/
def hasAttribute (e : Element) (name : String) : Bool := (e.attributes.lookup name).isSome

end Element

/-- Every text of the attributes replaced. -/
def Attributes.mapTexts (f : QString → QString) (attributes : Attributes) : Attributes :=
  attributes.map fun a => (a.1, f a.2)

/-- The same element with its texts changed. -/
def Element.mapTexts (f : QString → QString) (e : Element) : Element where
  tagName := e.tagName
  attributes := e.attributes.mapTexts f
  strings := e.strings.map (·.mapTexts f)

/-! ## Colours -/

/-- `kNamedColors`: the names of colors with their components, sorted by name. -/
def kNamedColors : List (String × UInt8 × UInt8 × UInt8) :=
  [("aliceblue", 240, 248, 255), ("antiquewhite", 250, 235, 215), ("aqua", 0, 255, 255),
    ("aquamarine", 127, 255, 212), ("azure", 240, 255, 255), ("beige", 245, 245, 220),
    ("bisque", 255, 228, 196), ("black", 0, 0, 0), ("blanchedalmond", 255, 235, 205),
    ("blue", 0, 0, 255), ("blueviolet", 138, 43, 226), ("brown", 165, 42, 42),
    ("burlywood", 222, 184, 135), ("cadetblue", 95, 158, 160), ("chartreuse", 127, 255, 0),
    ("chocolate", 210, 105, 30), ("coral", 255, 127, 80), ("cornflowerblue", 100, 149, 237),
    ("cornsilk", 255, 248, 220), ("crimson", 220, 20, 60), ("cyan", 0, 255, 255),
    ("darkblue", 0, 0, 139), ("darkcyan", 0, 139, 139), ("darkgoldenrod", 184, 134, 11),
    ("darkgray", 169, 169, 169), ("darkgreen", 0, 100, 0), ("darkgrey", 169, 169, 169),
    ("darkkhaki", 189, 183, 107), ("darkmagenta", 139, 0, 139), ("darkolivegreen", 85, 107, 47),
    ("darkorange", 255, 140, 0), ("darkorchid", 153, 50, 204), ("darkred", 139, 0, 0),
    ("darksalmon", 233, 150, 122), ("darkseagreen", 143, 188, 143),
    ("darkslateblue", 72, 61, 139), ("darkslategray", 47, 79, 79), ("darkslategrey", 47, 79, 79),
    ("darkturquoise", 0, 206, 209), ("darkviolet", 148, 0, 211), ("deeppink", 255, 20, 147),
    ("deepskyblue", 0, 191, 255), ("dimgray", 105, 105, 105), ("dimgrey", 105, 105, 105),
    ("dodgerblue", 30, 144, 255), ("firebrick", 178, 34, 34), ("floralwhite", 255, 250, 240),
    ("forestgreen", 34, 139, 34), ("fuchsia", 255, 0, 255), ("gainsboro", 220, 220, 220),
    ("ghostwhite", 248, 248, 255), ("gold", 255, 215, 0), ("goldenrod", 218, 165, 32),
    ("gray", 128, 128, 128), ("green", 0, 128, 0), ("greenyellow", 173, 255, 47),
    ("grey", 128, 128, 128), ("honeydew", 240, 255, 240), ("hotpink", 255, 105, 180),
    ("indianred", 205, 92, 92), ("indigo", 75, 0, 130), ("ivory", 255, 255, 240),
    ("khaki", 240, 230, 140), ("lavender", 230, 230, 250), ("lavenderblush", 255, 240, 245),
    ("lawngreen", 124, 252, 0), ("lemonchiffon", 255, 250, 205), ("lightblue", 173, 216, 230),
    ("lightcoral", 240, 128, 128), ("lightcyan", 224, 255, 255),
    ("lightgoldenrodyellow", 250, 250, 210), ("lightgray", 211, 211, 211),
    ("lightgreen", 144, 238, 144), ("lightgrey", 211, 211, 211), ("lightpink", 255, 182, 193),
    ("lightsalmon", 255, 160, 122), ("lightseagreen", 32, 178, 170),
    ("lightskyblue", 135, 206, 250), ("lightslategray", 119, 136, 153),
    ("lightslategrey", 119, 136, 153), ("lightsteelblue", 176, 196, 222),
    ("lightyellow", 255, 255, 224), ("lime", 0, 255, 0), ("limegreen", 50, 205, 50),
    ("linen", 250, 240, 230), ("magenta", 255, 0, 255), ("maroon", 128, 0, 0),
    ("mediumaquamarine", 102, 205, 170), ("mediumblue", 0, 0, 205),
    ("mediumorchid", 186, 85, 211), ("mediumpurple", 147, 112, 219),
    ("mediumseagreen", 60, 179, 113), ("mediumslateblue", 123, 104, 238),
    ("mediumspringgreen", 0, 250, 154), ("mediumturquoise", 72, 209, 204),
    ("mediumvioletred", 199, 21, 133), ("midnightblue", 25, 25, 112),
    ("mintcream", 245, 255, 250), ("mistyrose", 255, 228, 225), ("moccasin", 255, 228, 181),
    ("navajowhite", 255, 222, 173), ("navy", 0, 0, 128), ("oldlace", 253, 245, 230),
    ("olive", 128, 128, 0), ("olivedrab", 107, 142, 35), ("orange", 255, 165, 0),
    ("orangered", 255, 69, 0), ("orchid", 218, 112, 214), ("palegoldenrod", 238, 232, 170),
    ("palegreen", 152, 251, 152), ("paleturquoise", 175, 238, 238),
    ("palevioletred", 219, 112, 147), ("papayawhip", 255, 239, 213),
    ("peachpuff", 255, 218, 185), ("peru", 205, 133, 63), ("pink", 255, 192, 203),
    ("plum", 221, 160, 221), ("powderblue", 176, 224, 230), ("purple", 128, 0, 128),
    ("red", 255, 0, 0), ("rosybrown", 188, 143, 143), ("royalblue", 65, 105, 225),
    ("saddlebrown", 139, 69, 19), ("salmon", 250, 128, 114), ("sandybrown", 244, 164, 96),
    ("seagreen", 46, 139, 87), ("seashell", 255, 245, 238), ("sienna", 160, 82, 45),
    ("silver", 192, 192, 192), ("skyblue", 135, 206, 235), ("slateblue", 106, 90, 205),
    ("slategray", 112, 128, 144), ("slategrey", 112, 128, 144), ("snow", 255, 250, 250),
    ("springgreen", 0, 255, 127), ("steelblue", 70, 130, 180), ("tan", 210, 180, 140),
    ("teal", 0, 128, 128), ("thistle", 216, 191, 216), ("tomato", 255, 99, 71),
    ("transparent", 0, 0, 0), ("turquoise", 64, 224, 208), ("violet", 238, 130, 238),
    ("wheat", 245, 222, 179), ("white", 255, 255, 255), ("whitesmoke", 245, 245, 245),
    ("yellow", 255, 255, 0), ("yellowgreen", 154, 205, 50)]

section
variable {δ : Type} (qt : Qt δ)

/-- `SeqColor(spec)`: a "#RRGGBB" or one of the names in the table, in whatever case; all else is no
    colour. -/
def SeqColor.ofSpec (spec : QString) : SeqColor :=
  if spec = [] then {}
  else if spec.head? = some '#' then
    if spec.length ≠ 7 then {}
    else
      match qt.toUInt 16 (spec.drop 1) with
      | none => {}
      | some v => { r := (v >>> 16).toUInt8, g := (v >>> 8).toUInt8, b := v.toUInt8, valid := true }
  else
    match kNamedColors.find? fun c => spec.map qt.foldCase = c.1.toList with
    | some c => { r := c.2.1, g := c.2.2.1, b := c.2.2.2, valid := true }
    | none => {}

/-! ## DomConvenience -/

/-- `getBase`: the base that the element gives for its number, ten if it gives none. -/
def getBase (e : Element) : ℤ :=
  match e.attributes.lookup "base" with
  | none => 10
  | some base => ((qt.toInt 10 base).map Int32.toInt).getD 10

/-- `getBoolFromString`; another text is no truth value. -/
def getBoolFromString (s : QString) : Option Bool :=
  if s = "true".toList ∨ s = "1".toList then some true
  else if s = "false".toList ∨ s = "0".toList then some false
  else none

/-- An attribute that is an `int`, or 0; `default` if there is none. -/
def number (e : Element) (name : String) (default : Int32) : Int32 :=
  match e.attributes.lookup name with
  | none => default
  | some s => (qt.toInt (getBase qt e) s).getD 0

/-- `getColor`: a color by name, then the components that the element gives one by one. -/
def getColor (e : Element) : SeqColor :=
  let color : SeqColor :=
    match e.attributes.lookup "name" with
    | none => {}
    | some spec => .ofSpec qt spec
  if e.hasAttribute "red" ∨ e.hasAttribute "green" ∨ e.hasAttribute "blue" then
    let start (c : UInt8) : Int32 := if color.valid then c.toUInt32.toInt32 else 0
    { r := (number qt e "red" (start color.r)).toUInt32.toUInt8
      g := (number qt e "green" (start color.g)).toUInt32.toUInt8
      b := (number qt e "blue" (start color.b)).toUInt32.toUInt8
      valid := true }
  else color

/-- There is no reader for the tag "int64". The strings of a list are looked for in the attributes
    of the list. -/
def elementToVariant (e : Element) : Option (QVariant δ) :=
  if e.tagName = "string" then (e.attributes.lookup "value").map .string
  else if e.tagName = "int" then
    (e.attributes.lookup "value").bind fun s => (qt.toInt (getBase qt e) s).map .int
  else if e.tagName = "uint" then
    (e.attributes.lookup "value").bind fun s => (qt.toUInt (getBase qt e) s).map .uint
  else if e.tagName = "double" then
    (e.attributes.lookup "value").bind fun s => (qt.toDouble s).map .double
  else if e.tagName = "bool" then
    (e.attributes.lookup "value").bind fun s => (getBoolFromString s).map .bool
  else if e.tagName = "color" then
    if (getColor qt e).valid then some (.color (getColor qt e)) else none
  else if e.tagName = "point" then some (.point (number qt e "x" 0) (number qt e "y" 0))
  else if e.tagName = "rect" then
    some (.rect (.ofSize (number qt e "x" 0) (number qt e "y" 0) (number qt e "width" 0)
      (number qt e "height" 0)))
  else if e.tagName = "size" then
    some (.size (number qt e "width" 0) (number qt e "height" 0))
  else if e.tagName = "stringlist" then
    some (.stringList ((e.strings.filter fun a => (a.lookup "value").isSome).map fun _ =>
      e.attributeText "value"))
  else if e.tagName = "uint64" then (qt.toULongLong 16 (e.attributeText "value")).map .uint64
  else none

/-- A text by way of a C string. -/
def cString (s : QString) : QString := s.takeWhile (· ≠ Char.ofNat 0)

/-- The string elements of a list: those that are there are written again, those too many go, and
    new ones come behind. -/
def setStrings : List QString → List Attributes → List Attributes
  | [], _ => []
  | s :: l, [] => [("value", cString s)] :: setStrings l []
  | s :: l, _ :: old => [("value", cString s)] :: setStrings l old

/-- `boolString` -/
def boolString (b : Bool) : QString := if b then "true".toList else "false".toList

/-- `DomConvenience::variantToElement`: the tag and the attributes that stand for a value, in the
    place of what the element had. -/
def variantToElement (v : QVariant δ) (e : Element) : Element :=
  let attr (name : String) (i : Int32) : String × QString := (name, Numeral.printInt i.toInt)
  match v with
  | .color c =>
      { e with
        tagName := "color"
        attributes := [attr "red" c.r.toUInt32.toInt32, attr "green" c.g.toUInt32.toInt32,
          attr "blue" c.b.toUInt32.toInt32] }
  | .string s => { e with tagName := "string", attributes := [("value", cString s)] }
  | .int i => { e with tagName := "int", attributes := [attr "value" i] }
  | .uint u =>
      { e with tagName := "uint", attributes := [("value", Nat.toDigits 10 u.toNat)] }
  | .int64 i =>
      { e with
        tagName := "int64"
        attributes := [("value", Numeral.printPadded 16 16 i.toUInt64.toNat)] }
  | .uint64 u =>
      { e with
        tagName := "uint64"
        attributes := [("value", Numeral.printPadded 16 16 u.toNat)] }
  | .double d => { e with tagName := "double", attributes := [("value", qt.ofDouble d)] }
  | .bool b => { e with tagName := "bool", attributes := [("value", boolString b)] }
  | .point x y => { e with tagName := "point", attributes := [attr "x" x, attr "y" y] }
  | .rect rect =>
      { e with
        tagName := "rect"
        attributes := [attr "x" rect.x1, attr "y" rect.y1, attr "width" rect.width,
          attr "height" rect.height] }
  | .size width height =>
      { e with tagName := "size", attributes := [attr "width" width, attr "height" height] }
  | .stringList l =>
      { e with tagName := "stringlist", attributes := [], strings := setStrings l e.strings }

end

/-! ## Numbers in attributes -/

namespace Qt

variable {δ : Type} (qt : Qt δ)

theorem isSpace_digitChar : ∀ d < 16, qt.isSpace (Nat.digitChar d) = false := by
  intro d hd
  have hascii : ∀ d < 16, '!' ≤ Nat.digitChar d ∧ Nat.digitChar d ≤ '~' := by decide
  exact qt.isSpace_ascii _ (hascii d hd).1 (hascii d hd).2

theorem toInt_printInt (i : Int32) : qt.toInt 10 (Numeral.printInt i.toInt) = some i := by
  have hread : Numeral.integer qt.isSpace 10 (Numeral.printInt i.toInt) = some i.toInt :=
    Numeral.integer_printInt qt.isSpace_digitChar (qt.isSpace_ascii '-' (by decide) (by decide)) _
  have hrange : -2 ^ 31 ≤ i.toInt ∧ i.toInt < 2 ^ 31 := ⟨i.le_toInt, i.toInt_lt⟩
  rw [toInt, hread, Option.filter_some, if_pos (decide_eq_true hrange), Option.map_some,
    Int32.ofInt_toInt]

theorem toUInt_toDigits (u : UInt32) : qt.toUInt 10 (Nat.toDigits 10 u.toNat) = some u := by
  rw [toUInt, Numeral.natural_toDigits qt.isSpace_digitChar, Option.filter_some,
    if_pos (decide_eq_true u.toNat_lt), Option.map_some, UInt32.ofNat_toNat]

theorem toULongLong_printPadded (u : UInt64) :
    qt.toULongLong 16 (Numeral.printPadded 16 16 u.toNat) = some u := by
  have hlow : 1 < 16 := by omega
  have hread : Numeral.natural qt.isSpace 16 (Numeral.printPadded 16 16 u.toNat) = some u.toNat :=
    Numeral.natural_printPadded qt.isSpace_digitChar hlow le_rfl 16 u.toNat
  rw [toULongLong, hread, Option.filter_some, if_pos (decide_eq_true u.toNat_lt), Option.map_some,
    UInt64.ofNat_toNat]

/-- A text either stays or has an arrow, before and after. -/
theorem spaced_cases (s : QString) : qt.spaced s = s ∨ '>' ∈ s ∧ '>' ∈ qt.spaced s := by
  by_cases h : '>' ∈ s
  · exact Or.inr ⟨h, (AttributeText.sublist_arrows _ _ s).subset h⟩
  · exact Or.inl (AttributeText.arrows_of_notMem _ _ h)

/-- A reader of texts without arrows reads the same. -/
theorem spaced_of_arrow {α : Type} {f : QString → α} (a : α) (hf : ∀ s, '>' ∈ s → f s = a)
    (s : QString) : f (qt.spaced s) = f s := by
  rcases qt.spaced_cases s with h | ⟨hbefore, hafter⟩
  · rw [h]
  · rw [hf _ hbefore, hf _ hafter]

theorem arrow_no_space : qt.isSpace '>' = false := qt.isSpace_ascii '>' (by decide) (by decide)

theorem toInt_spaced (base : ℤ) (s : QString) : qt.toInt base (qt.spaced s) = qt.toInt base s := by
  refine qt.spaced_of_arrow none (fun s hs => ?_) s
  have hnone : Numeral.integer qt.isSpace base s = none := by
    by_contra hsome
    obtain ⟨i, hi⟩ := Option.ne_none_iff_exists'.mp hsome
    exact absurd (Numeral.integer_chars hi hs qt.arrow_no_space) (by decide)
  rw [toInt, hnone]
  rfl

theorem natural_arrow (base : ℤ) (s : QString) (hs : '>' ∈ s) :
    Numeral.natural qt.isSpace base s = none := by
  by_contra hsome
  obtain ⟨n, hn⟩ := Option.ne_none_iff_exists'.mp hsome
  exact absurd (Numeral.natural_chars hn hs qt.arrow_no_space) (by decide)

theorem toUInt_spaced (base : ℤ) (s : QString) :
    qt.toUInt base (qt.spaced s) = qt.toUInt base s := by
  refine qt.spaced_of_arrow none (fun s hs => ?_) s
  rw [toUInt, qt.natural_arrow base s hs]
  rfl

theorem toULongLong_spaced (base : ℤ) (s : QString) :
    qt.toULongLong base (qt.spaced s) = qt.toULongLong base s := by
  refine qt.spaced_of_arrow none (fun s hs => ?_) s
  rw [toULongLong, qt.natural_arrow base s hs]
  rfl

theorem toDouble_spaced (s : QString) : qt.toDouble (qt.spaced s) = qt.toDouble s :=
  qt.spaced_of_arrow none qt.toDouble_arrow s

theorem getBoolFromString_spaced (s : QString) :
    getBoolFromString (qt.spaced s) = getBoolFromString s := by
  refine qt.spaced_of_arrow none (fun s hs => ?_) s
  have hne : ∀ word : QString, '>' ∉ word → s ≠ word := fun word hword heq => hword (heq ▸ hs)
  have htrue := hne "true".toList (by decide)
  have hone := hne "1".toList (by decide)
  have hfalse := hne "false".toList (by decide)
  have hzero := hne "0".toList (by decide)
  unfold getBoolFromString
  rw [if_neg (not_or.mpr ⟨htrue, hone⟩), if_neg (not_or.mpr ⟨hfalse, hzero⟩)]

theorem named_no_arrow : ∀ c ∈ kNamedColors, '>' ∉ c.1.toList := by decide +kernel

theorem ofSpec_spaced (spec : QString) :
    SeqColor.ofSpec qt (qt.spaced spec) = SeqColor.ofSpec qt spec := by
  refine qt.spaced_of_arrow {} (fun s hs => ?_) spec
  have hne : s ≠ [] := List.ne_nil_of_mem hs
  have hnamed : kNamedColors.find? (fun c => s.map qt.foldCase = c.1.toList) = none := by
    refine List.find?_eq_none.mpr fun c hc heq => ?_
    have hmem : '>' ∈ s.map qt.foldCase := List.mem_map.mpr ⟨'>', hs, qt.foldCase_arrow⟩
    rw [of_decide_eq_true heq] at hmem
    exact named_no_arrow c hc hmem
  unfold SeqColor.ofSpec
  rw [if_neg hne, hnamed]
  split
  · rename_i hhash
    have hrest : '>' ∈ s.drop 1 := by
      cases s with
      | nil => exact absurd rfl hne
      | cons c cs =>
          have hc : c = '#' := Option.some.inj hhash
          rcases List.mem_cons.mp hs with rfl | hcs
          · exact absurd hc (by decide)
          · exact hcs
    have hnone : qt.toUInt 16 (s.drop 1) = none := by
      rw [toUInt, qt.natural_arrow 16 _ hrest]
      rfl
    rw [hnone]
    split <;> rfl
  · rfl

end Qt

/-! ## Texts replaced -/

/-- The same value with its texts changed. -/
def QVariant.mapTexts {δ : Type} (f : QString → QString) : QVariant δ → QVariant δ
  | .string s => .string (f s)
  | .stringList l => .stringList (l.map f)
  | v => v

section
variable {δ : Type} (qt : Qt δ) (e : Element)

theorem lookup_mapTexts (f : QString → QString) (attributes : Attributes) (name : String) :
    (attributes.mapTexts f).lookup name = (attributes.lookup name).map f := by
  unfold Attributes.mapTexts
  induction attributes with
  | nil => rfl
  | cons a as ih =>
      rw [List.map_cons, List.lookup_cons, List.lookup_cons, ih]
      split <;> rfl

theorem hasAttribute_mapTexts (f : QString → QString) (name : String) :
    (e.mapTexts f).hasAttribute name = e.hasAttribute name := by
  show ((e.attributes.mapTexts f).lookup name).isSome = _
  rw [lookup_mapTexts, Option.isSome_map]
  rfl

theorem getBase_spaced : getBase qt (e.mapTexts qt.spaced) = getBase qt e := by
  show (match (e.attributes.mapTexts qt.spaced).lookup "base" with
    | none => 10
    | some base => ((qt.toInt 10 base).map Int32.toInt).getD 10) = getBase qt e
  unfold getBase
  rw [lookup_mapTexts]
  cases e.attributes.lookup "base" with
  | none => rfl
  | some base =>
      dsimp only [Option.map_some]
      rw [qt.toInt_spaced]

theorem number_spaced (name : String) (default : Int32) :
    number qt (e.mapTexts qt.spaced) name default = number qt e name default := by
  show (match (e.attributes.mapTexts qt.spaced).lookup name with
    | none => default
    | some s => (qt.toInt (getBase qt (e.mapTexts qt.spaced)) s).getD 0) = number qt e name default
  unfold number
  rw [lookup_mapTexts, getBase_spaced]
  cases e.attributes.lookup name with
  | none => rfl
  | some s =>
      dsimp only [Option.map_some]
      rw [qt.toInt_spaced]

theorem getColor_spaced : getColor qt (e.mapTexts qt.spaced) = getColor qt e := by
  unfold getColor
  simp only [number_spaced, hasAttribute_mapTexts]
  have hcolor : (match (e.mapTexts qt.spaced).attributes.lookup "name" with
      | none => ({} : SeqColor)
      | some spec => .ofSpec qt spec) =
      match e.attributes.lookup "name" with
      | none => {}
      | some spec => .ofSpec qt spec := by
    show (match (e.attributes.mapTexts qt.spaced).lookup "name" with
      | none => ({} : SeqColor)
      | some spec => .ofSpec qt spec) = _
    rw [lookup_mapTexts]
    cases e.attributes.lookup "name" with
    | none => rfl
    | some spec => exact qt.ofSpec_spaced spec
  rw [hcolor]

/-- A value read from one attribute. -/
theorem value_spaced {α : Type} {f : QString → Option α} (hf : ∀ s, f (qt.spaced s) = f s)
    (g : α → QVariant δ) (hg : ∀ a, (g a).mapTexts qt.spaced = g a) (text : Option QString) :
    ((text.map qt.spaced).bind fun s => (f s).map g) =
      (text.bind fun s => (f s).map g).map (QVariant.mapTexts qt.spaced) := by
  cases text with
  | none => rfl
  | some s =>
      show (f (qt.spaced s)).map g = ((f s).map g).map _
      rw [hf, Option.map_map]
      exact congrArg (Option.map · (f s)) (funext fun a => (hg a).symm)

/-- Of what is read only the texts change. -/
theorem elementToVariant_mapTexts :
    elementToVariant qt (e.mapTexts qt.spaced) =
      (elementToVariant qt e).map (QVariant.mapTexts qt.spaced) := by
  have htag : (e.mapTexts qt.spaced).tagName = e.tagName := rfl
  have hvalue : (e.mapTexts qt.spaced).attributes.lookup "value" =
      (e.attributes.lookup "value").map qt.spaced := lookup_mapTexts _ _ _
  have htext :
      (e.mapTexts qt.spaced).attributeText "value" = qt.spaced (e.attributeText "value") := by
    show (((e.mapTexts qt.spaced).attributes.lookup "value").getD []) = _
    rw [hvalue]
    unfold Element.attributeText
    cases e.attributes.lookup "value" <;> rfl
  have hstrings : ((e.mapTexts qt.spaced).strings.filter fun a => (a.lookup "value").isSome) =
      (e.strings.filter fun a => (a.lookup "value").isSome).map (·.mapTexts qt.spaced) := by
    show (e.strings.map _).filter _ = _
    rw [List.filter_map]
    refine congrArg (List.map _) (List.filter_congr fun a _ => ?_)
    show ((a.mapTexts qt.spaced).lookup "value").isSome = _
    rw [lookup_mapTexts, Option.isSome_map]
  unfold elementToVariant
  rw [htag, hvalue, getBase_spaced, getColor_spaced]
  simp only [number_spaced, apply_ite (Option.map (QVariant.mapTexts qt.spaced))]
  refine if_congr Iff.rfl ?_ (if_congr Iff.rfl ?_ (if_congr Iff.rfl ?_ (if_congr Iff.rfl ?_
    (if_congr Iff.rfl ?_ (if_congr Iff.rfl ?_ (if_congr Iff.rfl rfl (if_congr Iff.rfl rfl
      (if_congr Iff.rfl rfl (if_congr Iff.rfl ?_ (if_congr Iff.rfl ?_ rfl))))))))))
  · rw [Option.map_map, Option.map_map]
    rfl
  · exact value_spaced qt (qt.toInt_spaced _) .int (fun _ => rfl) _
  · exact value_spaced qt (qt.toUInt_spaced _) .uint (fun _ => rfl) _
  · exact value_spaced qt qt.toDouble_spaced .double (fun _ => rfl) _
  · exact value_spaced qt qt.getBoolFromString_spaced .bool (fun _ => rfl) _
  · rfl
  · rw [hstrings, List.map_map, htext]
    refine congrArg (fun l => some (QVariant.stringList l)) ?_
    rw [List.map_map]
    rfl
  · rw [htext, qt.toULongLong_spaced, Option.map_map]
    rfl

/-! ## Values written and read -/

theorem setStrings_eq (l : List QString) (old : List Attributes) :
    setStrings l old = l.map fun s => [("value", cString s)] := by
  induction l generalizing old with
  | nil => rfl
  | cons s l ih =>
      cases old with
      | nil => exact congrArg _ (ih [])
      | cons a old => exact congrArg _ (ih old)

/-- What is read of an element to which `v` was written. -/
def readBack (v : QVariant δ) : Option (QVariant δ) :=
  match v with
  | .string s => some (.string (cString s))
  | .int64 _ => none
  | .double d => (qt.toDouble (qt.ofDouble d)).map .double
  | .color c => some (.color { c with valid := true })
  | .stringList l => some (.stringList (l.map fun _ => []))
  | v => some v

theorem ofSize_size (rect : QRect) :
    QRect.ofSize rect.x1 rect.y1 rect.width rect.height = rect := by
  have hcorner : ∀ a b : Int32, a + (b - a + 1) - 1 = b := by
    intro a b
    grind
  unfold QRect.ofSize QRect.width QRect.height
  rw [hcorner, hcorner]

/-- A number that was written is read, whatever stands in the other attributes. -/
theorem number_printInt {e : Element} {name : String} {i : Int32} (default : Int32)
    (hbase : e.attributes.lookup "base" = none)
    (hname : e.attributes.lookup name = some (Numeral.printInt i.toInt)) :
    number qt e name default = i := by
  have hten : getBase qt e = 10 := by
    unfold getBase
    rw [hbase]
  unfold number
  rw [hname, hten]
  dsimp only
  rw [qt.toInt_printInt, Option.getD_some]

theorem getBoolFromString_boolString (b : Bool) : getBoolFromString (boolString b) = some b := by
  cases b with
  | true => exact if_pos (Or.inl rfl)
  | false =>
      have hfalse : ¬ (boolString false = "true".toList ∨ boolString false = "1".toList) := by
        decide
      exact (if_neg hfalse).trans (if_pos (Or.inl rfl))

theorem elementToVariant_variantToElement (v : QVariant δ) :
    elementToVariant qt (variantToElement qt v e) = readBack qt v := by
  have hnumber : ∀ (e : Element) (name : String) (i default : Int32),
      e.attributes.lookup "base" = none →
      e.attributes.lookup name = some (Numeral.printInt i.toInt) → number qt e name default = i :=
    fun e name i default hbase hname => number_printInt qt default hbase hname
  cases v with
  | string s => simp [elementToVariant, variantToElement, readBack]
  | int i =>
      simp [elementToVariant, variantToElement, readBack, getBase, List.lookup_cons,
        qt.toInt_printInt]
  | uint u =>
      simp [elementToVariant, variantToElement, readBack, getBase, List.lookup_cons,
        qt.toUInt_toDigits]
  | int64 i => simp [elementToVariant, variantToElement, readBack]
  | uint64 u =>
      simp [elementToVariant, variantToElement, readBack, Element.attributeText,
        qt.toULongLong_printPadded]
  | double d => simp [elementToVariant, variantToElement, readBack]
  | bool b =>
      simp [elementToVariant, variantToElement, readBack, getBoolFromString_boolString]
  | color c =>
      let e' := variantToElement qt (.color c) e
      have hred : ∀ i, number qt e' "red" i = c.r.toUInt32.toInt32 :=
        fun i => hnumber e' "red" _ i rfl rfl
      have hgreen : ∀ i, number qt e' "green" i = c.g.toUInt32.toInt32 :=
        fun i => hnumber e' "green" _ i rfl rfl
      have hblue : ∀ i, number qt e' "blue" i = c.b.toUInt32.toInt32 :=
        fun i => hnumber e' "blue" _ i rfl rfl
      have hcolor : getColor qt e' = { c with valid := true } := by
        have hany : e'.hasAttribute "red" ∨ e'.hasAttribute "green" ∨ e'.hasAttribute "blue" :=
          Or.inl rfl
        unfold getColor
        rw [if_pos hany]
        simp only [hred, hgreen, hblue, UInt32.toUInt32_toInt32, UInt8.toUInt8_toUInt32]
      have hread : elementToVariant qt e' =
          if (getColor qt e').valid then some (.color (getColor qt e')) else none := rfl
      rw [hread, hcolor]
      rfl
  | point x y =>
      let e' := variantToElement qt (.point x y) e
      have hread : elementToVariant qt e' =
          some (.point (number qt e' "x" 0) (number qt e' "y" 0)) := rfl
      rw [hread, hnumber e' "x" x 0 rfl rfl, hnumber e' "y" y 0 rfl rfl]
      rfl
  | rect rect =>
      let e' := variantToElement qt (.rect rect) e
      have hread : elementToVariant qt e' =
          some (.rect (.ofSize (number qt e' "x" 0) (number qt e' "y" 0) (number qt e' "width" 0)
            (number qt e' "height" 0))) := rfl
      rw [hread, hnumber e' "x" rect.x1 0 rfl rfl, hnumber e' "y" rect.y1 0 rfl rfl,
        hnumber e' "width" rect.width 0 rfl rfl, hnumber e' "height" rect.height 0 rfl rfl,
        ofSize_size]
      rfl
  | size width height =>
      let e' := variantToElement qt (.size width height) e
      have hread : elementToVariant qt e' =
          some (.size (number qt e' "width" 0) (number qt e' "height" 0)) := rfl
      rw [hread, hnumber e' "width" width 0 rfl rfl, hnumber e' "height" height 0 rfl rfl]
      rfl
  | stringList l =>
      have hall : ((l.map fun s => [("value", cString s)]).filter fun a : Attributes =>
          (a.lookup "value").isSome) = l.map fun s => [("value", cString s)] := by
        refine List.filter_eq_self.mpr fun a ha => ?_
        obtain ⟨s, -, rfl⟩ := List.mem_map.mp ha
        rfl
      have hread : elementToVariant qt (variantToElement qt (.stringList l) e) =
          some (.stringList (((setStrings l e.strings).filter fun a =>
            (a.lookup "value").isSome).map fun _ => [])) := rfl
      rw [hread, setStrings_eq, hall, List.map_map]
      rfl

end

end ShoweqDaemon.Preferences
