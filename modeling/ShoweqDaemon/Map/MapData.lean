/-
  Maps: `MapData`, its layers, and the texts they are loaded from.

  A map file is a text of lines, a line a list of fields. `MapQt` collects what Qt does with texts
  on top of the preferences' `Qt`: decoding UTF-8, reading a float, and cutting a line of the SOE
  format into fields. A float is the number it stands for; what C++ makes of a float beyond the
  range of an `int16_t` is not defined and wraps here.

  Every element that a loader takes out of a list or a string is noted (`Audit.element`).
-/
import Mathlib.Data.Rat.Defs
import ShoweqDaemon.Lib.Audit
import ShoweqDaemon.Prefs.XMLPreferences

namespace ShoweqDaemon.Maps

open Audit
open Preferences (Qt QRect SeqColor XMLPreferences)
open Spawns (QString)

/-! ## Texts -/

/-- What the loaders use of Qt besides `Qt`: decoding, floats and the split of a line into fields.
    -/
structure MapQt (δ : Type) extends Qt δ where
  fromUtf8 : List UInt8 → QString
  /-- `QString::toFloat`, zero for a text that is no number. -/
  toFloat : QString → ℚ
  /-- The fields of a line without its first two units, `remove(0, 2)` and `split(",\\s*")`. -/
  entryFields : QString → List QString
  /-- The base name of a file without the number of its layer. -/
  zoneName : QString → QString

/-- `[\r\n]` -/
def lineEnd (c : Char) : Bool := c = '\r' || c = '\n'

/-- The lines of a text, the empty ones left out. -/
def lines (text : QString) : List QString := (text.splitOnP lineEnd).filter (· ≠ [])

/-- `at` -/
def charAt (s : QString) (i : ℕ) : Noted Element Char := do
  note (Element.mk i s.length)
  pure (s.getD i (Char.ofNat 0))

/-- `int16_t` of a float. -/
def int16 (q : ℚ) : Int16 := Int16.ofInt (q.num.tdiv q.den)

namespace MapQt

variable {δ : Type} (qt : MapQt δ)

/-- `QString::toShort`, none for what is no number of 16 bits. -/
def toShort (s : QString) : Option Int16 :=
  ((Numeral.integer qt.isSpace 10 s).filter fun i => -2 ^ 15 ≤ i ∧ i < 2 ^ 15).map Int16.ofInt

/-- `QString::toUShort`, none for what is no number of 16 bits without a sign. -/
def toUShort (s : QString) : Option UInt16 := Numeral.ushort qt.isSpace 10 s

/-- A coordinate of the SOE format. -/
def coordinate (s : QString) : Int16 := int16 (qt.toFloat s)

/-- The colour component in a field. -/
def component (s : QString) : UInt8 := ((qt.toUShort s).getD 0).toUInt8

end MapQt

/-! ## Objects -/

/-- `MapPoint`, in the 16 bits of the game's coordinates. -/
structure MapPoint where
  x : Int16
  y : Int16
  z : Int16
  deriving DecidableEq, Repr, Inhabited

/-- `MapCommon`: a name and a color, by its name and as it is drawn. -/
structure MapCommon where
  m_name : QString
  m_colorName : QString := []
  m_color : SeqColor
  m_origColor : SeqColor := {}
  deriving DecidableEq, Repr

/-- A line in the plane, of one height if that is set. -/
structure MapLineL extends MapCommon where
  points : List (Int16 × Int16)
  m_z : Int16 := 0
  m_heightSet : Bool := false
  deriving DecidableEq, Repr

/-- `MapLineM`: a line whose points have their own heights. -/
structure MapLineM extends MapCommon where
  points : List MapPoint
  deriving DecidableEq, Repr

/-- `MapLocation`: a place with a name. -/
structure MapLocation extends MapCommon, MapPoint where
  m_heightSet : Bool
  deriving DecidableEq, Repr

/-- `MapAggro`: the range in which a creature attacks. -/
structure MapAggro where
  m_name : QString
  m_range : UInt16
  deriving DecidableEq, Repr

/-- `MapLayer`: what one file has, lines of both kinds and places. -/
structure MapLayer where
  m_lLines : List MapLineL := []
  m_mLines : List MapLineM := []
  m_locations : List MapLocation := []
  m_fileName : QString := []
  m_mapLoaded : Bool := false

/-- `MapData`: the layers, the bounds of everything in them, and what a file says of its zone. -/
structure MapData where
  m_minX : Int16
  m_minY : Int16
  m_maxX : Int16
  m_maxY : Int16
  m_boundingRect : QRect
  m_size : Int32 × Int32
  m_zoneLongName : QString
  m_zoneShortName : QString
  m_mapLayers : List MapLayer
  m_aggros : List MapAggro
  m_zoneZEM : UInt8

/-! ## Bounds -/

/-- A `QRect` by its corners. -/
structure Extent where
  minX : Int16
  minY : Int16
  maxX : Int16
  maxY : Int16

namespace Extent

/-- The extent with one more point in it. A point that is a new minimum is not looked at as a
    maximum. -/
def add (extent : Extent) (x y : Int16) : Extent where
  minX := if x < extent.minX then x else extent.minX
  maxX := if x < extent.minX then extent.maxX else if extent.maxX < x then x else extent.maxX
  minY := if y < extent.minY then y else extent.minY
  maxY := if y < extent.minY then extent.maxY else if extent.maxY < y then y else extent.maxY

/-- `boundingRect`: from the first point on, the least and the greatest. -/
def of (points : List (Int16 × Int16)) : Extent :=
  match points with
  -- `QRect(0, 0, 0, 0)`
  | [] => ⟨0, 0, -1, -1⟩
  | p :: rest => rest.foldl (fun extent q => extent.add q.1 q.2) ⟨p.1, p.2, p.1, p.2⟩

end Extent

namespace MapData

variable (data : MapData)

/-- `MapData::quickCheckPos`: the bounds grow to a point. -/
def quickCheckPos (x y : Int16) : MapData :=
  { data with
    m_maxX := if data.m_maxX < x then x else data.m_maxX
    m_maxY := if data.m_maxY < y then y else data.m_maxY
    m_minX := if x < data.m_minX then x else data.m_minX
    m_minY := if y < data.m_minY then y else data.m_minY }

/-- The two corners of what is drawn. -/
def quickCheckRect (bounds : Extent) : MapData :=
  (data.quickCheckPos bounds.minX bounds.minY).quickCheckPos bounds.maxX bounds.maxY

/-- `MapData::updateBounds`: the rectangle and the size that follow from the bounds. -/
def updateBounds : MapData :=
  let rect : QRect :=
    { x1 := data.m_minX.toInt32, y1 := data.m_minY.toInt32
      x2 := data.m_maxX.toInt32, y2 := data.m_maxY.toInt32 }
  { data with m_boundingRect := rect, m_size := (rect.width, rect.height) }

/-- `MapData::clear`: the bounds are those of an empty map. -/
def clear : MapData :=
  updateBounds
    { data with
      m_zoneLongName := [], m_zoneShortName := []
      m_minX := -50, m_maxX := 50, m_minY := -50, m_maxY := 50
      m_mapLayers := [], m_aggros := [], m_zoneZEM := 75 }

/-- The constructor. -/
def construct : MapData :=
  clear
    { m_minX := 0, m_minY := 0, m_maxX := 0, m_maxY := 0, m_boundingRect := ⟨0, 0, 0, 0⟩
      m_size := (0, 0), m_zoneLongName := [], m_zoneShortName := [], m_mapLayers := []
      m_aggros := [], m_zoneZEM := 0 }

/-- A point inside the bounds. -/
def Holds (x y : Int16) : Prop :=
  data.m_minX ≤ x ∧ x ≤ data.m_maxX ∧ data.m_minY ≤ y ∧ y ≤ data.m_maxY

end MapData

/-! ### Bounds only grow -/

theorem lower_le (a x : Int16) : (if x < a then x else a) ≤ a ∧ (if x < a then x else a) ≤ x := by
  split
  · rename_i h
    exact ⟨Int16.le_of_lt h, Int16.le_refl x⟩
  · rename_i h
    exact ⟨Int16.le_refl a, Int16.not_lt.mp h⟩

theorem le_upper (a x : Int16) : a ≤ (if a < x then x else a) ∧ x ≤ if a < x then x else a := by
  split
  · rename_i h
    exact ⟨Int16.le_of_lt h, Int16.le_refl x⟩
  · rename_i h
    exact ⟨Int16.le_refl a, Int16.not_lt.mp h⟩

namespace Extent

/-- A point between the corners. -/
def Covers (extent : Extent) (x y : Int16) : Prop :=
  extent.minX ≤ x ∧ x ≤ extent.maxX ∧ extent.minY ≤ y ∧ y ≤ extent.maxY

/-- A point that is below the least is not compared with the greatest. -/
theorem add_axis {low high : Int16} (h : low ≤ high) (x : Int16) :
    (if x < low then x else low) ≤ low ∧
      high ≤ (if x < low then high else if high < x then x else high) ∧
      (if x < low then x else low) ≤ x ∧
      x ≤ if x < low then high else if high < x then x else high := by
  by_cases hx : x < low
  · simp only [hx, if_true]
    exact ⟨Int16.le_of_lt hx, Int16.le_refl high, Int16.le_refl x,
      Int16.le_trans (Int16.le_of_lt hx) h⟩
  · simp only [hx, if_false]
    obtain ⟨hhigh, hxhigh⟩ := le_upper high x
    exact ⟨Int16.le_refl low, hhigh, Int16.not_lt.mp hx, hxhigh⟩

/-- The corners are in order when some point is between them. -/
theorem Covers.ordered {extent : Extent} {x y : Int16} (h : extent.Covers x y) :
    extent.minX ≤ extent.maxX ∧ extent.minY ≤ extent.maxY :=
  ⟨Int16.le_trans h.1 h.2.1, Int16.le_trans h.2.2.1 h.2.2.2⟩

theorem Covers.add {extent : Extent} {x y : Int16} (h : extent.Covers x y) (x' y' : Int16) :
    (extent.add x' y').Covers x y ∧ (extent.add x' y').Covers x' y' := by
  obtain ⟨hlowX, hhighX, hx, hx'⟩ := add_axis h.ordered.1 x'
  obtain ⟨hlowY, hhighY, hy, hy'⟩ := add_axis h.ordered.2 y'
  refine ⟨⟨?_, ?_, ?_, ?_⟩, hx, hx', hy, hy'⟩
  · exact Int16.le_trans hlowX h.1
  · exact Int16.le_trans h.2.1 hhighX
  · exact Int16.le_trans hlowY h.2.2.1
  · exact Int16.le_trans h.2.2.2 hhighY

/-- A step that takes in one more point and leaves none out. -/
def TakesIn (step : Extent → Int16 → Int16 → Extent) : Prop :=
  ∀ {extent : Extent} {x y : Int16}, extent.Covers x y → ∀ x' y',
    (step extent x' y').Covers x y ∧ (step extent x' y').Covers x' y'

theorem takesIn_add : TakesIn add := fun h x' y' => h.add x' y'

section
variable {step : Extent → Int16 → Int16 → Extent} (hstep : TakesIn step)
include hstep

theorem covers_foldl (rest : List (Int16 × Int16)) {extent : Extent} {x y : Int16}
    (h : extent.Covers x y) :
    let all := rest.foldl (fun extent q => step extent q.1 q.2) extent
    all.Covers x y ∧ ∀ q ∈ rest, all.Covers q.1 q.2 := by
  induction rest generalizing extent x y with
  | nil => exact ⟨h, fun _ hq => nomatch hq⟩
  | cons q rest ih =>
      obtain ⟨hold, hnew⟩ := hstep h q.1 q.2
      refine ⟨(ih hold).1, ?_⟩
      intro q' hq'
      rcases List.mem_cons.mp hq' with rfl | hrest
      · exact (ih hnew).1
      · exact (ih hold).2 q' hrest

/-- The steps begin at the rectangle of the first point. -/
theorem covers_foldl_first {q p : Int16 × Int16} {rest : List (Int16 × Int16)}
    (hp : p ∈ q :: rest) :
    (rest.foldl (fun extent q => step extent q.1 q.2) ⟨q.1, q.2, q.1, q.2⟩).Covers p.1 p.2 := by
  have hself : (Extent.mk q.1 q.2 q.1 q.2).Covers q.1 q.2 :=
    ⟨Int16.le_refl _, Int16.le_refl _, Int16.le_refl _, Int16.le_refl _⟩
  obtain ⟨hfirst, hrest⟩ := covers_foldl hstep rest hself
  rcases List.mem_cons.mp hp with rfl | hp
  · exact hfirst
  · exact hrest p hp

end

/-- Every point is inside the rectangle of all. -/
theorem covers_of {points : List (Int16 × Int16)} {p : Int16 × Int16} (hp : p ∈ points) :
    (of points).Covers p.1 p.2 := by
  cases points with
  | nil => cases hp
  | cons q rest => exact covers_foldl_first takesIn_add hp

end Extent

namespace MapData

variable {data : MapData} {x y : Int16}

theorem quickCheckPos_holds (data : MapData) (x y : Int16) : (data.quickCheckPos x y).Holds x y :=
  ⟨(lower_le data.m_minX x).2, (le_upper data.m_maxX x).2, (lower_le data.m_minY y).2,
    (le_upper data.m_maxY y).2⟩

theorem Holds.quickCheckPos (h : data.Holds x y) (x' y' : Int16) :
    (data.quickCheckPos x' y').Holds x y := by
  obtain ⟨hminX, hmaxX, hminY, hmaxY⟩ := h
  refine ⟨?_, ?_, ?_, ?_⟩
  · exact Int16.le_trans (lower_le data.m_minX x').1 hminX
  · exact Int16.le_trans hmaxX (le_upper data.m_maxX x').1
  · exact Int16.le_trans (lower_le data.m_minY y').1 hminY
  · exact Int16.le_trans hmaxY (le_upper data.m_maxY y').1

theorem Holds.quickCheckRect (h : data.Holds x y) (bounds : Extent) :
    (data.quickCheckRect bounds).Holds x y :=
  (h.quickCheckPos bounds.minX bounds.minY).quickCheckPos bounds.maxX bounds.maxY

/-- What a rectangle covers is inside once its corners are. -/
theorem quickCheckRect_holds (data : MapData) {bounds : Extent} (h : bounds.Covers x y) :
    (data.quickCheckRect bounds).Holds x y := by
  have hlow := (quickCheckPos_holds data bounds.minX bounds.minY).quickCheckPos bounds.maxX
    bounds.maxY
  have hhigh := quickCheckPos_holds (data.quickCheckPos bounds.minX bounds.minY) bounds.maxX
    bounds.maxY
  exact ⟨Int16.le_trans hlow.1 h.1, Int16.le_trans h.2.1 hhigh.2.1,
    Int16.le_trans hlow.2.2.1 h.2.2.1, Int16.le_trans h.2.2.2 hhigh.2.2.2⟩

end MapData

end ShoweqDaemon.Maps
