/-
  Maps in the SOE format: `MapData::loadSOEMap`.

  An L record is one segment. It is carried on with the current line when it begins where that line
  ends and has the line's colour, else it begins a line of its own. The current line is the last of
  the layer and is changed in place; `numPoints` and `checkPoint` are its number of points and the
  index of its last one. They are `uint32_t`; a line with 2^32 points would need a file of more than
  64 GiB, so they are natural numbers here.
-/
import ShoweqDaemon.Lib.Polyline
import ShoweqDaemon.Map.MapData

namespace ShoweqDaemon.Maps

open Audit
open Preferences (QVariant SeqColor XMLPreferences)
open Spawns (QString)

/-! ## Colours -/

/-- `SEQMAP_COLOR_TABLE`: the names of the 64 colours that a raw colour can be converted to. -/
def sColor : List String :=
  ["Black", "DarkRed", "FireBrick", "Red", "DarkGreen", "Orange", "DarkOrange", "DarkOrange",
    "Green", "Chartreuse", "Gold", "Gold", "Green", "Chartreuse", "Goldenrod", "Yellow",
    "DarkBlue", "Magenta", "DeepPink", "DeepPink", "DarkCyan", "Grey", "IndianRed", "LightCoral",
    "SpringGreen", "LightGreen", "DarkKhaki", "Khaki", "SpringGreen", "PaleGreen",
    "DarkOliveGreen", "Khaki", "MediumBlue", "DarkViolet", "Magenta", "Maroon", "RoyalBlue",
    "SlateBlue", "Orchid", "HotPink", "Turquoise", "SkyBlue", "Snow", "LightPink", "Cyan",
    "Aquamarine", "DarkSeaGreen", "Beige", "Blue", "Purple", "Purple", "Magenta", "DodgerBlue",
    "SlateBlue", "MediumPurple", "Orchid", "DeepSkyBlue", "LightBlue", "Plum", "Cyan",
    "CadetBlue", "PaleTurquoise", "LightCyan", "White"]

/-- The red, green and blue of a record. -/
structure RGB where
  r : UInt8
  g : UInt8
  b : UInt8
  deriving DecidableEq, Repr

namespace RGB

variable (rgb : RGB)

/-- The index that the three components give, in steps of 80. -/
def sum80 : ℕ := rgb.r.toNat / 80 + rgb.g.toNat / 80 * 4 + rgb.b.toNat / 80 * 16

/-- The index into `sColor`; white for black. -/
def getMapConvertColorIndex : ℕ := if rgb.sum80 = 0 then 63 else rgb.sum80

/-- `getMapConvertColor`: the name of the color that stands for the components. -/
def getMapConvertColor : QString :=
  (if rgb.sum80 = 0 then sColor.getD 63 "" else sColor.getD rgb.sum80 "").toList

/-- `SeqColor(r, g, b)` -/
def seqColor : SeqColor := { r := rgb.r, g := rgb.g, b := rgb.b, valid := true }

/-- The components of a colour are these. -/
def Is (color : SeqColor) : Prop := color.r = rgb.r ∧ color.g = rgb.g ∧ color.b = rgb.b

instance (color : SeqColor) : Decidable (rgb.Is color) := inferInstanceAs (Decidable (_ ∧ _ ∧ _))

end RGB

section
variable {δ : Type} (qt : MapQt δ) (pSEQPrefs : XMLPreferences δ)

/-- `XMLPreferences::getPrefString` -/
def getPrefString (inName inSection outDefault : QString) : QString :=
  match pSEQPrefs.getPrefAs qt.toQt .string inName inSection (.string outDefault)
      Preferences.Any with
  | .string s => s
  | _ => []

/-- The colour that a record is drawn in: the preference of its index, or the table's. -/
def lineColor (rgb : RGB) : SeqColor :=
  SeqColor.ofSpec qt.toQt <| getPrefString qt pSEQPrefs
    ("MapColor".toList ++ Nat.toDigits 10 rgb.getMapConvertColorIndex) "MapColors".toList
    rgb.getMapConvertColor

/-! ## Loading -/

/-- The state of the loop over the lines: the map, the lines that are complete, and the one that may
    go on. -/
structure SOEState where
  data : MapData
  /-- The lines in front of the current one. -/
  finished : List MapLineM := []
  currentLineM : Option MapLineM := none
  locations : List MapLocation := []
  numPoints : ℕ := 0
  checkPoint : ℕ := 0

/-- The lines of the layer. -/
def SOEState.mLines (s : SOEState) : List MapLineM := s.finished ++ s.currentLineM.toList

/-- The record goes on where the current line ends, in one of its colours. -/
def carriesOn (s : SOEState) (start : MapPoint) (rgb : RGB) : Noted Element Bool :=
  match s.currentLineM with
  | none => pure false
  | some line => do
      let last ← element line.points s.checkPoint
      pure (last = start ∧ (rgb.Is line.m_color ∨ rgb.Is line.m_origColor))

/-- `resize` -/
def resize (points : List MapPoint) (n : ℕ) : List MapPoint :=
  points.take n ++ List.replicate (n - points.length) ⟨0, 0, 0⟩

/-- A line of two points is begun: the line in progress is finished, and the new one has the
    converted colour of the record and remembers the raw one. -/
def newLine (s : SOEState) (start stop : MapPoint) (rgb : RGB) : Noted Element SOEState := do
  let points ← setElement (List.replicate 2 ⟨0, 0, 0⟩) 0 start
  let points ← setElement points 1 stop
  pure { s with
    finished := s.mLines
    currentLineM := some
      { m_name := "soe".toList, m_color := lineColor qt pSEQPrefs rgb
        m_origColor := rgb.seqColor, points := points }
    numPoints := 2
    checkPoint := 1 }

/-- One more point on the line in progress; its array grows by one element if it is full. -/
def carryOn (s : SOEState) (line : MapLineM) (stop : MapPoint) : Noted Element SOEState := do
  let points :=
    if line.points.length < s.numPoints + 1 then resize line.points (s.numPoints + 1)
    else line.points
  let points ← setElement points s.numPoints stop
  pure { s with
    currentLineM := some { line with points := points }
    numPoints := s.numPoints + 1
    checkPoint := s.numPoints }

/-- The bounds grow to the line in progress, before the next one is begun. -/
def SOEState.checkBounds (s : SOEState) : SOEState :=
  match s.currentLineM with
  | none => s
  | some line =>
      { s with data := s.data.quickCheckRect (Extent.of (line.points.map fun p => (p.x, p.y))) }

/-- A segment: it carries the current line on when it begins where that ended and has its color,
    else a new line begins. -/
def loadSegment (s : SOEState) (start stop : MapPoint) (rgb : RGB) : Noted Element SOEState := do
  let goesOn ← carriesOn s start rgb
  let s ←
    match s.currentLineM with
    | some line => if goesOn then carryOn s line stop else newLine qt pSEQPrefs s start stop rgb
    | none => newLine qt pSEQPrefs s start stop rgb
  pure s.checkBounds

/-- An L record: two points and a colour, in nine fields. The second point comes first, and two of
    the coordinates change their sign. -/
def loadL (s : SOEState) (fields : List QString) : Noted Element SOEState :=
  if fields.length ≠ 9 then pure s
  else do
    let x1 ← element fields 0
    let y1 ← element fields 1
    let z1 ← element fields 2
    let x2 ← element fields 3
    let y2 ← element fields 4
    let z2 ← element fields 5
    let r ← element fields 6
    let g ← element fields 7
    let b ← element fields 8
    loadSegment qt pSEQPrefs s
      ⟨-qt.coordinate x2, -qt.coordinate y2, qt.coordinate z2⟩
      ⟨-qt.coordinate x1, -qt.coordinate y1, qt.coordinate z1⟩
      ⟨qt.component r, qt.component g, qt.component b⟩

/-- A location, the underscores of its name converted to spaces. -/
def soeLocation (name : QString) (rgb : RGB) (point : MapPoint) : MapLocation where
  toMapPoint := point
  m_name := name.map fun c => if c = '_' then ' ' else c
  m_color := lineColor qt pSEQPrefs rgb
  m_origColor := rgb.seqColor
  m_heightSet := true

/-- A P record: a point, a colour and a name, in eight fields, one of which is not read. It is a
    location of the layer. -/
def loadP (s : SOEState) (fields : List QString) : Noted Element SOEState :=
  if fields.length ≠ 8 then pure s
  else do
    let x1 ← element fields 0
    let y1 ← element fields 1
    let z1 ← element fields 2
    let r ← element fields 3
    let g ← element fields 4
    let b ← element fields 5
    -- the field between is skipped
    let name ← element fields 7
    let location := soeLocation qt pSEQPrefs name ⟨qt.component r, qt.component g, qt.component b⟩
      ⟨-qt.coordinate x1, -qt.coordinate y1, qt.coordinate z1⟩
    pure { s with
      locations := s.locations ++ [location]
      data := s.data.quickCheckPos location.x location.y }

/-- A line of the file, by its first character. -/
def loadEntry (s : SOEState) (line : QString) : Noted Element SOEState := do
  let entryType ← charAt line 0
  let fields := qt.entryFields line
  if fields = [] then pure s
  else if entryType = 'L' then loadL qt pSEQPrefs s fields
  else if entryType = 'P' then loadP qt pSEQPrefs s fields
  else pure s

/-- The loop over the lines. -/
def loadEntries (s : SOEState) : List QString → Noted Element SOEState
  | [] => pure s
  | line :: rest => do
      let s ← loadEntry qt pSEQPrefs s line
      loadEntries s rest

/-- Before the first line, the zone has its name from the file. -/
def soeStart (fileName : QString) (data : MapData) : SOEState where
  data := { data with
    m_zoneLongName := qt.zoneName fileName
    m_zoneShortName := qt.zoneName fileName }

/-- The layer that is added. -/
def SOEState.layer (s : SOEState) (fileName : QString) : MapLayer where
  m_mLines := s.mLines
  m_locations := s.locations
  m_fileName := fileName
  m_mapLoaded := true

/-- What follows once the file is read: every line is an entry, then the bounds, and one more layer.
    -/
def loadSOEText (fileName : QString) (content : List UInt8) (data : MapData) :
    Noted Element MapData := do
  let s ← loadEntries qt pSEQPrefs (soeStart qt fileName data) (lines (qt.fromUtf8 content))
  let data := s.data.updateBounds
  pure { data with m_mapLayers := data.m_mapLayers ++ [s.layer fileName] }

/-- The map is there already. -/
def alreadyLoaded (fileName : QString) (data : MapData) : Bool :=
  data.m_mapLayers.any fun layer =>
    layer.m_mapLoaded && layer.m_fileName.map qt.foldCase = fileName.map qt.foldCase

/-- `mapFile` is what the file holds, if it can be opened. -/
def loadSOEMap (fileName : QString) (mapFile : Option (List UInt8)) (isImport : Bool)
    (data : MapData) : Noted Element MapData :=
  if alreadyLoaded qt fileName data then pure data
  else
    let data := if isImport then data else data.clear
    if "/.txt".toList <:+: fileName then pure data
    else
      match mapFile with
      | none => pure data
      | some content => loadSOEText qt pSEQPrefs fileName content data

end

end ShoweqDaemon.Maps
