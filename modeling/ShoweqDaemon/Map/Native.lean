/-
  Maps in the native format: `MapData::loadMap`.

  The first line is the header; every other line is a record, its entry type the first character of
  its first field. The fields behind it are read through an iterator that starts at their front.

  The loop over the lines carries the map, the height that an `H` record has put in force, and the
  lines and locations read so far. A record with too few fields is passed over. `M` and `L`
  records hold a polyline, whose length comes from the number of fields and not from the field
  that names it; `P` holds a location, `A` a range of aggression, `Z` the experience multiplier of
  the zone. Every field and character is read through `Noted`, so that the reads outside a line
  can be counted. What the records of a file draw is in `Records.lean`; the two other formats are
  in `SOE.lean` and `ZoneFiles.lean`.
-/
import ShoweqDaemon.Map.MapData

namespace ShoweqDaemon.Maps

open Audit
open Preferences (SeqColor)
open Spawns (QString)

/-! ## Points -/

/-- The loop over the points of a line, for at most `left` of them: while there are fields, the next
    point is read and stored. -/
def loadPoints {α : Type} (width count : ℕ) (point : ℕ → Noted Element α) :
    ℕ → ℕ → ℕ → List α → Noted Element (List α)
  | 0, _, _, points => pure points
  | left + 1, fit, numPoints, points =>
      if fit = count then pure points
      else do
        let p ← point fit
        let points ← setElement points numPoints p
        loadPoints width count point left (fit + width) (numPoints + 1) points

/-- One more point, with both tests of each axis. -/
def Extent.widen (extent : Extent) (x y : Int16) : Extent where
  minX := if x < extent.minX then x else extent.minX
  maxX := if extent.maxX < x then x else extent.maxX
  minY := if y < extent.minY then y else extent.minY
  maxY := if extent.maxY < y then y else extent.maxY

/-- `MapLineL::calcBounds`: from the first point on. -/
def Extent.calcBounds (points : List (Int16 × Int16)) : Extent :=
  match points with
  | [] => ⟨0, 0, -1, -1⟩
  | p :: rest => rest.foldl (fun extent q => extent.widen q.1 q.2) ⟨p.1, p.2, p.1, p.2⟩

/-! ## Records -/

/-- The state of the loop over the lines: the map, the height in force, and what was read so far. -/
structure NativeState where
  data : MapData
  globHeight : Int16 := 0
  globHeightSet : Bool := false
  lLines : List MapLineL := []
  mLines : List MapLineM := []
  locations : List MapLocation := []

section
variable {δ : Type} (qt : MapQt δ)

/-- An object with the name of its colour. -/
def mapCommon (name color : QString) : MapCommon where
  m_name := name
  m_colorName := color
  m_color := SeqColor.ofSpec qt.toQt color

/-- The colour of a line, grey if it has none. -/
def colorOr7F (color : QString) : QString := if color = [] then "#7F7F7F".toList else color

/-- A coordinate, 0 for what is no number. -/
def short (s : QString) : Int16 := (qt.toShort s).getD 0

/-- The point from a field on, with its height. -/
def pointM (fields : List QString) (fit : ℕ) : Noted Element MapPoint := do
  let mx ← element fields fit
  let my ← element fields (fit + 1)
  let mz ← element fields (fit + 2)
  pure ⟨short qt mx, short qt my, short qt mz⟩

/-- The point from a field on, at the height of its line. -/
def pointL (fields : List QString) (fit : ℕ) : Noted Element (Int16 × Int16) := do
  let mx ← element fields fit
  let my ← element fields (fit + 1)
  pure (short qt mx, short qt my)

/-- An M record: a name, a colour, a count, and points in space, as many as there are fields for.
    With fewer than two points, or with a count that is no number, it is passed over. -/
def loadM (s : NativeState) (fields : List QString) : Noted Element NativeState :=
  if fields.length < 3 then pure s
  else
    let linePoints := (fields.length - 3) / 3
    if linePoints < 2 then pure s
    else do
      let name ← element fields 0
      let color ← element fields 1
      let specified ← element fields 2
      match qt.toUInt 10 specified with
      | none => pure s
      | some _ => do
          let points ← loadPoints 3 fields.length (pointM qt fields) linePoints 3 0
            (List.replicate linePoints ⟨0, 0, 0⟩)
          let line : MapLineM := { mapCommon qt name (colorOr7F color) with points := points }
          pure { s with
            data := s.data.quickCheckRect (Extent.of (points.map fun p => (p.x, p.y)))
            mLines := s.mLines ++ [line] }

/-- An L record: a name, a colour, a count, and points in the plane, as many as there are fields
    for. Where an H record is in force the line is at that height. -/
def loadLineL (s : NativeState) (fields : List QString) : Noted Element NativeState :=
  if fields.length < 3 then pure s
  else
    let linePoints := (fields.length - 3) >>> 1
    if linePoints < 2 then pure s
    else do
      let name ← element fields 0
      let color ← element fields 1
      let specified ← element fields 2
      match qt.toUInt 10 specified with
      | none => pure s
      | some _ => do
          let points ← loadPoints 2 fields.length (pointL qt fields) linePoints 3 0
            (List.replicate linePoints (0, 0))
          let common := mapCommon qt name (colorOr7F color)
          let line : MapLineL :=
            if s.globHeightSet then
              { common with points := points, m_z := s.globHeight, m_heightSet := true }
            else { common with points := points }
          pure { s with
            data := s.data.quickCheckRect (Extent.calcBounds points)
            lLines := s.lLines ++ [line] }

/-- `MapLocation(name, color, x, y, z)`, or without the height. -/
def mapLocation (name color : QString) (x y : Int16) (z : Option Int16) : MapLocation where
  toMapCommon := mapCommon qt name color
  x := x
  y := y
  z := z.getD 0
  m_heightSet := z.isSome

/-- A P record: a name, a colour and a place. With five fields the last one is the height, and the
    location is put in a second time, at the height in force if there is one. -/
def loadLocation (s : NativeState) (fields : List QString) : Noted Element NativeState :=
  if fields.length < 4 then pure s
  else do
    let name ← element fields 0
    let color ← element fields 1
    let mx ← element fields 2
    let my ← element fields 3
    let x := short qt mx
    let y := short qt my
    let s ←
      if fields.length = 5 then do
        let mz ← element fields 4
        pure { s with
          locations := s.locations ++ [mapLocation qt name color x y (some (short qt mz))] }
      else pure s
    let z := if s.globHeightSet then some s.globHeight else none
    pure { s with
      locations := s.locations ++ [mapLocation qt name color x y z]
      data := s.data.quickCheckPos x y }

/-- An A record: the name of a creature and its range of aggression. Without a name, or with a range
    of 0 or one that is no number, it is passed over. -/
def loadA (s : NativeState) (fields : List QString) : Noted Element NativeState :=
  if fields.length < 2 then pure s
  else do
    let name ← element fields 0
    if name = [] then pure s
    else do
      let range ← element fields 1
      let rangeVal := (qt.toUShort range).getD 0
      if rangeVal = 0 then pure s
      else
        pure { s with
          data := { s.data with m_aggros := s.data.m_aggros ++ [⟨name, rangeVal⟩] } }

/-- An H record: the height of the lines and locations behind it. -/
def loadH (s : NativeState) (fields : List QString) : Noted Element NativeState :=
  if fields.length < 1 then pure s
  else do
    let z ← element fields 0
    match qt.toShort z with
    -- the height is gone, but is still set if it was
    | none => pure { s with globHeight := 0 }
    | some height => pure { s with globHeight := height, globHeightSet := true }

/-- A Z record: the experience multiplier of the zone, cut to eight bits; 0 for what is no number.
    -/
def loadZ (s : NativeState) (fields : List QString) : Noted Element NativeState :=
  if fields.length < 1 then pure s
  else do
    let zem ← element fields 0
    let zoneZEM := ((qt.toUShort zem).getD 0).toUInt8
    pure { s with data := { s.data with m_zoneZEM := zoneZEM } }

/-- The switch over the entry types. An unknown one is passed over. -/
def loadFields (s : NativeState) (entryType : Char) (fields : List QString) :
    Noted Element NativeState :=
  match entryType with
  | 'M' => loadM qt s fields
  | 'L' => loadLineL qt s fields
  | 'P' => loadLocation qt s fields
  | 'A' => loadA qt s fields
  | 'H' => loadH qt s fields
  | 'Z' => loadZ qt s fields
  | _ => pure s

/-- A line of the file, by the first character of its first field. -/
def loadRecord (s : NativeState) (line : QString) : Noted Element NativeState :=
  let fields := line.splitOn ','
  if fields = [] then pure s
  else do
    let first ← element fields 0
    let entryType ← charAt first 0
    loadFields qt s entryType fields.tail

/-- The loop over the lines behind the header. -/
def loadRecords (s : NativeState) : List QString → Noted Element NativeState
  | [] => pure s
  | line :: rest => do
      let s ← loadRecord qt s line
      loadRecords s rest

/-! ## The file -/

/-- The header: names, and a size if there are more than two fields. -/
def loadHeader (fields : List QString) (data : MapData) : Noted Element MapData := do
  let zoneLongName ← element fields 0
  let zoneShortName ← element fields 1
  let data := { data with m_zoneLongName := zoneLongName, m_zoneShortName := zoneShortName }
  if fields.length > 2 then do
    let width ← element fields 2
    let height ← element fields 3
    pure { data with m_size := ((qt.toInt 10 width).getD 0, (qt.toInt 10 height).getD 0) }
  else pure data

/-- The layer that is added: the lines and locations of the file, under its name. -/
def NativeState.layer (s : NativeState) (fileName : QString) : MapLayer where
  m_lLines := s.lLines
  m_mLines := s.mLines
  m_locations := s.locations
  m_fileName := fileName
  m_mapLoaded := true

/-- What follows once the file is read: the header, all other lines as records, the bounds, and one
    more layer. Without two fields in the first line nothing changes. -/
def loadMapText (fileName : QString) (content : List UInt8) (data : MapData) :
    Noted Element MapData := do
  let all := lines (qt.fromUtf8 content)
  let header ← element all 0
  let fields := header.splitOn ','
  -- too few fields in the first line
  if fields.length < 2 then pure data
  else do
    let data ← loadHeader qt fields data
    let s ← loadRecords qt { data := data } all.tail
    let data := s.data.updateBounds
    pure { data with m_mapLayers := data.m_mapLayers ++ [s.layer fileName] }

/-- `mapFile` is what the file holds, if it can be opened. -/
def loadMap (fileName : QString) (mapFile : Option (List UInt8)) (isImport : Bool)
    (data : MapData) : Noted Element MapData :=
  let data := if isImport then data else data.clear
  if "/.map".toList <:+: fileName then pure data
  else
    match mapFile with
    | none => pure data
    | some content => loadMapText qt fileName content data

end

end ShoweqDaemon.Maps
