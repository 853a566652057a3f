/-
  The map of a zone: the files that are found for it, loaded as layers of one `MapData`, and the
  geometry that a client gets of it.

  A zone has a base file, native or else SOE, and up to nine more layers in the same format. The
  base file clears what there was, the layers are imported. `layers_of_files` says that no layer
  changes another: each is what its file gives by itself. `geometry_wellFormed` says that everything
  that is sent is inside the bounds that are sent with it.
-/
import ShoweqDaemon.Map.Geometry
import ShoweqDaemon.Map.Native
import ShoweqDaemon.Prefs.Settings

namespace ShoweqDaemon.Maps

open Audit
open Preferences (XMLPreferences)
open Spawns (QString)

/-! ## Files -/

/-- What the daemon sees of the disk: which files there are, by which path, and what they hold. -/
structure Disk where
  fileExists : QString → Bool
  absoluteFilePath : QString → QString
  /-- What a file holds, if it can be opened. -/
  content : QString → Option (List UInt8)

/-- The two formats of map files. -/
inductive MapFormat where
  | native
  | soe
  deriving DecidableEq, Repr

/-- What the files of a format end with. -/
def MapFormat.extension : MapFormat → QString
  | .native => ".map".toList
  | .soe => ".txt".toList

section
variable (disk : Disk)

/-- `locateMap`: the first of the directories that has the file. -/
def locateMap (dirs : List QString) (filename : QString) : Option QString :=
  ((dirs.map fun d => d ++ '/' :: filename).find? disk.fileExists).map disk.absoluteFilePath

/-- The layers `_1` to `_9` that there are. -/
def layerFiles (dirs : List QString) (shortZoneName : QString) (format : MapFormat) :
    List QString :=
  (List.range' 1 9).filterMap fun i =>
    locateMap disk dirs (shortZoneName ++ '_' :: Nat.toDigits 10 i ++ format.extension)

/-- The files of a zone, the base file first. A native one goes before the other. -/
def zoneFiles (dirs : List QString) (shortZoneName : QString) :
    Option (MapFormat × List QString) :=
  match locateMap disk dirs (shortZoneName ++ MapFormat.native.extension) with
  | some baseMap => some (.native, baseMap :: layerFiles disk dirs shortZoneName .native)
  | none =>
      match locateMap disk dirs (shortZoneName ++ MapFormat.soe.extension) with
      | some baseTxt => some (.soe, baseTxt :: layerFiles disk dirs shortZoneName .soe)
      | none => none

variable {δ : Type} (qt : MapQt δ) (pSEQPrefs : XMLPreferences δ)

/-- A file is read in its format. -/
def loadFile (format : MapFormat) (isImport : Bool) (data : MapData) (file : QString) :
    Noted Element MapData :=
  match format with
  | .native => loadMap qt file (disk.content file) isImport data
  | .soe => loadSOEMap qt pSEQPrefs file (disk.content file) isImport data

/-- The files one after the other; every file but the first is imported, so that it adds a layer and
    clears nothing. -/
def loadFiles (format : MapFormat) (isImport : Bool) (data : MapData) :
    List QString → Noted Element MapData
  | [] => pure data
  | file :: rest => do
      let data ← loadFile disk qt pSEQPrefs format isImport data file
      loadFiles format true data rest

/-- `DaemonApp::loadZoneMap`: the map is cleared, and the files of the zone are read, the layers
    behind the base. -/
def loadZoneMap (dirs : List QString) (shortZoneName : QString) (data : MapData) :
    Noted Element MapData :=
  let data := data.clear
  if shortZoneName = [] then pure data
  else
    match zoneFiles disk dirs shortZoneName with
    | none => pure data
    | some (format, files) => loadFiles disk qt pSEQPrefs format false data files

/-- The map of a zone, which needs to know of no map before. -/
def zoneMap (dirs : List QString) (shortZoneName : QString) : MapData :=
  (loadZoneMap disk qt pSEQPrefs dirs shortZoneName .construct).val

theorem loadZoneMap_val (dirs : List QString) (shortZoneName : QString) (data : MapData) :
    (loadZoneMap disk qt pSEQPrefs dirs shortZoneName data).val =
      zoneMap disk qt pSEQPrefs dirs shortZoneName := rfl

end

/-! ## What is sent -/

/-- A line of `MapGeometry`. Of its heights, a line in the plane has at most one. -/
structure GeometryLine where
  color : QString
  layer : UInt8
  x : List Int16
  y : List Int16
  z : List Int16
  deriving DecidableEq, Repr

/-- A place in the message for the clients. -/
structure GeometryLocation where
  name : QString
  color : QString
  x : Int16
  y : Int16
  z : Int16
  z_valid : Bool
  layer : UInt8
  deriving DecidableEq, Repr

/-- The map in the message for the clients: bounds, lines of both kinds and places. -/
structure MapGeometry where
  min_x : Int16
  min_y : Int16
  max_x : Int16
  max_y : Int16
  lines : List GeometryLine
  locations : List GeometryLocation
  deriving DecidableEq, Repr

/-- The name that was given, or the colour as a text. -/
def MapCommon.colorName (c : MapCommon) : QString :=
  if c.m_colorName ≠ [] then c.m_colorName else c.m_color.name

namespace MapLayer

/-- The lines of a layer that are sent, those in the plane first. -/
def sentLines (i : UInt8) (layer : MapLayer) : List GeometryLine :=
  ((layer.m_lLines.filter (·.points ≠ [])).map fun line =>
    { color := line.colorName
      layer := i
      x := line.points.map Prod.fst
      y := line.points.map Prod.snd
      z := if line.m_heightSet then [line.m_z] else [] }) ++
  (layer.m_mLines.filter (·.points ≠ [])).map fun line =>
    { color := line.colorName
      layer := i
      x := line.points.map MapPoint.x
      y := line.points.map MapPoint.y
      z := line.points.map MapPoint.z }

/-- The places of a layer, with its number. -/
def sentLocations (i : UInt8) (layer : MapLayer) : List GeometryLocation :=
  layer.m_locations.map fun loc =>
    { name := loc.m_name
      color := loc.colorName
      x := loc.x
      y := loc.y
      z := loc.z
      z_valid := loc.m_heightSet
      layer := i }

end MapLayer

namespace MapData

/-- The count of layers in eight bits. -/
def numLayers (data : MapData) : UInt8 := UInt8.ofNat data.m_mapLayers.length

/-- The layers by their numbers, as far as the count goes. -/
def numbered (data : MapData) : List (UInt8 × MapLayer) :=
  (data.m_mapLayers.take data.numLayers.toNat).mapIdx fun i layer => (UInt8.ofNat i, layer)

/-- `fillMapGeometry`: the bounds and what all layers have, one after the other. -/
def fillMapGeometry (data : MapData) : MapGeometry where
  min_x := data.m_minX
  min_y := data.m_minY
  max_x := data.m_maxX
  max_y := data.m_maxY
  lines := data.numbered.flatMap fun l => l.2.sentLines l.1
  locations := data.numbered.flatMap fun l => l.2.sentLocations l.1

/-- The geometry in a message, none if there is no layer. -/
def geometry (data : MapData) : Option MapGeometry :=
  if data.numLayers > 0 then some data.fillMapGeometry else none

end MapData

/-! ## Bounds -/

/-- What was inside the bounds still is. -/
def MapData.Grows (data data' : MapData) : Prop := ∀ x y, data.Holds x y → data'.Holds x y

theorem MapData.Grows.refl (data : MapData) : data.Grows data := fun _ _ h => h

theorem MapData.Grows.trans {data data' data'' : MapData} (h : data.Grows data')
    (h' : data'.Grows data'') : data.Grows data'' := fun x y hxy => h' x y (h x y hxy)

theorem MapData.grows_quickCheckRect (data : MapData) (bounds : Extent) :
    data.Grows (data.quickCheckRect bounds) := fun _ _ h => h.quickCheckRect bounds

theorem MapData.grows_quickCheckPos (data : MapData) (x y : Int16) :
    data.Grows (data.quickCheckPos x y) := fun _ _ h => h.quickCheckPos x y

/-- Everything that a layer draws is inside the bounds. -/
structure MapLayer.Inside (data : MapData) (layer : MapLayer) : Prop where
  lLines : ∀ line ∈ layer.m_lLines, ∀ p ∈ line.points, data.Holds p.1 p.2
  mLines : ∀ line ∈ layer.m_mLines, ∀ p ∈ line.points, data.Holds p.x p.y
  locations : ∀ loc ∈ layer.m_locations, data.Holds loc.x loc.y

theorem MapLayer.Inside.grow {data data' : MapData} {layer : MapLayer} (h : layer.Inside data)
    (hgrows : data.Grows data') : layer.Inside data' where
  lLines line hline p hp := hgrows _ _ (h.lLines line hline p hp)
  mLines line hline p hp := hgrows _ _ (h.mLines line hline p hp)
  locations loc hloc := hgrows _ _ (h.locations loc hloc)

/-- Everything in the layers is inside the bounds. -/
def MapData.Bounded (data : MapData) : Prop := ∀ layer ∈ data.m_mapLayers, layer.Inside data

theorem MapData.clear_bounded (data : MapData) : data.clear.Bounded := fun _ h => nomatch h

/-- One more layer. -/
theorem MapData.Bounded.append {data data' : MapData} {layer : MapLayer} (h : data.Bounded)
    (hlayers : data'.m_mapLayers = data.m_mapLayers ++ [layer]) (hgrows : data.Grows data')
    (hinside : layer.Inside data') : data'.Bounded := by
  intro l hl
  rw [hlayers] at hl
  rcases List.mem_append.mp hl with hold | hnew
  · exact (h l hold).grow hgrows
  · rw [List.mem_singleton.mp hnew]
    exact hinside

/-! ### Records of the native format -/

theorem Extent.takesIn_widen : TakesIn widen := by
  intro extent x y h x' y'
  obtain ⟨hminX, hx⟩ := lower_le extent.minX x'
  obtain ⟨hmaxX, hx'⟩ := le_upper extent.maxX x'
  obtain ⟨hminY, hy⟩ := lower_le extent.minY y'
  obtain ⟨hmaxY, hy'⟩ := le_upper extent.maxY y'
  refine ⟨⟨?_, ?_, ?_, ?_⟩, hx, hx', hy, hy'⟩
  · exact Int16.le_trans hminX h.1
  · exact Int16.le_trans h.2.1 hmaxX
  · exact Int16.le_trans hminY h.2.2.1
  · exact Int16.le_trans h.2.2.2 hmaxY

theorem Extent.covers_calcBounds {points : List (Int16 × Int16)} {p : Int16 × Int16}
    (hp : p ∈ points) : (Extent.calcBounds points).Covers p.1 p.2 := by
  cases points with
  | nil => cases hp
  | cons q rest => exact covers_foldl_first takesIn_widen hp

/-- The same records read into another map. -/
def NativeState.on (s : NativeState) (data : MapData) : NativeState := { s with data := data }

/-- What a record can do to the map it is read into, and to any other map: what it draws is the
    same. -/
inductive NativeStep (s : NativeState) (data : MapData) : NativeState → NativeState → Prop
  | mLine (line : MapLineM) (bounds : Extent) (h : ∀ p ∈ line.points, bounds.Covers p.x p.y) :
      NativeStep s data
        { s with data := s.data.quickCheckRect bounds, mLines := s.mLines ++ [line] }
        { s with data := data.quickCheckRect bounds, mLines := s.mLines ++ [line] }
  | lLine (line : MapLineL) (bounds : Extent) (h : ∀ p ∈ line.points, bounds.Covers p.1 p.2) :
      NativeStep s data
        { s with data := s.data.quickCheckRect bounds, lLines := s.lLines ++ [line] }
        { s with data := data.quickCheckRect bounds, lLines := s.lLines ++ [line] }
  | locations (x y : Int16) (locs : List MapLocation) (h : ∀ loc ∈ locs, loc.x = x ∧ loc.y = y) :
      NativeStep s data
        { s with data := s.data.quickCheckPos x y, locations := s.locations ++ locs }
        { s with data := data.quickCheckPos x y, locations := s.locations ++ locs }
  | other (aggros aggros' : List MapAggro) (zem zem' : UInt8) (height : Int16)
      (heightSet : Bool) :
      NativeStep s data
        { s with
          data := { s.data with m_aggros := aggros, m_zoneZEM := zem }
          globHeight := height, globHeightSet := heightSet }
        { s with
          data := { data with m_aggros := aggros', m_zoneZEM := zem' }
          globHeight := height, globHeightSet := heightSet }

section
variable {δ : Type} (qt : MapQt δ) (s : NativeState) (data : MapData) (fields : List QString)

theorem NativeStep.refl : NativeStep s data s (s.on data) :=
  .other s.data.m_aggros data.m_aggros s.data.m_zoneZEM data.m_zoneZEM s.globHeight s.globHeightSet

theorem loadM_step :
    NativeStep s data (loadM qt s fields).val (loadM qt (s.on data) fields).val := by
  unfold loadM
  by_cases hcount : fields.length < 3
  · rw [if_pos hcount, if_pos hcount]
    exact .refl s data
  · rw [if_neg hcount, if_neg hcount]
    dsimp only
    by_cases hpoints : (fields.length - 3) / 3 < 2
    · rw [if_pos hpoints, if_pos hpoints]
      exact .refl s data
    · rw [if_neg hpoints, if_neg hpoints]
      simp only [Noted.val_bind]
      cases qt.toUInt 10 (element fields 2).val with
      | none => exact .refl s data
      | some _ =>
          rw [Noted.val_bind, Noted.val_pure, Noted.val_bind, Noted.val_pure]
          refine .mLine _ _ fun p hp => Extent.covers_of (p := (p.x, p.y)) ?_
          exact List.mem_map_of_mem hp

theorem loadLineL_step :
    NativeStep s data (loadLineL qt s fields).val (loadLineL qt (s.on data) fields).val := by
  unfold loadLineL
  by_cases hcount : fields.length < 3
  · rw [if_pos hcount, if_pos hcount]
    exact .refl s data
  · rw [if_neg hcount, if_neg hcount]
    dsimp only
    by_cases hpoints : (fields.length - 3) >>> 1 < 2
    · rw [if_pos hpoints, if_pos hpoints]
      exact .refl s data
    · rw [if_neg hpoints, if_neg hpoints]
      simp only [Noted.val_bind]
      cases qt.toUInt 10 (element fields 2).val with
      | none => exact .refl s data
      | some _ =>
          rw [Noted.val_bind, Noted.val_pure, Noted.val_bind, Noted.val_pure]
          refine .lLine _ _ fun p hp => Extent.covers_calcBounds ?_
          split at hp <;> exact hp

theorem loadLocation_step :
    NativeStep s data (loadLocation qt s fields).val (loadLocation qt (s.on data) fields).val := by
  unfold loadLocation
  by_cases hcount : fields.length < 4
  · rw [if_pos hcount, if_pos hcount]
    exact .refl s data
  · rw [if_neg hcount, if_neg hcount]
    by_cases hfive : fields.length = 5
    · simp only [hfive, if_true, Noted.val_bind, Noted.val_pure, List.append_assoc]
      refine .locations _ _ _ fun loc hloc => ?_
      rcases List.mem_cons.mp hloc with rfl | hloc
      · exact ⟨rfl, rfl⟩
      · rw [List.mem_singleton.mp hloc]
        exact ⟨rfl, rfl⟩
    · simp only [hfive, if_false, Noted.val_bind, Noted.val_pure]
      refine .locations _ _ _ fun loc hloc => ?_
      rw [List.mem_singleton.mp hloc]
      exact ⟨rfl, rfl⟩

theorem loadA_step :
    NativeStep s data (loadA qt s fields).val (loadA qt (s.on data) fields).val := by
  unfold loadA
  split
  · exact .refl s data
  · simp only [Noted.val_bind, Noted.val_ite]
    split
    · exact .refl s data
    · split
      · exact .refl s data
      · exact .other _ _ s.data.m_zoneZEM data.m_zoneZEM s.globHeight s.globHeightSet

theorem loadH_step :
    NativeStep s data (loadH qt s fields).val (loadH qt (s.on data) fields).val := by
  unfold loadH
  split
  · exact .refl s data
  · simp only [Noted.val_bind]
    cases qt.toShort (element fields 0).val with
    | none =>
        exact .other s.data.m_aggros data.m_aggros s.data.m_zoneZEM data.m_zoneZEM 0 s.globHeightSet
    | some height =>
        exact .other s.data.m_aggros data.m_aggros s.data.m_zoneZEM data.m_zoneZEM height true

theorem loadZ_step :
    NativeStep s data (loadZ qt s fields).val (loadZ qt (s.on data) fields).val := by
  unfold loadZ
  split
  · exact .refl s data
  · exact .other s.data.m_aggros data.m_aggros _ _ s.globHeight s.globHeightSet

theorem loadRecord_step (line : QString) :
    NativeStep s data (loadRecord qt s line).val (loadRecord qt (s.on data) line).val := by
  unfold loadRecord
  dsimp only
  split
  · exact .refl s data
  · simp only [Noted.val_bind]
    unfold loadFields
    split
    · exact loadM_step qt s data _
    · exact loadLineL_step qt s data _
    · exact loadLocation_step qt s data _
    · exact loadA_step qt s data _
    · exact loadH_step qt s data _
    · exact loadZ_step qt s data _
    · exact .refl s data

end

/-- What was drawn so far is inside the bounds, which hold at least what they held at first. -/
structure NativeState.Inv (base : MapData) (s : NativeState) : Prop where
  grows : base.Grows s.data
  layers : s.data.m_mapLayers = base.m_mapLayers
  inside : (s.layer []).Inside s.data

theorem NativeStep.inv {base data : MapData} {s s' t : NativeState}
    (hstep : NativeStep s data s' t) (h : s.Inv base) : s'.Inv base := by
  obtain ⟨hgrows, hlayers, hinside⟩ := h
  cases hstep with
  | mLine line bounds hbounds =>
      have hrect := s.data.grows_quickCheckRect bounds
      have hold := hinside.grow hrect
      refine ⟨hgrows.trans hrect, hlayers, hold.lLines, ?_, hold.locations⟩
      intro l hl
      rcases List.mem_append.mp hl with hl | hl
      · exact hold.mLines l hl
      · obtain rfl := List.mem_singleton.mp hl
        exact fun p hp => MapData.quickCheckRect_holds _ (hbounds p hp)
  | lLine line bounds hbounds =>
      have hrect := s.data.grows_quickCheckRect bounds
      have hold := hinside.grow hrect
      refine ⟨hgrows.trans hrect, hlayers, ?_, hold.mLines, hold.locations⟩
      intro l hl
      rcases List.mem_append.mp hl with hl | hl
      · exact hold.lLines l hl
      · obtain rfl := List.mem_singleton.mp hl
        exact fun p hp => MapData.quickCheckRect_holds _ (hbounds p hp)
  | locations x y locs hlocs =>
      have hpos := s.data.grows_quickCheckPos x y
      have hold := hinside.grow hpos
      refine ⟨hgrows.trans hpos, hlayers, hold.lLines, hold.mLines, ?_⟩
      intro loc hloc
      rcases List.mem_append.mp hloc with hloc | hloc
      · exact hold.locations loc hloc
      · obtain ⟨hx, hy⟩ := hlocs loc hloc
        rw [hx, hy]
        exact s.data.quickCheckPos_holds x y
  | other _ _ _ _ height heightSet => exact ⟨hgrows, hlayers, ⟨hinside.1, hinside.2, hinside.3⟩⟩

section
variable {δ : Type} (qt : MapQt δ) (pSEQPrefs : XMLPreferences δ)

theorem loadRecords_inv {base : MapData} (rest : List QString) {s : NativeState}
    (h : s.Inv base) : (loadRecords qt s rest).val.Inv base := by
  induction rest generalizing s with
  | nil => exact h
  | cons line rest ih => exact ih ((loadRecord_step qt s s.data line).inv h)

/-- The header changes neither bounds nor layers. -/
theorem loadHeader_keeps (fields : List QString) (data : MapData) :
    data.Grows (loadHeader qt fields data).val ∧
      (loadHeader qt fields data).val.m_mapLayers = data.m_mapLayers := by
  unfold loadHeader
  simp only [Noted.val_bind, Noted.val_ite, Noted.val_pure]
  split <;> exact ⟨fun _ _ h => h, rfl⟩

theorem loadMapText_bounded (fileName : QString) (content : List UInt8) {data : MapData}
    (h : data.Bounded) : (loadMapText qt fileName content data).val.Bounded := by
  unfold loadMapText
  simp only [Noted.val_bind, Noted.val_ite]
  split
  · exact h
  · obtain ⟨hgrows, hlayers⟩ := loadHeader_keeps qt
      (((element (lines (qt.fromUtf8 content)) 0).val).splitOn ',') data
    have hstart : NativeState.Inv data
        { data := (loadHeader qt
            (((element (lines (qt.fromUtf8 content)) 0).val).splitOn ',') data).val } :=
      ⟨hgrows, hlayers, ⟨(fun _ h => nomatch h), (fun _ h => nomatch h), (fun _ h => nomatch h)⟩⟩
    have hread := loadRecords_inv qt (lines (qt.fromUtf8 content)).tail hstart
    exact h.append (congrArg (· ++ _) hread.layers) hread.grows
      ⟨hread.inside.lLines, hread.inside.mLines, hread.inside.locations⟩

/-! ### Records of the SOE format -/

theorem checkBounds_grows (s : SOEState) : s.data.Grows s.checkBounds.data := by
  unfold SOEState.checkBounds
  split
  · exact .refl _
  · exact s.data.grows_quickCheckRect _

theorem loadSegment_grows (s : SOEState) (start stop : MapPoint) (rgb : RGB) :
    s.data.Grows (loadSegment qt pSEQPrefs s start stop rgb).val.data := by
  have hline : ∃ s' : SOEState, s'.data = s.data ∧
      (loadSegment qt pSEQPrefs s start stop rgb).val = s'.checkBounds := by
    unfold loadSegment
    cases s.currentLineM with
    | none => exact ⟨(newLine qt pSEQPrefs s start stop rgb).val, rfl, rfl⟩
    | some line =>
        simp only [Noted.val_bind, Noted.val_pure, Noted.val_ite]
        split
        · exact ⟨(carryOn s line stop).val, rfl, rfl⟩
        · exact ⟨(newLine qt pSEQPrefs s start stop rgb).val, rfl, rfl⟩
  obtain ⟨s', hdata, hval⟩ := hline
  rw [hval, ← hdata]
  exact checkBounds_grows s'

theorem loadEntry_grows (s : SOEState) (line : QString) :
    s.data.Grows (loadEntry qt pSEQPrefs s line).val.data := by
  unfold loadEntry
  simp only [Noted.val_bind, Noted.val_ite, Noted.val_pure]
  split
  · exact .refl _
  · split
    · unfold loadL
      rw [Noted.val_ite]
      split
      · exact .refl _
      · exact loadSegment_grows qt pSEQPrefs s _ _ _
    · split
      · unfold loadP
        rw [Noted.val_ite]
        split
        · exact .refl _
        · exact s.data.grows_quickCheckPos _ _
      · exact .refl _

theorem loadEntries_grows (entries : List QString) (s : SOEState) :
    s.data.Grows (loadEntries qt pSEQPrefs s entries).val.data := by
  induction entries generalizing s with
  | nil => exact .refl _
  | cons line rest ih => exact (loadEntry_grows qt pSEQPrefs s line).trans (ih _)

theorem loadSOEText_bounded (fileName : QString) (content : List UInt8) {data : MapData}
    (h : data.Bounded) : (loadSOEText qt pSEQPrefs fileName content data).val.Bounded := by
  have hstart : (soeStart qt fileName data).Inv :=
    ⟨(fun _ h => nomatch h), (fun _ h => nomatch h), (fun _ h => nomatch h)⟩
  obtain ⟨-, hinv, -, hlayers⟩ := loadEntries_spec qt pSEQPrefs (lines (qt.fromUtf8 content))
    (fun _ => ne_nil_of_mem_lines) hstart
  have hgrows := loadEntries_grows qt pSEQPrefs (lines (qt.fromUtf8 content))
    (soeStart qt fileName data)
  exact h.append (congrArg (· ++ _) hlayers) hgrows ⟨(fun _ h => nomatch h), hinv.drawn, hinv.located⟩

/-! ### Files -/

variable (disk : Disk)

theorem loadFile_bounded (format : MapFormat) (isImport : Bool) (file : QString) {data : MapData}
    (h : data.Bounded) : (loadFile disk qt pSEQPrefs format isImport data file).val.Bounded := by
  have hbase : (if isImport then data else data.clear).Bounded := by
    split
    · exact h
    · exact data.clear_bounded
  cases format with
  | native =>
      show (loadMap qt file (disk.content file) isImport data).val.Bounded
      unfold loadMap
      dsimp only
      split
      · exact hbase
      · split
        · exact hbase
        · exact loadMapText_bounded qt file _ hbase
  | soe =>
      show (loadSOEMap qt pSEQPrefs file (disk.content file) isImport data).val.Bounded
      unfold loadSOEMap
      dsimp only
      split
      · exact h
      · split
        · exact hbase
        · split
          · exact hbase
          · exact loadSOEText_bounded qt pSEQPrefs file _ hbase

theorem loadFiles_bounded (format : MapFormat) (isImport : Bool) (files : List QString)
    {data : MapData} (h : data.Bounded) :
    (loadFiles disk qt pSEQPrefs format isImport data files).val.Bounded := by
  induction files generalizing isImport data with
  | nil => exact h
  | cons file rest ih => exact ih true (loadFile_bounded qt pSEQPrefs disk format isImport file h)

theorem zoneMap_bounded (dirs : List QString) (shortZoneName : QString) :
    (zoneMap disk qt pSEQPrefs dirs shortZoneName).Bounded := by
  unfold zoneMap loadZoneMap
  rw [Noted.val_ite]
  split
  · exact MapData.clear_bounded _
  · split
    · exact MapData.clear_bounded _
    · exact loadFiles_bounded qt pSEQPrefs disk _ _ _ (MapData.clear_bounded _)

end

/-! ### The geometry -/

/-- Every line has points and each of them two coordinates; its heights are those of the points, or
    at most one; and everything is inside the bounds. -/
structure MapGeometry.WellFormed (g : MapGeometry) : Prop where
  drawn : ∀ line ∈ g.lines, line.x ≠ [] ∧ line.y.length = line.x.length ∧
    (line.z.length ≤ 1 ∨ line.z.length = line.x.length)
  inside : ∀ line ∈ g.lines, (∀ x ∈ line.x, g.min_x ≤ x ∧ x ≤ g.max_x) ∧
    ∀ y ∈ line.y, g.min_y ≤ y ∧ y ≤ g.max_y
  located : ∀ loc ∈ g.locations, g.min_x ≤ loc.x ∧ loc.x ≤ g.max_x ∧
    g.min_y ≤ loc.y ∧ loc.y ≤ g.max_y

theorem MapData.mem_numbered {data : MapData} {l : UInt8 × MapLayer} (h : l ∈ data.numbered) :
    l.2 ∈ data.m_mapLayers := by
  obtain ⟨i, hi, rfl⟩ := List.mem_mapIdx.mp h
  exact List.mem_of_mem_take (List.getElem_mem _)

theorem MapLayer.mem_sentLines {layer : MapLayer} {i : UInt8} {line : GeometryLine}
    (h : line ∈ layer.sentLines i) :
    (∃ l ∈ layer.m_lLines, l.points ≠ [] ∧ line.x = l.points.map Prod.fst ∧
      line.y = l.points.map Prod.snd ∧ line.z.length ≤ 1) ∨
    ∃ l ∈ layer.m_mLines, l.points ≠ [] ∧ line.x = l.points.map MapPoint.x ∧
      line.y = l.points.map MapPoint.y ∧ line.z = l.points.map MapPoint.z := by
  rcases List.mem_append.mp h with h | h
  · obtain ⟨l, hl, rfl⟩ := List.mem_map.mp h
    obtain ⟨hmem, hpoints⟩ := List.mem_filter.mp hl
    refine Or.inl ⟨l, hmem, of_decide_eq_true hpoints, rfl, rfl, ?_⟩
    dsimp only
    split <;> simp
  · obtain ⟨l, hl, rfl⟩ := List.mem_map.mp h
    obtain ⟨hmem, hpoints⟩ := List.mem_filter.mp hl
    exact Or.inr ⟨l, hmem, of_decide_eq_true hpoints, rfl, rfl, rfl⟩

theorem MapData.Bounded.wellFormed {data : MapData} (h : data.Bounded) :
    data.fillMapGeometry.WellFormed := by
  refine ⟨fun line hline => ?_, fun line hline => ?_, fun loc hloc => ?_⟩
  · obtain ⟨l, -, hline⟩ := List.mem_flatMap.mp hline
    obtain ⟨l', -, hne, hx, hy, hz⟩ | ⟨l', -, hne, hx, hy, hz⟩ := MapLayer.mem_sentLines hline
    · exact ⟨by simpa [hx] using hne, by simp [hx, hy], Or.inl hz⟩
    · exact ⟨by simpa [hx] using hne, by simp [hx, hy], Or.inr (by simp [hx, hz])⟩
  · obtain ⟨l, hl, hline⟩ := List.mem_flatMap.mp hline
    have hinside := h l.2 (MapData.mem_numbered hl)
    obtain ⟨l', hmem, -, hx, hy, -⟩ | ⟨l', hmem, -, hx, hy, -⟩ := MapLayer.mem_sentLines hline
    · have hpoints := hinside.lLines l' hmem
      rw [hx, hy]
      refine ⟨fun x hx => ?_, fun y hy => ?_⟩
      · obtain ⟨p, hp, rfl⟩ := List.mem_map.mp hx
        exact ⟨(hpoints p hp).1, (hpoints p hp).2.1⟩
      · obtain ⟨p, hp, rfl⟩ := List.mem_map.mp hy
        exact (hpoints p hp).2.2
    · have hpoints := hinside.mLines l' hmem
      rw [hx, hy]
      refine ⟨fun x hx => ?_, fun y hy => ?_⟩
      · obtain ⟨p, hp, rfl⟩ := List.mem_map.mp hx
        exact ⟨(hpoints p hp).1, (hpoints p hp).2.1⟩
      · obtain ⟨p, hp, rfl⟩ := List.mem_map.mp hy
        exact (hpoints p hp).2.2
  · obtain ⟨l, hl, hloc⟩ := List.mem_flatMap.mp hloc
    obtain ⟨loc', hmem, rfl⟩ := List.mem_map.mp hloc
    exact (h l.2 (MapData.mem_numbered hl)).locations loc' hmem

/-- Whatever the files hold, the geometry of a zone is well formed. -/
theorem geometry_wellFormed {δ : Type} (qt : MapQt δ) (pSEQPrefs : XMLPreferences δ) (disk : Disk)
    (dirs : List QString) (shortZoneName : QString) (data : MapData) :
    (loadZoneMap disk qt pSEQPrefs dirs shortZoneName data).val.fillMapGeometry.WellFormed := by
  rw [loadZoneMap_val]
  exact (zoneMap_bounded qt pSEQPrefs disk dirs shortZoneName).wellFormed

/-! ## Layers -/

/-- Two maps that the same records are read into. -/
theorem NativeStep.same {data : MapData} {s s' t : NativeState} (hstep : NativeStep s data s' t) :
    t = s'.on t.data := by
  cases hstep <;> rfl

section
variable {δ : Type} (qt : MapQt δ) (pSEQPrefs : XMLPreferences δ)

theorem loadRecords_same (rest : List QString) (s : NativeState) (data : MapData) :
    ∃ data', (loadRecords qt (s.on data) rest).val = (loadRecords qt s rest).val.on data' := by
  induction rest generalizing s data with
  | nil => exact ⟨data, rfl⟩
  | cons line rest ih =>
      have hline := (loadRecord_step qt s data line).same
      obtain ⟨data', hrest⟩ := ih (loadRecord qt s line).val
        (loadRecord qt (s.on data) line).val.data
      refine ⟨data', ?_⟩
      rw [loadRecords, Noted.val_bind, hline]
      exact hrest

/-- Whatever map it is read into, a file of the native format adds the same layer, or none if it has
    no header. -/
theorem loadMapText_adds (fileName : QString) (content : List UInt8) :
    ∃ added : List MapLayer, (∀ layer ∈ added, layer.m_fileName = fileName) ∧
      ∀ data, (loadMapText qt fileName content data).val.m_mapLayers =
        data.m_mapLayers ++ added := by
  let fields := ((element (lines (qt.fromUtf8 content)) 0).val).splitOn ','
  let rest := (lines (qt.fromUtf8 content)).tail
  by_cases hheader : fields.length < 2
  · refine ⟨[], (fun _ h => nomatch h), fun data => ?_⟩
    simp only [loadMapText, Noted.val_bind, Noted.val_ite]
    rw [if_pos hheader]
    exact (List.append_nil _).symm
  · let start (data : MapData) : NativeState := { data := (loadHeader qt fields data).val }
    have hread (data : MapData) :
        (loadRecords qt (start data) rest).val.data.m_mapLayers = data.m_mapLayers := by
      obtain ⟨hgrows, hlayers⟩ := loadHeader_keeps qt fields data
      have hstart : (start data).Inv data := ⟨hgrows, hlayers,
        ⟨(fun _ h => nomatch h), (fun _ h => nomatch h), (fun _ h => nomatch h)⟩⟩
      exact (loadRecords_inv qt rest hstart).layers
    have hlayer (data : MapData) : (loadRecords qt (start data) rest).val.layer fileName =
        (loadRecords qt (start .construct) rest).val.layer fileName := by
      obtain ⟨data', hsame⟩ := loadRecords_same qt rest (start .construct) (start data).data
      have h := congrArg (NativeState.layer · fileName) hsame
      exact h
    refine ⟨[(loadRecords qt (start .construct) rest).val.layer fileName], ?_, fun data => ?_⟩
    · intro layer h
      rw [List.mem_singleton.mp h]
      rfl
    · simp only [loadMapText, Noted.val_bind, Noted.val_ite]
      rw [if_neg hheader, ← hlayer data, ← hread data]
      rfl

/-- The same entries read into another map. -/
def SOEState.on (s : SOEState) (data : MapData) : SOEState := { s with data := data }

theorem checkBounds_on (s : SOEState) (data : MapData) :
    ∃ data', (s.on data).checkBounds = s.checkBounds.on data' := by
  obtain ⟨_, _, currentLineM, _, _, _⟩ := s
  cases currentLineM with
  | none => exact ⟨data, rfl⟩
  | some line => exact ⟨_, rfl⟩

theorem loadSegment_on (s : SOEState) (start stop : MapPoint) (rgb : RGB) (data : MapData) :
    ∃ data', (loadSegment qt pSEQPrefs (s.on data) start stop rgb).val =
      (loadSegment qt pSEQPrefs s start stop rgb).val.on data' := by
  unfold loadSegment
  rw [show (s.on data).currentLineM = s.currentLineM from rfl]
  cases s.currentLineM with
  | none => exact checkBounds_on (newLine qt pSEQPrefs s start stop rgb).val data
  | some line =>
      simp only [Noted.val_bind, Noted.val_pure, Noted.val_ite]
      rw [show (carriesOn (s.on data) start rgb).val = (carriesOn s start rgb).val from rfl]
      split
      · exact checkBounds_on (carryOn s line stop).val data
      · exact checkBounds_on (newLine qt pSEQPrefs s start stop rgb).val data

theorem loadEntry_on (s : SOEState) (line : QString) (data : MapData) :
    ∃ data', (loadEntry qt pSEQPrefs (s.on data) line).val =
      (loadEntry qt pSEQPrefs s line).val.on data' := by
  unfold loadEntry
  simp only [Noted.val_bind, Noted.val_ite, Noted.val_pure]
  split
  · exact ⟨data, rfl⟩
  · split
    · unfold loadL
      rw [Noted.val_ite, Noted.val_ite]
      split
      · exact ⟨data, rfl⟩
      · exact loadSegment_on qt pSEQPrefs s _ _ _ data
    · split
      · unfold loadP
        rw [Noted.val_ite, Noted.val_ite]
        split
        · exact ⟨data, rfl⟩
        · exact ⟨_, rfl⟩
      · exact ⟨data, rfl⟩

theorem loadEntries_on (entries : List QString) (s : SOEState) (data : MapData) :
    ∃ data', (loadEntries qt pSEQPrefs (s.on data) entries).val =
      (loadEntries qt pSEQPrefs s entries).val.on data' := by
  induction entries generalizing s data with
  | nil => exact ⟨data, rfl⟩
  | cons line rest ih =>
      obtain ⟨data', hline⟩ := loadEntry_on qt pSEQPrefs s line data
      rw [loadEntries, Noted.val_bind, hline]
      exact ih (loadEntry qt pSEQPrefs s line).val data'

theorem loadSOEText_adds (fileName : QString) (content : List UInt8) :
    ∃ added : List MapLayer, (∀ layer ∈ added, layer.m_fileName = fileName) ∧
      ∀ data, (loadSOEText qt pSEQPrefs fileName content data).val.m_mapLayers =
        data.m_mapLayers ++ added := by
  let entries := lines (qt.fromUtf8 content)
  have hread (data : MapData) : (loadEntries qt pSEQPrefs (soeStart qt fileName data)
      entries).val.data.m_mapLayers = data.m_mapLayers :=
    (loadEntries_spec qt pSEQPrefs entries (fun _ => ne_nil_of_mem_lines)
      (s := soeStart qt fileName data)
      ⟨(fun _ h => nomatch h), (fun _ h => nomatch h), (fun _ h => nomatch h)⟩).2.2.2
  have hlayer (data : MapData) :
      (loadEntries qt pSEQPrefs (soeStart qt fileName data) entries).val.layer fileName =
        (loadEntries qt pSEQPrefs (soeStart qt fileName .construct) entries).val.layer
          fileName := by
    obtain ⟨data', hsame⟩ := loadEntries_on qt pSEQPrefs entries
      (soeStart qt fileName .construct) (soeStart qt fileName data).data
    have h := congrArg (SOEState.layer · fileName) hsame
    exact h
  refine ⟨[(loadEntries qt pSEQPrefs (soeStart qt fileName .construct) entries).val.layer
    fileName], ?_, fun data => ?_⟩
  · intro layer h
    rw [List.mem_singleton.mp h]
    rfl
  · rw [← hlayer data, ← hread data]
    rfl

/-! ### Files in a row -/

variable (disk : Disk)

/-- The layer that a file gives by itself, or none if it cannot be read. -/
def layersOf (format : MapFormat) (file : QString) : List MapLayer :=
  (loadFile disk qt pSEQPrefs format true .construct file).val.m_mapLayers

/-- A file of the other format that is not loaded yet. -/
theorem loadSOEMap_adds (file : QString) (content : Option (List UInt8)) :
    ∃ added : List MapLayer, (∀ layer ∈ added, layer.m_fileName = file) ∧
      ∀ data, alreadyLoaded qt file data = false →
        (loadSOEMap qt pSEQPrefs file content true data).val.m_mapLayers =
          data.m_mapLayers ++ added := by
  have hnew {data : MapData} (hfresh : alreadyLoaded qt file data = false) :
      ¬ alreadyLoaded qt file data = true := by
    rw [hfresh]
    exact Bool.false_ne_true
  by_cases hname : "/.txt".toList <:+: file
  · refine ⟨[], (fun _ h => nomatch h), fun data hfresh => ?_⟩
    rw [loadSOEMap, if_neg (hnew hfresh), if_pos hname, List.append_nil]
    rfl
  · cases content with
    | none =>
        refine ⟨[], (fun _ h => nomatch h), fun data hfresh => ?_⟩
        rw [loadSOEMap, if_neg (hnew hfresh), if_neg hname, List.append_nil]
        rfl
    | some content =>
        obtain ⟨added, hnames, hadds⟩ := loadSOEText_adds qt pSEQPrefs file content
        refine ⟨added, hnames, fun data hfresh => ?_⟩
        rw [loadSOEMap, if_neg (hnew hfresh), if_neg hname]
        exact hadds data

theorem loadFile_adds (format : MapFormat) (file : QString) :
    ∃ added : List MapLayer, (∀ layer ∈ added, layer.m_fileName = file) ∧
      ∀ data, alreadyLoaded qt file data = false →
        (loadFile disk qt pSEQPrefs format true data file).val.m_mapLayers =
          data.m_mapLayers ++ added := by
  cases format with
  | native =>
      simp only [loadFile, loadMap, if_true, Noted.val_ite]
      have hnone : ∃ added : List MapLayer, (∀ layer ∈ added, layer.m_fileName = file) ∧
          ∀ data : MapData, alreadyLoaded qt file data = false →
            data.m_mapLayers = data.m_mapLayers ++ added :=
        ⟨[], (fun _ h => nomatch h), fun _ _ => (List.append_nil _).symm⟩
      split
      · exact hnone
      · cases disk.content file with
        | none => exact hnone
        | some content =>
            obtain ⟨added, hname, hadds⟩ := loadMapText_adds qt file content
            exact ⟨added, hname, fun data _ => hadds data⟩
  | soe => exact loadSOEMap_adds qt pSEQPrefs file (disk.content file)

/-- No two of the files have one name, upper and lower case taken as one. -/
def Distinct (files : List QString) : Prop := (files.map (·.map qt.foldCase)).Nodup

theorem loadFiles_layers (format : MapFormat) (files : List QString) (data : MapData)
    (hdistinct : Distinct qt files) (hfresh : ∀ file ∈ files, alreadyLoaded qt file data = false) :
    (loadFiles disk qt pSEQPrefs format true data files).val.m_mapLayers =
      data.m_mapLayers ++ files.flatMap (layersOf qt pSEQPrefs disk format) := by
  induction files generalizing data with
  | nil => exact (List.append_nil _).symm
  | cons file rest ih =>
      obtain ⟨hnew, hrest⟩ := List.nodup_cons.mp hdistinct
      obtain ⟨added, hname, hadds⟩ := loadFile_adds qt pSEQPrefs disk format file
      have hadded : layersOf qt pSEQPrefs disk format file = added :=
        hadds .construct rfl
      have hfile := hadds data (hfresh file List.mem_cons_self)
      rw [loadFiles, Noted.val_bind, ih _ hrest, hfile, List.flatMap_cons, hadded,
        List.append_assoc]
      intro file' hfile'
      refine Bool.eq_false_iff.mpr fun hloaded => ?_
      obtain ⟨layer, hlayer, hsame⟩ := List.any_eq_true.mp hloaded
      obtain ⟨hmap, hcase⟩ := (Bool.and_eq_true _ _).mp hsame
      rw [hfile] at hlayer
      rcases List.mem_append.mp hlayer with hold | hadd
      · refine Bool.eq_false_iff.mp (hfresh file' (List.mem_cons_of_mem _ hfile')) ?_
        exact List.any_eq_true.mpr ⟨layer, hold, hsame⟩
      · refine hnew (List.mem_map.mpr ⟨file', hfile', ?_⟩)
        rw [← of_decide_eq_true hcase, hname layer hadd]

end

/-- The layers of a zone are those of its files in their order, each as if the file were alone. -/
theorem layers_of_files {δ : Type} (qt : MapQt δ) (pSEQPrefs : XMLPreferences δ) (disk : Disk)
    (dirs : List QString) (shortZoneName : QString) (hzone : shortZoneName ≠ []) (data : MapData)
    (format : MapFormat) (files : List QString)
    (hfiles : zoneFiles disk dirs shortZoneName = some (format, files))
    (hdistinct : Distinct qt files) :
    (loadZoneMap disk qt pSEQPrefs dirs shortZoneName data).val.m_mapLayers =
      files.flatMap (layersOf qt pSEQPrefs disk format) := by
  have hload : (loadZoneMap disk qt pSEQPrefs dirs shortZoneName data).val =
      (loadFiles disk qt pSEQPrefs format false data.clear files).val := by
    unfold loadZoneMap
    rw [if_neg hzone, hfiles]
  have himport : (loadFiles disk qt pSEQPrefs format false data.clear files).val =
      (loadFiles disk qt pSEQPrefs format true data.clear files).val := by
    cases files with
    | nil => rfl
    | cons file rest =>
        rw [loadFiles, loadFiles, Noted.val_bind, Noted.val_bind]
        cases format <;> rfl
  rw [hload, himport, loadFiles_layers qt pSEQPrefs disk format files data.clear hdistinct
    fun _ _ => rfl]
  rfl

/-- A base file and one layer. -/
def qeynosDisk : Disk where
  fileExists file := file = "maps/qeynos.map".toList ∨ file = "maps/qeynos_1.map".toList
  absoluteFilePath file := '/' :: file
  content _ := some (latinFile "Qeynos,qeynos\nP,Bank,Red,10,20\n")

theorem layers_of_files_qeynos :
    (loadZoneMap qeynosDisk MapQt.latin {} ["maps".toList] "qeynos".toList
        .construct).val.m_mapLayers =
      ["/maps/qeynos.map".toList, "/maps/qeynos_1.map".toList].flatMap
        (layersOf MapQt.latin {} qeynosDisk .native) :=
  layers_of_files MapQt.latin {} qeynosDisk _ _ (by decide) .construct .native _
    (by decide +kernel) (show List.Nodup _ by decide +kernel)

end ShoweqDaemon.Maps
