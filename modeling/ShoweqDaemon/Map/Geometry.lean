/-
  What `loadSOEMap` draws.

  The accepted L records of a file are its lines with the entry L and nine fields. Every such
  record adds one stroke behind those drawn before: from its second point to its first, in the
  colour of the line it ends up on. `pens` are these colours, told from the records alone; a line is
  known by its last point and its two colours (`Joint`).

  Proved:
  * `loadSegment_spec`: what one record does to the drawing.
  * `loadEntries_spec`: the drawing of a whole file.
  * `loadSOEMap_geometry`: no segment is lost or added, and everything is inside the bounds.
-/
import ShoweqDaemon.Map.SOE
import ShoweqDaemon.Prefs.RoundTrip

namespace ShoweqDaemon.Maps

open Audit
open Polyline (segments strokes)
open Preferences (Qt SeqColor XMLPreferences)
open Spawns (QString)

/-! ## Records -/

/-- An accepted L record: the segment in the map's coordinates, and its raw colour. -/
structure SOERecord where
  start : MapPoint
  stop : MapPoint
  rgb : RGB
  deriving DecidableEq, Repr

/-- What the record draws. -/
def SOERecord.segment (record : SOERecord) : MapPoint × MapPoint := (record.start, record.stop)

section
variable {δ : Type} (qt : MapQt δ) (pSEQPrefs : XMLPreferences δ)

/-- The record that a line stands for, with the signs that the format turns around. -/
def soeRecord (line : QString) : Option SOERecord :=
  match line.head?, qt.entryFields line with
  | some 'L', [x1, y1, z1, x2, y2, z2, r, g, b] =>
      some
        { start := ⟨-qt.coordinate x2, -qt.coordinate y2, qt.coordinate z2⟩
          stop := ⟨-qt.coordinate x1, -qt.coordinate y1, qt.coordinate z1⟩
          rgb := ⟨qt.component r, qt.component g, qt.component b⟩ }
  | _, _ => none

/-- The accepted L records of a file. -/
def soeRecords (content : List UInt8) : List SOERecord :=
  (lines (qt.fromUtf8 content)).filterMap (soeRecord qt)

/-! ## Joints -/

/-- The end of a line and what a record is compared with to go on there. -/
structure Joint where
  stop : MapPoint
  color : SeqColor
  origColor : SeqColor

namespace Joint

/-- The record goes on at the joint. -/
def Carries (joint : Joint) (record : SOERecord) : Prop :=
  joint.stop = record.start ∧ (record.rgb.Is joint.color ∨ record.rgb.Is joint.origColor)

instance (joint : Joint) (record : SOERecord) : Decidable (joint.Carries record) :=
  inferInstanceAs (Decidable (_ ∧ _))

end Joint

/-- The joint of a line that the record begins. -/
def SOERecord.joint (record : SOERecord) : Joint where
  stop := record.stop
  color := lineColor qt pSEQPrefs record.rgb
  origColor := record.rgb.seqColor

/-- The joint behind a record: the line goes on to the end of the record, or the record begins one
    of its own. -/
def nextJoint (joint : Option Joint) (record : SOERecord) : Joint :=
  match joint with
  | none => record.joint qt pSEQPrefs
  | some joint =>
      if joint.Carries record then { joint with stop := record.stop }
      else record.joint qt pSEQPrefs

/-- The colours the records are drawn in. -/
def pens (joint : Option Joint) : List SOERecord → List SeqColor
  | [] => []
  | record :: rest =>
      let next := nextJoint qt pSEQPrefs joint record
      next.color :: pens (some next) rest

end

/-! ## The drawing -/

/-- The segments that the lines draw, in order, with their colors. -/
def drawing (mLines : List MapLineM) : List ((MapPoint × MapPoint) × SeqColor) :=
  strokes (mLines.map fun line => (line.points, line.m_color))

/-- The joint of the current line. -/
def SOEState.joint (s : SOEState) : Option Joint :=
  s.currentLineM.bind fun line =>
    line.points.getLast?.map fun stop => ⟨stop, line.m_color, line.m_origColor⟩

/-- The current line is as long as the counters say, and what is drawn is inside the bounds. -/
structure SOEState.Inv (s : SOEState) : Prop where
  counted : ∀ line, s.currentLineM = some line →
    line.points.length = s.numPoints ∧ s.numPoints = s.checkPoint + 1
  drawn : ∀ line ∈ s.mLines, ∀ p ∈ line.points, s.data.Holds p.x p.y
  located : ∀ location ∈ s.locations, s.data.Holds location.x location.y

section
variable {δ : Type} (qt : MapQt δ) (pSEQPrefs : XMLPreferences δ) {s : SOEState}

theorem getD_last {points : List MapPoint} {n : ℕ} (h : points.length = n + 1) :
    points.getLast? = some (points.getD n default) := by
  rw [List.getLast?_eq_getElem?, h, Nat.add_sub_cancel, List.getD_eq_getElem?_getD,
    List.getElem?_eq_getElem (by omega)]
  rfl

/-- `resize` and `setPoint` put the point behind the others. -/
theorem resize_set (points : List MapPoint) (p : MapPoint) :
    (resize points (points.length + 1)).set points.length p = points ++ [p] := by
  simp [resize, List.take_of_length_le]

/-! ### One record -/

/-- The test reads the last point of the current line. -/
theorem carriesOn_spec (hinv : s.Inv) (record : SOERecord) :
    (carriesOn s record.start record.rgb).Allowed Element.Inside ∧
      ((carriesOn s record.start record.rgb).val = true ↔
        ∃ joint, s.joint = some joint ∧ joint.Carries record) := by
  unfold carriesOn SOEState.joint
  cases hcur : s.currentLineM with
  | none => simp
  | some line =>
      obtain ⟨hlen, hcheck⟩ := hinv.counted line hcur
      have hlast := getD_last (hlen.trans hcheck)
      refine ⟨?_, ?_⟩
      · simp [hlen, hcheck]
      · simp [hlast, Joint.Carries]

theorem carryOn_spec (hinv : s.Inv) {line : MapLineM} (hcur : s.currentLineM = some line)
    (stop : MapPoint) :
    (carryOn s line stop).Allowed Element.Inside ∧
      (carryOn s line stop).val =
        { s with
          currentLineM := some { line with points := line.points ++ [stop] }
          numPoints := s.numPoints + 1
          checkPoint := s.numPoints } := by
  obtain ⟨hlen, -⟩ := hinv.counted line hcur
  have hroom : line.points.length < s.numPoints + 1 := by omega
  have hset := resize_set line.points stop
  rw [hlen] at hset
  refine ⟨?_, ?_⟩
  · simp [carryOn, hroom, resize]
    omega
  · simp [carryOn, hroom, hset]

theorem newLine_spec (record : SOERecord) :
    (newLine qt pSEQPrefs s record.start record.stop record.rgb).Allowed Element.Inside ∧
      (newLine qt pSEQPrefs s record.start record.stop record.rgb).val =
        { s with
          finished := s.mLines
          currentLineM := some
            { m_name := "soe".toList, m_color := lineColor qt pSEQPrefs record.rgb
              m_origColor := record.rgb.seqColor, points := [record.start, record.stop] }
          numPoints := 2
          checkPoint := 1 } :=
  ⟨by simp [newLine], rfl⟩

/-- The bounds of the current line are put right behind every record. -/
theorem checkBounds_inv
    (hcounted : ∀ line, s.currentLineM = some line →
      line.points.length = s.numPoints ∧ s.numPoints = s.checkPoint + 1)
    (hfinished : ∀ line ∈ s.finished, ∀ p ∈ line.points, s.data.Holds p.x p.y)
    (hlocated : ∀ location ∈ s.locations, s.data.Holds location.x location.y) :
    s.checkBounds.Inv := by
  unfold SOEState.checkBounds
  cases hcur : s.currentLineM with
  | none =>
      refine ⟨fun line hline => ?_, ?_, hlocated⟩
      · cases hcur.symm.trans hline
      · simpa [SOEState.mLines, hcur] using hfinished
  | some current =>
      refine ⟨?_, ?_, ?_⟩
      · intro line hline
        exact hcounted line (hcur.trans hline)
      · intro line hline p hp
        simp only [SOEState.mLines, Option.toList_some, List.mem_append,
          List.mem_singleton] at hline
        rcases hline with hline | rfl
        · exact (hfinished line hline p hp).quickCheckRect _
        · refine MapData.quickCheckRect_holds _ (Extent.covers_of (p := (p.x, p.y)) ?_)
          exact List.mem_map_of_mem hp
      · intro location hlocation
        exact (hlocated location hlocation).quickCheckRect _

theorem mLines_finished (h : s.Inv) : ∀ line ∈ s.finished, ∀ p ∈ line.points,
    s.data.Holds p.x p.y :=
  fun line hline => h.drawn line (List.mem_append_left _ hline)

@[simp] theorem checkBounds_currentLineM : s.checkBounds.currentLineM = s.currentLineM := by
  unfold SOEState.checkBounds
  split <;> simp_all

@[simp] theorem checkBounds_mLines : s.checkBounds.mLines = s.mLines := by
  unfold SOEState.checkBounds
  split <;> simp_all [SOEState.mLines]

@[simp] theorem checkBounds_joint : s.checkBounds.joint = s.joint := by
  simp [SOEState.joint]

@[simp] theorem checkBounds_layers :
    s.checkBounds.data.m_mapLayers = s.data.m_mapLayers := by
  unfold SOEState.checkBounds
  split <;> rfl

/-- What a record does: it keeps to the elements there are and draws its segment with the pen of
    the joint it makes. -/
structure Draws (s s' : SOEState) (record : SOERecord) : Prop where
  inv : s'.Inv
  joint : s'.joint = some (nextJoint qt pSEQPrefs s.joint record)
  drawing : drawing s'.mLines =
    drawing s.mLines ++ [(record.segment, (nextJoint qt pSEQPrefs s.joint record).color)]
  layers : s'.data.m_mapLayers = s.data.m_mapLayers

theorem newLine_draws (hinv : s.Inv) (record : SOERecord)
    (hnew : nextJoint qt pSEQPrefs s.joint record = record.joint qt pSEQPrefs) :
    Draws qt pSEQPrefs s
      (newLine qt pSEQPrefs s record.start record.stop record.rgb).val.checkBounds record := by
  rw [(newLine_spec qt pSEQPrefs record).2]
  refine ⟨checkBounds_inv ?_ ?_ hinv.located, ?_, ?_, ?_⟩
  · intro line hline
    cases hline
    exact ⟨rfl, rfl⟩
  · exact hinv.drawn
  · rw [hnew, checkBounds_joint]
    rfl
  · rw [hnew, checkBounds_mLines]
    simp only [drawing, SOEState.mLines, Option.toList_some, List.map_append, List.map_cons,
      List.map_nil, Polyline.strokes_begin]
    rfl
  · rw [checkBounds_layers]

theorem carryOn_draws (hinv : s.Inv) {line : MapLineM} (hcur : s.currentLineM = some line)
    {joint : Joint} (hjoint : s.joint = some joint) (record : SOERecord)
    (hcarries : joint.Carries record) :
    Draws qt pSEQPrefs s (carryOn s line record.stop).val.checkBounds record := by
  have hnext : nextJoint qt pSEQPrefs s.joint record = { joint with stop := record.stop } := by
    simp [hjoint, nextJoint, hcarries]
  obtain ⟨hlen, hcheck⟩ := hinv.counted line hcur
  rw [(carryOn_spec hinv hcur record.stop).2]
  simp only [SOEState.joint, hcur, Option.bind_some, Option.map_eq_some_iff] at hjoint
  obtain ⟨stop, hlast, rfl⟩ := hjoint
  obtain rfl : stop = record.start := hcarries.1
  refine ⟨checkBounds_inv ?_ (mLines_finished (s := s) hinv) hinv.located, ?_, ?_, ?_⟩
  · intro line' hline'
    cases hline'
    simp [hlen]
  · rw [hnext, checkBounds_joint]
    simp [SOEState.joint]
  · rw [hnext, checkBounds_mLines]
    simp only [drawing, SOEState.mLines, hcur, Option.toList_some, List.map_append, List.map_cons,
      List.map_nil, Polyline.strokes_carry_on _ hlast]
    rfl
  · rw [checkBounds_layers]

theorem loadSegment_spec (hinv : s.Inv) (record : SOERecord) :
    (loadSegment qt pSEQPrefs s record.start record.stop record.rgb).Allowed Element.Inside ∧
      Draws qt pSEQPrefs s
        (loadSegment qt pSEQPrefs s record.start record.stop record.rgb).val record := by
  obtain ⟨htest, hcarries⟩ := carriesOn_spec hinv record
  have hnewAllowed := (newLine_spec qt pSEQPrefs (s := s) record).1
  unfold loadSegment
  cases hcur : s.currentLineM with
  | none =>
      have hnew : nextJoint qt pSEQPrefs s.joint record = record.joint qt pSEQPrefs := by
        simp [SOEState.joint, hcur, nextJoint]
      refine ⟨?_, ?_⟩
      · simp [htest, hnewAllowed]
      · simpa using newLine_draws qt pSEQPrefs hinv record hnew
  | some line =>
      by_cases hgo : (carriesOn s record.start record.rgb).val = true
      · obtain ⟨joint, hjoint, hj⟩ := hcarries.mp hgo
        refine ⟨?_, ?_⟩
        · simp [htest, hgo, (carryOn_spec hinv hcur record.stop).1]
        · simpa [hgo] using carryOn_draws qt pSEQPrefs hinv hcur hjoint record hj
      · have hnew : nextJoint qt pSEQPrefs s.joint record = record.joint qt pSEQPrefs := by
          cases hjoint : s.joint with
          | none => rfl
          | some joint =>
              have hno : ¬ joint.Carries record := fun hj => hgo (hcarries.mpr ⟨joint, hjoint, hj⟩)
              simp [nextJoint, hno]
        refine ⟨?_, ?_⟩
        · simp [htest, hgo, hnewAllowed]
        · simpa [hgo] using newLine_draws qt pSEQPrefs hinv record hnew

/-! ### One line -/

theorem loadEntry_record {line : QString} {record : SOERecord}
    (h : soeRecord qt line = some record) :
    (loadEntry qt pSEQPrefs s line).val =
        (loadSegment qt pSEQPrefs s record.start record.stop record.rgb).val ∧
      ((loadEntry qt pSEQPrefs s line).Allowed Element.Inside ↔
        (loadSegment qt pSEQPrefs s record.start record.stop record.rgb).Allowed
          Element.Inside) := by
  unfold soeRecord at h
  split at h
  · rename_i x1 y1 z1 x2 y2 z2 r g b hhead hfields
    cases line with
    | nil => cases hhead
    | cons c rest =>
        cases hhead
        cases h
        simp [loadEntry, charAt, loadL, hfields, Element.Inside]
  · cases h

theorem soeRecord_of_length {line : QString} (hhead : line.head? = some 'L')
    (hlen : (qt.entryFields line).length = 9) : soeRecord qt line ≠ none := by
  unfold soeRecord
  rw [hhead]
  match qt.entryFields line, hlen with
  | [x1, y1, z1, x2, y2, z2, r, g, b], _ => exact Option.some_ne_none _

/-- A P record, or one that is not accepted. -/
theorem loadEntry_other {line : QString} (hne : line ≠ []) (h : soeRecord qt line = none) :
    (loadEntry qt pSEQPrefs s line).Allowed Element.Inside ∧
      ((loadEntry qt pSEQPrefs s line).val = s ∨
        ∃ location, (loadEntry qt pSEQPrefs s line).val =
          { s with
            locations := s.locations ++ [location]
            data := s.data.quickCheckPos location.x location.y }) := by
  obtain ⟨c, rest, rfl⟩ := List.exists_cons_of_ne_nil hne
  by_cases hempty : qt.entryFields (c :: rest) = []
  · simp [loadEntry, charAt, hempty, Element.Inside]
  by_cases hL : c = 'L'
  · subst hL
    have hlen : (qt.entryFields ('L' :: rest)).length ≠ 9 := fun hlen =>
      soeRecord_of_length qt rfl hlen h
    simp [loadEntry, charAt, hempty, loadL, hlen, Element.Inside]
  by_cases hP : c = 'P'
  · subst hP
    by_cases hlen : (qt.entryFields ('P' :: rest)).length = 8
    · refine ⟨?_, Or.inr ?_⟩
      · simp [loadEntry, charAt, hempty, loadP, hlen, Element.Inside]
      · have hP : (loadEntry qt pSEQPrefs s ('P' :: rest)).val =
            (loadP qt pSEQPrefs s (qt.entryFields ('P' :: rest))).val := by
          simp [loadEntry, charAt, hempty]
        rw [hP, loadP, if_neg (not_not.mpr hlen)]
        exact ⟨_, rfl⟩
    · simp [loadEntry, charAt, hempty, loadP, hlen, Element.Inside]
  · simp [loadEntry, charAt, hempty, hL, hP, Element.Inside]

/-- A line that draws no segment. -/
structure Keeps (s s' : SOEState) : Prop where
  inv : s'.Inv
  joint : s'.joint = s.joint
  mLines : s'.mLines = s.mLines
  layers : s'.data.m_mapLayers = s.data.m_mapLayers

theorem loadEntry_keeps (hinv : s.Inv) {line : QString} (hne : line ≠ [])
    (h : soeRecord qt line = none) :
    (loadEntry qt pSEQPrefs s line).Allowed Element.Inside ∧
      Keeps s (loadEntry qt pSEQPrefs s line).val := by
  obtain ⟨hinside, hval⟩ := loadEntry_other qt pSEQPrefs (s := s) hne h
  refine ⟨hinside, ?_⟩
  rcases hval with hval | ⟨location, hval⟩
  · rw [hval]
    exact ⟨hinv, rfl, rfl, rfl⟩
  · rw [hval]
    refine ⟨⟨hinv.counted, ?_, ?_⟩, rfl, rfl, rfl⟩
    · intro line hline p hp
      exact (hinv.drawn line hline p hp).quickCheckPos _ _
    · intro location' hlocation
      rcases List.mem_append.mp hlocation with hold | hnew
      · exact (hinv.located location' hold).quickCheckPos _ _
      · rw [List.mem_singleton.mp hnew]
        exact MapData.quickCheckPos_holds _ _ _

/-! ### All lines -/

theorem loadEntries_spec (entries : List QString) (hne : ∀ line ∈ entries, line ≠ [])
    (hinv : s.Inv) :
    (loadEntries qt pSEQPrefs s entries).Allowed Element.Inside ∧
      (loadEntries qt pSEQPrefs s entries).val.Inv ∧
      drawing (loadEntries qt pSEQPrefs s entries).val.mLines =
        drawing s.mLines ++ ((entries.filterMap (soeRecord qt)).map SOERecord.segment).zip
          (pens qt pSEQPrefs s.joint (entries.filterMap (soeRecord qt))) ∧
      (loadEntries qt pSEQPrefs s entries).val.data.m_mapLayers = s.data.m_mapLayers := by
  induction entries generalizing s with
  | nil => simpa [loadEntries, pens] using hinv
  | cons line rest ih =>
      have hrest : ∀ line ∈ rest, line ≠ [] := fun l hl => hne l (List.mem_cons_of_mem _ hl)
      have hline := hne line List.mem_cons_self
      cases hrecord : soeRecord qt line with
      | some record =>
          obtain ⟨hval, hallowed⟩ := loadEntry_record qt pSEQPrefs (s := s) hrecord
          obtain ⟨hinside, hdraws⟩ := loadSegment_spec qt pSEQPrefs hinv record
          rw [← hval] at hdraws
          obtain ⟨hall, hinv', hdrawing, hlayers⟩ := ih hrest hdraws.inv
          refine ⟨?_, hinv', ?_, hlayers.trans hdraws.layers⟩
          · rw [loadEntries, Noted.allowed_bind]
            exact ⟨hallowed.mpr hinside, hall⟩
          · rw [loadEntries, Noted.val_bind, hdrawing, hdraws.drawing, hdraws.joint]
            simp [hrecord, pens]
      | none =>
          obtain ⟨hinside, hkeeps⟩ := loadEntry_keeps qt pSEQPrefs hinv hline hrecord
          obtain ⟨hall, hinv', hdrawing, hlayers⟩ := ih hrest hkeeps.inv
          refine ⟨?_, hinv', ?_, hlayers.trans hkeeps.layers⟩
          · rw [loadEntries, Noted.allowed_bind]
            exact ⟨hinside, hall⟩
          · rw [loadEntries, Noted.val_bind, hdrawing, hkeeps.mLines, hkeeps.joint]
            simp [hrecord]

theorem ne_nil_of_mem_lines {text line : QString} (h : line ∈ lines text) : line ≠ [] := by
  simpa using (List.mem_filter.mp h).2

/-- No line behind the first is empty. -/
theorem ne_nil_of_lines_eq_cons {text header : QString} {rest : List QString}
    (h : lines text = header :: rest) : ∀ line ∈ rest, line ≠ [] := by
  intro line hline
  have hmem : line ∈ lines text := by
    rw [h]
    exact List.mem_cons_of_mem _ hline
  exact ne_nil_of_mem_lines hmem

theorem pens_length (joint : Option Joint) (records : List SOERecord) :
    (pens qt pSEQPrefs joint records).length = records.length := by
  induction records generalizing joint with
  | nil => rfl
  | cons record rest ih => simp [pens, ih]

/-- A file that is read adds one layer. -/
theorem loadSOEText_spec (fileName : QString) (content : List UInt8) (data : MapData) :
    (loadSOEText qt pSEQPrefs fileName content data).Allowed Element.Inside ∧
      ∃ layer, (loadSOEText qt pSEQPrefs fileName content data).val.m_mapLayers =
          data.m_mapLayers ++ [layer] ∧
        drawing layer.m_mLines = ((soeRecords qt content).map SOERecord.segment).zip
          (pens qt pSEQPrefs none (soeRecords qt content)) ∧
        (∀ line ∈ layer.m_mLines, ∀ p ∈ line.points,
          (loadSOEText qt pSEQPrefs fileName content data).val.Holds p.x p.y) ∧
        ∀ location ∈ layer.m_locations,
          (loadSOEText qt pSEQPrefs fileName content data).val.Holds location.x location.y := by
  have hstart : (soeStart qt fileName data).Inv := by
    refine ⟨?_, ?_, ?_⟩
    · intro line hline
      cases hline
    · intro line hline
      cases hline
    · intro location hlocation
      cases hlocation
  obtain ⟨hinside, hinv, hdrawing, hlayers⟩ := loadEntries_spec qt pSEQPrefs
    (lines (qt.fromUtf8 content)) (fun _ => ne_nil_of_mem_lines) hstart
  refine ⟨?_, SOEState.layer _ fileName, ?_, hdrawing, hinv.drawn, hinv.located⟩
  · simpa [loadSOEText] using hinside
  · exact congrArg (· ++ _) hlayers

end

/-! ## The file -/

section
variable {δ : Type} (qt : MapQt δ) (pSEQPrefs : XMLPreferences δ)

/-- A file that is not there yet is read, into a cleared map unless it is imported. -/
theorem loadSOEMap_fresh {fileName : QString} (content : List UInt8) (isImport : Bool)
    {data : MapData} (hfresh : alreadyLoaded qt fileName data = false)
    (hname : ¬ "/.txt".toList <:+: fileName) :
    loadSOEMap qt pSEQPrefs fileName (some content) isImport data =
      loadSOEText qt pSEQPrefs fileName content (if isImport then data else data.clear) := by
  unfold loadSOEMap
  rw [if_neg (Bool.eq_false_iff.mp hfresh)]
  exact if_neg hname

/-- Loaded into a map without layers, the lines of the new layer run through the segments of the
    accepted records, in the order of the file. -/
theorem loadSOEMap_geometry (fileName : QString) (content : List UInt8) (isImport : Bool)
    (data : MapData) (hname : ¬ "/.txt".toList <:+: fileName) :
    let data' := (loadSOEMap qt pSEQPrefs fileName (some content) isImport data.clear).val
    ∃ layer, data'.m_mapLayers = [layer] ∧
      (layer.m_mLines.flatMap fun line => segments line.points) =
        (soeRecords qt content).map SOERecord.segment ∧
      (∀ line ∈ layer.m_mLines, ∀ p ∈ line.points, data'.Holds p.x p.y) ∧
      ∀ location ∈ layer.m_locations, data'.Holds location.x location.y := by
  have hfresh : alreadyLoaded qt fileName data.clear = false := rfl
  have hload := loadSOEMap_fresh qt pSEQPrefs content isImport hfresh hname
  obtain ⟨-, layer, hlayers, hdrawing, hdrawn, hlocated⟩ := loadSOEText_spec qt pSEQPrefs fileName
    content (if isImport then data.clear else data.clear.clear)
  have hempty : (if isImport then data.clear else data.clear.clear).m_mapLayers = [] := by
    cases isImport <;> rfl
  rw [hload]
  refine ⟨layer, ?_, ?_, hdrawn, hlocated⟩
  · rw [hlayers, hempty]
    rfl
  · have hfst := congrArg (List.map Prod.fst) hdrawing
    rw [drawing, Polyline.map_fst_strokes, List.flatMap_map, List.map_fst_zip] at hfst
    · exact hfst
    · rw [pens_length, List.length_map]

end

/-! ## A file -/

/-- Latin texts and whole numbers. -/
def MapQt.latin : MapQt Empty where
  toQt := Qt.latin
  fromUtf8 bytes := bytes.map fun b => Char.ofNat b.toNat
  toFloat s := (Numeral.integer Qt.latin.isSpace 10 s).getD 0
  entryFields line := ((line.drop 2).splitOn ',').map fun field => field.dropWhile (· = ' ')
  zoneName fileName := fileName.takeWhile (· ≠ '.')

/-- A file with the text in Latin-1. -/
def latinFile (text : String) : List UInt8 := text.toList.map fun c => UInt8.ofNat c.toNat

/-- Two segments, the second in the colour that the first is converted to. -/
def twoSegments : List UInt8 :=
  latinFile <| "L 10, 0, 0, 20, 5, 0, 100, 100, 0\nP 1, 2, 3, 0, 0, 0, 2, to_Qeynos\r\n" ++
    "L 30, 0, 7, 10, 0, 0, 255, 165, 0\n"

theorem soeRecords_twoSegments : soeRecords MapQt.latin twoSegments =
    [⟨⟨-20, -5, 0⟩, ⟨-10, 0, 0⟩, ⟨100, 100, 0⟩⟩,
      ⟨⟨-10, 0, 0⟩, ⟨-30, 0, 7⟩, ⟨255, 165, 0⟩⟩] := by
  decide +kernel

theorem twoSegments_geometry :
    ∃ layer, (loadSOEMap MapQt.latin {} "qeynos.txt".toList (some twoSegments) false
        MapData.construct.clear).val.m_mapLayers = [layer] ∧
      (layer.m_mLines.flatMap fun line => segments line.points) =
        [(⟨-20, -5, 0⟩, ⟨-10, 0, 0⟩), (⟨-10, 0, 0⟩, ⟨-30, 0, 7⟩)] := by
  obtain ⟨layer, hlayers, hsegments, -⟩ := loadSOEMap_geometry MapQt.latin {} "qeynos.txt".toList
    twoSegments false MapData.construct (by decide)
  rw [soeRecords_twoSegments] at hsegments
  exact ⟨layer, hlayers, hsegments⟩

end ShoweqDaemon.Maps
