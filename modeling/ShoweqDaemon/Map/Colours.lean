/-
  When merging L records into lines keeps their colours.

  A record may go on with the current line when its raw colour is the raw colour of the line's
  first record, or when it is the colour that one was converted to. In the second case the record's
  own colour is converted from something else and need not be the line's. `Agrees` is what two
  neighbours have to satisfy; `loadSOEMap_colours_iff` says that nothing else is asked.

  Proved:
  * `nextJoint_color_iff`, `pens_iff`: one record, and all of them.
  * `loadSOEMap_colours_iff`: for every content of the file and all preferences.
  * `oneColour_drawn`, `twoSegments_colour`: segments of one raw colour, and a file for which the
    colours go wrong.
-/
import ShoweqDaemon.Map.Geometry

namespace ShoweqDaemon.Maps

open Audit
open Preferences (SeqColor XMLPreferences)
open Spawns (QString)

section
variable {δ : Type} (qt : MapQt δ) (pSEQPrefs : XMLPreferences δ)

/-- The colour of a record that begins a line. -/
def SOERecord.color (record : SOERecord) : SeqColor := lineColor qt pSEQPrefs record.rgb

/-- The record as a line of its own. -/
def SOERecord.ownLine (record : SOERecord) : MapLineM where
  m_name := "soe".toList
  m_color := record.color qt pSEQPrefs
  m_origColor := record.rgb.seqColor
  points := [record.start, record.stop]

/-- A record that begins where the one before it ends, in the colour that one is drawn in, is drawn
    in that colour by itself. -/
def SOERecord.Agrees (a b : SOERecord) : Prop :=
  a.stop = b.start → b.rgb.Is (a.color qt pSEQPrefs) → b.color qt pSEQPrefs = a.color qt pSEQPrefs

/-- The joint behind a record whose line has the record's colour. -/
structure Joint.Of (joint : Joint) (record : SOERecord) : Prop where
  stop : joint.stop = record.stop
  color : joint.color = record.color qt pSEQPrefs
  /-- The raw colour of the line is that of its first record. -/
  origColor : ∃ first : RGB, joint.origColor = first.seqColor ∧
    lineColor qt pSEQPrefs first = record.color qt pSEQPrefs

variable {qt pSEQPrefs}

theorem joint_of (record : SOERecord) :
    (record.joint qt pSEQPrefs).Of qt pSEQPrefs record :=
  ⟨rfl, rfl, record.rgb, rfl, rfl⟩

theorem is_seqColor {a b : RGB} (h : a.Is b.seqColor) : a = b := by
  obtain ⟨hr, hg, hb⟩ := h
  cases a
  cases b
  cases hr
  cases hg
  cases hb
  rfl

/-- The next record is drawn in its own colour exactly when it agrees with the one before it. -/
theorem nextJoint_color_iff {joint : Joint} {a : SOERecord} (h : joint.Of qt pSEQPrefs a)
    (b : SOERecord) :
    (nextJoint qt pSEQPrefs (some joint) b).color = b.color qt pSEQPrefs ↔
      a.Agrees qt pSEQPrefs b := by
  obtain ⟨hstop, hcolor, first, horig, hfirst⟩ := h
  unfold nextJoint
  by_cases hcarries : joint.Carries b
  · simp only [hcarries, if_true]
    obtain ⟨hend, hpen | hraw⟩ := hcarries
    · -- carried on for the converted colour
      rw [hcolor] at hpen ⊢
      rw [hstop] at hend
      exact ⟨fun heq _ _ => heq.symm, fun hagrees => (hagrees hend hpen).symm⟩
    · -- carried on for the raw colour of the line
      rw [horig] at hraw
      have hown : b.color qt pSEQPrefs = a.color qt pSEQPrefs := by
        rw [← hfirst, ← is_seqColor hraw]
        rfl
      rw [hcolor, hown]
      exact ⟨fun _ _ _ => hown, fun _ => rfl⟩
  · simp only [hcarries, if_false]
    refine ⟨fun _ hend his => ?_, fun _ => rfl⟩
    refine absurd ⟨hstop.trans hend, Or.inl ?_⟩ hcarries
    rw [hcolor]
    exact his

theorem nextJoint_of {joint : Joint} {a : SOERecord} (h : joint.Of qt pSEQPrefs a) {b : SOERecord}
    (hcolor : (nextJoint qt pSEQPrefs (some joint) b).color = b.color qt pSEQPrefs) :
    (nextJoint qt pSEQPrefs (some joint) b).Of qt pSEQPrefs b := by
  unfold nextJoint at hcolor ⊢
  by_cases hcarries : joint.Carries b
  · simp only [hcarries, if_true] at hcolor ⊢
    obtain ⟨first, horig, hfirst⟩ := h.origColor
    refine ⟨rfl, hcolor, first, horig, ?_⟩
    rw [hfirst, ← h.color, hcolor]
  · simp only [hcarries, if_false]
    exact joint_of b

theorem pens_of_joint {joint : Joint} {a : SOERecord} (h : joint.Of qt pSEQPrefs a)
    (records : List SOERecord) :
    pens qt pSEQPrefs (some joint) records = records.map (·.color qt pSEQPrefs) ↔
      (a :: records).IsChain (SOERecord.Agrees qt pSEQPrefs) := by
  induction records generalizing joint a with
  | nil => simp [pens]
  | cons b rest ih =>
      rw [pens, List.map_cons, List.cons.injEq, List.isChain_cons_cons, nextJoint_color_iff h]
      refine and_congr_right fun hagrees => ?_
      exact ih (nextJoint_of h ((nextJoint_color_iff h b).mpr hagrees))

/-- All records are drawn in their own colours exactly when neighbours agree. -/
theorem pens_iff (records : List SOERecord) :
    pens qt pSEQPrefs none records = records.map (·.color qt pSEQPrefs) ↔
      records.IsChain (SOERecord.Agrees qt pSEQPrefs) := by
  cases records with
  | nil => simp [pens]
  | cons a rest =>
      rw [pens, List.map_cons, List.cons.injEq]
      refine (and_iff_right rfl).trans ?_
      exact pens_of_joint (joint_of a) rest

theorem drawing_ownLines (records : List SOERecord) :
    drawing (records.map (·.ownLine qt pSEQPrefs)) =
      (records.map SOERecord.segment).zip (records.map (·.color qt pSEQPrefs)) := by
  induction records with
  | nil => rfl
  | cons record rest ih =>
      rw [List.map_cons, List.map_cons, List.map_cons, List.zip_cons_cons, ← ih]
      rfl

variable (qt pSEQPrefs)

/-- The lines of the new layer are drawn like the records loaded one by one exactly when every
    record that goes on in the converted colour of the one before it is converted to that colour. -/
theorem loadSOEMap_colours_iff (fileName : QString) (content : List UInt8) (isImport : Bool)
    (data : MapData) (hfresh : alreadyLoaded qt fileName data = false)
    (hname : ¬ "/.txt".toList <:+: fileName) :
    ∃ layer, (loadSOEMap qt pSEQPrefs fileName (some content) isImport data).val.m_mapLayers =
        (if isImport then data else data.clear).m_mapLayers ++ [layer] ∧
      (drawing layer.m_mLines =
          drawing ((soeRecords qt content).map (·.ownLine qt pSEQPrefs)) ↔
        (soeRecords qt content).IsChain (SOERecord.Agrees qt pSEQPrefs)) := by
  obtain ⟨-, layer, hlayers, hdrawing, -⟩ := loadSOEText_spec qt pSEQPrefs fileName content
    (if isImport then data else data.clear)
  rw [loadSOEMap_fresh qt pSEQPrefs content isImport hfresh hname]
  refine ⟨layer, hlayers, ?_⟩
  rw [hdrawing, drawing_ownLines, ← pens_iff]
  constructor
  · intro h
    have hpens := congrArg (List.map Prod.snd) h
    rw [List.map_snd_zip, List.map_snd_zip] at hpens
    · exact hpens
    · simp
    · simp [pens_length]
  · intro h
    rw [h]

end

/-! ## Orange and gold -/

/-- Two segments of one raw colour. -/
def oneColour : List UInt8 :=
  latinFile <| "L 10, 0, 0, 20, 5, 0, 100, 100, 0\nL 30, 0, 7, 10, 0, 0, 100, 100, 0\n"

theorem oneColour_drawn :
    ∃ layer, (loadSOEMap MapQt.latin {} "qeynos.txt".toList (some oneColour) false
        MapData.construct).val.m_mapLayers = [layer] ∧
      drawing layer.m_mLines =
        drawing ((soeRecords MapQt.latin oneColour).map (·.ownLine MapQt.latin {})) := by
  have hagrees : (soeRecords MapQt.latin oneColour).IsChain
      (SOERecord.Agrees MapQt.latin {}) := by
    have htwo : soeRecords MapQt.latin oneColour =
        [⟨⟨-20, -5, 0⟩, ⟨-10, 0, 0⟩, ⟨100, 100, 0⟩⟩,
          ⟨⟨-10, 0, 0⟩, ⟨-30, 0, 7⟩, ⟨100, 100, 0⟩⟩] := by
      decide +kernel
    rw [htwo]
    exact .cons_cons (fun _ _ => rfl) (.singleton _)
  obtain ⟨layer, hlayers, hiff⟩ := loadSOEMap_colours_iff MapQt.latin {} "qeynos.txt".toList
    oneColour false MapData.construct rfl (by decide)
  exact ⟨layer, hlayers, hiff.mpr hagrees⟩

/-- The second segment of the file has the colour that the first is converted to and is itself
    converted to another. -/
theorem twoSegments_colour :
    ∃ layer, (loadSOEMap MapQt.latin {} "qeynos.txt".toList (some twoSegments) false
        MapData.construct).val.m_mapLayers = [layer] ∧
      drawing layer.m_mLines ≠
        drawing ((soeRecords MapQt.latin twoSegments).map (·.ownLine MapQt.latin {})) := by
  obtain ⟨-, layer, hlayers, hdrawing, -⟩ := loadSOEText_spec MapQt.latin {} "qeynos.txt".toList
    twoSegments MapData.construct.clear
  rw [loadSOEMap_fresh MapQt.latin {} twoSegments false rfl (by decide), if_neg Bool.false_ne_true]
  refine ⟨layer, hlayers, ?_⟩
  rw [hdrawing, soeRecords_twoSegments]
  decide +kernel

end ShoweqDaemon.Maps
