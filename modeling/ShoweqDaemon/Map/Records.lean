/-
  What the records of a native map stand for, and when `loadMap` makes just that of them.

  An accepted record is one object. `Entry` is an accepted record with its own values, `object` the
  object it stands for at the height that the H records before it set. `added` is what `loadMap`
  makes of it. The two differ at P records with a height of their own, and behind an H record
  whose height is no number, which leaves the height set to zero.

  Proved:
  * `loadRecord_spec`: what one record does.
  * `loadMap_faithful_iff`: the layer is that of the objects exactly when `Regular` holds.
-/
import Mathlib.Algebra.Order.BigOperators.Group.List
import ShoweqDaemon.Map.Native
import ShoweqDaemon.Map.Geometry

namespace ShoweqDaemon.Maps

open Audit
open Spawns (QString)

/-! ## Objects -/

/-- A thing on a map, of any kind. -/
inductive MapObject where
  | lineM (line : MapLineM)
  | lineL (line : MapLineL)
  | location (place : MapLocation)
  | aggro (marker : MapAggro)
  deriving DecidableEq, Repr

namespace MapObject

/-- The lines with heights. -/
def asLineM : MapObject → Option MapLineM
  | .lineM line => some line
  | _ => none

/-- The lines at one height. -/
def asLineL : MapObject → Option MapLineL
  | .lineL line => some line
  | _ => none

/-- The places. -/
def asLocation : MapObject → Option MapLocation
  | .location place => some place
  | _ => none

/-- The ranges. -/
def asAggro : MapObject → Option MapAggro
  | .aggro marker => some marker
  | _ => none

end MapObject

/-! ## Entries -/

/-- An accepted record, by its entry type, with its fields as numbers. -/
inductive Entry where
  | M (line : MapLineM)
  | L (common : MapCommon) (points : List (Int16 × Int16))
  /-- `height` is the fifth field if there is one, `last` says that none is behind it. -/
  | P (common : MapCommon) (x y : Int16) (height : Option Int16) (last : Bool)
  | A (marker : MapAggro)
  /-- `none` is a height that is no number. -/
  | H (height : Option Int16)

section
variable {δ : Type} (qt : MapQt δ)

/-- The field at an index. -/
abbrev fieldAt (fields : List QString) (i : ℕ) : QString := fields.getD i []

/-- What an M record says: a line of at least two points with their heights. -/
def entryM (fields : List QString) : Option Entry :=
  let linePoints := (fields.length - 3) / 3
  if 2 ≤ linePoints ∧ (qt.toUInt 10 (fieldAt fields 2)).isSome then
    some <| .M
      { mapCommon qt (fieldAt fields 0) (colorOr7F (fieldAt fields 1)) with
        points := (List.range linePoints).map fun k =>
          ⟨short qt (fieldAt fields (3 + k * 3)), short qt (fieldAt fields (3 + k * 3 + 1)),
            short qt (fieldAt fields (3 + k * 3 + 2))⟩ }
  else none

/-- What an L record says: a line of at least two points at the height in force. -/
def entryL (fields : List QString) : Option Entry :=
  let linePoints := (fields.length - 3) / 2
  if 2 ≤ linePoints ∧ (qt.toUInt 10 (fieldAt fields 2)).isSome then
    some <| .L (mapCommon qt (fieldAt fields 0) (colorOr7F (fieldAt fields 1)))
      ((List.range linePoints).map fun k =>
        (short qt (fieldAt fields (3 + k * 2)), short qt (fieldAt fields (3 + k * 2 + 1))))
  else none

/-- What a P record says: a place, with a height if it gives one. -/
def entryP (fields : List QString) : Option Entry :=
  if 4 ≤ fields.length then
    some <| .P (mapCommon qt (fieldAt fields 0) (fieldAt fields 1))
      (short qt (fieldAt fields 2)) (short qt (fieldAt fields 3))
      (if 5 ≤ fields.length then some (short qt (fieldAt fields 4)) else none)
      (fields.length = 5)
  else none

/-- What an A record says: a range that is not 0. -/
def entryA (fields : List QString) : Option Entry :=
  let range := (qt.toUShort (fieldAt fields 1)).getD 0
  if 2 ≤ fields.length ∧ fieldAt fields 0 ≠ [] ∧ range ≠ 0 then
    some (.A ⟨fieldAt fields 0, range⟩)
  else none

/-- What an H record says: the height in force from here on. -/
def entryH (fields : List QString) : Option Entry :=
  if 1 ≤ fields.length then some (.H (qt.toShort (fieldAt fields 0))) else none

/-- The record of an entry type and the fields behind it, if it is accepted. -/
def entryOf (entryType : Char) (fields : List QString) : Option Entry :=
  match entryType with
  | 'M' => entryM qt fields
  | 'L' => entryL qt fields
  | 'P' => entryP qt fields
  | 'A' => entryA qt fields
  | 'H' => entryH qt fields
  | _ => none

/-- What a line says, by its first character. -/
def entry (line : QString) : Option Entry :=
  line.head?.bind fun entryType => entryOf qt entryType (line.splitOn ',').tail

end

/-! ## Heights -/

/-- The line of an L record at a height. -/
def lineAt (common : MapCommon) (points : List (Int16 × Int16)) (z : Option Int16) : MapLineL :=
  { common with points := points, m_z := z.getD 0, m_heightSet := z.isSome }

/-- A location at a height, or at none. -/
def locationAt (common : MapCommon) (x y : Int16) (z : Option Int16) : MapLocation where
  toMapCommon := common
  x := x
  y := y
  z := z.getD 0
  m_heightSet := z.isSome

/-- The object a record stands for where the latest height is `height`. -/
def Entry.object (height : Option Int16) : Entry → Option MapObject
  | .M line => some (.lineM line)
  | .L common points => some (.lineL (lineAt common points height))
  | .P common x y z _ => some (.location (locationAt common x y (z.or height)))
  | .A marker => some (.aggro marker)
  | .H _ => none

/-- The latest height behind a record. -/
def Entry.heightBehind (height : Option Int16) : Entry → Option Int16
  | .H z => z.or height
  | _ => height

/-- What is added where the height in force is `inForce`. -/
def Entry.added (inForce : Option Int16) : Entry → List MapObject
  | .P common x y z last =>
      (if last then [.location (locationAt common x y z)] else []) ++
        [.location (locationAt common x y inForce)]
  | e => (e.object inForce).toList

/-- The height in force behind a record: one that is no number leaves zero where one was set. -/
def Entry.inForceBehind (inForce : Option Int16) : Entry → Option Int16
  | .H z => z.or (inForce.map fun _ => 0)
  | _ => inForce

/-- A record where it stands. -/
structure Placed where
  entry : Entry
  height : Option Int16
  inForce : Option Int16

/-- The records with the heights before them. -/
def place (height inForce : Option Int16) : List Entry → List Placed
  | [] => []
  | e :: rest =>
      ⟨e, height, inForce⟩ :: place (e.heightBehind height) (e.inForceBehind inForce) rest

/-- The objects that the records stand for. -/
def objects (placed : List Placed) : List MapObject :=
  placed.flatMap fun p => (p.entry.object p.height).toList

/-- The objects that are added. -/
def addedObjects (placed : List Placed) : List MapObject :=
  placed.flatMap fun p => p.entry.added p.inForce

/-- Where a record is loaded as what it stands for: the height in force is the record's own or the
    latest one, and a P record has no height as its last field, which adds a second location. -/
def Entry.Regular (height inForce : Option Int16) : Entry → Prop
  | .L _ _ => inForce = height
  | .P _ _ _ z last => last = false ∧ inForce = z.or height
  | _ => True

instance (height inForce : Option Int16) : (e : Entry) → Decidable (e.Regular height inForce)
  | .L _ _ => inferInstanceAs (Decidable (inForce = height))
  | .P _ _ _ z last => inferInstanceAs (Decidable (last = false ∧ inForce = z.or height))
  | .M _ | .A _ | .H _ => inferInstanceAs (Decidable True)

/-- A record among the others is loaded as what it stands for. -/
def Placed.Regular (p : Placed) : Prop := p.entry.Regular p.height p.inForce

instance (p : Placed) : Decidable p.Regular :=
  inferInstanceAs (Decidable (p.entry.Regular p.height p.inForce))

/-! ## One record -/

/-- The loop stores the points that the iterator reads one after the other. -/
theorem loadPoints_spec {α : Type} (width count : ℕ) (point : ℕ → Noted Element α)
    (hwidth : 0 < width)
    (hpoint : ∀ fit, fit + width ≤ count → (point fit).Allowed Element.Inside)
    (left fit numPoints : ℕ) (points : List α) (hfit : fit + left * width ≤ count)
    (hpoints : points.length = numPoints + left) :
    (loadPoints width count point left fit numPoints points).Allowed Element.Inside ∧
      (loadPoints width count point left fit numPoints points).val =
        points.take numPoints ++ (List.range left).map fun k => (point (fit + k * width)).val := by
  induction left generalizing fit numPoints points with
  | zero =>
      have hall : points.take numPoints = points := List.take_of_length_le (Nat.le_of_eq hpoints)
      simp only [loadPoints, Noted.allowed_pure, Noted.val_pure, hall, List.range_zero,
        List.map_nil, List.append_nil, and_self]
  | succ left ih =>
      rw [Nat.succ_mul] at hfit
      have hmore : fit ≠ count := by omega
      obtain ⟨hallowed, hval⟩ := ih (fit + width) (numPoints + 1)
        (points.set numPoints (point fit).val) (by omega) (by simp; omega)
      have hstored : (points.set numPoints (point fit).val).take (numPoints + 1) =
          points.take numPoints ++ [(point fit).val] := by
        rw [List.take_add_one, List.take_set_of_le (Nat.le_refl _),
          List.getElem?_set_self (by omega)]
        rfl
      have hshift (k : ℕ) : fit + width + k * width = fit + (k + 1) * width := by
        rw [Nat.succ_mul]
        omega
      refine ⟨?_, ?_⟩
      · simp only [loadPoints, if_neg hmore, Noted.allowed_bind, allowed_setElement,
          val_setElement]
        exact ⟨hpoint fit (by omega), by omega, hallowed⟩
      · simp only [loadPoints, if_neg hmore, Noted.val_bind, val_setElement]
        rw [hval, hstored, List.range_succ_eq_map]
        simp [hshift]

/-- The height in force. -/
def NativeState.inForce (s : NativeState) : Option Int16 :=
  if s.globHeightSet then some s.globHeight else none

/-- The objects behind those that were there. -/
structure AddsAll (s s' : NativeState) (objs : List MapObject) : Prop where
  mLines : s'.mLines = s.mLines ++ objs.filterMap MapObject.asLineM
  lLines : s'.lLines = s.lLines ++ objs.filterMap MapObject.asLineL
  locations : s'.locations = s.locations ++ objs.filterMap MapObject.asLocation
  aggros : s'.data.m_aggros = s.data.m_aggros ++ objs.filterMap MapObject.asAggro
  layers : s'.data.m_mapLayers = s.data.m_mapLayers

theorem AddsAll.nothing {s s' : NativeState} (hmLines : s'.mLines = s.mLines)
    (hlLines : s'.lLines = s.lLines) (hlocations : s'.locations = s.locations)
    (haggros : s'.data.m_aggros = s.data.m_aggros)
    (hlayers : s'.data.m_mapLayers = s.data.m_mapLayers) : AddsAll s s' [] where
  mLines := hmLines.trans (List.append_nil _).symm
  lLines := hlLines.trans (List.append_nil _).symm
  locations := hlocations.trans (List.append_nil _).symm
  aggros := haggros.trans (List.append_nil _).symm
  layers := hlayers

/-- What a record adds, and the height it leaves in force. -/
structure Adds (s s' : NativeState) (e : Option Entry) : Prop where
  added : AddsAll s s' (e.elim [] (·.added s.inForce))
  inForce : s'.inForce = e.elim s.inForce (·.inForceBehind s.inForce)

section
variable {δ : Type} (qt : MapQt δ) (s : NativeState) (fields : List QString)

theorem getD_default (i : ℕ) : fields.getD i default = fieldAt fields i := rfl

/-- A record that is not accepted adds nothing. -/
theorem adds_none : Adds s s none := ⟨.nothing rfl rfl rfl rfl rfl, rfl⟩

theorem loadM_spec :
    (loadM qt s fields).Allowed Element.Inside ∧
      Adds s (loadM qt s fields).val (entryM qt fields) := by
  unfold loadM entryM
  by_cases hshort : fields.length < 3
  · have hno : ¬ 2 ≤ (fields.length - 3) / 3 := by omega
    simp only [hshort, hno, false_and, if_true, if_false]
    exact ⟨Noted.allowed_pure _ _, adds_none s⟩
  by_cases hfew : (fields.length - 3) / 3 < 2
  · have hno : ¬ 2 ≤ (fields.length - 3) / 3 := by omega
    simp only [hshort, hfew, hno, false_and, if_true, if_false]
    exact ⟨Noted.allowed_pure _ _, adds_none s⟩
  have henough : 2 ≤ (fields.length - 3) / 3 := by omega
  obtain ⟨hpoints, hval⟩ := loadPoints_spec 3 fields.length (pointM qt fields) (by decide)
    (fun fit hfit => by simp [pointM]; omega) ((fields.length - 3) / 3) 3 0
    (List.replicate ((fields.length - 3) / 3) ⟨0, 0, 0⟩) (by omega) (by simp)
  simp only [hshort, hfew, if_false, Noted.allowed_bind, Noted.val_bind, allowed_element,
    val_element]
  rw [getD_default]
  cases hnumber : qt.toUInt 10 (fieldAt fields 2) with
  | none =>
      simp only [Option.isSome_none, Bool.false_eq_true, and_false, if_false]
      exact ⟨⟨by omega, by omega, by omega, Noted.allowed_pure _ _⟩, adds_none s⟩
  | some n =>
      simp only [henough, Option.isSome_some, and_self, if_true, Noted.allowed_bind, Noted.val_bind]
      refine ⟨⟨by omega, by omega, by omega, hpoints, Noted.allowed_pure _ _⟩, ?_⟩
      rw [hval]
      exact ⟨⟨rfl, (List.append_nil _).symm, (List.append_nil _).symm, (List.append_nil _).symm,
        rfl⟩, rfl⟩

theorem loadLineL_spec :
    (loadLineL qt s fields).Allowed Element.Inside ∧
      Adds s (loadLineL qt s fields).val (entryL qt fields) := by
  have hhalf : (fields.length - 3) >>> 1 = (fields.length - 3) / 2 := Nat.shiftRight_one _
  unfold loadLineL entryL
  rw [hhalf]
  by_cases hshort : fields.length < 3
  · have hno : ¬ 2 ≤ (fields.length - 3) / 2 := by omega
    simp only [hshort, hno, false_and, if_true, if_false]
    exact ⟨Noted.allowed_pure _ _, adds_none s⟩
  by_cases hfew : (fields.length - 3) / 2 < 2
  · have hno : ¬ 2 ≤ (fields.length - 3) / 2 := by omega
    simp only [hshort, hfew, hno, false_and, if_true, if_false]
    exact ⟨Noted.allowed_pure _ _, adds_none s⟩
  have henough : 2 ≤ (fields.length - 3) / 2 := by omega
  obtain ⟨hpoints, hval⟩ := loadPoints_spec 2 fields.length (pointL qt fields) (by decide)
    (fun fit hfit => by simp [pointL]; omega) ((fields.length - 3) / 2) 3 0
    (List.replicate ((fields.length - 3) / 2) (0, 0)) (by omega) (by simp)
  simp only [hshort, hfew, if_false, Noted.allowed_bind, Noted.val_bind, allowed_element,
    val_element]
  rw [getD_default]
  cases hnumber : qt.toUInt 10 (fieldAt fields 2) with
  | none =>
      simp only [Option.isSome_none, Bool.false_eq_true, and_false, if_false]
      exact ⟨⟨by omega, by omega, by omega, Noted.allowed_pure _ _⟩, adds_none s⟩
  | some n =>
      simp only [henough, Option.isSome_some, and_self, if_true, Noted.allowed_bind, Noted.val_bind]
      refine ⟨⟨by omega, by omega, by omega, hpoints, Noted.allowed_pure _ _⟩, ?_⟩
      rw [hval]
      refine ⟨⟨(List.append_nil _).symm, ?_, (List.append_nil _).symm,
        (List.append_nil _).symm, rfl⟩, rfl⟩
      cases hset : s.globHeightSet <;> simp only [NativeState.inForce, hset] <;> rfl

theorem loadLocation_spec :
    (loadLocation qt s fields).Allowed Element.Inside ∧
      Adds s (loadLocation qt s fields).val (entryP qt fields) := by
  unfold loadLocation entryP
  by_cases hshort : fields.length < 4
  · have hno : ¬ 4 ≤ fields.length := by omega
    simp only [hshort, hno, if_true, if_false]
    exact ⟨Noted.allowed_pure _ _, adds_none s⟩
  have henough : 4 ≤ fields.length := by omega
  simp only [hshort, henough, if_true, if_false, Noted.allowed_bind, Noted.val_bind,
    allowed_element, val_element, getD_default]
  by_cases hfive : fields.length = 5
  · simp only [hfive, if_true, Noted.allowed_bind, Noted.val_bind, allowed_element, val_element,
      getD_default]
    refine ⟨⟨by omega, by omega, by omega, by omega, by omega, Noted.allowed_pure _ _,
      Noted.allowed_pure _ _⟩, ?_⟩
    refine ⟨⟨(List.append_nil _).symm, (List.append_nil _).symm, ?_,
      (List.append_nil _).symm, rfl⟩, rfl⟩
    exact List.append_assoc _ _ _
  · simp only [hfive, if_false, Noted.allowed_bind, Noted.val_bind]
    refine ⟨⟨by omega, by omega, by omega, by omega, Noted.allowed_pure _ _,
      Noted.allowed_pure _ _⟩, ?_⟩
    refine ⟨⟨(List.append_nil _).symm, (List.append_nil _).symm, ?_,
      (List.append_nil _).symm, rfl⟩, rfl⟩
    simp only [decide_false]
    rfl

theorem loadA_spec :
    (loadA qt s fields).Allowed Element.Inside ∧
      Adds s (loadA qt s fields).val (entryA qt fields) := by
  unfold loadA entryA
  by_cases hshort : fields.length < 2
  · have hno : ¬ 2 ≤ fields.length := by omega
    simp only [hshort, hno, false_and, if_true, if_false]
    exact ⟨Noted.allowed_pure _ _, adds_none s⟩
  have henough : 2 ≤ fields.length := by omega
  simp only [hshort, henough, if_false, Noted.allowed_bind, Noted.val_bind, allowed_element,
    val_element, getD_default, true_and]
  by_cases hname : fieldAt fields 0 = []
  · simp only [hname, if_true, ne_eq, not_true, false_and, if_false]
    exact ⟨⟨by omega, Noted.allowed_pure _ _⟩, adds_none s⟩
  simp only [hname, if_false, ne_eq, not_false_eq_true, true_and, Noted.allowed_bind,
    Noted.val_bind, allowed_element, val_element, getD_default]
  by_cases hrange : (qt.toUShort (fieldAt fields 1)).getD 0 = 0
  · simp only [hrange, if_true, not_true, if_false]
    exact ⟨⟨by omega, by omega, Noted.allowed_pure _ _⟩, adds_none s⟩
  · simp only [hrange, if_false, not_false_eq_true, if_true]
    refine ⟨⟨by omega, by omega, Noted.allowed_pure _ _⟩, ?_⟩
    exact ⟨⟨(List.append_nil _).symm, (List.append_nil _).symm, (List.append_nil _).symm, rfl,
      rfl⟩, rfl⟩

theorem loadH_spec :
    (loadH qt s fields).Allowed Element.Inside ∧
      Adds s (loadH qt s fields).val (entryH qt fields) := by
  unfold loadH entryH
  by_cases hshort : fields.length < 1
  · have hno : ¬ 1 ≤ fields.length := by omega
    simp only [hshort, hno, if_true, if_false]
    exact ⟨Noted.allowed_pure _ _, adds_none s⟩
  have henough : 1 ≤ fields.length := by omega
  simp only [hshort, henough, if_true, if_false, Noted.allowed_bind, Noted.val_bind,
    allowed_element, val_element, getD_default]
  cases hz : qt.toShort (fieldAt fields 0) with
  | none =>
      refine ⟨⟨by omega, Noted.allowed_pure _ _⟩, .nothing rfl rfl rfl rfl rfl, ?_⟩
      cases hset : s.globHeightSet <;> simp [NativeState.inForce, Entry.inForceBehind, hset]
  | some z =>
      exact ⟨⟨by omega, Noted.allowed_pure _ _⟩, .nothing rfl rfl rfl rfl rfl, rfl⟩

theorem loadZ_spec :
    (loadZ qt s fields).Allowed Element.Inside ∧ Adds s (loadZ qt s fields).val none := by
  unfold loadZ
  by_cases hshort : fields.length < 1
  · simp only [hshort, if_true]
    exact ⟨Noted.allowed_pure _ _, adds_none s⟩
  · simp only [hshort, if_false, Noted.allowed_bind, Noted.val_bind, allowed_element]
    exact ⟨⟨by omega, Noted.allowed_pure _ _⟩, .nothing rfl rfl rfl rfl rfl, rfl⟩

/-- The entry type begins the first field. -/
theorem splitOn_cons {c : Char} (hc : c ≠ ',') (rest : QString) :
    ∃ first : QString,
      (c :: rest).splitOn ',' = (c :: first) :: ((c :: rest).splitOn ',').tail := by
  have hsplit : (c :: rest).splitOn ',' = (rest.splitOn ',').modifyHead (c :: ·) := by
    have hne : (c == ',') = false := beq_eq_false_iff_ne.mpr hc
    unfold List.splitOn
    rw [List.splitOnP_cons_eq_if_modifyHead, hne]
    rfl
  have hsome : rest.splitOn ',' ≠ [] := List.splitOnP_ne_nil _ rest
  obtain ⟨first, others, hothers⟩ := List.exists_cons_of_ne_nil hsome
  exact ⟨first, by rw [hsplit, hothers]; rfl⟩

theorem loadFields_spec (entryType : Char) :
    (loadFields qt s entryType fields).Allowed Element.Inside ∧
      Adds s (loadFields qt s entryType fields).val (entryOf qt entryType fields) := by
  unfold loadFields
  split
  · exact loadM_spec qt s fields
  · exact loadLineL_spec qt s fields
  · exact loadLocation_spec qt s fields
  · exact loadA_spec qt s fields
  · exact loadH_spec qt s fields
  · exact loadZ_spec qt s fields
  · have hnone : entryOf qt entryType fields = none := by
      unfold entryOf
      split <;> first | rfl | contradiction
    rw [hnone]
    exact ⟨Noted.allowed_pure _ _, adds_none s⟩

theorem loadRecord_spec {c : Char} (hc : c ≠ ',') (rest : QString) :
    (loadRecord qt s (c :: rest)).Allowed Element.Inside ∧
      Adds s (loadRecord qt s (c :: rest)).val (entry qt (c :: rest)) := by
  obtain ⟨first, hsplit⟩ := splitOn_cons hc rest
  have hne : (c :: rest).splitOn ',' ≠ [] := by
    rw [hsplit]
    exact List.cons_ne_nil _ _
  have hfirst : ((c :: rest).splitOn ',').getD 0 default = c :: first := by
    rw [hsplit]
    rfl
  have hlen : 0 < ((c :: rest).splitOn ',').length := List.length_pos_iff.mpr hne
  obtain ⟨hallowed, hadds⟩ := loadFields_spec qt s ((c :: rest).splitOn ',').tail c
  unfold loadRecord entry
  rw [if_neg hne]
  refine ⟨?_, ?_⟩
  · simp only [Noted.allowed_bind, allowed_element, val_element, hfirst, charAt,
      Noted.allowed_note, Noted.allowed_pure]
    exact ⟨hlen, ⟨Nat.succ_pos _, trivial⟩, hallowed⟩
  · simp only [Noted.val_bind, val_element, hfirst]
    exact hadds

end

/-! ## All records -/

theorem AddsAll.trans {s₀ s₁ s₂ : NativeState} {objs objs' : List MapObject}
    (h : AddsAll s₀ s₁ objs) (h' : AddsAll s₁ s₂ objs') : AddsAll s₀ s₂ (objs ++ objs') := by
  refine ⟨?_, ?_, ?_, ?_, h'.layers.trans h.layers⟩
  · rw [h'.mLines, h.mLines, List.filterMap_append, List.append_assoc]
  · rw [h'.lLines, h.lLines, List.filterMap_append, List.append_assoc]
  · rw [h'.locations, h.locations, List.filterMap_append, List.append_assoc]
  · rw [h'.aggros, h.aggros, List.filterMap_append, List.append_assoc]

/-- The records of lines, from a height and a height in force on. -/
def placeLines {δ : Type} (qt : MapQt δ) (height inForce : Option Int16) (rest : List QString) :
    List Placed :=
  place height inForce (rest.filterMap (entry qt))

theorem loadRecords_spec {δ : Type} (qt : MapQt δ) (s : NativeState) (height : Option Int16)
    (rest : List QString) (hlines : ∀ line ∈ rest, line ≠ [] ∧ line.head? ≠ some ',') :
    (loadRecords qt s rest).Allowed Element.Inside ∧
      AddsAll s (loadRecords qt s rest).val
        (addedObjects (placeLines qt height s.inForce rest)) := by
  induction rest generalizing s height with
  | nil =>
      exact ⟨Noted.allowed_pure _ _, .nothing rfl rfl rfl rfl rfl⟩
  | cons line rest ih =>
      obtain ⟨hne, hhead⟩ := hlines line List.mem_cons_self
      obtain ⟨c, cs, rfl⟩ := List.exists_cons_of_ne_nil hne
      have hc : c ≠ ',' := fun h => hhead (congrArg some h)
      obtain ⟨hallowed, hadds⟩ := loadRecord_spec qt s hc cs
      have hrest := fun line hline => hlines line (List.mem_cons_of_mem _ hline)
      cases hentry : entry qt (c :: cs) with
      | none =>
          rw [hentry] at hadds
          obtain ⟨hall, hadded⟩ := ih (loadRecord qt s (c :: cs)).val height hrest
          refine ⟨?_, ?_⟩
          · rw [loadRecords, Noted.allowed_bind]
            exact ⟨hallowed, hall⟩
          · have hinForce : (loadRecord qt s (c :: cs)).val.inForce = s.inForce := hadds.inForce
            rw [hinForce] at hadded
            rw [loadRecords, Noted.val_bind, placeLines, List.filterMap_cons, hentry]
            exact hadds.added.trans hadded
      | some e =>
          rw [hentry] at hadds
          obtain ⟨hall, hadded⟩ := ih (loadRecord qt s (c :: cs)).val (e.heightBehind height) hrest
          refine ⟨?_, ?_⟩
          · rw [loadRecords, Noted.allowed_bind]
            exact ⟨hallowed, hall⟩
          · have hinForce : (loadRecord qt s (c :: cs)).val.inForce = e.inForceBehind s.inForce :=
              hadds.inForce
            rw [hinForce] at hadded
            rw [loadRecords, Noted.val_bind, placeLines, List.filterMap_cons, hentry]
            exact hadds.added.trans hadded

/-! ## Regular records -/

/-- Outputs that are nowhere shorter have the same concatenation only if each is the same. -/
theorem flatMap_eq_iff {α β : Type} {f g : α → List β} {l : List α}
    (h : ∀ a ∈ l, (g a).length ≤ (f a).length) :
    l.flatMap f = l.flatMap g ↔ ∀ a ∈ l, f a = g a := by
  refine ⟨?_, List.flatMap_congr⟩
  induction l with
  | nil => exact fun _ _ hmem => nomatch hmem
  | cons a rest ih =>
      intro heq
      rw [List.flatMap_cons, List.flatMap_cons] at heq
      have hrest := fun b hb => h b (List.mem_cons_of_mem _ hb)
      have hle : (rest.flatMap g).length ≤ (rest.flatMap f).length := by
        rw [List.length_flatMap, List.length_flatMap]
        exact List.sum_le_sum hrest
      have ha := h a List.mem_cons_self
      have htotal := congrArg List.length heq
      rw [List.length_append, List.length_append] at htotal
      obtain ⟨hfirst, htail⟩ := List.append_inj heq (by omega)
      exact List.forall_mem_cons.mpr ⟨hfirst, ih hrest htail⟩

theorem lineAt_inj {common : MapCommon} {points : List (Int16 × Int16)} {z z' : Option Int16} :
    lineAt common points z = lineAt common points z' ↔ z = z' := by
  cases z <;> cases z' <;> simp [lineAt]

theorem locationAt_inj {common : MapCommon} {x y : Int16} {z z' : Option Int16} :
    locationAt common x y z = locationAt common x y z' ↔ z = z' := by
  cases z <;> cases z' <;> simp [locationAt]

namespace Placed

variable (p : Placed)

theorem filterMap_lineM :
    (p.entry.added p.inForce).filterMap MapObject.asLineM =
      (p.entry.object p.height).toList.filterMap MapObject.asLineM := by
  cases h : p.entry with
  | P common x y z last => cases last <;> rfl
  | _ => rfl

theorem filterMap_aggro :
    (p.entry.added p.inForce).filterMap MapObject.asAggro =
      (p.entry.object p.height).toList.filterMap MapObject.asAggro := by
  cases h : p.entry with
  | P common x y z last => cases last <;> rfl
  | _ => rfl

/-- No object a record stands for is left out. -/
theorem length_filterMap_le :
    ((p.entry.object p.height).toList.filterMap MapObject.asLineL).length ≤
        ((p.entry.added p.inForce).filterMap MapObject.asLineL).length ∧
      ((p.entry.object p.height).toList.filterMap MapObject.asLocation).length ≤
        ((p.entry.added p.inForce).filterMap MapObject.asLocation).length := by
  cases h : p.entry with
  | P common x y z last =>
      cases last <;>
        simp [Entry.object, Entry.added, MapObject.asLineL, MapObject.asLocation,
          List.filterMap_cons]
  | _ =>
      simp [Entry.object, Entry.added, MapObject.asLineL, MapObject.asLocation,
        List.filterMap_cons]

theorem regular_iff :
    p.Regular ↔
      (p.entry.added p.inForce).filterMap MapObject.asLineL =
          (p.entry.object p.height).toList.filterMap MapObject.asLineL ∧
        (p.entry.added p.inForce).filterMap MapObject.asLocation =
          (p.entry.object p.height).toList.filterMap MapObject.asLocation := by
  unfold Regular
  cases h : p.entry with
  | L common points =>
      simp [Entry.Regular, Entry.object, Entry.added, MapObject.asLineL, MapObject.asLocation,
        List.filterMap_cons, lineAt_inj]
  | P common x y z last =>
      cases last <;>
        simp [Entry.Regular, Entry.object, Entry.added, MapObject.asLineL, MapObject.asLocation,
          List.filterMap_cons, locationAt_inj]
  | _ => simp [Entry.Regular, Entry.object, Entry.added]

end Placed

/-- The objects added are those the records stand for exactly when every record is regular. -/
theorem addedObjects_iff (placed : List Placed) :
    (addedObjects placed).filterMap MapObject.asLineL =
          (objects placed).filterMap MapObject.asLineL ∧
        (addedObjects placed).filterMap MapObject.asLocation =
          (objects placed).filterMap MapObject.asLocation ↔
      ∀ p ∈ placed, p.Regular := by
  unfold addedObjects objects
  rw [List.filterMap_flatMap, List.filterMap_flatMap, List.filterMap_flatMap,
    List.filterMap_flatMap, flatMap_eq_iff fun p _ => p.length_filterMap_le.1,
    flatMap_eq_iff fun p _ => p.length_filterMap_le.2]
  constructor
  · rintro ⟨hlines, hlocations⟩ p hp
    exact p.regular_iff.mpr ⟨hlines p hp, hlocations p hp⟩
  · intro h
    exact ⟨fun p hp => (p.regular_iff.mp (h p hp)).1, fun p hp => (p.regular_iff.mp (h p hp)).2⟩

theorem addedObjects_lineM (placed : List Placed) :
    (addedObjects placed).filterMap MapObject.asLineM =
      (objects placed).filterMap MapObject.asLineM := by
  unfold addedObjects objects
  rw [List.filterMap_flatMap, List.filterMap_flatMap]
  exact List.flatMap_congr fun p _ => p.filterMap_lineM

theorem addedObjects_aggro (placed : List Placed) :
    (addedObjects placed).filterMap MapObject.asAggro =
      (objects placed).filterMap MapObject.asAggro := by
  unfold addedObjects objects
  rw [List.filterMap_flatMap, List.filterMap_flatMap]
  exact List.flatMap_congr fun p _ => p.filterMap_aggro

/-! ## The file -/

/-- One object for each accepted record behind those there were, kind by kind in their order. -/
structure Faithful (data data' : MapData) (layer : MapLayer) (objs : List MapObject) : Prop where
  mLines : layer.m_mLines = objs.filterMap MapObject.asLineM
  lLines : layer.m_lLines = objs.filterMap MapObject.asLineL
  locations : layer.m_locations = objs.filterMap MapObject.asLocation
  aggros : data'.m_aggros = data.m_aggros ++ objs.filterMap MapObject.asAggro

section
variable {δ : Type} (qt : MapQt δ)

/-- The records of a file behind its header. -/
def nativeRecords (content : List UInt8) : List Placed :=
  placeLines qt none none (lines (qt.fromUtf8 content)).tail

/-- The header has two fields, or at least four. -/
def HeaderFits (header : QString) : Prop :=
  (header.splitOn ',').length = 2 ∨ 4 ≤ (header.splitOn ',').length

/-- The header is read, and is not an object. -/
theorem loadHeader_spec {header : QString} (hheader : HeaderFits header) (data : MapData) :
    (loadHeader qt (header.splitOn ',') data).Allowed Element.Inside ∧
      (loadHeader qt (header.splitOn ',') data).val.m_aggros = data.m_aggros ∧
      (loadHeader qt (header.splitOn ',') data).val.m_mapLayers = data.m_mapLayers := by
  unfold loadHeader
  rcases hheader with htwo | hfour
  · have hno : ¬ (header.splitOn ',').length > 2 := by omega
    simp only [hno, if_false, Noted.allowed_bind, Noted.val_bind, allowed_element]
    exact ⟨⟨by omega, by omega, Noted.allowed_pure _ _⟩, rfl, rfl⟩
  · have hsize : (header.splitOn ',').length > 2 := by omega
    simp only [hsize, if_true, Noted.allowed_bind, Noted.val_bind, allowed_element]
    exact ⟨⟨by omega, by omega, trivial, by omega, Noted.allowed_pure _ _⟩, rfl, rfl⟩

theorem loadMapText_spec (fileName : QString) {content : List UInt8} {header : QString}
    {rest : List QString} (hlines : lines (qt.fromUtf8 content) = header :: rest)
    (hheader : HeaderFits header) (hrest : ∀ line ∈ rest, line.head? ≠ some ',') (data : MapData) :
    (loadMapText qt fileName content data).Allowed Element.Inside ∧
      ∃ layer, (loadMapText qt fileName content data).val.m_mapLayers =
          data.m_mapLayers ++ [layer] ∧
        Faithful data (loadMapText qt fileName content data).val layer
          (addedObjects (nativeRecords qt content)) := by
  have hmany : ¬ (header.splitOn ',').length < 2 := by
    unfold HeaderFits at hheader
    omega
  have hlines' : ∀ line ∈ rest, line ≠ [] ∧ line.head? ≠ some ',' :=
    fun line hline => ⟨ne_nil_of_lines_eq_cons hlines line hline, hrest line hline⟩
  obtain ⟨hread, haggros, hlayers⟩ := loadHeader_spec qt hheader data
  let s : NativeState := { data := (loadHeader qt (header.splitOn ',') data).val }
  obtain ⟨hall, hadds⟩ := loadRecords_spec qt s none rest hlines'
  have hrecords : placeLines qt none s.inForce rest = nativeRecords qt content := by
    rw [nativeRecords, hlines]
    rfl
  rw [hrecords] at hadds
  have hload : (loadMapText qt fileName content data).val =
      { (loadRecords qt s rest).val.data.updateBounds with
        m_mapLayers := (loadRecords qt s rest).val.data.updateBounds.m_mapLayers ++
          [(loadRecords qt s rest).val.layer fileName] } := by
    simp only [loadMapText, hlines, Noted.val_bind, val_element, List.getD_cons_zero, if_neg hmany]
    rfl
  refine ⟨?_, (loadRecords qt s rest).val.layer fileName, ?_, ?_⟩
  · simp only [loadMapText, hlines, Noted.allowed_bind, allowed_element, val_element,
      List.getD_cons_zero, if_neg hmany]
    exact ⟨Nat.succ_pos _, hread, hall, Noted.allowed_pure _ _⟩
  · rw [hload]
    exact congrArg (· ++ _) (hadds.layers.trans hlayers)
  · rw [hload]
    refine ⟨hadds.mLines, hadds.lLines, hadds.locations, ?_⟩
    exact hadds.aggros.trans (congrArg (· ++ _) haggros)

/-- A native map is loaded as its records stand exactly when every record is regular. -/
theorem loadMap_faithful_iff (fileName : QString) (content : List UInt8) (isImport : Bool)
    (data : MapData) (header : QString) (rest : List QString)
    (hlines : lines (qt.fromUtf8 content) = header :: rest) (hheader : HeaderFits header)
    (hrest : ∀ line ∈ rest, line.head? ≠ some ',') (hname : ¬ "/.map".toList <:+: fileName) :
    let data₀ := if isImport then data else data.clear
    let data' := (loadMap qt fileName (some content) isImport data).val
    ∃ layer, data'.m_mapLayers = data₀.m_mapLayers ++ [layer] ∧
      (Faithful data₀ data' layer (objects (nativeRecords qt content)) ↔
        ∀ p ∈ nativeRecords qt content, p.Regular) := by
  intro data₀ data'
  have hdata' : data' = (loadMapText qt fileName content data₀).val :=
    congrArg Noted.val (if_neg hname)
  obtain ⟨-, layer, hlayers, hadded⟩ := loadMapText_spec qt fileName hlines hheader hrest data₀
  rw [← hdata'] at hlayers hadded
  refine ⟨layer, hlayers, ?_⟩
  rw [← addedObjects_iff]
  constructor
  · intro h
    exact ⟨hadded.lLines.symm.trans h.lLines, hadded.locations.symm.trans h.locations⟩
  · rintro ⟨hlines, hlocations⟩
    refine ⟨?_, hadded.lLines.trans hlines, hadded.locations.trans hlocations, ?_⟩
    · rw [hadded.mLines, addedObjects_lineM]
    · rw [hadded.aggros, addedObjects_aggro]

end

/-! ## Two locations -/

/-- A line and a location behind a height. -/
def plainMap : List UInt8 :=
  latinFile "Qeynos,qeynos\nH,30\nL,Wall,,2,10,20,15,25\nP,Bank,Red,10,20\n"

theorem plainMap_faithful :
    ∃ layer, (loadMap MapQt.latin "qeynos.map".toList (some plainMap) false
        MapData.construct).val.m_mapLayers = MapData.construct.clear.m_mapLayers ++ [layer] ∧
      Faithful MapData.construct.clear
        (loadMap MapQt.latin "qeynos.map".toList (some plainMap) false MapData.construct).val layer
        (objects (nativeRecords MapQt.latin plainMap)) := by
  have hregular : ∀ p ∈ nativeRecords MapQt.latin plainMap, p.Regular := by decide +kernel
  obtain ⟨layer, hlayers, hiff⟩ := loadMap_faithful_iff MapQt.latin "qeynos.map".toList plainMap
    false MapData.construct "Qeynos,qeynos".toList
    ["H,30".toList, "L,Wall,,2,10,20,15,25".toList, "P,Bank,Red,10,20".toList]
    (by decide +kernel) (Or.inl (by decide)) (by decide) (by decide)
  exact ⟨layer, hlayers, hiff.mpr hregular⟩

/-- A location with a height of its own. -/
def bankMap : List UInt8 := latinFile "Qeynos,qeynos\nP,Bank,Red,10,20,30\n"

theorem bankMap_twice :
    ¬ ∃ layer, (loadMap MapQt.latin "qeynos.map".toList (some bankMap) false
        MapData.construct).val.m_mapLayers = [layer] ∧
      Faithful MapData.construct.clear
        (loadMap MapQt.latin "qeynos.map".toList (some bankMap) false MapData.construct).val layer
        (objects (nativeRecords MapQt.latin bankMap)) := by
  rintro ⟨layer, hlayers, hfaithful⟩
  have htwo : ((loadMap MapQt.latin "qeynos.map".toList (some bankMap) false
      MapData.construct).val.m_mapLayers.map (·.m_locations.length)) = [2] := by
    decide +kernel
  have hone : ((objects (nativeRecords MapQt.latin bankMap)).filterMap
      MapObject.asLocation).length = 1 := by
    decide +kernel
  rw [hlayers, List.map_singleton, hfaithful.locations, hone] at htwo
  cases htwo

end ShoweqDaemon.Maps
