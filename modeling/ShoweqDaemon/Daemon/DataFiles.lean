/-
  The loaders of the data files: format strings (`EQStr::load`) and spells (`Spells::loadSpells`).

  A file is read into a `QByteArray` with one byte more than it has, zero, and Qt keeps another
  zero behind every `QByteArray`. Texts in UTF-16 are scanned for a zero unit in there; what lies
  behind is not known, so the scan ends with the first byte it asks for that is not there.

  `EQStr::load` puts its iterator two lines behind the first and stops when it meets the end.
-/
import ShoweqDaemon.Lib.ByteReader
import ShoweqDaemon.Map.Records
import ShoweqDaemon.Message.EQStr
import ShoweqDaemon.Spell.SpellShell

namespace ShoweqDaemon.DataFiles

open Audit
open Buffs (Spell)
open Maps (MapQt lines)
open Messages (EQStr)
open Spawns (QString)

section
variable {δ : Type} (qt : MapQt δ)

/-! ## Format strings -/

/-- `QString::toULong`, none for what is no number. -/
def toULong (s : QString) : Option UInt64 := qt.toULongLong 10 s

/-- The number in front of the first space, or all of the line, and what is behind it. -/
def formatLine (line : QString) : Int32 × QString :=
  match line.idxOf? ' ' with
  | some spc => (((toULong qt (line.take spc)).getD 0).toUInt32.toInt32, line.drop (spc + 1))
  -- `left(-1)` and `mid(0)`
  | none => (((toULong qt line).getD 0).toUInt32.toInt32, line)

/-- The loop of `EQStr::load`, with a bound: `none` if it is not enough. -/
def loadStrings (all : List QString) : ℕ → ℕ → EQStr → Noted Element (Option EQStr)
  | 0, _, _ => pure none
  | fuel + 1, it, eqStr =>
      if it = all.length then pure (some eqStr)
      else do
        let line ← element all it
        let (formatId, formatString) := formatLine qt line
        loadStrings all fuel (it + 1)
          { m_messageStrings :=
              Function.update eqStr.m_messageStrings formatId (some formatString) }

/-- `EQStr::load` of a file that can be opened. -/
def loadEQStr (content : List UInt8) (fuel : ℕ) : Noted Element (Option EQStr) := do
  let all := lines (qt.fromUtf8 content)
  -- the magic id string
  let _ ← element all 0
  -- the count is skipped
  loadStrings qt all fuel 2 { m_messageStrings := fun _ => none }

/-! ## Spells -/

/-- The classes that a spell has levels for. -/
def playerClasses : ℕ := 15

/-- A `Spell` with its id and its class levels. -/
structure SpellLine extends Spell where
  m_spell : UInt16
  m_classLevels : List UInt8

/-- A field as 16 bits, 0 for what is no number. -/
def ushort (s : QString) : UInt16 := (qt.toUShort s).getD 0

/-- The loop over the class levels, of which `left` are still to be read. -/
def classLevels (spellInfo : List QString) : ℕ → ℕ → List UInt8 → Noted Element (List UInt8)
  | 0, _, levels => pure levels
  | left + 1, i, levels => do
      let level ← element spellInfo (38 + i)
      classLevels spellInfo left (i + 1) (levels ++ [(ushort qt level).toUInt8])

/-- `Spell::Spell`: a spell from a line, of whose fields these are kept. Every field is read without
    a look at how many there are. -/
def newSpell (spells_enLine : QString) : Noted Element SpellLine := do
  let spellInfo := spells_enLine.splitOn '^'
  let spell ← element spellInfo 0
  let name ← element spellInfo 1
  let buffDurationFormula ← element spellInfo 11
  let buffDurationArgument ← element spellInfo 12
  let targetType ← element spellInfo 32
  let levels ← classLevels qt spellInfo playerClasses 0 []
  pure
    { m_spell := ushort qt spell
      m_name := name
      m_buffDurationFormula := (ushort qt buffDurationFormula).toInt16
      m_buffDurationArgument := (ushort qt buffDurationArgument).toInt16
      m_targetType := (ushort qt targetType).toUInt8
      m_classLevels := levels }

/-- The table of spells: `m_spells` has an element for every id up to `m_maxSpell`. -/
structure SpellTable where
  m_maxSpell : UInt16
  m_spells : Option (List (Option SpellLine))
  sized : ∀ spells, m_spells = some spells → spells.length = m_maxSpell.toNat + 1

/-- The loop of `unloadSpells` over the table: every element is looked at, so all must exist. -/
def unloadSpells (spells : List (Option SpellLine)) : ℕ → Noted Element Unit
  | 0 => pure ()
  | n + 1 => do
      unloadSpells spells n
      let _ ← element spells n
      pure ()

/-- The spells of the lines, and the greatest of their ids. -/
def readSpells : List QString → UInt16 → List SpellLine → Noted Element (UInt16 × List SpellLine)
  | [], maxSpell, queue => pure (maxSpell, queue)
  | line :: rest, maxSpell, queue => do
      let spell ← newSpell qt line
      readSpells rest (if maxSpell < spell.m_spell then spell.m_spell else maxSpell)
        (queue ++ [spell])

/-- From the queue into the table: a spell goes to the element of its id, and the one that was there
    is deleted. -/
def insertSpells : List SpellLine → List (Option SpellLine) →
    Noted Element (List (Option SpellLine))
  | [], table => pure table
  | spell :: rest, table => do
      let _ ← element table spell.m_spell.toNat
      let table ← setElement table spell.m_spell.toNat (some spell)
      insertSpells rest table

variable (fromUtf16 : List UInt16 → QString)

/-- The units up to a zero one, from byte `i` of `size` on. -/
def scanUnits (size : ℕ) : ℕ → List UInt8 → Noted Element (List UInt16)
  | i, lo :: hi :: rest => do
      note (Element.mk i size)
      note (Element.mk (i + 1) size)
      let unit := ByteReader.be16 hi lo
      if unit = 0 then pure []
      else do
        let units ← scanUnits size (i + 2) rest
        pure (unit :: units)
  | i, [_] => do
      note (Element.mk i size)
      note (Element.mk (i + 1) size)
      pure []
  | i, [] => do
      note (Element.mk i size)
      pure []

/-- A text in UTF-16, by the unit it begins with. -/
def isUtf16 (unicodeIndicator : UInt16) : Bool :=
  !(unicodeIndicator != 0xfffe && unicodeIndicator != 0xfeff)

/-- The text of a file, in UTF-16 when it begins with a mark of its byte order, else in UTF-8. -/
def textOf (textData content : List UInt8) (unicodeIndicator : UInt16) : Noted Element QString :=
  if isUtf16 unicodeIndicator then do
    let units ← scanUnits textData.length 0 textData
    pure (fromUtf16 units)
  else pure (qt.fromUtf8 content)

/-- The text of a file: its first two bytes say whether it is UTF-16. Two zeros are put behind what
    was read, so these exist for an empty file, too. -/
def spellsText (content : List UInt8) : Noted Element QString := do
  let textData := content ++ [0, 0]
  let lo ← element textData 0
  let hi ← element textData 1
  textOf qt fromUtf16 textData content (ByteReader.be16 hi lo)

/-- `Spells::loadSpells` of a file that can be opened. -/
def loadSpells (content : List UInt8) (table : SpellTable) :
    Noted Element (UInt16 × List (Option SpellLine)) := do
  match table.m_spells with
  | some spells => unloadSpells spells (table.m_maxSpell.toNat + 1)
  | none => pure ()
  let text ← spellsText qt fromUtf16 content
  let (maxSpell, queue) ← readSpells qt (lines text) table.m_maxSpell []
  let spells ← insertSpells queue (List.replicate (maxSpell.toNat + 1) none)
  pure (maxSpell, spells)

end

/-! ## Format strings need two lines -/

section
variable {δ : Type} (qt : MapQt δ)

theorem loadStrings_allowed (all : List QString) (fuel it : ℕ) (eqStr : EQStr)
    (hit : it ≤ all.length) : (loadStrings qt all fuel it eqStr).Allowed Element.Inside := by
  induction fuel generalizing it eqStr with
  | zero => exact Noted.allowed_pure _ _
  | succ fuel ih =>
      unfold loadStrings
      split
      · exact Noted.allowed_pure _ _
      · rename_i hne
        rw [Noted.allowed_bind, allowed_element]
        exact ⟨by omega, ih (it + 1) _ (by omega)⟩

theorem loadStrings_ends (all : List QString) (it : ℕ) (eqStr : EQStr) (left : ℕ)
    (hit : it + left = all.length) : (loadStrings qt all (left + 1) it eqStr).val.isSome := by
  induction left generalizing it eqStr with
  | zero =>
      have hend : it = all.length := hit
      simp [loadStrings, hend]
  | succ left ih =>
      have hmore : it ≠ all.length := by omega
      rw [loadStrings, if_neg hmore]
      exact ih (it + 1) _ (by omega)

theorem loadEQStr_total_iff (content : List UInt8) :
    Total (loadEQStr qt content) ↔ 2 ≤ (lines (qt.fromUtf8 content)).length := by
  unfold loadEQStr
  constructor
  · rintro ⟨-, hallowed⟩
    have hfirst := hallowed 1
    rw [Noted.allowed_bind, allowed_element] at hfirst
    obtain ⟨hpos, hloop⟩ := hfirst
    by_contra hfew
    have hmore : 2 ≠ (lines (qt.fromUtf8 content)).length := by omega
    rw [loadStrings, if_neg hmore, Noted.allowed_bind, allowed_element] at hloop
    omega
  · intro htwo
    refine ⟨⟨(lines (qt.fromUtf8 content)).length - 2 + 1, ?_⟩, fun fuel => ?_⟩
    · exact loadStrings_ends qt _ 2 _ _ (by omega)
    · rw [Noted.allowed_bind, allowed_element]
      exact ⟨by omega, loadStrings_allowed qt _ fuel 2 _ htwo⟩

/-! ## Spells need their fields -/

theorem classLevels_allowed_iff (spellInfo : List QString) (left i : ℕ) (levels : List UInt8) :
    (classLevels qt spellInfo left i levels).Allowed Element.Inside ↔
      (0 < left → 38 + i + left ≤ spellInfo.length) := by
  induction left generalizing i levels with
  | zero => simp [classLevels]
  | succ left ih =>
      rw [classLevels, Noted.allowed_bind, allowed_element, ih]
      omega

/-- The last field that is read is the last class level. -/
theorem newSpell_allowed_iff (line : QString) :
    (newSpell qt line).Allowed Element.Inside ↔
      38 + playerClasses ≤ (line.splitOn '^').length := by
  simp only [newSpell, Noted.allowed_bind, allowed_element, classLevels_allowed_iff,
    Noted.allowed_pure, and_true, playerClasses]
  omega

theorem le_greater (a b : UInt16) : a ≤ (if a < b then b else a) ∧ b ≤ if a < b then b else a := by
  split
  · rename_i h
    exact ⟨UInt16.le_of_lt h, UInt16.le_refl b⟩
  · rename_i h
    exact ⟨UInt16.le_refl a, UInt16.not_lt.mp h⟩

theorem readSpells_spec (all : List QString) (maxSpell : UInt16) (queue : List SpellLine)
    (hqueue : ∀ spell ∈ queue, spell.m_spell ≤ maxSpell) :
    ((readSpells qt all maxSpell queue).Allowed Element.Inside ↔
        ∀ line ∈ all, 38 + playerClasses ≤ (line.splitOn '^').length) ∧
      ∀ spell ∈ (readSpells qt all maxSpell queue).val.2,
        spell.m_spell ≤ (readSpells qt all maxSpell queue).val.1 := by
  induction all generalizing maxSpell queue with
  | nil => simpa [readSpells] using hqueue
  | cons line rest ih =>
      have hqueue' : ∀ spell ∈ queue ++ [(newSpell qt line).val], spell.m_spell ≤
          if maxSpell < (newSpell qt line).val.m_spell then (newSpell qt line).val.m_spell
          else maxSpell := by
        intro spell hspell
        rcases List.mem_append.mp hspell with hold | hnew
        · exact UInt16.le_trans (hqueue spell hold) (le_greater _ _).1
        · rw [List.mem_singleton.mp hnew]
          exact (le_greater _ _).2
      obtain ⟨hallowed, hmax⟩ := ih _ _ hqueue'
      refine ⟨?_, hmax⟩
      rw [readSpells, Noted.allowed_bind, newSpell_allowed_iff, hallowed, List.forall_mem_cons]

theorem insertSpells_allowed (queue : List SpellLine) (table : List (Option SpellLine))
    (h : ∀ spell ∈ queue, spell.m_spell.toNat < table.length) :
    (insertSpells queue table).Allowed Element.Inside := by
  induction queue generalizing table with
  | nil => exact Noted.allowed_pure _ _
  | cons spell rest ih =>
      have hspell := h spell List.mem_cons_self
      simp only [insertSpells, Noted.allowed_bind, allowed_element, allowed_setElement,
        val_setElement]
      refine ⟨hspell, hspell, ih _ fun spell' hmem => ?_⟩
      rw [List.length_set]
      exact h spell' (List.mem_cons_of_mem _ hmem)

theorem unloadSpells_allowed (spells : List (Option SpellLine)) (n : ℕ) (h : n ≤ spells.length) :
    (unloadSpells spells n).Allowed Element.Inside := by
  induction n with
  | zero => exact Noted.allowed_pure _ _
  | succ n ih =>
      simp only [unloadSpells, Noted.allowed_bind, allowed_element, Noted.allowed_pure]
      exact ⟨ih (by omega), h, trivial⟩

/-- A unit of the text is zero. -/
def ZeroUnit : List UInt8 → Prop
  | lo :: hi :: rest => lo = 0 ∧ hi = 0 ∨ ZeroUnit rest
  | _ => False

theorem be16_eq_zero (hi lo : UInt8) : ByteReader.be16 hi lo = 0 ↔ lo = 0 ∧ hi = 0 := by
  rw [← UInt16.toNat_inj, ByteReader.be16_toNat, ← UInt8.toNat_inj, ← UInt8.toNat_inj]
  simp
  omega

theorem scanUnits_allowed_iff (size : ℕ) : ∀ (i : ℕ) (bytes : List UInt8),
    i + bytes.length = size →
      ((scanUnits size i bytes).Allowed Element.Inside ↔ ZeroUnit bytes)
  | i, [], hsize => by
      simp only [scanUnits, Noted.allowed_bind, Noted.allowed_note, Element.Inside, ZeroUnit,
        iff_false, not_and]
      intro hlt
      exact absurd hsize (by simp; omega)
  | i, [_], hsize => by
      simp only [scanUnits, Noted.allowed_bind, Noted.allowed_note, Element.Inside, ZeroUnit,
        iff_false, not_and]
      intro _ hlt
      exact absurd hsize (by simp; omega)
  | i, lo :: hi :: rest, hsize => by
      have hrest := scanUnits_allowed_iff size (i + 2) rest (by simp at hsize; omega)
      have hin : i + 1 < size := by simp at hsize; omega
      simp only [scanUnits, Noted.allowed_bind, Noted.allowed_note, Element.Inside, ZeroUnit]
      by_cases hzero : ByteReader.be16 hi lo = 0
      · obtain ⟨rfl, rfl⟩ := (be16_eq_zero hi lo).mp hzero
        rw [if_pos hzero]
        simp only [Noted.allowed_pure, and_true, and_self, true_or, iff_true]
        exact ⟨by omega, hin⟩
      · have hunit : ¬ (lo = 0 ∧ hi = 0) := fun h => hzero ((be16_eq_zero hi lo).mpr h)
        simp only [hzero, if_false, Noted.allowed_bind, Noted.allowed_pure, hrest, hunit, false_or,
          and_true]
        constructor
        · exact fun h => h.2.2
        · exact fun h => ⟨by omega, hin, h⟩

variable (fromUtf16 : List UInt16 → QString)

/-- The first unit of a file, with zeros behind its end. -/
def firstUnit (content : List UInt8) : UInt16 :=
  ByteReader.be16 ((content ++ [0, 0]).getD 1 default) ((content ++ [0, 0]).getD 0 default)

theorem textOf_allowed_iff (textData content : List UInt8) (unicodeIndicator : UInt16) :
    (textOf qt fromUtf16 textData content unicodeIndicator).Allowed Element.Inside ↔
      (isUtf16 unicodeIndicator = true → ZeroUnit textData) := by
  have hscan := scanUnits_allowed_iff textData.length 0 textData (Nat.zero_add _)
  unfold textOf
  cases isUtf16 unicodeIndicator with
  | true => simp [hscan]
  | false => simp

theorem spellsText_allowed_iff (content : List UInt8) :
    (spellsText qt fromUtf16 content).Allowed Element.Inside ↔
      (isUtf16 (firstUnit content) = true → ZeroUnit (content ++ [0, 0])) := by
  have hlen : (content ++ [0, 0]).length = content.length + 2 := List.length_append
  unfold spellsText
  rw [Noted.allowed_bind, Noted.allowed_bind, textOf_allowed_iff, allowed_element,
    allowed_element]
  constructor
  · exact fun h => h.2.2
  · exact fun h => ⟨by omega, by omega, h⟩

/-- What a file of spells needs: in UTF-16 a zero unit among its bytes and the two zeros behind
    them, and in every line the fields up to the last class level. -/
def SpellsFit (content : List UInt8) : Prop :=
  (isUtf16 (firstUnit content) = true → ZeroUnit (content ++ [0, 0])) ∧
    ∀ line ∈ lines (spellsText qt fromUtf16 content).val,
      38 + playerClasses ≤ (line.splitOn '^').length

theorem loadSpells_allowed_iff (content : List UInt8) (table : SpellTable) :
    (loadSpells qt fromUtf16 content table).Allowed Element.Inside ↔
      SpellsFit qt fromUtf16 content := by
  have hunload (spells : List (Option SpellLine)) (h : table.m_spells = some spells) :
      (unloadSpells spells (table.m_maxSpell.toNat + 1)).Allowed Element.Inside :=
    unloadSpells_allowed spells _ (Nat.le_of_eq (table.sized spells h).symm)
  have htext := spellsText_allowed_iff qt fromUtf16 content
  obtain ⟨hread, hmax⟩ := readSpells_spec qt (lines (spellsText qt fromUtf16 content).val)
    table.m_maxSpell [] (fun _ hspell => nomatch hspell)
  have hinsert := insertSpells_allowed
    (readSpells qt (lines (spellsText qt fromUtf16 content).val) table.m_maxSpell []).val.2
    (List.replicate ((readSpells qt (lines (spellsText qt fromUtf16 content).val)
      table.m_maxSpell []).val.1.toNat + 1) none)
    (fun spell hspell => by
      rw [List.length_replicate]
      exact Nat.lt_succ_of_le (UInt16.le_iff_toNat_le.mp (hmax spell hspell)))
  unfold loadSpells SpellsFit
  cases hspells : table.m_spells with
  | none =>
      simp only [Noted.allowed_bind, Noted.allowed_pure, and_true, htext, hread]
      exact and_congr_right fun _ => and_iff_left hinsert
  | some spells =>
      simp only [Noted.allowed_bind, Noted.allowed_pure, and_true, htext, hread,
        hunload spells hspells, true_and]
      exact and_congr_right fun _ => and_iff_left hinsert

/-! ## Maps need a header -/

/-- What a native map needs: a first line, which has not three fields, and unless that has too few,
    no other line that begins with the separator. -/
def MapFits (content : List UInt8) : Prop :=
  ∃ header rest, lines (qt.fromUtf8 content) = header :: rest ∧
    ((header.splitOn ',').length < 2 ∨
      (header.splitOn ',').length ≠ 3 ∧ ∀ line ∈ rest, line.head? ≠ some ',')

/-- There is no entry type in front of a separator. -/
theorem loadRecord_separator (s : Maps.NativeState) (rest : QString) :
    ¬ (Maps.loadRecord qt s (',' :: rest)).Allowed Element.Inside := by
  have hsplit : (',' :: rest).splitOn ',' = [] :: rest.splitOn ',' := by
    unfold List.splitOn
    rw [List.splitOnP_cons_eq_if_modifyHead]
    rfl
  unfold Maps.loadRecord
  rw [hsplit, if_neg (List.cons_ne_nil _ _)]
  simp [Maps.charAt, Element.Inside]

theorem loadRecords_allowed_iff (s : Maps.NativeState) (rest : List QString)
    (hne : ∀ line ∈ rest, line ≠ []) :
    (Maps.loadRecords qt s rest).Allowed Element.Inside ↔
      ∀ line ∈ rest, line.head? ≠ some ',' := by
  induction rest generalizing s with
  | nil => simp [Maps.loadRecords]
  | cons line rest ih =>
      obtain ⟨c, cs, rfl⟩ := List.exists_cons_of_ne_nil (hne line List.mem_cons_self)
      rw [Maps.loadRecords, Noted.allowed_bind, List.forall_mem_cons,
        ih _ fun line hline => hne line (List.mem_cons_of_mem _ hline)]
      refine and_congr_left fun _ => ?_
      by_cases hc : c = ','
      · subst hc
        simp [loadRecord_separator]
      · have hallowed := (Maps.loadRecord_spec qt s hc cs).1
        simp [hallowed, hc]

theorem loadMapText_allowed_iff (fileName : QString) (content : List UInt8) (data : Maps.MapData) :
    (Maps.loadMapText qt fileName content data).Allowed Element.Inside ↔ MapFits qt content := by
  unfold Maps.loadMapText MapFits
  cases hlines : lines (qt.fromUtf8 content) with
  | nil => simp
  | cons header rest =>
      have hne := Maps.ne_nil_of_lines_eq_cons hlines
      simp only [Noted.allowed_bind, allowed_element, val_element, List.getD_cons_zero,
        List.tail_cons, List.length_cons, Nat.succ_pos, true_and, List.cons.injEq]
      have hrecords (data : Maps.MapData) :=
        loadRecords_allowed_iff qt { data := data : Maps.NativeState } rest hne
      by_cases hfew : (header.splitOn ',').length < 2
      · rw [if_pos hfew]
        refine iff_of_true (Noted.allowed_pure _ _) ⟨header, rest, ⟨rfl, rfl⟩, Or.inl hfew⟩
      · rw [if_neg hfew, Noted.allowed_bind, Noted.allowed_bind, hrecords]
        constructor
        · rintro ⟨hheader, hlines, -⟩
          refine ⟨header, rest, ⟨rfl, rfl⟩, Or.inr ⟨?_, hlines⟩⟩
          intro hthree
          simp [Maps.loadHeader, hthree] at hheader
        · rintro ⟨_, _, ⟨rfl, rfl⟩, hshort | ⟨hthree, hlines⟩⟩
          · exact absurd hshort hfew
          · have hfits : Maps.HeaderFits header := by
              unfold Maps.HeaderFits
              omega
            exact ⟨(Maps.loadHeader_spec qt hfits data).1, hlines, Noted.allowed_pure _ _⟩

theorem loadMap_allowed_iff (fileName : QString) (content : List UInt8) (isImport : Bool)
    (data : Maps.MapData) :
    (Maps.loadMap qt fileName (some content) isImport data).Allowed Element.Inside ↔
      "/.map".toList <:+: fileName ∨ MapFits qt content := by
  unfold Maps.loadMap
  by_cases hname : "/.map".toList <:+: fileName
  · rw [if_pos hname]
    exact iff_of_true (Noted.allowed_pure _ _) (Or.inl hname)
  · rw [if_neg hname, or_iff_right hname]
    exact loadMapText_allowed_iff qt fileName content _

variable (pSEQPrefs : Preferences.XMLPreferences δ)

theorem loadSOEMap_allowed (fileName : QString) (content : List UInt8) (isImport : Bool)
    (data : Maps.MapData) :
    (Maps.loadSOEMap qt pSEQPrefs fileName (some content) isImport data).Allowed
      Element.Inside := by
  unfold Maps.loadSOEMap
  split
  · exact Noted.allowed_pure _ _
  · dsimp only
    split
    · exact Noted.allowed_pure _ _
    · exact (Maps.loadSOEText_spec qt pSEQPrefs fileName content _).1

/-- Which loaders stay inside the lines, fields and texts of a file: that of native maps just when
    the file fits, that of SOE maps always, that of the format strings just when there are two
    lines, and that of the spells just when all lines fit. -/
theorem loaders_total_iff (fileName : QString) (content : List UInt8) (isImport : Bool)
    (data : Maps.MapData) (table : SpellTable) :
    ((Maps.loadMap qt fileName (some content) isImport data).Allowed Element.Inside ↔
        "/.map".toList <:+: fileName ∨ MapFits qt content) ∧
      (Maps.loadSOEMap qt pSEQPrefs fileName (some content) isImport data).Allowed
        Element.Inside ∧
      (Total (loadEQStr qt content) ↔ 2 ≤ (lines (qt.fromUtf8 content)).length) ∧
      ((loadSpells qt fromUtf16 content table).Allowed Element.Inside ↔
        SpellsFit qt fromUtf16 content) :=
  ⟨loadMap_allowed_iff qt fileName content isImport data,
    loadSOEMap_allowed qt pSEQPrefs fileName content isImport data,
    loadEQStr_total_iff qt content, loadSpells_allowed_iff qt fromUtf16 content table⟩

end

/-! ## One line of three fields -/

/-- A line with three fields. -/
def threeFields : List UInt8 := Maps.latinFile "Qeynos,qeynos,100\n"

/-- A table that nothing was loaded into. -/
def noSpells : SpellTable where
  m_maxSpell := 0
  m_spells := none
  sized := fun _ h => nomatch h

/-- No loader but that of SOE maps stays inside. -/
theorem threeFields_outside :
    ¬ (Maps.loadMap MapQt.latin "qeynos.map".toList (some threeFields) false
        Maps.MapData.construct).Allowed Element.Inside ∧
      ¬ Total (loadEQStr MapQt.latin threeFields) ∧
      ¬ (loadSpells MapQt.latin (fun _ => []) threeFields noSpells).Allowed Element.Inside := by
  refine ⟨by decide +kernel, ?_, by decide +kernel⟩
  rw [loadEQStr_total_iff]
  decide +kernel

end ShoweqDaemon.DataFiles
