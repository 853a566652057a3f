/-
  `Spells::spell` on the table that `Spells::loadSpells` makes.

  The table has an element for every id up to `m_maxSpell`, and the last line with an id fills it
  (`insertSpells_getD`). The lookup stops one short: the spell of the greatest id is never found.
  `m_maxSpell` only grows, so after a reload the table may be longer than its file needs, and then
  every line is found. `loadedSpells_iff` says that this is the only way to find them all.

  Proved:
  * `le_greatestId`, `greatestId_cases`: the greatest id is that of a line, or the one from
    before.
  * `spell_inside`, `spell_val`: a lookup stays inside the table, and what it finds.
  * `loadedSpells_iff`: for every file and every table from before.
  * `oneSpell_lost`: the spell of a file with one line is not found.
-/
import ShoweqDaemon.Daemon.DataFiles

namespace ShoweqDaemon.DataFiles

open Audit
open Maps (MapQt lines)
open Spawns (QString)

/-! ## The table -/

/-- `Spells::spell` -/
def SpellTable.spell (table : SpellTable) (spell : UInt16) : Noted Element (Option SpellLine) :=
  -- make sure the spell is within range
  if table.m_maxSpell ≤ spell then pure none
  else element (table.m_spells.getD []) spell.toNat

theorem insertSpells_length (queue : List SpellLine) (table : List (Option SpellLine)) :
    (insertSpells queue table).val.length = table.length := by
  induction queue generalizing table with
  | nil => rfl
  | cons spell rest ih =>
      simp only [insertSpells, Noted.val_bind, val_setElement]
      rw [ih, List.length_set]

/-- The last line with this id. -/
def lastLine (all : List SpellLine) (id : UInt16) : Option SpellLine :=
  (all.filter fun spell => spell.m_spell = id).getLast?

/-- The greater one of `maxSpell` and the greatest id. -/
def greatestId (maxSpell : UInt16) (all : List SpellLine) : UInt16 :=
  all.foldl (fun maxSpell spell => if maxSpell < spell.m_spell then spell.m_spell else maxSpell)
    maxSpell

section
variable {δ : Type} (qt : MapQt δ) (fromUtf16 : List UInt16 → QString)

/-- The spells of a file, line by line. -/
def spellLines (content : List UInt8) : List SpellLine :=
  (lines (spellsText qt fromUtf16 content).val).map fun line => (newSpell qt line).val

theorem readSpells_val (all : List QString) (maxSpell : UInt16) (queue : List SpellLine) :
    (readSpells qt all maxSpell queue).val =
      (greatestId maxSpell (all.map fun line => (newSpell qt line).val),
        queue ++ all.map fun line => (newSpell qt line).val) := by
  induction all generalizing maxSpell queue with
  | nil => simp [readSpells, greatestId]
  | cons line rest ih =>
      rw [readSpells, Noted.val_bind, ih, List.append_assoc]
      rfl

/-- Of the table from before only `m_maxSpell` plays a part. -/
theorem loadSpells_val (table : SpellTable) (content : List UInt8) :
    (loadSpells qt fromUtf16 content table).val =
      (greatestId table.m_maxSpell (spellLines qt fromUtf16 content),
        (insertSpells (spellLines qt fromUtf16 content) (List.replicate
          ((greatestId table.m_maxSpell (spellLines qt fromUtf16 content)).toNat + 1) none)).val) := by
  unfold loadSpells
  cases table.m_spells <;>
    simp only [Noted.val_bind, Noted.val_pure, readSpells_val, List.nil_append] <;> rfl

/-- The members after `loadSpells` of a file that can be opened. -/
def SpellTable.loaded (table : SpellTable) (content : List UInt8) : SpellTable where
  m_maxSpell := (loadSpells qt fromUtf16 content table).val.1
  m_spells := some (loadSpells qt fromUtf16 content table).val.2
  sized := by
    intro spells hspells
    cases hspells
    rw [loadSpells_val, insertSpells_length, List.length_replicate]

end

/-! ## The greatest id -/

theorem le_greatestId (maxSpell : UInt16) (all : List SpellLine) :
    maxSpell ≤ greatestId maxSpell all ∧
      ∀ spell ∈ all, spell.m_spell ≤ greatestId maxSpell all := by
  induction all generalizing maxSpell with
  | nil => exact ⟨UInt16.le_refl _, fun _ hspell => nomatch hspell⟩
  | cons spell rest ih =>
      obtain ⟨hfirst, hrest⟩ := ih (if maxSpell < spell.m_spell then spell.m_spell else maxSpell)
      obtain ⟨hmax, hspell⟩ := le_greater maxSpell spell.m_spell
      refine ⟨UInt16.le_trans hmax hfirst, ?_⟩
      rw [List.forall_mem_cons]
      exact ⟨UInt16.le_trans hspell hfirst, hrest⟩

/-- It is the one from before or that of a line. -/
theorem greatestId_cases (maxSpell : UInt16) (all : List SpellLine) :
    greatestId maxSpell all = maxSpell ∨
      ∃ spell ∈ all, spell.m_spell = greatestId maxSpell all := by
  induction all generalizing maxSpell with
  | nil => exact Or.inl rfl
  | cons spell rest ih =>
      rcases ih (if maxSpell < spell.m_spell then spell.m_spell else maxSpell) with
        hsame | ⟨spell', hmem, hid⟩
      · rw [greatestId, List.foldl_cons, ← greatestId, hsame]
        split
        · exact Or.inr ⟨spell, List.mem_cons_self, rfl⟩
        · exact Or.inl rfl
      · exact Or.inr ⟨spell', List.mem_cons_of_mem _ hmem, hid⟩

/-! ## What is loaded -/

section
variable {δ : Type} (qt : MapQt δ) (fromUtf16 : List UInt16 → QString)

/-- A line replaces what is there under its id, in the table or from a line before. -/
theorem insertSpells_getD (queue : List SpellLine) (table : List (Option SpellLine)) (id : UInt16)
    (hid : id.toNat < table.length) :
    (insertSpells queue table).val.getD id.toNat none =
      (lastLine queue id).or (table.getD id.toNat none) := by
  induction queue generalizing table with
  | nil => rfl
  | cons spell rest ih =>
      simp only [insertSpells, Noted.val_bind, val_setElement]
      rw [ih _ (by rwa [List.length_set])]
      unfold lastLine
      by_cases hspell : spell.m_spell = id
      · subst hspell
        rw [List.filter_cons_of_pos (by simp), List.getLast?_cons]
        simp only [List.getD_eq_getElem?_getD, List.getElem?_set_self hid, Option.getD_some]
        cases (rest.filter fun spell' => spell'.m_spell = spell.m_spell).getLast? <;> rfl
      · have hne : spell.m_spell.toNat ≠ id.toNat := fun h => hspell (UInt16.toNat_inj.mp h)
        rw [List.filter_cons_of_neg (by simpa using hspell)]
        simp only [List.getD_eq_getElem?_getD, List.getElem?_set_ne hne]

variable (table : SpellTable) (content : List UInt8)

theorem loaded_maxSpell : (table.loaded qt fromUtf16 content).m_maxSpell =
    greatestId table.m_maxSpell (spellLines qt fromUtf16 content) :=
  congrArg Prod.fst (loadSpells_val qt fromUtf16 table content)

theorem loaded_getD {id : UInt16} (hid : id ≤ (table.loaded qt fromUtf16 content).m_maxSpell) :
    ((table.loaded qt fromUtf16 content).m_spells.getD []).getD id.toNat none =
      lastLine (spellLines qt fromUtf16 content) id := by
  rw [loaded_maxSpell, UInt16.le_iff_toNat_le] at hid
  show (loadSpells qt fromUtf16 content table).val.2.getD id.toNat none = _
  have hempty (n : ℕ) : (List.replicate n (none : Option SpellLine)).getD id.toNat none = none := by
    rw [List.getD_eq_getElem?_getD, List.getElem?_replicate]
    split <;> rfl
  rw [loadSpells_val, insertSpells_getD _ _ _ (by rw [List.length_replicate]; omega), hempty,
    Option.or_none]

/-! ## Lookups -/

theorem spell_inside (id : UInt16) :
    ((table.loaded qt fromUtf16 content).spell id).Allowed Element.Inside := by
  unfold SpellTable.spell
  split
  · exact Noted.allowed_pure _ _
  · rename_i hlt
    have hsized := (table.loaded qt fromUtf16 content).sized _ rfl
    have hid := UInt16.lt_iff_toNat_lt.mp (UInt16.not_le.mp hlt)
    rw [allowed_element]
    show id.toNat < (loadSpells qt fromUtf16 content table).val.2.length
    omega

/-- The greatest id is taken for one behind the table. -/
theorem spell_val (id : UInt16) :
    ((table.loaded qt fromUtf16 content).spell id).val =
      if id < (table.loaded qt fromUtf16 content).m_maxSpell then
        lastLine (spellLines qt fromUtf16 content) id
      else none := by
  unfold SpellTable.spell
  by_cases hid : id < (table.loaded qt fromUtf16 content).m_maxSpell
  · rw [if_neg (UInt16.not_le.mpr hid), if_pos hid]
    exact loaded_getD qt fromUtf16 table content (UInt16.le_of_lt hid)
  · rw [if_pos (UInt16.not_lt.mp hid), if_neg hid]
    rfl

end

theorem lastLine_mem {all : List SpellLine} {id : UInt16} {spell : SpellLine}
    (h : lastLine all id = some spell) : spell ∈ all :=
  (List.mem_filter.mp (List.mem_of_getLast? h)).1

theorem lastLine_eq_none_iff {all : List SpellLine} {id : UInt16} :
    lastLine all id = none ↔ ∀ spell ∈ all, spell.m_spell ≠ id := by
  unfold lastLine
  rw [List.getLast?_eq_none_iff, List.filter_eq_nil_iff]
  simp

section
variable {δ : Type} (qt : MapQt δ) (fromUtf16 : List UInt16 → QString)

/-- Lookups stay inside the table and find lines of its file only. They find the last line of every
    id just when no line has an id as great as the greatest of the files loaded before. -/
theorem loadedSpells_iff (table : SpellTable) (content : List UInt8) :
    (SpellsFit qt fromUtf16 content →
        (loadSpells qt fromUtf16 content table).Allowed Element.Inside) ∧
      (∀ id, ((table.loaded qt fromUtf16 content).spell id).Allowed Element.Inside) ∧
      (∀ id spell, ((table.loaded qt fromUtf16 content).spell id).val = some spell →
        spell ∈ spellLines qt fromUtf16 content) ∧
      ((∀ id, ((table.loaded qt fromUtf16 content).spell id).val =
          lastLine (spellLines qt fromUtf16 content) id) ↔
        ∀ spell ∈ spellLines qt fromUtf16 content, spell.m_spell < table.m_maxSpell) := by
  refine ⟨(loadSpells_allowed_iff qt fromUtf16 content table).mpr,
    spell_inside qt fromUtf16 table content, ?_, ?_⟩
  · intro id spell hspell
    rw [spell_val] at hspell
    split at hspell
    · exact lastLine_mem hspell
    · nomatch hspell
  · have hval := spell_val qt fromUtf16 table content
    rw [loaded_maxSpell] at hval
    obtain ⟨hold, hle⟩ := le_greatestId table.m_maxSpell (spellLines qt fromUtf16 content)
    constructor
    · intro hall
      -- the greatest id is never found, so it is that of no line
      have hnone := hall (greatestId table.m_maxSpell (spellLines qt fromUtf16 content))
      rw [hval, if_neg (UInt16.lt_irrefl _)] at hnone
      have hfree := lastLine_eq_none_iff.mp hnone.symm
      rcases greatestId_cases table.m_maxSpell (spellLines qt fromUtf16 content) with
        hsame | ⟨spell, hmem, hid⟩
      · rw [hsame] at hfree hle
        exact fun spell hmem => UInt16.lt_of_le_of_ne (hle spell hmem) (hfree spell hmem)
      · exact absurd hid (hfree spell hmem)
    · intro hbelow id
      rw [hval]
      by_cases hid : id < greatestId table.m_maxSpell (spellLines qt fromUtf16 content)
      · rw [if_pos hid]
      · rw [if_neg hid]
        refine (lastLine_eq_none_iff.mpr fun spell hmem hspell => hid ?_).symm
        rw [← hspell]
        exact UInt16.lt_of_lt_of_le (hbelow spell hmem) hold

end

/-! ## One spell -/

/-- A file of one line, with id 3. -/
def oneSpell : List UInt8 := Maps.latinFile ("3^Ice^^^^^^^^^^3^10^^^^^^^^^^^^^^^^^^^^5^^^^^^" ++
  "1^2^3^4^5^6^7^8^9^10^11^12^13^14^15\n")

/-- Its spell is not found. -/
theorem oneSpell_lost :
    (loadSpells MapQt.latin (fun _ => []) oneSpell noSpells).Allowed Element.Inside ∧
      ¬ ∀ id, ((noSpells.loaded MapQt.latin (fun _ => []) oneSpell).spell id).val =
        lastLine (spellLines MapQt.latin (fun _ => []) oneSpell) id := by
  refine ⟨by decide +kernel, fun h => ?_⟩
  have hthree := congrArg Option.isSome (h 3)
  revert hthree
  decide +kernel

end ShoweqDaemon.DataFiles
