/-
  `Player::player` and the arrays it goes through; `Player::fillConTable`.

  The table of colours has an element for each level below 255. Seven loops fill it, one after the
  other, over a single counter of eight bits. They end just when the level is at most 247
  (`fillConTable_total_iff`). `player_total_iff` puts that beside the copy of the spell book, 3200
  bytes off an array of 512.

  A loop that never ends is a run that no fuel is enough for; `Total` asks for a fuel that is
  enough and for all elements to exist.

  Proved:
  * `paint_ends`, `paintRed_ends`: a loop up to a bound ends, and where it leaves the counter.
  * `fillConTable_never`: above level 247 no fuel is enough.
  * `copySpellBook_outside`: the copy reads behind the array whatever the profile holds.
  * `player_total_iff`: no profile is processed within its arrays, in any state.
  * `zeroProfile_outside`: a profile of zeros, and level 248.
-/
import ShoweqDaemon.Lib.CString
import ShoweqDaemon.Lib.CounterLoop
import ShoweqDaemon.Player.Profile
import ShoweqDaemon.Prefs.Variant

namespace ShoweqDaemon.Spawns

open Audit CounterLoop CString
open Preferences (SeqColor)

/-! ## The table of colours -/

/-- The highest level that has a color. -/
def maxSpawnLevel : ℕ := 255

/-- The colors of the table, by their place. -/
def tGraySpawn : Fin 8 := 0
def tGreenSpawn : Fin 8 := 1
def tCyanSpawn : Fin 8 := 2
def tBlueSpawn : Fin 8 := 3
def tEvenSpawn : Fin 8 := 4
def tYellowSpawn : Fin 8 := 5
def tRedSpawn : Fin 8 := 6
def tUnknownSpawn : Fin 8 := 7

/-- `m_conColorBases` -/
abbrev ConColorBases := Fin 8 → SeqColor

/-- `m_conTable` -/
abbrev ConTable := Fin maxSpawnLevel → SeqColor

/-- `m_conTable[spawnLevel] = color` -/
def setCon (table : ConTable) (spawnLevel : UInt8) (color : SeqColor) : Noted Element ConTable := do
  note (Element.mk spawnLevel.toNat maxSpawnLevel)
  pure fun i => if i.val = spawnLevel.toNat then color else table i

/-- `grayRange` and `greenRange`: where the gray and the green levels end, counted from the level of
    the player. -/
def conRanges (level : ℤ) : ℤ × ℤ :=
  if level < 15 then (-6, -14)
  else if level < 17 then (-7, -5)
  else if level < 21 then (-8, -6)
  else if level < 25 then (-9, -7)
  else if level < 29 then (-10, -8)
  else if level < 33 then (-11, -9)
  else if level < 37 then (-13, -10)
  else if level < 41 then (-14, -11)
  else if level < 45 then (-16, -12)
  else if level < 49 then (-17, -13)
  else if level < 53 then (-18, -14)
  else if level < 57 then (-20, -15)
  else (-21, -16)

/-- A loop in one colour. -/
def paint (cond : UInt8 → Bool) (color : SeqColor) (s : UInt8 × ConTable) (fuel : ℕ) :
    OptionT (Noted Element) (UInt8 × ConTable) :=
  forLoop cond (fun spawnLevel table => setCon table spawnLevel color) fuel s.1 s.2

/-- The loop whose red goes down by `redStep` from level to level. -/
def paintRed (cond : UInt8 → Bool) (base : SeqColor) (redStep : UInt8)
    (s : UInt8 × UInt8 × ConTable) (fuel : ℕ) :
    OptionT (Noted Element) (UInt8 × UInt8 × ConTable) :=
  forLoop cond (fun spawnLevel (red : UInt8 × ConTable) => do
    let table ← setCon red.2 spawnLevel { r := red.1, g := base.g, b := base.b, valid := true }
    pure (red.1 - redStep, table)) fuel s.1 s.2

/-- `Player::fillConTable`: the levels from 1 on, color by color, each as far as its range goes. -/
def fillConTable (bases : ConColorBases) (level : ℤ) (table : ConTable) (fuel : ℕ) :
    OptionT (Noted Element) ConTable := do
  let grayRange := (conRanges level).1
  let greenRange := (conRanges level).2
  let s ← paint (fun c => (c.toNat : ℤ) ≤ grayRange + level) (bases tGraySpawn) (1, table) fuel
  let s ← paint (fun c => (c.toNat : ℤ) ≤ greenRange + level) (bases tGreenSpawn) s fuel
  let s ← paint (fun c => (c.toNat : ℤ) < level - 5) (bases tCyanSpawn) s fuel
  let s ← paint (fun c => (c.toNat : ℤ) < level) (bases tBlueSpawn) s fuel
  let table ← OptionT.lift (setCon s.2 s.1 (bases tEvenSpawn))
  let s ← paint (fun c => (c.toNat : ℤ) < level + 4) (bases tYellowSpawn) (s.1 + 1, table) fuel
  let red := bases tRedSpawn
  let redStep : UInt8 := if 155 < red.r then -25 else 25
  let s ← paintRed (fun c => (c.toNat : ℤ) < level + 8) red redStep
    (s.1, red.r + redStep * 4, s.2) fuel
  let s ← paint (fun c => (c.toNat : ℤ) < (maxSpawnLevel : ℤ))
    { r := s.2.1, g := red.g, b := red.b, valid := true } (s.1, s.2.2) fuel
  OptionT.lift (setCon s.2 0 (bases tUnknownSpawn))

/-! ## The arrays of the profile -/

/-- `to[a] = from[a]` for `a < n`: an array of `size` elements is read, one of `room` written. -/
def copyElements (size room : ℕ) : ℕ → Noted Element Unit
  | 0 => pure ()
  | n + 1 => do
      copyElements size room n
      note (Element.mk n size)
      note (Element.mk n room)

/-- The first `n` of an array of `size` elements are looked at. -/
def readElements (size : ℕ) : ℕ → Noted Element Unit
  | 0 => pure ()
  | n + 1 => do
      readElements size n
      note (Element.mk n size)

/-- The text in a `char` array of `size` bytes at offset `off`. -/
def ProfileBytes.readText (p : ProfileBytes) (off size : ℕ) : Noted Element (List UInt8) :=
  upToNul size 0 ((List.range (8460 - off)).map fun i => p.byteAt (off + i))

/-- `memcpy` of `sizeof(m_spellBookSlots)` bytes off `sSpellBook`, which has 512. -/
def copySpellBook : Noted Element Unit := copyElements 512 3200 3200

/-- `Player::player` with the arrays it goes through, in order. What it returns beside the table is
    as `PlayerState.player` has it. -/
def PlayerState.playerRun (fl : FloatEnv) (p : ProfileBytes) (s : PlayerState) (env : Env)
    (guildMgr : GuildMgr) (bases : ConColorBases) (table : ConTable) (fuel : ℕ) :
    OptionT (Noted Element) (PlayerState × ConTable) := do
  let _ ← OptionT.lift (p.readText 6 64)
  let _ ← OptionT.lift (p.readText 70 66)
  let player := s.player fl p env guildMgr
  let table ← fillConTable bases player.toPlayer.level.toInt table fuel
  -- the skills
  OptionT.lift (copyElements 100 100 100)
  OptionT.lift copySpellBook
  -- the buffs
  OptionT.lift (readElements 15 15)
  -- the languages
  OptionT.lift (copyElements 32 32 32)
  pure (player, table)

@[simp] theorem allowed_copyElements (size room n : ℕ) :
    (copyElements size room n).Allowed Element.Inside ↔ n ≤ size ∧ n ≤ room := by
  induction n with
  | zero => simp [copyElements]
  | succ n ih =>
      simp only [copyElements, Noted.allowed_bind, Noted.allowed_note, ih, Element.Inside]
      omega

@[simp] theorem allowed_setCon (table : ConTable) (spawnLevel : UInt8) (color : SeqColor) :
    (setCon table spawnLevel color).Allowed Element.Inside ↔ spawnLevel.toNat < 255 := by
  unfold setCon
  rw [Noted.allowed_bind, Noted.allowed_note]
  exact and_iff_left (Noted.allowed_pure _ _)

/-! ## Up to level 247 -/

theorem conRanges_le (level : ℤ) : (conRanges level).1 ≤ -6 ∧ (conRanges level).2 ≤ -5 := by
  have hite {c : Prop} [Decidable c] {a b : ℤ × ℤ} (ha : a.1 ≤ -6 ∧ a.2 ≤ -5)
      (hb : b.1 ≤ -6 ∧ b.2 ≤ -5) : (if c then a else b).1 ≤ -6 ∧ (if c then a else b).2 ≤ -5 := by
    split
    · exact ha
    · exact hb
  unfold conRanges
  repeat' refine hite (by decide) ?_
  decide

/-- A loop up to a bound leaves the counter at most there, or where it was. -/
theorem paint_ends {cond : UInt8 → Bool} {bound n : ℤ} (color : SeqColor) {s : UInt8 × ConTable}
    (hcond : ∀ c, cond c = decide ((c.toNat : ℤ) < bound)) (hbound : bound ≤ n) (hn : n ≤ 255)
    (hs : (s.1.toNat : ℤ) ≤ n) :
    Ends Element.Inside 256 (paint cond color s) fun r => (r.1.toNat : ℤ) ≤ n := by
  refine (forLoop_ends _ hcond (hbound.trans hn) (fun c table hc => ?_) s.1 s.2).mono fun r hr => ?_
  · exact (allowed_setCon table c color).mpr (by omega)
  · rw [hr]
    exact max_le hs hbound

theorem paintRed_ends {cond : UInt8 → Bool} {bound : ℤ} (base : SeqColor) (redStep : UInt8)
    {s : UInt8 × UInt8 × ConTable} (hcond : ∀ c, cond c = decide ((c.toNat : ℤ) < bound))
    (hbound : bound ≤ 255) :
    Ends Element.Inside 256 (paintRed cond base redStep s) fun r => (r.1.toNat : ℤ) ≤ 255 := by
  refine (forLoop_ends _ hcond hbound (fun c red hc => ?_) s.1 s.2).mono fun r _ => ?_
  · refine (Noted.allowed_bind _ _ _).mpr ⟨(allowed_setCon _ _ _).mpr (by omega), ?_⟩
    exact Noted.allowed_pure _ _
  · have hlt := r.1.toNat_lt
    omega

theorem le_cond (c : UInt8) (x : ℤ) :
    decide ((c.toNat : ℤ) ≤ x) = decide ((c.toNat : ℤ) < x + 1) :=
  decide_eq_decide.mpr Int.lt_add_one_iff.symm

theorem fillConTable_ends (bases : ConColorBases) {level : ℤ} (h : level ≤ 247)
    (table : ConTable) :
    Ends Element.Inside 256 (fillConTable bases level table) fun _ => True := by
  obtain ⟨hgray, hgreen⟩ := conRanges_le level
  -- up to the even level the counter stays at most 247
  have hone : ((1 : UInt8).toNat : ℤ) ≤ 247 := by decide
  refine (paint_ends (n := 247) (s := (1, table)) _ (le_cond · _) (by omega) (by omega) hone).bind
    fun s hs => ?_
  refine (paint_ends _ (le_cond · _) (by omega) (by omega) hs).bind fun s hs => ?_
  refine (paint_ends _ (fun _ => rfl) (by omega) (by omega) hs).bind fun s hs => ?_
  refine (paint_ends _ (fun _ => rfl) h (by omega) hs).bind fun s hs => ?_
  have heven : (setCon s.2 s.1 (bases tEvenSpawn)).Allowed Element.Inside :=
    (allowed_setCon _ _ _).mpr (by omega)
  refine (Ends.lift (P := fun _ => True) heven trivial).bind fun table _ => ?_
  -- from here on no loop has a bound above 255
  have hnext : ((s.1 + 1).toNat : ℤ) ≤ 255 := by
    rw [toNat_succ s.1 (by omega)]
    omega
  refine (paint_ends (n := 255) (s := (s.1 + 1, table)) _ (fun _ => rfl) (by omega) le_rfl
    hnext).bind fun s _ => ?_
  refine (paintRed_ends _ _ (fun _ => rfl) (by omega)).bind fun s hs => ?_
  refine (paint_ends (n := 255) _ (fun _ => rfl) le_rfl le_rfl hs).bind fun s _ => ?_
  exact Ends.lift ((allowed_setCon _ _ _).mpr (by decide)) trivial

/-! ## From level 248 on -/

theorem fillConTable_never (bases : ConColorBases) {level : ℤ} (h : 248 ≤ level) (table : ConTable)
    (fuel : ℕ) : (fillConTable bases level table fuel).run.val = none := by
  unfold fillConTable
  refine never_of_next _ fun s => never_of_next _ fun s => never_of_next _ fun s =>
    never_of_next _ fun s => never_of_next _ fun table => never_of_next _ fun s => ?_
  exact never_of_first _ (forLoop_never _ (fun _ => rfl) (by omega) fuel _ _)

theorem fillConTable_total_iff (bases : ConColorBases) (level : ℤ) (table : ConTable) :
    (Total fun fuel => (fillConTable bases level table fuel).run) ↔ level ≤ 247 := by
  constructor
  · intro h
    obtain ⟨fuel, hsome⟩ := h.1
    by_contra hlevel
    rw [fillConTable_never bases (by omega) table fuel] at hsome
    cases hsome
  · intro h
    exact (fillConTable_ends bases h table).total

/-! ## The profile as a whole -/

section
variable (fl : FloatEnv) (p : ProfileBytes) (s : PlayerState) (env : Env) (guildMgr : GuildMgr)
  (bases : ConColorBases) (table : ConTable)

theorem toInt_level (level : UInt8) : level.toUInt32.toInt32.toInt = (level.toNat : ℤ) := by
  have hlt := level.toNat_lt
  have hbits : level.toUInt32.toInt32.toInt = level.toUInt32.toBitVec.toInt := rfl
  rw [hbits, BitVec.toInt_eq_toNat_of_lt]
  · rfl
  · show 2 * level.toUInt32.toNat < 2 ^ 32
    rw [UInt8.toNat_toUInt32]
    omega

/-- The level that the table is filled for: the profile's, unless the player has it preset. -/
theorem player_level :
    (s.player fl p env guildMgr).toPlayer.level.toInt =
      (if s.m_useAutoDetectedSettings then p.level else s.m_defaultLevel).toNat := by
  cases hauto : s.m_useAutoDetectedSettings with
  | true =>
      have hlevel : (s.player fl p env guildMgr).toPlayer.level = p.level.toUInt32.toInt32 :=
        if_neg (by
          show ¬ (!s.m_useAutoDetectedSettings || false) = true
          rw [hauto]
          decide)
      rw [hlevel]
      exact toInt_level p.level
  | false =>
      have hlevel : (s.player fl p env guildMgr).toPlayer.level =
          s.m_defaultLevel.toUInt32.toInt32 :=
        if_pos (by
          show (!s.m_useAutoDetectedSettings || false) = true
          rw [hauto]
          rfl)
      rw [hlevel]
      exact toInt_level s.m_defaultLevel

/-- The spell book has 256 elements of two bytes; 3200 bytes are copied. -/
theorem copySpellBook_outside : ¬ copySpellBook.Allowed Element.Inside := by
  unfold copySpellBook
  rw [allowed_copyElements]
  decide

/-- A profile that is processed to its end had its spell book read behind its end. -/
theorem playerRun_outside (fuel : ℕ)
    (h : (s.playerRun fl p env guildMgr bases table fuel).run.val.isSome) :
    ¬ (s.playerRun fl p env guildMgr bases table fuel).run.Allowed Element.Inside := by
  intro hallowed
  obtain ⟨-, _, hlast⟩ := split_bind ⟨h, hallowed⟩
  obtain ⟨-, _, htable⟩ := split_bind hlast
  obtain ⟨-, _, hskills⟩ := split_bind htable
  obtain ⟨-, _, hbook⟩ := split_bind hskills
  exact copySpellBook_outside ((allowed_lift copySpellBook).mp (split_bind hbook).1)

/-- No profile is processed within its arrays: it does not get past the table of colours, or the
    spell book is read behind its end. The table by itself is filled just for levels up to 247. -/
theorem player_total_iff :
    (¬ Total fun fuel => (s.playerRun fl p env guildMgr bases table fuel).run) ∧
      ((Total fun fuel => (fillConTable bases
          (s.player fl p env guildMgr).toPlayer.level.toInt table fuel).run) ↔
        (if s.m_useAutoDetectedSettings then p.level else s.m_defaultLevel).toNat ≤ 247) := by
  constructor
  · rintro ⟨⟨fuel, hsome⟩, hallowed⟩
    exact playerRun_outside fl p s env guildMgr bases table fuel hsome (hallowed fuel)
  · rw [fillConTable_total_iff, player_level]
    omega

end

/-- A profile of zeros is read behind its spell book, and level 248 fills the table without end. -/
theorem zeroProfile_outside :
    (¬ Total fun fuel => (PlayerState.blank.playerRun ⟨fun _ => 0, fun _ _ _ => 0⟩ (fun _ => 0)
        Env.ascii (fun _ _ => []) (fun _ => {}) (fun _ => {}) fuel).run) ∧
      ¬ Total fun fuel => (fillConTable (fun _ => {}) 248 (fun _ => {}) fuel).run := by
  constructor
  · rintro ⟨⟨fuel, hsome⟩, hallowed⟩
    exact playerRun_outside _ _ _ _ _ _ _ fuel hsome (hallowed fuel)
  · rw [fillConTable_total_iff]
    decide

end ShoweqDaemon.Spawns
