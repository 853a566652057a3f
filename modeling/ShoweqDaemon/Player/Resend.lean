/-
  What a profile determines of the player, and what is left of the state before it.

  Every field that a profile carries is overwritten, the seven attributes apart: these are added
  to what is there, in eight bits, so that the same profile twice gives other attributes and
  another maximum of mana. The spell book is copied as 32-bit slots from 16-bit ones, so that
  slot `i` holds entries `2 * i` and `2 * i + 1`.

  `profile_determines_iff` is the exact condition on the two states and on the spell book.
-/
import ShoweqDaemon.Lib.Bits
import ShoweqDaemon.Player.Profile

namespace ShoweqDaemon.Spawns

open Bits

/-! ## What is compared -/

/-- The attributes of a profile: STR, STA, CHA, DEX, INT, AGI, WIS. -/
def ProfileBytes.stats (p : ProfileBytes) : List Int16 :=
  [p.STR, p.STA, p.CHA, p.DEX, p.INT, p.AGI, p.WIS]

/-- The attributes of the player, in the same order. -/
def PlayerState.maxima (s : PlayerState) : List UInt8 :=
  [s.getMaxSTR, s.getMaxSTA, s.getMaxCHA, s.getMaxDEX, s.getMaxINT, s.getMaxAGI, s.getMaxWIS]

/-- What a profile carries, as the player holds it. -/
structure Carried where
  attributes : List UInt8
  mana : UInt16
  maxMana : UInt16
  currentExp : UInt32
  minExp : UInt32
  maxExp : UInt32
  tickExp : UInt32
  currentAltExp : UInt32
  currentAApts : UInt16
  currentAAUnspent : UInt32
  skills : Fin 100 → UInt32
  languages : Fin 32 → UInt8
  spellBook : Fin 800 → UInt32
  level : Int32
  race : UInt16
  class_ : UInt8
  deity : UInt16
  position : Int16 × Int16 × Int16
  heading : Int8
  headingDegrees : Int16

/-- What a second profile does not set anew. -/
def PlayerState.carried (s : PlayerState) : Carried where
  attributes := s.maxima
  mana := s.m_mana
  maxMana := s.m_maxMana
  currentExp := s.m_currentExp
  minExp := s.m_minExp
  maxExp := s.m_maxExp
  tickExp := s.m_tickExp
  currentAltExp := s.m_currentAltExp
  currentAApts := s.m_currentAApts
  currentAAUnspent := s.m_currentAAUnspent
  skills := s.m_playerSkills
  languages := s.m_playerLanguages
  spellBook := s.getSpellBookSlot
  level := s.m_level
  race := s.m_race
  class_ := s.m_class
  deity := s.m_deity
  position := (s.m_x, s.m_y, s.m_z)
  heading := s.m_heading
  headingDegrees := s.m_headingDegrees

/-- The player holds the profile's values. -/
structure Faithful (fl : FloatEnv) (p : ProfileBytes) (s : PlayerState) : Prop where
  attributes : s.maxima.map (fun m => (m.toNat : Int)) = p.stats.map Int16.toInt
  spellBook : ∀ i : Fin 256,
    s.getSpellBookSlot (i.castLE (by decide)) = (p.sSpellBook i).toInt32.toUInt32
  mana : s.m_mana = p.MANA.toUInt16
  exp : s.m_currentExp = p.exp
  altExp : s.m_currentAltExp = p.expAA
  aaUnspent : s.m_currentAAUnspent = p.aapoints.toUInt32
  skills : ∀ a, s.m_playerSkills a = (p.skills a).toInt32.toUInt32
  languages : ∀ a, s.m_playerLanguages a = p.languages a
  level : s.m_level = p.level.toUInt32.toInt32
  race : s.m_race = p.race
  class_ : s.m_class = p.class_.toUInt8
  deity : s.m_deity = p.deity
  position : (s.m_x, s.m_y, s.m_z) =
    (.ofInt (fl.lrintf p.x), .ofInt (fl.lrintf p.y), .ofInt (fl.lrintf p.z))

/-- A level and attributes as the game has them. -/
structure InRange (p : ProfileBytes) : Prop where
  level : p.level < 248
  stats : ∀ v ∈ p.stats, 0 ≤ v.toInt ∧ v.toInt ≤ 255

instance (p : ProfileBytes) : Decidable (InRange p) :=
  decidable_of_iff (p.level < 248 ∧ p.stats.all (fun v => 0 ≤ v.toInt ∧ v.toInt ≤ 255) = true)
    (by
      rw [List.all_eq_true]
      exact ⟨fun h => ⟨h.1, fun v hv => of_decide_eq_true (h.2 v hv)⟩,
        fun h => ⟨h.level, fun v hv => decide_eq_true (h.stats v hv)⟩⟩)

/-- Nothing was added up yet, as after `clear`. -/
def Unaccumulated (s : PlayerState) : Prop := ∀ m ∈ s.maxima, m = 0

instance (s : PlayerState) : Decidable (Unaccumulated s) :=
  decidable_of_iff (s.maxima.all (fun m => m = 0) = true) (by
    rw [List.all_eq_true]
    exact ⟨fun h m hm => of_decide_eq_true (h m hm), fun h m hm => decide_eq_true (h m hm)⟩)

/-- No spell book but its first entry: the entries behind it, and the bytes behind the spell
    book, hold copies of its sign. -/
def BookIsSign (p : ProfileBytes) : Prop :=
  (∀ i : Fin 256, i ≠ 0 → p.sSpellBook i = if p.sSpellBook 0 < 0 then -1 else 0) ∧
    ∀ i : Fin 512, p.unknown2358 i = if p.sSpellBook 0 < 0 then 0xff else 0

/-! ## Attributes -/

theorem toInt_eq_toNat {v : Int16} (h : 0 ≤ v.toInt) : (v.toUInt16.toNat : Int) = v.toInt := by
  have hcond := BitVec.toInt_eq_toNat_cond v.toBitVec
  have hv : v.toInt = v.toBitVec.toInt := rfl
  have hn : v.toUInt16.toNat = v.toBitVec.toNat := rfl
  have hlt := v.toBitVec.isLt
  rw [hv] at h ⊢
  rw [hn]
  split at hcond <;> omega

theorem added_eq_iff (m : UInt8) {v : Int16} (h : 0 ≤ v.toInt ∧ v.toInt ≤ 255) :
    ((m + v.toUInt16.toUInt8).toNat : Int) = v.toInt ↔ m = 0 := by
  have hnat := toInt_eq_toNat h.1
  have hm := m.toNat_lt
  rw [← UInt8.toNat_inj, UInt8.toNat_add, UInt16.toNat_toUInt8, ← hnat]
  have hle : v.toUInt16.toNat ≤ 255 := by omega
  show (((m.toNat + v.toUInt16.toNat % 256) % 256 : Nat) : Int) = _ ↔ m.toNat = 0
  omega

/-- The sums are the values exactly when nothing was there before. -/
theorem sums_eq_iff (ms : List UInt8) (vs : List Int16) (hlen : ms.length = vs.length)
    (h : ∀ v ∈ vs, 0 ≤ v.toInt ∧ v.toInt ≤ 255) :
    (List.zipWith (fun m v => m + v.toUInt16.toUInt8) ms vs).map (fun m => (m.toNat : Int)) =
      vs.map Int16.toInt ↔ ∀ m ∈ ms, m = 0 := by
  induction ms generalizing vs with
  | nil =>
      have hnil : vs = [] := List.eq_nil_of_length_eq_zero hlen.symm
      simp [hnil]
  | cons m ms ih =>
      cases vs with
      | nil => cases hlen
      | cons v vs =>
          have htail := ih vs (Nat.succ.inj hlen) fun v' hv' => h v' (List.mem_cons_of_mem _ hv')
          rw [List.zipWith_cons_cons, List.map_cons, List.map_cons, List.cons.injEq,
            added_eq_iff m (h v List.mem_cons_self), htail, List.forall_mem_cons]

/-! ## The spell book -/

/-- The 16-bit words from the beginning of the spell book on. -/
def ProfileBytes.bookWord (p : ProfileBytes) (j : Nat) : UInt16 := p.u16 (1846 + 2 * j)

/-- A slot is a pair of words. -/
theorem slot_eq_pair (p : ProfileBytes) (i : Nat) :
    p.u32 (1846 + 4 * i) =
      (p.bookWord (2 * i + 1)).toUInt32 <<< 16 ||| (p.bookWord (2 * i)).toUInt32 := by
  have hhi : 1846 + 4 * i + 2 = 1846 + 2 * (2 * i + 1) := by omega
  have hlo : 1846 + 4 * i = 1846 + 2 * (2 * i) := by omega
  unfold ProfileBytes.u32 ProfileBytes.bookWord
  rw [hhi, hlo]

/-- Words that repeat at twice their index, a sign between each two, are copies of one sign. -/
theorem doubled_iff (w : Nat → UInt16) :
    (∀ i < 256, w (2 * i + 1) = signFill (w i) ∧ w (2 * i) = w i) ↔
      ∀ j, 1 ≤ j → j < 512 → w j = signFill (w 0) := by
  constructor
  · intro h j
    induction j using Nat.strongRecOn with
    | ind j ih =>
        intro hpos hlt
        have hhalf := h (j / 2) (by omega)
        by_cases hone : j / 2 = 0
        · have hj : j = 2 * 0 + 1 := by omega
          rw [hone] at hhalf
          rw [hj]
          exact hhalf.1
        · have hprev := ih (j / 2) (by omega) (by omega) (by omega)
          obtain hj | hj : j = 2 * (j / 2) ∨ j = 2 * (j / 2) + 1 := by omega
          · rw [hj, hhalf.2]
            exact hprev
          · rw [hj, hhalf.1, hprev, signFill_signFill]
  · intro h i hi
    by_cases hzero : i = 0
    · rw [hzero]
      exact ⟨h 1 (by omega) (by omega), rfl⟩
    · have hi' := h i (by omega) (by omega)
      rw [hi', signFill_signFill]
      exact ⟨h (2 * i + 1) (by omega) (by omega), h (2 * i) (by omega) (by omega)⟩

theorem be16_inj {hi lo hi' lo' : UInt8} :
    ByteReader.be16 hi lo = ByteReader.be16 hi' lo' ↔ hi = hi' ∧ lo = lo' := by
  rw [← UInt16.toNat_inj, ByteReader.be16_toNat, ByteReader.be16_toNat, ← UInt8.toNat_inj,
    ← UInt8.toNat_inj]
  have hlo := lo.toNat_lt
  have hlo' := lo'.toNat_lt
  omega

theorem toInt16_neg_iff (x : UInt16) : x.toInt16 < 0 ↔ ¬ x.toNat < 32768 := by
  have hcond := BitVec.toInt_eq_toNat_cond x.toBitVec
  have hlt := x.toNat_lt
  rw [Int16.lt_iff_toInt_lt, Int16.toInt_zero]
  show x.toBitVec.toInt < 0 ↔ _
  rw [UInt16.toNat_toBitVec] at hcond
  split at hcond <;> omega

/-- The condition on the spell book, in words. -/
theorem bookIsSign_iff (p : ProfileBytes) :
    BookIsSign p ↔ ∀ j, 1 ≤ j → j < 512 → p.bookWord j = signFill (p.bookWord 0) := by
  have hneg : p.sSpellBook 0 < 0 ↔ ¬ (p.bookWord 0).toNat < 32768 := toInt16_neg_iff _
  -- one byte fills every place
  obtain ⟨c, hbyte, hword, hint⟩ : ∃ c : UInt8,
      (if p.sSpellBook 0 < 0 then (0xff : UInt8) else 0) = c ∧
      signFill (p.bookWord 0) = ByteReader.be16 c c ∧
      (if p.sSpellBook 0 < 0 then (-1 : Int16) else 0) = (ByteReader.be16 c c).toInt16 := by
    unfold signFill
    by_cases h : p.sSpellBook 0 < 0
    · exact ⟨0xff, by rw [if_pos h], by rw [if_neg (hneg.mp h)]; rfl, by rw [if_pos h]; rfl⟩
    · have hpos : (p.bookWord 0).toNat < 32768 := not_not.mp (mt hneg.mpr h)
      exact ⟨0, by rw [if_neg h], by rw [if_pos hpos]; rfl, by rw [if_neg h]; rfl⟩
  have hbehind (k : Nat) : p.bookWord (256 + k) =
      ByteReader.be16 (p.byteAt (2358 + (2 * k + 1))) (p.byteAt (2358 + 2 * k)) := by
    have h1 : 1846 + 2 * (256 + k) + 1 = 2358 + (2 * k + 1) := by omega
    have h2 : 1846 + 2 * (256 + k) = 2358 + 2 * k := by omega
    unfold ProfileBytes.bookWord ProfileBytes.u16
    rw [h1, h2]
  unfold BookIsSign
  rw [hbyte, hword, hint]
  constructor
  · rintro ⟨hbook, hrest⟩ j hpos hlt
    by_cases hj : j < 256
    · have hentry := hbook ⟨j, hj⟩ (fun h0 => by have := congrArg Fin.val h0; simp at this; omega)
      exact congrArg Int16.toUInt16 hentry
    · obtain ⟨k, rfl⟩ : ∃ k, j = 256 + k := ⟨j - 256, by omega⟩
      rw [hbehind, be16_inj]
      exact ⟨hrest ⟨2 * k + 1, by omega⟩, hrest ⟨2 * k, by omega⟩⟩
  · intro h
    constructor
    · intro i hi
      have hpos : 1 ≤ i.val := Nat.one_le_iff_ne_zero.mpr fun h0 => hi (Fin.ext h0)
      exact congrArg UInt16.toInt16 (h i hpos (by omega))
    · intro i
      have hpair := h (256 + i / 2) (by omega) (by omega)
      rw [hbehind, be16_inj] at hpair
      obtain hi | hi : i.val = 2 * (i / 2) ∨ i.val = 2 * (i / 2) + 1 := by omega
      · show p.byteAt (2358 + i) = c
        rw [hi]
        exact hpair.2
      · show p.byteAt (2358 + i) = c
        rw [hi]
        exact hpair.1

/-- The slots are the entries exactly when the spell book is nothing but a sign. -/
theorem slots_eq_iff (p : ProfileBytes) :
    (∀ i : Fin 256, p.u32 (1846 + 4 * i) = (p.sSpellBook i).toInt32.toUInt32) ↔ BookIsSign p := by
  rw [bookIsSign_iff, ← doubled_iff]
  have hslot (i : Nat) : p.u32 (1846 + 4 * i) = (p.bookWord i).toInt16.toInt32.toUInt32 ↔
      p.bookWord (2 * i + 1) = signFill (p.bookWord i) ∧ p.bookWord (2 * i) = p.bookWord i := by
    rw [slot_eq_pair, signExtend_pair, pair_inj]
  constructor
  · intro h i hi
    exact (hslot i).mp (h ⟨i, hi⟩)
  · intro h i
    exact (hslot i).mpr (h i i.isLt)

/-! ## One profile -/

section
variable (fl : FloatEnv) (env : Env) (guildMgr : GuildMgr) (p : ProfileBytes)

theorem maxima_player (s : PlayerState) :
    (s.player fl p env guildMgr).maxima =
      List.zipWith (fun m v => m + v.toUInt16.toUInt8) s.maxima p.stats := rfl

theorem faithful_player_iff (hrange : InRange p) (s : PlayerState) :
    Faithful fl p (s.player fl p env guildMgr) ↔ Unaccumulated s ∧ BookIsSign p := by
  have hstats := sums_eq_iff s.maxima p.stats rfl hrange.stats
  rw [← maxima_player fl env guildMgr p s] at hstats
  constructor
  · intro h
    exact ⟨hstats.mp h.attributes, (slots_eq_iff p).mp h.spellBook⟩
  · rintro ⟨hfresh, hbook⟩
    exact { attributes := hstats.mpr hfresh, spellBook := (slots_eq_iff p).mpr hbook, mana := rfl,
            exp := rfl, altExp := rfl, aaUnspent := rfl, skills := fun _ => rfl,
            languages := fun _ => rfl, level := rfl, race := rfl, class_ := rfl, deity := rfl,
            position := rfl }

/-- Apart from the attributes and the bonus to mana, nothing of the state before is left. -/
theorem carried_player_congr {s s' : PlayerState} (hplus : s.m_plusMana = s'.m_plusMana)
    (hmaxima : s.maxima = s'.maxima) :
    (s.player fl p env guildMgr).carried = (s'.player fl p env guildMgr).carried := by
  simp only [PlayerState.maxima, PlayerState.getMaxSTR, PlayerState.getMaxSTA,
    PlayerState.getMaxCHA, PlayerState.getMaxDEX, PlayerState.getMaxINT, PlayerState.getMaxAGI,
    PlayerState.getMaxWIS, List.cons.injEq, and_true] at hmaxima
  obtain ⟨hSTR, hSTA, hCHA, hDEX, hINT, hAGI, hWIS⟩ := hmaxima
  simp only [PlayerState.carried, PlayerState.player, PlayerState.loadProfile,
    PlayerState.accumulate, PlayerState.maxima, PlayerState.getMaxSTR, PlayerState.getMaxSTA,
    PlayerState.getMaxCHA, PlayerState.getMaxDEX, PlayerState.getMaxINT, PlayerState.getMaxAGI,
    PlayerState.getMaxWIS, hplus, hSTR, hSTA, hCHA, hDEX, hINT, hAGI, hWIS]
  rfl

/-- Added once more, the attributes stay when there is nothing to add. -/
theorem added_twice_iff (ms : List UInt8) (vs : List Int16) (hlen : ms.length = vs.length)
    (h : ∀ v ∈ vs, 0 ≤ v.toInt ∧ v.toInt ≤ 255) :
    List.zipWith (fun m v => m + v.toUInt16.toUInt8) ms vs = ms ↔ ∀ v ∈ vs, v = 0 := by
  induction ms generalizing vs with
  | nil =>
      have hnil : vs = [] := List.eq_nil_of_length_eq_zero hlen.symm
      simp [hnil]
  | cons m ms ih =>
      cases vs with
      | nil => cases hlen
      | cons v vs =>
          have htail := ih vs (Nat.succ.inj hlen) fun v' hv' => h v' (List.mem_cons_of_mem _ hv')
          have hv := h v List.mem_cons_self
          have hnat := toInt_eq_toNat hv.1
          have hm := m.toNat_lt
          have hhead : m + v.toUInt16.toUInt8 = m ↔ v = 0 := by
            rw [← UInt8.toNat_inj, UInt8.toNat_add, UInt16.toNat_toUInt8, ← Int16.toInt_inj,
              ← hnat]
            show (m.toNat + v.toUInt16.toNat % 256) % 256 = m.toNat ↔ (v.toUInt16.toNat : Int) = 0
            omega
          rw [List.zipWith_cons_cons, List.cons.injEq, hhead, htail, List.forall_mem_cons]

/-- A zone change leaves nothing to add to. -/
theorem zoneChanged_unaccumulated (s : PlayerState) : Unaccumulated (s.zoneChanged fl) := by
  intro m hm
  simpa [PlayerState.maxima, PlayerState.zoneChanged, PlayerState.getMaxSTR, PlayerState.getMaxSTA,
    PlayerState.getMaxCHA, PlayerState.getMaxDEX, PlayerState.getMaxINT, PlayerState.getMaxAGI,
    PlayerState.getMaxWIS] using hm

/-- Two states end up the same and true to the profile. -/
def Determined (s s' : PlayerState) : Prop :=
  (s.player fl p env guildMgr).carried = (s'.player fl p env guildMgr).carried ∧
    Faithful fl p (s.player fl p env guildMgr) ∧ Faithful fl p (s'.player fl p env guildMgr)

/-- A profile determines what it carries exactly when neither state has attributes to add to and
    the spell book is nothing but a sign. Its second copy changes nothing exactly when all
    attributes it carries are zero. -/
theorem profile_determines_iff (hrange : InRange p) (s s' : PlayerState)
    (hplus : s.m_plusMana = s'.m_plusMana) :
    (Determined fl env guildMgr p s s' ↔
      Unaccumulated s ∧ Unaccumulated s' ∧ BookIsSign p) ∧
    (((s.player fl p env guildMgr).player fl p env guildMgr).carried =
      (s.player fl p env guildMgr).carried ↔ ∀ v ∈ p.stats, v = 0) := by
  constructor
  · unfold Determined
    rw [faithful_player_iff fl env guildMgr p hrange, faithful_player_iff fl env guildMgr p hrange]
    constructor
    · rintro ⟨-, ⟨hs, hbook⟩, hs', -⟩
      exact ⟨hs, hs', hbook⟩
    · rintro ⟨hs, hs', hbook⟩
      refine ⟨carried_player_congr fl env guildMgr p hplus ?_, ⟨hs, hbook⟩, hs', hbook⟩
      have hzero : ∀ t : PlayerState, Unaccumulated t → t.maxima = List.replicate 7 0 :=
        fun t ht => List.eq_replicate_iff.mpr ⟨rfl, ht⟩
      rw [hzero s hs, hzero s' hs']
  · have htwice := added_twice_iff (s.player fl p env guildMgr).maxima p.stats rfl hrange.stats
    rw [← maxima_player fl env guildMgr p (s.player fl p env guildMgr)] at htwice
    constructor
    · intro h
      exact htwice.mp (congrArg Carried.attributes h)
    · intro h
      refine carried_player_congr fl env guildMgr p rfl ?_
      have hsame := (added_twice_iff s.maxima p.stats rfl hrange.stats).mpr h
      rw [maxima_player, hsame]

end

/-- Two blank states and a human warrior with strength 75 and no spell book. -/
theorem profile_determines_blank :
    let p : ProfileBytes := fun i =>
      if i.val = 142 ∨ i.val = 144 ∨ i.val = 148 then 1 else if i.val = 164 then 75 else 0
    let fl : FloatEnv :=
      { lrintf := fun _ => 0, calc_exp := fun level _ _ => if level = 0 then 0 else 900 }
    Determined fl .ascii (fun _ _ => []) p .blank .blank := by
  intro p fl
  have hrange : InRange p := by decide +kernel
  have hbook : BookIsSign p := ⟨by decide +kernel, by decide +kernel⟩
  have hblank : Unaccumulated .blank := by decide
  exact (profile_determines_iff fl .ascii (fun _ _ => []) p hrange .blank .blank rfl).1.mpr
    ⟨hblank, hblank, hbook⟩

/-- The same warrior with entries 5 and 7 in the spell book: the second copy of the profile makes
    the strength 150, and slot 0 holds both entries. -/
theorem resend_doubles_strength :
    let p : ProfileBytes := fun i =>
      if i.val = 142 ∨ i.val = 144 ∨ i.val = 148 then 1 else if i.val = 164 then 75
      else if i.val = 1846 then 5 else if i.val = 1848 then 7 else 0
    let fl : FloatEnv :=
      { lrintf := fun _ => 0, calc_exp := fun level _ _ => if level = 0 then 0 else 900 }
    let once := PlayerState.blank.player fl p .ascii (fun _ _ => [])
    InRange p ∧ PlayerState.blank.m_plusMana = once.m_plusMana ∧
      once.getMaxSTR = 75 ∧ (once.player fl p .ascii (fun _ _ => [])).getMaxSTR = 150 ∧
      p.sSpellBook 0 = 5 ∧ once.getSpellBookSlot 0 = 0x70005 ∧
      ¬ Determined fl .ascii (fun _ _ => []) p .blank once := by
  intro p fl once
  have hstr : (once.player fl p .ascii (fun _ _ => [])).getMaxSTR = 150 := by decide +kernel
  have hstat : p.STR = 75 := by decide +kernel
  refine ⟨by decide +kernel, rfl, by decide +kernel, hstr, by decide +kernel, by decide +kernel,
    ?_⟩
  rintro ⟨-, -, hfaithful⟩
  have hhead := congrArg List.head? hfaithful.attributes
  simp [PlayerState.maxima, ProfileBytes.stats, hstr, hstat] at hhead

end ShoweqDaemon.Spawns
