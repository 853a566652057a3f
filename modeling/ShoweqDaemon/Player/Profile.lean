/-
  `Player::player` and `Player::loadProfile` on the bytes of a profile.

  `PlayerState` is the player with what only a profile and its like set: attributes, mana,
  experience, skills, languages, the spell book. Its spell book is copied as one block of 3200
  bytes from where the profile's 256 shorts begin.

  `lrintf` of the raw bits of a float and the experience table, which is computed in floats,
  are parameters. `player_toPlayer`: on the fields of `Spawn` this is `Player.player`.
-/
import ShoweqDaemon.Lib.ByteReader
import ShoweqDaemon.Spawn.Item

namespace ShoweqDaemon.Spawns

/-! ## The profile -/

/-- The bytes of a `charProfileStruct`, which is packed. -/
abbrev ProfileBytes := Fin 8460 → UInt8

namespace ProfileBytes

variable (p : ProfileBytes)

/-- The byte at an offset; a read behind the end gives 0. -/
def byteAt (off : Nat) : UInt8 := if h : off < 8460 then p ⟨off, h⟩ else 0

/-- Two bytes, the low one first. -/
def u16 (off : Nat) : UInt16 := ByteReader.be16 (p.byteAt (off + 1)) (p.byteAt off)

/-- Four bytes, the low one first. -/
def u32 (off : Nat) : UInt32 := (p.u16 (off + 2)).toUInt32 <<< 16 ||| (p.u16 off).toUInt32

/-- A text of at most `n` bytes. -/
def text (off n : Nat) : List UInt8 :=
  ((List.range n).map fun i => p.byteAt (off + i)).takeWhile (· ≠ 0)

/-- The fields at their offsets in the packed struct, under the names that everquest.h gives them.
    -/
def name : List UInt8 := p.text 6 64
def lastName : List UInt8 := p.text 70 66
def race : UInt16 := p.u16 142
def class_ : UInt16 := p.u16 144
def level : UInt8 := p.byteAt 148
def exp : UInt32 := p.u32 152
def MANA : Int16 := (p.u16 158).toInt16
def curHp : Int16 := (p.u16 160).toInt16
def STR : Int16 := (p.u16 164).toInt16
def STA : Int16 := (p.u16 166).toInt16
def CHA : Int16 := (p.u16 168).toInt16
def DEX : Int16 := (p.u16 170).toInt16
def INT : Int16 := (p.u16 172).toInt16
def AGI : Int16 := (p.u16 174).toInt16
def WIS : Int16 := (p.u16 176).toInt16
def languages (i : Fin 32) : UInt8 := p.byteAt (284 + i)
def sSpellBook (i : Fin 256) : Int16 := (p.u16 (1846 + 2 * i)).toInt16
def unknown2358 (i : Fin 512) : UInt8 := p.byteAt (2358 + i)
/-- The raw bits of a float. -/
def y : UInt32 := p.u32 2904
def x : UInt32 := p.u32 2908
def z : UInt32 := p.u32 2912
def heading : UInt32 := p.u32 2916
def skills (i : Fin 100) : Int16 := (p.u16 (2988 + 2 * i)).toInt16
def zoneId : UInt32 := p.u32 3444
def deity : UInt16 := p.u16 4944
def guildID : UInt16 := p.u16 4946
def expAA : UInt32 := p.u32 5420
def aapoints : UInt16 := p.u16 5902

/-- The profile as the spawn sees it: the fields that `Player::player` copies to the members of
    `Spawn`, the position cut by `lrintf`. -/
def toStruct (lrintf : UInt32 → Int) : CharProfileStruct where
  zoneId := p.zoneId
  name := p.name
  lastName := p.lastName
  race := p.race
  class_ := p.class_
  deity := p.deity
  curHp := p.curHp
  level := p.level
  guildID := p.guildID
  x := .ofInt (lrintf p.x)
  y := .ofInt (lrintf p.y)
  z := .ofInt (lrintf p.z)
  heading := .ofInt (lrintf p.heading)

end ProfileBytes

/-! ## The player -/

/-- `Player` with the numbers that only the profile and the statistics set. -/
structure PlayerState extends Player where
  m_mana : UInt16
  m_plusMana : UInt16
  m_maxMana : UInt16
  m_maxSTR : UInt8
  m_maxSTA : UInt8
  m_maxCHA : UInt8
  m_maxDEX : UInt8
  m_maxINT : UInt8
  m_maxAGI : UInt8
  m_maxWIS : UInt8
  m_playerSkills : Fin 100 → UInt32
  m_playerLanguages : Fin 32 → UInt8
  m_spellBookSlots : Fin 800 → UInt32
  m_currentExp : UInt32
  m_currentAltExp : UInt32
  m_currentAApts : UInt16
  m_currentAAUnspent : UInt32
  m_minExp : UInt32
  m_maxExp : UInt32
  m_tickExp : UInt32
  m_validAttributes : Bool
  m_validMana : Bool
  m_validExp : Bool
  m_validPos : Bool

/-- A player of whom no profile has come yet. -/
def PlayerState.blank : PlayerState where
  toPlayer := { addr := 0, m_ID := 0 }
  m_mana := 0
  m_plusMana := 0
  m_maxMana := 0
  m_maxSTR := 0
  m_maxSTA := 0
  m_maxCHA := 0
  m_maxDEX := 0
  m_maxINT := 0
  m_maxAGI := 0
  m_maxWIS := 0
  m_playerSkills := fun _ => 255
  m_playerLanguages := fun _ => 255
  m_spellBookSlots := fun _ => 0
  m_currentExp := 0
  m_currentAltExp := 0
  m_currentAApts := 0
  m_currentAAUnspent := 0
  m_minExp := 0
  m_maxExp := 0
  m_tickExp := 0
  m_validAttributes := false
  m_validMana := false
  m_validExp := false
  m_validPos := false

/-- What is computed in floats: `lrintf`, and `calc_exp` of a level, a race and a class. -/
structure FloatEnv where
  lrintf : UInt32 → Int
  calc_exp : Int32 → UInt16 → UInt8 → UInt32

/-- `calcMaxMana` of util.cpp: wisdom for the priests, intelligence for the casters, no mana for the
    others. -/
def calcMaxMana (INT WIS : UInt8) (daclass : UInt8) (level : Int32) : Int :=
  if daclass = 2 ∨ daclass = 3 ∨ daclass = 6 ∨ daclass = 10 then
    ((WIS.toNat / 5 : Nat) + 2) * level.toInt
  else if daclass = 8 ∨ daclass = 5 ∨ daclass = 11 ∨ daclass = 12 ∨ daclass = 13 ∨
      daclass = 14 then
    ((INT.toNat / 5 : Nat) + 2) * level.toInt
  else 0

namespace PlayerState

section
variable (fl : FloatEnv) (p : ProfileBytes) (s : PlayerState)

/-- The attributes are added up: `m_maxSTR += player.STR`. -/
def accumulate : PlayerState :=
  { s with
    m_maxSTR := s.m_maxSTR + p.STR.toUInt16.toUInt8
    m_maxSTA := s.m_maxSTA + p.STA.toUInt16.toUInt8
    m_maxCHA := s.m_maxCHA + p.CHA.toUInt16.toUInt8
    m_maxDEX := s.m_maxDEX + p.DEX.toUInt16.toUInt8
    m_maxINT := s.m_maxINT + p.INT.toUInt16.toUInt8
    m_maxAGI := s.m_maxAGI + p.AGI.toUInt16.toUInt8
    m_maxWIS := s.m_maxWIS + p.WIS.toUInt16.toUInt8
    m_validAttributes := true }

/-- `Player::loadProfile`: what the profile says of the character, its skills, languages and spell
    book. -/
def loadProfile : PlayerState :=
  let s := { s with
    m_useDefaults := false
    m_race := p.race
    m_class := p.class_.toUInt8
    m_deity := p.deity
    m_curHP := p.curHp.toInt32
    m_level := p.level.toUInt32.toInt32 }
  let s := s.accumulate p
  let minExp := fl.calc_exp (s.m_level - 1) s.m_race s.m_class
  let maxExp := fl.calc_exp s.m_level s.m_race s.m_class
  { s with
    m_mana := p.MANA.toUInt16
    m_maxMana :=
      .ofInt (calcMaxMana s.m_maxINT s.m_maxWIS s.m_class s.m_level + s.m_plusMana.toNat)
    m_validMana := true
    m_minExp := minExp
    m_maxExp := maxExp
    m_tickExp := (maxExp - minExp) / 330
    m_playerSkills := fun a => (p.skills a).toInt32.toUInt32
    -- `memcpy (&m_spellBookSlots[0], &player.sSpellBook[0], sizeof(m_spellBookSlots))`
    m_spellBookSlots := fun i => p.u32 (1846 + 4 * i)
    m_currentAApts := 0
    m_currentAAUnspent := p.aapoints.toUInt32 }

/-- `Player::player`, the slot of `OP_PlayerProfile`: the name and the position, then `loadProfile`.
    -/
def player (env : Env) (guildMgr : GuildMgr) : PlayerState :=
  let s := { s with
    m_NPC := SPAWN_SELF
    m_typeflag := 1
    m_name := env.fromUtf8 p.name
    m_realName := env.fromUtf8 p.name
    m_lastName := env.fromUtf8 p.lastName }
  let s := s.loadProfile fl p
  let heading := fl.lrintf p.heading
  { s with
    m_guildID := p.guildID
    m_guildServerID := 0
    m_guildTag := guildMgr p.guildID 0
    m_x := .ofInt (fl.lrintf p.x)
    m_y := .ofInt (fl.lrintf p.y)
    m_z := .ofInt (fl.lrintf p.z)
    m_deltaX := 0
    m_deltaY := 0
    m_deltaZ := 0
    m_heading := (Int32.ofInt heading).toInt8
    m_deltaHeading := 0
    m_headingDegrees := Player.degrees (Int32.ofInt heading).toUInt32.toUInt8
    m_validPos := true
    m_playerLanguages := fun a => p.languages a
    m_currentExp := p.exp
    m_currentAltExp := p.expAA
    m_validExp := true }

/-- The spawn and the accessors' defaults change as the shell's model has it. -/
theorem player_toPlayer (env : Env) (guildMgr : GuildMgr) :
    (s.player fl p env guildMgr).toPlayer =
      s.toPlayer.player env guildMgr (p.toStruct fl.lrintf) := rfl

/-- `Player::zoneChanged`: `reset`, then `clear`. -/
def zoneChanged : PlayerState :=
  let q : Player := { s.toPlayer with m_useDefaults := true }
  let minExp := fl.calc_exp (q.level - 1) q.race q.classVal
  let maxExp := fl.calc_exp q.level q.race q.classVal
  { s with
    toPlayer := s.toPlayer.zoneChanged
    m_currentAltExp := 0
    m_currentExp := 0
    m_currentAApts := 0
    m_currentAAUnspent := 0
    m_minExp := minExp
    m_maxExp := maxExp
    m_tickExp := (maxExp - minExp) / 330
    m_playerSkills := fun _ => 255
    m_playerLanguages := fun _ => 255
    m_mana := 0
    m_plusMana := 0
    m_maxSTR := 0
    m_maxSTA := 0
    m_maxCHA := 0
    m_maxDEX := 0
    m_maxINT := 0
    m_maxAGI := 0
    m_maxWIS := 0
    m_maxMana := 0
    m_validAttributes := false
    m_validMana := false
    m_validExp := false
    m_validPos := false }

end

/-- The accessors of the greatest values. -/
def getMaxSTR (s : PlayerState) : UInt8 := s.m_maxSTR
def getMaxSTA (s : PlayerState) : UInt8 := s.m_maxSTA
def getMaxCHA (s : PlayerState) : UInt8 := s.m_maxCHA
def getMaxDEX (s : PlayerState) : UInt8 := s.m_maxDEX
def getMaxINT (s : PlayerState) : UInt8 := s.m_maxINT
def getMaxAGI (s : PlayerState) : UInt8 := s.m_maxAGI
def getMaxWIS (s : PlayerState) : UInt8 := s.m_maxWIS
def getSpellBookSlot (s : PlayerState) (slotid : Fin 800) : UInt32 := s.m_spellBookSlots slotid

end PlayerState

end ShoweqDaemon.Spawns
