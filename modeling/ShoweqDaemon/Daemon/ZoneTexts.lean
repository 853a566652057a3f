/-
  The texts that `zoneNew` and `newGroundItem` take from a payload.

  Each is read up to its NUL, decoded, and copied in Latin-1 into a field of fixed size. Nothing
  looks at its length. `TextFits` is what a single text needs, `zoneTexts_fit_iff` the condition on
  whole payloads.

  The accesses are noted as in `CString`: an element of the field for each byte in front of the
  NUL, and one for the NUL. A field of 32 bytes holds 31 letters.

  Proved:
  * `readNewZone_allowed`, `readMakeDrop_allowed`: a handler stays inside its struct just when
    each of its texts ends in the payload and fits.
  * `zoneTexts_fit_iff`: the two together, for every payload.
  * `shortName_outside`: a short name of forty letters is written behind its field.
-/
import ShoweqDaemon.Daemon.Wiring
import ShoweqDaemon.Packet.Dispatch
import ShoweqDaemon.Packet.NetStream

namespace ShoweqDaemon.Spawns

open Audit CString
open ShoweqDaemon.Packet (NetStream zone2ClientStream)
open ShoweqDaemon.Packet.NetStream (afterNumber afterSkip afterText textOf)
open SpawnShell (Dir)

/-- `newZoneStruct` as `zoneNew` fills it. Texts end before their first NUL, floats are bits. -/
structure NewZoneStruct where
  shortName : List UInt8
  longName : List UInt8
  zonefile : List UInt8
  zone_exp_multiplier : UInt32
  safe_y : UInt32
  safe_x : UInt32
  safe_z : UInt32

section
variable (env : Env)

/-- `strcpy` of a text into a cleared field of `size` bytes; an empty one is not copied. -/
def setField (size : ℕ) (s : QString) : Noted Element (List UInt8) :=
  if s.length ≠ 0 then upToNul size 0 (env.toLatin1 s) else pure []

/-- The struct as `zoneNew` takes it off the stream, field by field. -/
def readNewZone (data : List UInt8) : Noted Element NewZoneStruct := do
  let netStream : NetStream := { m_data := data }
  let short ← netStream.readText env
  let shortName ← setField env 32 short.1
  let long ← short.2.readText env
  let longName ← setField env 278 long.1
  let file ← (long.2.skipBytes 2).readText env
  let zonefile ← setField env 64 file.1
  let multiplier ← (file.2.skipBytes 90).readUInt32NC
  let y ← (multiplier.2.skipBytes 28).readUInt32NC
  let x ← y.2.readUInt32NC
  let z ← x.2.readUInt32NC
  pure
    { shortName := shortName
      longName := longName
      zonefile := zonefile
      zone_exp_multiplier := multiplier.1
      safe_y := y.1
      safe_x := x.1
      safe_z := z.1 }

/-- `ZoneMgr::zoneNew` from its payload on. -/
def ZoneMgr.zoneNewPayload (z : ZoneMgr) (data : List UInt8) : Noted Element ZoneMgr := do
  let zoneNew ← readNewZone env data
  pure (z.zoneNew env zoneNew.shortName zoneNew.longName)

/-- `cut` makes an `int16_t` of the bits of a float, as `Drop` does. -/
def readMakeDrop (cut : UInt32 → Int16) (data : List UInt8) : Noted Element MakeDropStruct := do
  let netStream : NetStream := { m_data := data }
  let dropId ← netStream.readUInt32NC
  let name ← dropId.2.readText env
  let idFile ← setField env 30 name.1
  -- the zone, its instance and a field that is not known
  let zone ← name.2.readUInt32NC
  let zoneInstance ← zone.2.readUInt32NC
  let unknown ← zoneInstance.2.readUInt32NC
  let heading ← unknown.2.readUInt32NC
  let unknown1 ← heading.2.readUInt32NC
  let unknown2 ← unknown1.2.readUInt32NC
  let unknown3 ← unknown2.2.readUInt32NC
  let y ← unknown3.2.readUInt32NC
  let x ← y.2.readUInt32NC
  let z ← x.2.readUInt32NC
  pure { dropId := dropId.1, idFile := idFile, x := cut x.1, y := cut y.1, z := cut z.1 }

/-- `SpawnShell::newGroundItem` from its payload on: nothing is read while zoning, of packets of the
    client, or without a payload. -/
def SpawnShell.newGroundItemPayload (cut : UInt32 → Int16) (z : ZoneMgr) (sh : SpawnShell)
    (data : Option (List UInt8)) (dir : Dir) : Noted Element Out :=
  if z.m_zoning then pure (sh, [])
  else if dir ≠ .server then pure (sh, [])
  else
    match data with
    | none => pure (sh, [])
    | some data => do
        let ds ← readMakeDrop env cut data
        pure (sh.newGroundItem env ds)

/-! ## What a text needs -/

/-- A text at the front of the bytes: it has a NUL, and together with that it has room in a field of
    `size` bytes. -/
def TextFits (size : ℕ) (bytes : List UInt8) : Prop :=
  (bytes ≠ [] → 0 ∈ bytes) ∧
    (textOf env bytes ≠ [] → (text (env.toLatin1 (textOf env bytes))).length < size)

instance (size : ℕ) (bytes : List UInt8) : Decidable (TextFits env size bytes) :=
  inferInstanceAs (Decidable ((bytes ≠ [] → 0 ∈ bytes) ∧
    (textOf env bytes ≠ [] → (text (env.toLatin1 (textOf env bytes))).length < size)))

/-- The three texts of a new zone. -/
def NewZoneFits (data : List UInt8) : Prop :=
  TextFits env 32 data ∧ TextFits env 278 (afterText data) ∧
    TextFits env 64 (afterSkip 2 (afterText (afterText data)))

@[simp] theorem allowed_setField (size : ℕ) (s : QString) :
    (setField env size s).Allowed Element.Inside ↔
      (s ≠ [] → (text (env.toLatin1 s)).length < size) := by
  unfold setField
  cases s <;> simp

theorem readNewZone_allowed (data : List UInt8) :
    (readNewZone env data).Allowed Element.Inside ↔ NewZoneFits env data := by
  have hrest : ({ m_data := data } : NetStream).rest = data := rfl
  simp only [readNewZone, Noted.allowed_bind, NetStream.allowed_readText,
    NetStream.text_readText, NetStream.rest_readText, NetStream.rest_skipBytes,
    NetStream.allowed_readUInt32NC, allowed_setField, Noted.allowed_pure, hrest, and_true]
  unfold NewZoneFits TextFits
  simp only [and_assoc]

theorem readMakeDrop_allowed (cut : UInt32 → Int16) (data : List UInt8) :
    (readMakeDrop env cut data).Allowed Element.Inside ↔ TextFits env 30 (afterNumber data) := by
  have hrest : ({ m_data := data } : NetStream).rest = data := rfl
  simp only [readMakeDrop, Noted.allowed_bind, NetStream.allowed_readText,
    NetStream.text_readText, NetStream.rest_readUInt32NC, NetStream.allowed_readUInt32NC,
    allowed_setField, Noted.allowed_pure, hrest, and_true, true_and]
  rfl

/-- Everything is read inside the payload and written inside its field just when every text that
    begins has a NUL in the payload, and every text that is copied is shorter than its field. -/
theorem zoneTexts_fit_iff (cut : UInt32 → Int16) :
    (∀ (z : ZoneMgr) (data : List UInt8),
      (z.zoneNewPayload env data).Allowed Element.Inside ↔ NewZoneFits env data) ∧
    ∀ (z : ZoneMgr) (sh : SpawnShell) (data : Option (List UInt8)) (dir : Dir),
      (sh.newGroundItemPayload env cut z data dir).Allowed Element.Inside ↔
        (z.m_zoning = false → dir = .server →
          ∀ bytes, data = some bytes → TextFits env 30 (afterNumber bytes)) := by
  constructor
  · intro z data
    unfold ZoneMgr.zoneNewPayload
    simp only [Noted.allowed_bind, Noted.allowed_pure, and_true]
    exact readNewZone_allowed env data
  · intro z sh data dir
    unfold SpawnShell.newGroundItemPayload
    by_cases hzoning : z.m_zoning = true
    · simp [hzoning]
    · by_cases hdir : dir = .server
      · cases data with
        | none => simp
        | some bytes => simp [hzoning, hdir, readMakeDrop_allowed]
      · simp [hdir]

/-- A short name of forty letters is written over the end of its field of 32. -/
theorem shortName_outside :
    zone2ClientStream.dispatchPacket "OP_NewZone".toList 41 = [.zoneNew] ∧
      ¬ (ZoneMgr.init.zoneNewPayload Env.ascii (List.replicate 40 97 ++ [0])).Allowed
          Element.Inside := by
  refine ⟨rfl, ?_⟩
  decide

end

end ShoweqDaemon.Spawns
