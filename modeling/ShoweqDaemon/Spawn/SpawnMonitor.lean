/-
  `SpawnMonitor`: the spawn points of a zone and the file they are kept in.

  A mob seen twice at the same place makes a spawn point. The promoted points are written to
  `<zone>.sp`: a new file is filled, the old one becomes the backup, the new one takes its
  name. `QDir::rename` does not replace a file that exists. `Disk` is what the system answers
  during one save.

  The pointer that `setName` and `deleteSpawnPoint` get is the key of the point.
-/
import ShoweqDaemon.Lib.Run
import ShoweqDaemon.Lib.Table
import ShoweqDaemon.Spawn.Item

namespace ShoweqDaemon.SpawnPoints

open Spawns
open Numeral (printInt)

/-! ## Points -/

/-- `SpawnPoint`: the place, the times of the last spawn and of the last death, how long it took,
    how often, a name, and the creature that was last there. -/
structure SpawnPoint where
  x : Int16
  y : Int16
  z : Int16
  m_spawnTime : Int
  m_deathTime : Int
  m_diffTime : Int
  m_count : UInt32
  m_name : QString
  m_last : QString
  m_lastID : UInt16
  deriving DecidableEq, Repr

/-- What `checkSpawnPoint` asks of a spawn: who it is, whether it is a creature of the zone, and
    where it stands. -/
structure SpawnInfo where
  id : UInt16
  name : QString
  NPC : UInt8
  petOwnerID : UInt16
  isMount : Bool
  isAura : Bool
  isMercenary : Bool
  x : Int16
  y : Int16
  z : Int16

/-- A number as `QTextStream` and `asprintf` print it. -/
def SpawnPoint.keyOf (x y z : Int16) : QString :=
  printInt x.toInt ++ '|' :: printInt y.toInt ++ '|' :: printInt z.toInt

/-- The constructor, with its default name, difference and count. -/
def SpawnPoint.new (now : Int) (spawn : SpawnInfo) : SpawnPoint :=
  { x := spawn.x, y := spawn.y, z := spawn.z, m_spawnTime := now, m_deathTime := 0
    m_diffTime := 0, m_count := 1, m_name := [], m_last := [], m_lastID := spawn.id }

/-- `SpawnPoint::restart`: the creature is dead, and the time to the next one runs. -/
def SpawnPoint.restart (now : Int) (sp : SpawnPoint) : SpawnPoint :=
  { sp with m_lastID := 0, m_deathTime := now }

/-- `SpawnPoint::update`: another creature is there. The count goes up by one, and after a death the
    time that has gone by since is kept. -/
def SpawnPoint.update (now : Int) (spawn : SpawnInfo) (sp : SpawnPoint) : SpawnPoint :=
  { sp with
    m_lastID := spawn.id
    m_last := if spawn.id ≠ 0 then spawn.name else []
    m_spawnTime := now
    m_diffTime := if sp.m_deathTime ≠ 0 then now - sp.m_deathTime else sp.m_diffTime
    m_count := sp.m_count + 1 }

/-- The line of a point in the file. `diffTime` is printed as an `unsigned long`, the count as
    the `int32_t` that `count` returns. -/
def SpawnPoint.line (sp : SpawnPoint) : QString :=
  printInt sp.x.toInt ++ ' ' :: printInt sp.y.toInt ++ ' ' :: printInt sp.z.toInt ++
    ' ' :: printInt (sp.m_diffTime % 2 ^ 64) ++ ' ' :: printInt sp.m_count.toInt32.toInt ++
    ' ' :: sp.m_name ++ ['\n']

/-! ## The monitor -/

/-- `SpawnMonitor` by its values: candidates, points, and whether there is something to save. -/
structure SpawnMonitor where
  m_zoneName : QString
  m_spawns : Table QString SpawnPoint
  m_points : Table QString SpawnPoint
  m_modified : Bool

/-- A monitor of a zone without spawn points. -/
def SpawnMonitor.inZone (name : QString) : SpawnMonitor :=
  { m_zoneName := name, m_spawns := ∅, m_points := ∅, m_modified := false }

namespace SpawnMonitor

/-- A point may be renamed wherever it is held; there is nothing to do without one. -/
def setName (key name : QString) (s : SpawnMonitor) : SpawnMonitor :=
  let rename (sp : SpawnPoint) : SpawnPoint := { sp with m_name := name }
  if key ∈ s.m_points then { s with m_points := s.m_points.modify key rename, m_modified := true }
  else if key ∈ s.m_spawns then
    { s with m_spawns := s.m_spawns.modify key rename, m_modified := true }
  else s

/-- The point is taken out of the map that holds it. -/
def deleteSpawnPoint (key : QString) (s : SpawnMonitor) : SpawnMonitor :=
  if key ∈ s.m_points then { s with m_points := s.m_points.erase key, m_modified := true }
  else { s with m_spawns := s.m_spawns.erase key, m_modified := true }

/-- The first promoted point whose last spawn this was is restarted. -/
def killSpawn (o : Table.Order) (now : Int) (id : UInt16) (s : SpawnMonitor) : SpawnMonitor :=
  match (o.visit s.m_points.entries).find? (fun e => e.2.m_lastID = id) with
  | some e => { s with m_points := s.m_points.modify e.1 (SpawnPoint.restart now) }
  | none => s

/-- `SpawnMonitor::checkSpawnPoint`: another creature updates the point at its place, makes a point
    of the candidate there, or becomes a candidate. -/
def checkSpawnPoint (now : Int) (spawn : SpawnInfo) (s : SpawnMonitor) : SpawnMonitor :=
  -- ignore everything but mobs
  if spawn.NPC ≠ SPAWN_NPC ∨ spawn.petOwnerID ≠ 0 ∨ spawn.isMount ∨ spawn.isAura ∨
      spawn.isMercenary then s
  else
    let key := SpawnPoint.keyOf spawn.x spawn.y spawn.z
    if key ∈ s.m_points then
      { s with
        m_points := s.m_points.modify key (SpawnPoint.update now spawn)
        m_modified := true }
    else
      match s.m_spawns.lookup key with
      | some sp =>
          { s with
            m_points := s.m_points.insert key (sp.update now spawn)
            m_modified := true
            m_spawns := s.m_spawns.erase key }
      | none => { s with m_spawns := s.m_spawns.insert key (SpawnPoint.new now spawn) }

end SpawnMonitor

/-! ## The file -/

/-- The contents of `<zone>.sp`, `<zone>.sp.bak` and `<zone>.sp.new`. -/
structure Files where
  sp : Option QString
  bak : Option QString
  new : Option QString
  deriving DecidableEq, Repr

/-- How one save fares: whether the new file opens, how much of it is stored (all of it when
    `none`), and whether each rename is let through. -/
structure Disk where
  opens : Bool := true
  room : Option Nat := none
  renamesOld : Bool := true
  renamesNew : Bool := true
  deriving DecidableEq, Repr

/-- What of `text` reaches the file. -/
def Disk.stored (disk : Disk) (text : QString) : QString :=
  match disk.room with
  | some n => text.take n
  | none => text

/-- The text of the points, in the order the table is iterated. -/
def render (o : Table.Order) (points : Table QString SpawnPoint) : QString :=
  (o.visit points.values).flatMap SpawnPoint.line

/-- `dir.rename(newName, fileName)`, when nothing has the name. -/
def Files.install (disk : Disk) (fs : Files) : Files :=
  if disk.renamesNew then { fs with sp := fs.new, new := none } else fs

/-- `SpawnMonitor::saveSpawnPoints`: a new file takes the place of the old one; a step that fails
    ends it. -/
def saveSpawnPoints (o : Table.Order) (disk : Disk) (s : SpawnMonitor) (fs : Files) :
    SpawnMonitor × Files :=
  if s.m_modified = false then (s, fs)
  else if s.m_zoneName = [] then (s, fs)
  else if disk.opens = false then (s, fs)
  else
    let fs := { fs with new := some (disk.stored (render o s.m_points)) }
    let fs :=
      if fs.sp.isSome then
        -- `rename` fails when there is a backup already
        if disk.renamesOld && fs.bak.isNone then
          Files.install disk { fs with bak := fs.sp, sp := none }
        else fs
      else fs.install disk
    ({ s with m_modified := false }, fs)

/-! ## Runs in one zone -/

/-- The monitor and the files. -/
structure World where
  monitor : SpawnMonitor
  files : Files

/-- What can happen to the monitor. -/
inductive Event where
  | setName (key name : QString)
  | newSpawn (now : Int) (spawn : SpawnInfo)
  | killSpawn (o : Table.Order) (now : Int) (id : UInt16)
  | deleteSpawnPoint (key : QString)
  | save (o : Table.Order) (disk : Disk)

/-- The monitor and the files after an event. -/
def step (w : World) : Event → World
  | .setName key name => { w with monitor := w.monitor.setName key name }
  | .newSpawn now spawn => { w with monitor := w.monitor.checkSpawnPoint now spawn }
  | .killSpawn o now id => { w with monitor := w.monitor.killSpawn o now id }
  | .deleteSpawnPoint key => { w with monitor := w.monitor.deleteSpawnPoint key }
  | .save o disk =>
      let r := saveSpawnPoints o disk w.monitor w.files
      { monitor := r.1, files := r.2 }

/-- `rename_spawn_point` of a client: a promoted point is renamed and saved at once. -/
def renameSpawnPoint (o : Table.Order) (disk : Disk) (key name : QString) (w : World) : World :=
  if key ∈ w.monitor.m_points then [Event.setName key name, .save o disk].foldl step w else w

end ShoweqDaemon.SpawnPoints
