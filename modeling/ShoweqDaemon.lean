import ShoweqDaemon.Decoder.Reject
import ShoweqDaemon.Decoder.FragOrder
import ShoweqDaemon.Decoder.Cipher
import ShoweqDaemon.Decoder.Grammar
import ShoweqDaemon.Decoder.Streams
import ShoweqDaemon.Session.Adapter
import ShoweqDaemon.Session.ServerRuns
import ShoweqDaemon.Spawn.DeadSpawns
import ShoweqDaemon.Group.Roster
import ShoweqDaemon.Session.Replication
import ShoweqDaemon.Capture.Frames
import ShoweqDaemon.Capture.HandOff
import ShoweqDaemon.Spawn.Saves
import ShoweqDaemon.Spawn.PointReplica
import ShoweqDaemon.Daemon.Stay
import ShoweqDaemon.Daemon.Keys
import ShoweqDaemon.Player.Resend
import ShoweqDaemon.Player.Stats
import ShoweqDaemon.Spell.Freshness
import ShoweqDaemon.Spell.Unique
import ShoweqDaemon.Group.Updates
import ShoweqDaemon.Group.Counters
import ShoweqDaemon.Session.Freshness
import ShoweqDaemon.Session.RateLimit
import ShoweqDaemon.Packet.OPCodeDB
import ShoweqDaemon.Packet.Recording
import ShoweqDaemon.Packet.Playback
import ShoweqDaemon.Capture.Replay
import ShoweqDaemon.Daemon.FilterFlags
import ShoweqDaemon.Player.Checkpoint
import ShoweqDaemon.Filter.RoundTrip
import ShoweqDaemon.Filter.Requests
import ShoweqDaemon.Message.FormatMessage
import ShoweqDaemon.Prefs.RoundTrip
import ShoweqDaemon.Map.Colours
import ShoweqDaemon.Daemon.DataFiles
import ShoweqDaemon.Daemon.ZoneTexts
import ShoweqDaemon.Daemon.ShortPackets
import ShoweqDaemon.Player.ConTable
import ShoweqDaemon.Session.Determinism
import ShoweqDaemon.Daemon.MobUpdate
import ShoweqDaemon.Daemon.RepeatedDeaths
import ShoweqDaemon.Daemon.SpellLookup
import ShoweqDaemon.Spell.Duration
import ShoweqDaemon.Packet.Matching
import ShoweqDaemon.Spawn.KillAttribution
import ShoweqDaemon.Filter.LevelSuffix
import ShoweqDaemon.Message.Placeholders
import ShoweqDaemon.Message.TwoLoops
import ShoweqDaemon.Message.ItemLinks
import ShoweqDaemon.Packet.BitStream
import ShoweqDaemon.Packet.Readers
import ShoweqDaemon.Decoder.Groups
import ShoweqDaemon.Decoder.Duplicates
import ShoweqDaemon.Filter.TypeRegistry
import ShoweqDaemon.Filter.Category
import ShoweqDaemon.Message.MessageFilters
import ShoweqDaemon.Message.MessageShell
import ShoweqDaemon.Filter.CategoryMgr
import ShoweqDaemon.Capture.Monitor
import ShoweqDaemon.Prefs.PrefsBroker
import ShoweqDaemon.Map.ZoneFiles
import ShoweqDaemon.Daemon.ZoneMap
import ShoweqDaemon.Lib.XmlWriter
import ShoweqDaemon.Packet.OPCodeFile
