import PaneTriggers.Json.Printer
import PaneTriggers.Log.Level
import PaneTriggers.Time.Window

/-!
# A rotating log

Records are lines of JSON, collected in segments. A line goes into the active segment if that is
empty or stays within `maxBytes` with it. Otherwise the active segment is rotated away and the
line starts the next one; of the rotated segments only the last `maxFiles` are kept. Records are
stamped with the watermark instead of a clock, so that a replay writes the same log.
-/

namespace PaneTriggers

/-- The size of a segment in bytes and the number of rotated segments that are kept. -/
structure RotationPolicy where
  maxBytes : Nat := 1048576
  maxFiles : Nat := 4
deriving DecidableEq

/-- A run of lines and their length in bytes. -/
structure LogSegment where
  lines : List String := []
  bytes : Nat := 0
deriving DecidableEq

namespace LogSegment

/-- Whether a line of `size` bytes may go into the segment. An empty one takes any line. -/
def fits (s : LogSegment) (size maxBytes : Nat) : Bool :=
  s.lines.isEmpty || decide (s.bytes + size ≤ maxBytes)

/-- Adds a line at the end. -/
def push (s : LogSegment) (line : String) : LogSegment :=
  ⟨s.lines ++ [line], s.bytes + line.utf8ByteSize⟩

end LogSegment

/-- What a record says. -/
structure LogRecord where
  now : Option Timestamp
  level : LogLevel
  source : String
  window : Window
  message : String

/-- The line of a record. -/
def LogRecord.line (r : LogRecord) : String :=
  Json.text (.obj [
    ("event_time_ms", match r.now with
      | some t => .int t.millis
      | none => .null),
    ("level", .str r.level.name),
    ("module", .str r.source),
    ("window", .str r.window.text),
    ("message", .str r.message)])

/-- A log with a level below which records are skipped. -/
structure RotatingLog where
  policy : RotationPolicy := {}
  level : LogLevel := .info
  rotated : List LogSegment := []
  active : LogSegment := {}
deriving DecidableEq

namespace RotatingLog

/-- The log with another level. -/
def setLevel (l : RotatingLog) (level : LogLevel) : RotatingLog := { l with level := level }

/-- The segments, oldest first. The last one is active. -/
def segments (l : RotatingLog) : List LogSegment := l.rotated ++ [l.active]

/-- Rotates the active segment away and drops the oldest rotated segments over the limit. -/
def rotate (l : RotatingLog) : RotatingLog :=
  let rotated := l.rotated ++ [l.active]
  { l with rotated := rotated.drop (rotated.length - l.policy.maxFiles), active := {} }

/-- Writes a line, after a rotation if it does not fit. -/
def write (l : RotatingLog) (line : String) : RotatingLog :=
  let l := if l.active.fits line.utf8ByteSize l.policy.maxBytes then l else l.rotate
  { l with active := l.active.push line }

/-- Writes a record, unless its level is below that of the log. -/
def log (l : RotatingLog) (r : LogRecord) : RotatingLog :=
  if r.level.severity < l.level.severity then l else l.write r.line

end RotatingLog

end PaneTriggers
