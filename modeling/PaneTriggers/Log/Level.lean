/-!
# Log levels

Levels are ordered from `trace` up to `error`. Configuration writes them in lowercase, records in
uppercase.
-/

namespace PaneTriggers

/-- The severity of a log record. -/
inductive LogLevel where
  | trace
  | debug
  | info
  | warn
  | error
deriving DecidableEq

namespace LogLevel

/-- How severe a level is. -/
def severity : LogLevel → Nat
  | trace => 0
  | debug => 1
  | info => 2
  | warn => 3
  | error => 4

/-- The name of a level in records. -/
def name : LogLevel → String
  | trace => "TRACE"
  | debug => "DEBUG"
  | info => "INFO"
  | warn => "WARN"
  | error => "ERROR"

/-- The level that configuration calls by a name. -/
def ofConfigName? (s : String) : Option LogLevel :=
  if s = "trace" then some trace
  else if s = "debug" then some debug
  else if s = "info" then some info
  else if s = "warn" then some warn
  else if s = "error" then some error
  else none

end LogLevel

end PaneTriggers
