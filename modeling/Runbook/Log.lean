import Runbook.Settings
import Runbook.Text.Upper

/-!
# Logging

* `Level`: how grave an entry is.
* `Logging.ofSettings`: the levels below which loggers say nothing, and the form of their lines.
* `Logging.entry`: the fields of the line of an event, if it is grave enough to be written.
-/

namespace Runbook

/-- How grave an entry is. -/
inductive Level where
  | notSet
  | debug
  | info
  | warning
  | error
  | critical
  deriving DecidableEq, Repr

namespace Level

/-- The rank of a level. -/
def rank : Level → Nat
  | notSet => 0
  | debug => 10
  | info => 20
  | warning => 30
  | error => 40
  | critical => 50

/-- The name of a level in a line. -/
def name : Level → String
  | notSet => "notset"
  | debug => "debug"
  | info => "info"
  | warning => "warning"
  | error => "error"
  | critical => "critical"

/-- The level that a name in the settings stands for, in small or capital letters. -/
def ofSetting? (text : String) : Option Level :=
  let name := Text.upper text
  if name = "CRITICAL" ∨ name = "FATAL" then some critical
  else if name = "ERROR" then some error
  else if name = "WARNING" ∨ name = "WARN" then some warning
  else if name = "INFO" then some info
  else if name = "DEBUG" then some debug
  else if name = "NOTSET" then some notSet
  else none

end Level

/-- The form of lines. -/
inductive Renderer where
  | console
  | json
  deriving DecidableEq, Repr

/-- How entries are written. -/
structure Logging where
  root : Level
  named : List (String × Level)
  renderer : Renderer
  environment : String

/-- An event for the log. -/
structure LogEvent where
  logger : String
  level : Level
  event : String
  fields : Entries := []

namespace Logging

/-- The logger at the root, which goes by no name. -/
def rootName : String := "root"

/-- How entries are written under these settings. Libraries that talk too much are kept to warnings, the
database unless it is to echo its statements. -/
def ofSettings (s : Settings) : Logging where
  root := (Level.ofSetting? s.logLevel).getD .info
  named := [
    ("httpx", .warning), ("httpcore", .warning), ("aiosqlite", .warning), ("celery", .info),
    ("sqlalchemy.engine", if s.databaseEcho then .info else .warning)]
  renderer := if s.isDevelopment || s.logFormat == "text" then .console else .json
  environment := s.environment

/-- The level of the first of several loggers that has one of its own, the root's otherwise. -/
def firstLevel (l : Logging) : (names : List String) → Level
  | [] => l.root
  | name :: rest => match l.named.lookup name with
    | some level => level
    | none => firstLevel l rest

/-- A logger and those above it: the name without its last parts. -/
def ancestry (parts : List String) : List String :=
  (List.range parts.length).map fun dropped => ".".intercalate (parts.take (parts.length - dropped))

/-- The level below which a logger says nothing: its own, or that of the nearest one above it. -/
def levelOf (l : Logging) (logger : String) : Level := l.firstLevel (ancestry (Text.splitAt '.' logger))

/-- The line of an event: what is bound to the run, then the fields of the event, then the logger and the
level; the environment is added if no field has that name. -/
def entry (l : Logging) (bound : Entries) (e : LogEvent) : Option Entries :=
  if e.level.rank < (l.levelOf e.logger).rank then none
  else
    let name := if e.logger.isEmpty then rootName else e.logger
    let merged := e.fields.foldl (fun acc (k, v) => match k with
      | .str s => Entries.set acc s v
      | _ => acc ++ [(k, v)]) bound
    let line := ((merged.set "event" (.str e.event)).set "logger" (.str name)).set "level" (.str e.level.name)
    some (match line.get? "environment" with
      | some _ => line
      | none => line.set "environment" (.str l.environment))

end Logging

end Runbook
