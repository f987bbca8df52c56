/-!
# Log messages

Each message has a level, and a program shows the messages up to the level that the user chose.
-/

namespace RayTracer

/-- How important a message is, from the most important on. -/
inductive LogLevel where
  | error
  | warn
  | info
  | debug
  | trace
  deriving DecidableEq, Repr

namespace LogLevel

/-- Position of the level, from the most important on. -/
def rank : LogLevel → Nat
  | error => 0
  | warn => 1
  | info => 2
  | debug => 3
  | trace => 4

/-- The word for a level on the command line. -/
def option : LogLevel → String
  | error => "error"
  | warn => "warn"
  | info => "info"
  | debug => "debug"
  | trace => "trace"

/-- The word for a level in front of a message. -/
def label : LogLevel → String
  | error => "ERROR"
  | warn => "WARN"
  | info => "INFO"
  | debug => "DEBUG"
  | trace => "TRACE"

/-- All levels. -/
def all : List LogLevel := [error, warn, info, debug, trace]

/-- The level that a word on the command line stands for. -/
def ofOption? (word : String) : Option LogLevel := all.find? (·.option == word)

end LogLevel

/-- A message with its level. -/
structure LogEntry where
  level : LogLevel
  message : String
  deriving DecidableEq, Repr

/-- The line in which a message is shown. -/
def LogEntry.text (entry : LogEntry) : String := s!"{entry.level.label} {entry.message}"

end RayTracer
