/-!
# Log entries

What a run tells about itself, beside its results.
-/

set_option autoImplicit false

namespace TimeoutAudit

/-- How important an entry is. -/
inductive LogLevel where
  | debug
  | warn
deriving DecidableEq, Repr

/-- The name of a level. -/
def LogLevel.name : LogLevel → String
  | debug => "DEBUG"
  | warn => "WARN"

/-- An entry of the log. -/
structure LogEntry where
  level : LogLevel
  message : String
deriving DecidableEq, Repr

/-- An entry as text. -/
def LogEntry.text (entry : LogEntry) : String := entry.level.name ++ " " ++ entry.message

end TimeoutAudit
