/-!
Named loggers: the registry in which they are found, and the one logger of all writers.
-/

namespace SerialWriter

/-- A logger, told apart from others by the order in which they were made. -/
structure Logger where
  name : String
  serial : Nat
  deriving DecidableEq, Repr, Inhabited

/-- The loggers that can be found by name. -/
structure LoggerRegistry where
  loggers : List Logger := []
  /-- How many loggers have been made. -/
  made : Nat := 0
  deriving Repr, Inhabited

namespace LoggerRegistry

/-- The logger of that name. -/
def find? (r : LoggerRegistry) (name : String) : Option Logger :=
  r.loggers.find? (·.name = name)

/-- The logger of that name is forgotten. -/
def drop (r : LoggerRegistry) (name : String) : LoggerRegistry :=
  { r with loggers := r.loggers.filter (·.name ≠ name) }

/-- The logger of that name, made and registered if there is none. -/
def get (r : LoggerRegistry) (name : String) : Logger × LoggerRegistry :=
  match r.find? name with
  | some l => (l, r)
  | none =>
    let l := { name, serial := r.made }
    (l, { loggers := l :: r.loggers, made := r.made + 1 })

end LoggerRegistry

/-- The name of the logger of all writers. -/
def writerLoggerName : String := "dbwriter"

/-- What can be observed of the logger of all writers. -/
structure LoggerTour where
  name : String
  sameOnSecondCall : Bool
  sameInRegistry : Bool
  sameAfterDrop : Bool
  sameOnNextCall : Bool
  registeredName : String
  deriving Repr

/-- The logger is asked for twice, looked up, dropped from the registry, and asked for twice
again. -/
def LoggerTour.take : LoggerTour :=
  let (first, r) := LoggerRegistry.get {} writerLoggerName
  let (second, r) := r.get writerLoggerName
  let found := r.find? writerLoggerName
  let (third, r) := (r.drop writerLoggerName).get writerLoggerName
  let (fourth, _) := r.get writerLoggerName
  { name := first.name
    sameOnSecondCall := first = second
    sameInRegistry := found = some first
    sameAfterDrop := third = first
    sameOnNextCall := fourth = third
    registeredName := writerLoggerName }

end SerialWriter
