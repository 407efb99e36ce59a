/-!
The counters of a writer and their one-line summary.
-/

namespace SerialWriter

/-- The counters of a writer at one moment. -/
structure Stats where
  /-- Tasks that entered the queue. -/
  submitted : Nat := 0
  /-- Tasks turned away by a full queue. -/
  dropped : Nat := 0
  /-- Tasks that the worker has run. -/
  executed : Nat := 0
  /-- Tasks that failed when they were run. -/
  failed : Nat := 0
  /-- Waits for a result that ran out of time. -/
  timedOut : Nat := 0
  /-- Tasks in the queue. -/
  queued : Nat := 0
  deriving DecidableEq, Repr, Inhabited

/-- The counters in one line. -/
def Stats.summary (s : Stats) : String :=
  "submitted=" ++ toString s.submitted ++ ", dropped=" ++ toString s.dropped ++
  ", executed=" ++ toString s.executed ++ ", failed=" ++ toString s.failed ++
  ", timed_out=" ++ toString s.timedOut ++ ", queued=" ++ toString s.queued

end SerialWriter
