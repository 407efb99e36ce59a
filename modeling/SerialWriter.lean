import SerialWriter.Session.Control
import SerialWriter.Session.Queue
import SerialWriter.Session.Worker
import SerialWriter.Session.Writer
import SerialWriter.Demo
import SerialWriter.Logger
import SerialWriter.Writer.Overload
import SerialWriter.Main
import SerialWriter.Proofs.Lists
import SerialWriter.Proofs.Run
import SerialWriter.Proofs.Roster
import SerialWriter.Proofs.Sequential
import SerialWriter.Proofs.Control.Turn
import SerialWriter.Proofs.Control.Orderly
import SerialWriter.Proofs.Control.Discipline
import SerialWriter.Proofs.Control.Destruction
import SerialWriter.Proofs.Control.Closed
import SerialWriter.Proofs.Control.Advance
import SerialWriter.Proofs.Control.Life
import SerialWriter.Proofs.Control.Phases
import SerialWriter.Proofs.Control.Waits
import SerialWriter.Proofs.Control.Doomed
import SerialWriter.Proofs.Control.Joins
import SerialWriter.Proofs.Control.Manning
import SerialWriter.Proofs.Control.Starts
import SerialWriter.Proofs.Queue.Log
import SerialWriter.Proofs.Writer.Stages
import SerialWriter.Proofs.Writer.Moves
import SerialWriter.Proofs.Writer.Course
import SerialWriter.Proofs.Writer.Linked
import SerialWriter.Proofs.Writer.Order
import SerialWriter.Proofs.Writer.Serial
import SerialWriter.Proofs.Writer.Walk
import SerialWriter.Proofs.Writer.Shutdown
import SerialWriter.Proofs.Writer.Affairs
import SerialWriter.Proofs.Writer.Conduct
import SerialWriter.Proofs.Writer.Conservation
import SerialWriter.Proofs.Writer.Rest
import SerialWriter.Proofs.Writer.Tally
import SerialWriter.Proofs.Writer.Handles
import SerialWriter.Proofs.Writer.Refinement
import SerialWriter.Proofs.Writer.Calls
import SerialWriter.Proofs.Writer.Stops
import SerialWriter.Proofs.Writer.Restart
import SerialWriter.Proofs.Writer.Release
import SerialWriter.Proofs.Writer.Abandoned
import SerialWriter.Proofs.Writer.Resolved
import SerialWriter.Proofs.Writer.Destruction
import SerialWriter.Proofs.Resolution
import SerialWriter.Proofs.Queue.Signals
import SerialWriter.Proofs.Queue.Traffic
import SerialWriter.Proofs.Queue.Flag
import SerialWriter.Proofs.Queue.Bells
import SerialWriter.Proofs.Cell.Assignment
import SerialWriter.Proofs.Verdict
import SerialWriter.Proofs.Depth
import SerialWriter.Proofs.Writer.Turns
import SerialWriter.Proofs.Writer.Trail
import SerialWriter.Proofs.Writer.Depth
import SerialWriter.Proofs.Writer.Wakes
import SerialWriter.Proofs.Writer.Nested
import SerialWriter.Proofs.Writer.Quiet
import SerialWriter.Proofs.Writer.Pace
import SerialWriter.Proofs.Writer.WindingUp
import SerialWriter.Proofs.Demo.Script
import SerialWriter.Proofs.Demo.Tasks
import SerialWriter.Proofs.Demo.Rank
import SerialWriter.Proofs.Demo.Cast
import SerialWriter.Proofs.Demo.Writes
import SerialWriter.Proofs.Demo.Producers
import SerialWriter.Proofs.Demo.MainControl
import SerialWriter.Proofs.Demo.MainThread
import SerialWriter.Proofs.Demo.WorkerCycles
import SerialWriter.Proofs.Demo.TaskRuns
import SerialWriter.Proofs.Demo.Leaving
import SerialWriter.Proofs.Demo.Moves
import SerialWriter.Proofs.Demo.Standstill
import SerialWriter.Proofs.Demo.Outcome
import SerialWriter.Proofs.Writer.Verdicts
import SerialWriter.Proofs.Writer.Cells
import SerialWriter.Proofs.Writer.Answers
import SerialWriter.Proofs.Writer.Blame
import SerialWriter.Proofs.Writer.Exits
