import SerialWriter.Phase

/-!
What a task or a call can fail with, and how each failure reads. A failure is standard if it
carries a message for its reader; the others are reported by a fixed text.
-/

namespace SerialWriter

/-- The text up to its first NUL character, which is all that a reader of a message sees. -/
def upToNul (s : String) : String := String.ofList (s.toList.takeWhile (· ≠ '\x00'))

/-! ### Refusals of the writer -/

/-- The kinds of refusal that a caller can tell apart. -/
inductive RefusalKind
  | illegalState
  | startupFailed
  | shutdownFailed
  | invalidConfig
  deriving DecidableEq, Repr, Inhabited

/-- **Why a writer refuses a call**, or a refusal that a task states in its own words. -/
inductive Refusal
  | stated (kind : RefusalKind) (text : String)
  | capacityNotPositive (writer : String)
  | idleDelayNegative (writer : String)
  | depthIntervalNegative (writer : String)
  | limitsNotPositive (writer : String)
  | notAccepting (writer : String)
  | startAfterFailure (writer : String)
  | startWhile (writer : String) (phase : Phase)
  | startWithoutThread (writer reason : String)
  | startExpired (writer : String) (limit : Int)
  | startFailed (writer reason : String)
  | stopAfterFailure (writer reason : String)
  | stopExpired (writer : String) (limit : Int)
  | stopFailed (writer reason : String)
  deriving DecidableEq, Repr, Inhabited

namespace Refusal

/-- The kind under which a refusal is reported. -/
def kind : Refusal → RefusalKind
  | stated kind _ => kind
  | capacityNotPositive _ | idleDelayNegative _ | depthIntervalNegative _
  | limitsNotPositive _ => .invalidConfig
  | notAccepting _ | startAfterFailure _ | startWhile _ _ => .illegalState
  | startWithoutThread _ _ | startExpired _ _ | startFailed _ _ => .startupFailed
  | stopAfterFailure _ _ | stopExpired _ _ | stopFailed _ _ => .shutdownFailed

/-- The whole text of a refusal. -/
def text : Refusal → String
  | stated _ text => text
  | capacityNotPositive w => "Writer " ++ w ++ ": queue capacity must be positive"
  | idleDelayNegative w => "Writer " ++ w ++ ": idle delay must not be negative"
  | depthIntervalNegative w => "Writer " ++ w ++ ": queue log interval must not be negative"
  | limitsNotPositive w => "Writer " ++ w ++ ": lifecycle timeouts must be positive"
  | notAccepting w => "Database writer " ++ w ++ " is not running"
  | startAfterFailure w => "Writer " ++ w ++ " has failed and cannot be started"
  | startWhile w p => "Writer " ++ w ++ " cannot be started in state " ++ p.name
  | startWithoutThread w r => "Writer " ++ w ++ " could not create its worker thread: " ++ r
  | startExpired w n => "Writer " ++ w ++ " did not reach RUNNING within " ++ toString n ++ "ms"
  | startFailed w r => "Writer " ++ w ++ " failed while starting: " ++ r
  | stopAfterFailure w r => "Writer " ++ w ++ " has failed: " ++ r
  | stopExpired w n => "Writer " ++ w ++ " did not terminate within " ++ toString n ++ "ms"
  | stopFailed w r => "Writer " ++ w ++ " failed while stopping: " ++ r

end Refusal

/-! ### Failures -/

/-- The kinds of standard failure that hold nothing but a message. -/
inductive MessageKind
  | invalidArgument
  | domainError
  | lengthError
  | outOfRange
  | logicError
  | rangeError
  | overflowError
  | underflowError
  | runtimeError
  | custom
  deriving DecidableEq, Repr, Inhabited

/-- **What a task or a call fails with.** -/
inductive Failure
  /-- A standard failure with a message. -/
  | message (kind : MessageKind) (text : String)
  /-- The standard failure that says nothing of its own. -/
  | bare
  /-- A refusal of a writer. -/
  | refused (refusal : Refusal)
  /-- The failure of task `id`, wrapped: `nested` is what was being handled meanwhile. -/
  | computation (id : String) (cause nested : Option Failure)
  /-- A call of a function that is not there. -/
  | noFunction
  /-- The system could not create a thread. -/
  | noThread
  /-- A thrown number. -/
  | number (n : Int)
  /-- A thrown text. -/
  | text (s : String)
  /-- A thrown text constant. -/
  | literal
  /-- A thrown object that says nothing. -/
  | foreign
  deriving Repr, Inhabited

namespace Failure

/-- The failures that carry a message for their reader. -/
def isStandard : Failure → Bool
  | message _ _ | bare | refused _ | computation _ _ _ | noFunction | noThread => true
  | number _ | text _ | literal | foreign => false

/-- The message of a failure; for one that is not standard, the thrown value as text. -/
def what : Failure → String
  | message _ s => upToNul s
  | bare => "std::exception"
  | refused r => upToNul r.text
  | computation id _ _ => upToNul ("Execution of task " ++ id ++ " failed")
  | noFunction => "bad_function_call"
  | noThread => "Resource temporarily unavailable"
  | number n => toString n
  | text s => s
  | literal => "a literal"
  | foreign => ""

/-- A failure as a log line or a refusal reports it. -/
def describe (e : Failure) : String := if e.isStandard then e.what else "non-standard exception"

/-- A captured failure as a log line reports it, also when nothing was captured. -/
def describe? : Option Failure → String
  | none => "no exception"
  | some e => e.describe

/-- The failure of a task that was made to return without a result. -/
def noResult (id : String) : Failure :=
  message .logicError ("Task " ++ id ++ " completed without producing a result")

/-- The failure `e` of task `id`, wrapped while it is being handled. -/
def wrapped (id : String) (e : Failure) : Failure := computation id (some e) (some e)

/-- **How a failure reaches the caller who waits for the task**: unchanged if it is standard,
wrapped otherwise. -/
def forCaller (id : String) (e : Failure) : Failure := if e.isStandard then e else wrapped id e

end Failure

end SerialWriter
