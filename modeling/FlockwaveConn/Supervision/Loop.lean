import Mathlib.Tactic

/-!
# Supervision/Loop — the module-level `supervise()`

One call of `supervise()` is a loop of attempts: open the connection, attend to it until it drops
(or its task ends), ask the policy what to do, and sleep or stop.  Between two waits the body runs
through; what ended the wait is the `Event`, and `step` is the stretch of code up to the next wait.

The policy is asked through `ask`, which sees what has been noted since the wait ended.
-/

namespace FlockwaveConn.Supervision

variable {ε : Type*}

/-- The second argument of a policy. -/
inductive PolicyArg (ε : Type*)
  /-- `"open"`: informative, the answer is ignored. -/
  | opened
  /-- `"close"`: the connection closed normally, or the task ended. -/
  | closed
  /-- The exception. -/
  | exn (e : ε)
  deriving DecidableEq, Repr

/-- What a policy can return, as far as `supervise()` tells values apart. -/
inductive Action
  | none
  | bool (b : Bool)
  | number (x : ℚ)
  | other
  deriving DecidableEq, Repr

/-- The three ways `supervise()` goes on after a verdict. -/
inductive Verdict
  | stop
  | sleep (x : ℚ)
  | invalid
  deriving DecidableEq, Repr

/-- `action is False or action is None`, else `isinstance(action, (int, float))`: `True` is an
`int`. -/
def Action.verdict : Action → Verdict
  | .none | .bool false => .stop
  | .bool true => .sleep 1
  | .number x => .sleep x
  | .other => .invalid

/-- How a call of `supervise()` ends. -/
inductive Result (ε : Type*)
  | returned
  | raised (e : ε)
  /-- An action that is neither `False`, `None` nor a number, or a negative sleep. -/
  | valueError
  /-- `assert connection not in self._entries`. -/
  | assertionError
  /-- A listener without a task. -/
  | runtimeError
  | cancelled
  deriving DecidableEq, Repr

/-- An exception that goes on to the nursery. -/
def Result.isError : Result ε → Bool
  | .returned | .cancelled => false
  | .raised _ | .valueError | .assertionError | .runtimeError => true

/-- What a call of `supervise()` is waiting for. -/
inductive Phase (ε : Type*)
  /-- `await connection.open()`. -/
  | opening
  /-- The nursery with the task, or the bare wait for the disconnection. -/
  | attending
  | sleeping (x : ℚ)
  | done (r : Result ε)
  deriving DecidableEq, Repr

/-- Where the supervision task of a connection is: `ConnectionSupervisor.supervise()` sets up the
call of the module-level `supervise()`, and cleans up after it. -/
inductive Stage (ε : Type*)
  /-- Spawned with `start_soon`, not run yet. -/
  | starting
  /-- Inside the module-level `supervise()`. -/
  | looping (ph : Phase ε)
  /-- In the `finally` clause, inside `connection.close()`. -/
  | closing (r : Result ε)
  /-- The call is over; a `Cancelled` that comes out of it ends at its own scope. -/
  | finished (r : Result ε)
  deriving DecidableEq, Repr

/-- How the wait of the loop ends. -/
inductive Event (ε : Type*)
  | opened
  /-- An `Exception` left the `try` block. -/
  | failed (e : ε)
  /-- The `try` block ended normally. -/
  | ended
  | slept
  | cancelled
  deriving DecidableEq, Repr

/-- A `Cancelled` raised at the checkpoint. -/
def Event.isCancelled : Event ε → Bool
  | .cancelled => true
  | _ => false

/-- What is noted of a call of `supervise()`. -/
inductive Note (ε : Type*)
  /-- The policy was called, and returned or raised. -/
  | asked (arg : PolicyArg ε) (answer : Except ε Action)
  /-- The loop acts on an answer. -/
  | acted (a : Action)

/-- A policy, asked in the course of a stretch. -/
abbrev Ask (ε : Type*) := List (Note ε) → PolicyArg ε → Except ε Action

/-- `if action is False or action is None: break`, and so on. -/
def afterAction (a : Action) : Phase ε :=
  match a.verdict with
  | .stop => .done .returned
  | .sleep x => if x < 0 then .done .valueError else .sleeping x
  | .invalid => .done .valueError

/-- `action = policy(connection, arg)`, and what follows from it. -/
def verdict (ask : Ask ε) (notes : List (Note ε)) (arg : PolicyArg ε) : Phase ε × List (Note ε) :=
  match ask notes arg with
  | .ok a => (afterAction a, notes ++ [.asked arg (.ok a), .acted a])
  | .error e => (.done (.raised e), notes ++ [.asked arg (.error e)])

/-- `policy(connection, "open")`, which stands inside the `try` block. -/
def announce (ask : Ask ε) : Phase ε × List (Note ε) :=
  match ask [] .opened with
  | .ok a => (.attending, [.asked .opened (.ok a)])
  | .error e => verdict ask [.asked .opened (.error e)] (.exn e)

/-- `supervise()`, from the end of one wait to the next. -/
def step (ask : Ask ε) : Phase ε → Event ε → Option (Phase ε × List (Note ε))
  | .opening, .opened => some (announce ask)
  | .opening, .failed e | .attending, .failed e => some (verdict ask [] (.exn e))
  | .attending, .ended => some (verdict ask [] .closed)
  | .sleeping _, .slept => some (.opening, [])
  | .opening, .cancelled | .attending, .cancelled | .sleeping _, .cancelled =>
    some (.done .cancelled, [])
  | _, _ => none

end FlockwaveConn.Supervision
