import FlockwaveConn.Connections.Session

/-!
# Connections/TaskConnection — a connection that is open while its task runs

`TaskConnectionBase` starts a task in `_open()` and cancels it in `_close()`.  The task calls
`close()` of the connection when `_run()` is over, as a task like any other; that call stands behind
the cancel scope, so it is made after a return and after a cancellation by `_close()`, and skipped
after an exception or when the nursery is cancelled.
-/

namespace FlockwaveConn

/-- A `TaskConnectionBase` with a nursery, the tasks that use it (`inl`) and the tasks of its
sessions (`inr`). -/
structure TaskConnection (User : Type*) where
  base : ConnectionBase (User ⊕ ℕ)
  nursery : Nursery
  /-- `_cancel_scope`, by its session. -/
  cancelScope : Option ℕ
  /-- `_closed_event`, by its session. -/
  closedEvent : Option ℕ
  /-- The session that a task in `_open()` starts, or whose event a task in `_close()` waits for. -/
  session : User ⊕ ℕ → ℕ
  /-- The session of the latest `open()` that has succeeded. -/
  opened : Option ℕ

namespace TaskConnection

variable {User : Type*}

/-- As `assign_nursery()` leaves it. -/
def init : TaskConnection User where
  base := .init
  nursery := .init
  cancelScope := none
  closedEvent := none
  session := fun _ => 0
  opened := none

variable [DecidableEq User]

/-- `TaskConnectionBase._open`, to its first wait: a closed nursery takes no task. -/
def open_ (t : User ⊕ ℕ) (c : TaskConnection User) : TaskConnection User :=
  let c := { c with closedEvent := some c.nursery.sessions }
  if c.nursery.closed then
    { c with base := c.base.leave .up .raised t, nursery := c.nursery.refuse }
  else
    { c with nursery := c.nursery.start
             session := Function.update c.session t c.nursery.sessions }

/-- `TaskConnectionBase._close`, to its first wait or to the end of `close()`. -/
def close (t : User ⊕ ℕ) (c : TaskConnection User) : TaskConnection User :=
  match c.cancelScope with
  | none => { c with base := c.base.leave .down .returned t }
  | some n =>
    let c := { c with cancelScope := none, nursery := c.nursery.cancelScope n }
    match c.closedEvent with
    | none => { c with base := c.base.leave .down .returned t }
    | some m => { c with session := Function.update c.session t m }

/-- A task that has just gone into `_open()` or `_close()` runs on in it. -/
def proceed (t : User ⊕ ℕ) (c : TaskConnection User) : TaskConnection User :=
  match c.base.place t with
  | .inside .up => c.open_ t
  | .inside .down => c.close t
  | _ => c

/-- A call to `open()` or `close()`, to its first wait or to its end. -/
def request (d : Direction) (t : User ⊕ ℕ) (c : TaskConnection User) : TaskConnection User :=
  { c with base := c.base.request d t }.proceed t

/-- The atomic stretches of all tasks. -/
inductive Label (User : Type*)
  /-- A task calls `open()` or `close()`. -/
  | call (d : Direction) (t : User)
  /-- A woken task is scheduled. -/
  | resume (t : User ⊕ ℕ)
  /-- A wait for a flag is left by an exception. -/
  | interrupt (t : User ⊕ ℕ)
  /-- `_open()` or `_close()` ends. -/
  | finish (t : User ⊕ ℕ) (o : Outcome)
  /-- The task of a session is scheduled for the first time. -/
  | begin (n : ℕ)
  /-- It calls `started()`. -/
  | started (n : ℕ)
  /-- Its `_run()` ends. -/
  | ends (n : ℕ) (e : Ending)
  | cancelNursery
  /-- The nursery has no more tasks, and its block is left. -/
  | closeNursery

/-- Whether a wait can be left by a cancellation: the task of a session is cancelled with the
nursery, or, as long as it has not reported that it started, with the task that opens. -/
def canCancel (c : TaskConnection User) : User ⊕ ℕ → Bool
  | .inl _ => true
  | .inr n => c.nursery.cancelled || c.nursery.runner n == .ended false

/-- The `finally` clause of `_create_cancel_scope_and_run()`, and what follows the `with` block. -/
def ends (n : ℕ) (e : Ending) (c : TaskConnection User) : TaskConnection User :=
  let r := c.nursery.runner n
  let c := { c with nursery := c.nursery.endRunner n }
  let c := { c with nursery := c.closedEvent.elim c.nursery c.nursery.setEvent }
  match e with
  | .returned | .scopeCancelled => c.request .down (.inr n)
  | .cancelledOutside => c
  -- once started, the task belongs to the nursery, which is cancelled by the exception of a child
  | .raised =>
    { c with nursery := { c.nursery with cancelled := c.nursery.cancelled || r.hasStarted } }

/-- One atomic stretch. -/
def step (c : TaskConnection User) : Label User → Option (TaskConnection User)
  | .call d t => if c.base.place (.inl t) = .outside then some (c.request d (.inl t)) else none
  | .resume t => (c.base.step (.resume t)).map fun b => { c with base := b }.proceed t
  | .interrupt t =>
    if c.canCancel t then (c.base.step (.interrupt t)).map fun b => { c with base := b } else none
  | .finish t o =>
    match c.base.place t, o with
    -- `nursery.start()` returns once the task has started
    | .inside .up, .returned =>
      if (c.nursery.runner (c.session t)).hasStarted then
        some { c with base := c.base.leave .up .returned t
                      cancelScope := some (c.session t)
                      opened := some (c.session t) }
      else none
    -- …and does not end before the task has, if it has not started
    | .inside .up, o =>
      if c.nursery.runner (c.session t) = .ended false ∧
          c.base.place (.inr (c.session t)) = .outside then
        some { c with base := c.base.leave .up o t }
      else none
    | .inside .down, .returned =>
      if c.nursery.eventSet (c.session t) then
        some { c with base := c.base.leave .down .returned t }
      else none
    | .inside .down, .cancelled =>
      if c.canCancel t then some { c with base := c.base.leave .down .cancelled t } else none
    | _, _ => none
  | .begin n =>
    if c.nursery.runner n = .spawned then
      some { c with nursery := c.nursery.setRunner n .starting }
    else none
  | .started n =>
    if c.nursery.runner n = .starting then
      some { c with nursery := c.nursery.setRunner n .running }
    else none
  | .ends n e => if c.nursery.canEnd n e then some (c.ends n e) else none
  | .cancelNursery => some { c with nursery := { c.nursery with cancelled := true } }
  | .closeNursery =>
    if ∀ n < c.nursery.sessions, (c.nursery.runner n).isActive = false ∧
        c.base.place (.inr n) = .outside then
      some { c with nursery := { c.nursery with closed := true } }
    else none

end TaskConnection

/-- **A task connection, its users and the tasks of its sessions.** -/
def taskConnection (User : Type*) [DecidableEq User] :
    Machine (TaskConnection User) (TaskConnection.Label User) where
  init := .init
  step := TaskConnection.step

end FlockwaveConn
