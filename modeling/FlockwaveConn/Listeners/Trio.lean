import FlockwaveConn.Connections.Session
import FlockwaveConn.Listeners.Base

/-!
# Listeners/Trio — a listener that is served by a task

`TrioListenerBase` starts a task in `_open()`, and `_close()` cancels it and waits until it has
exited.  When `_run()` of the task ends by itself, the task has a `close()` of the listener
scheduled in the nursery: another task, which finds the listener in whatever state it is by then.

The base class is `ListenerBase`, with receivers that do not raise; it is read as a connection
throughout.
-/

namespace FlockwaveConn

/-- A `TrioListenerBase` with a nursery, the tasks that use it (`inl`) and the tasks that close it
on behalf of its sessions (`inr`). -/
structure TrioListener (User : Type*) where
  base : ListenerBase (User ⊕ ℕ)
  nursery : Nursery
  /-- The sessions with a `close()` that is scheduled and has not begun. -/
  scheduled : ℕ → Bool
  /-- `_cancel_scope`, by its session. -/
  cancelScope : Option ℕ
  /-- `_task_exited`, by its session. -/
  taskExited : Option ℕ
  /-- The session that a task in `_open()` starts, or whose event a task in `_close()` waits for. -/
  session : User ⊕ ℕ → ℕ

namespace TrioListener

variable {User : Type*}

/-- `TrioListenerBase.__init__`, with a nursery. -/
def init : TrioListener User where
  base := .init
  nursery := .init
  scheduled := fun _ => false
  cancelScope := none
  taskExited := none
  session := fun _ => 0

/-- The receivers of the signals do not raise. -/
def silent : ListenerSignal → Bool := fun _ => false

variable [DecidableEq User]

/-- `TrioListenerBase._open`, to its first wait: a closed nursery takes no task. -/
def open_ (t : User ⊕ ℕ) (c : TrioListener User) : TrioListener User :=
  if c.nursery.closed then
    { c with base := c.base.leaveOpen silent false t, nursery := c.nursery.refuse }
  else
    { c with nursery := c.nursery.start
             session := Function.update c.session t c.nursery.sessions }

/-- `TrioListenerBase._close`, to its first wait or to the end of `close()`. -/
def close (t : User ⊕ ℕ) (c : TrioListener User) : TrioListener User :=
  let c := { c with nursery := c.cancelScope.elim c.nursery c.nursery.cancelScope
                    cancelScope := none }
  match c.taskExited with
  | some m => { c with session := Function.update c.session t m }
  | none => { c with base := c.base.leaveClose silent true t }

/-- A task that has just gone into `_open()` or `_close()` runs on in it. -/
def proceed (t : User ⊕ ℕ) (c : TrioListener User) : TrioListener User :=
  match c.base.place t with
  | .inside .up => c.open_ t
  | .inside .down => c.close t
  | _ => c

/-- `_run_internal_trio_task()`, to `_run()`. -/
def begin (n : ℕ) (c : TrioListener User) : TrioListener User :=
  { c with nursery := c.nursery.setRunner n .starting, cancelScope := some n, taskExited := some n }

/-- What follows the `with` block. -/
def exits (c : TrioListener User) : TrioListener User :=
  { c with cancelScope := none, nursery := c.taskExited.elim c.nursery c.nursery.setEvent }

/-- `_run_internal_trio_task()`, from the end of `_run()`. -/
def ends (n : ℕ) (e : Ending) (c : TrioListener User) : TrioListener User :=
  let c := { c with nursery := c.nursery.endRunner n }
  match e with
  -- `_handle_exception()` has had the exception
  | .returned | .raised => { c with scheduled := Function.update c.scheduled n true }.exits
  -- out of the `try` block, but not out of the `with` block
  | .scopeCancelled => c.exits
  | .cancelledOutside => c

/-- The atomic stretches of all tasks. -/
inductive Label (User : Type*)
  /-- A task calls `open()` or `close()`. -/
  | call (d : Direction) (t : User)
  /-- The `close()` scheduled for a session begins. -/
  | runScheduled (n : ℕ)
  /-- A woken task is scheduled. -/
  | resume (t : User ⊕ ℕ)
  /-- A wait for a flag is left by an exception. -/
  | interrupt (t : User ⊕ ℕ)
  /-- `_open()` or `_close()` ends. -/
  | finish (t : User ⊕ ℕ) (o : Outcome)
  /-- The task of a session is scheduled for the first time. -/
  | begin (n : ℕ)
  /-- It calls `started()`. -/
  | started (n : ℕ)
  /-- Its `_run()` ends. -/
  | ends (n : ℕ) (e : Ending)
  | cancelNursery
  /-- The nursery has no more tasks, and its block is left. -/
  | closeNursery

/-- Whether a wait can be left by a cancellation: a scheduled `close()` is cancelled with the
nursery. -/
def canCancel (c : TrioListener User) : User ⊕ ℕ → Bool
  | .inl _ => true
  | .inr _ => c.nursery.cancelled

/-- Whether `_open()` or `_close()` can end in some way now. -/
def canFinish (c : TrioListener User) (t : User ⊕ ℕ) (o : Outcome) : Bool :=
  match c.base.place t, o with
  -- `nursery.start()` returns once the task has started, and does not end before the task has, if
  -- that has not started
  | .inside .up, .returned => (c.nursery.runner (c.session t)).hasStarted
  | .inside .up, _ => c.nursery.runner (c.session t) == .ended false
  | .inside .down, .returned => c.nursery.eventSet (c.session t)
  | .inside .down, .cancelled => c.canCancel t
  | _, _ => false

/-- One atomic stretch. -/
def step (c : TrioListener User) : Label User → Option (TrioListener User)
  | .call d t =>
    (c.base.step (.call d (.inl t), silent)).map fun b => { c with base := b }.proceed (.inl t)
  | .runScheduled n =>
    if c.scheduled n then
      (c.base.step (.call .down (.inr n), silent)).map fun b =>
        { c with base := b, scheduled := Function.update c.scheduled n false }.proceed (.inr n)
    else none
  | .resume t => (c.base.step (.resume t, silent)).map fun b => { c with base := b }.proceed t
  | .interrupt t =>
    if c.canCancel t then (c.base.step (.interrupt t, silent)).map fun b => { c with base := b }
    else none
  | .finish t o =>
    if c.canFinish t o then (c.base.step (.finish t o, silent)).map fun b => { c with base := b }
    else none
  | .begin n => if c.nursery.runner n = .spawned then some (c.begin n) else none
  | .started n =>
    if c.nursery.runner n = .starting then
      some { c with nursery := c.nursery.setRunner n .running }
    else none
  | .ends n e => if c.nursery.canEnd n e then some (c.ends n e) else none
  | .cancelNursery => some { c with nursery := { c.nursery with cancelled := true } }
  | .closeNursery =>
    if ∀ n < c.nursery.sessions, (c.nursery.runner n).isActive = false ∧ c.scheduled n = false ∧
        c.base.place (.inr n) = .outside then
      some { c with nursery := { c.nursery with closed := true } }
    else none

end TrioListener

/-- **A listener, its users, its tasks and those that close it for them.** -/
def trioListener (User : Type*) [DecidableEq User] :
    Machine (TrioListener User) (TrioListener.Label User) where
  init := .init
  step := TrioListener.step

end FlockwaveConn
