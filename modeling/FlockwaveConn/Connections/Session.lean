import FlockwaveConn.Connections.Exclusive

/-!
# Connections/Session — the tasks that stand behind a connection

Some classes leave the work of `_open()` to a task of a nursery: `_open()` starts it, waits until it
reports that it has started, and `_close()` cancels it.  Each `_open()` begins a *session*, and
sessions are numbered: the task, the cancel scope and the event of a session go by its number.
-/

namespace FlockwaveConn

/-- The task of a session. -/
inductive Runner
  /-- There is none. -/
  | absent
  /-- Not scheduled yet. -/
  | spawned
  /-- In `_run()`, which has not called `started()` yet. -/
  | starting
  | running
  /-- No longer in `_run()`. -/
  | ended (started : Bool)
  deriving DecidableEq, Repr

namespace Runner

/-- On its way to the end of `_run()`. -/
def isActive : Runner → Bool
  | spawned | starting | running => true
  | absent | ended _ => false

/-- `started()` has been called. -/
def hasStarted : Runner → Bool
  | running | ended true => true
  | _ => false

end Runner

/-- How `_run()` ends, as seen from the `with` block of the cancel scope of its session. -/
inductive Ending
  | returned
  | raised
  /-- By the cancellation of this scope. -/
  | scopeCancelled
  /-- By the cancellation of a scope around it. -/
  | cancelledOutside
  deriving DecidableEq, Repr

/-- The nursery, with the tasks, the cancel scopes and the events of all sessions. -/
structure Nursery where
  /-- The number of the next session. -/
  sessions : ℕ
  runner : ℕ → Runner
  scopeCancelled : ℕ → Bool
  eventSet : ℕ → Bool
  cancelled : Bool
  closed : Bool

namespace Nursery

def init : Nursery where
  sessions := 0
  runner := fun _ => .absent
  scopeCancelled := fun _ => false
  eventSet := fun _ => false
  cancelled := false
  closed := false

/-- `nursery.start()`, to where it waits for the new task. -/
def start (s : Nursery) : Nursery :=
  { s with sessions := s.sessions + 1, runner := Function.update s.runner s.sessions .spawned }

/-- A session that gets no task. -/
def refuse (s : Nursery) : Nursery := { s with sessions := s.sessions + 1 }

def setRunner (n : ℕ) (r : Runner) (s : Nursery) : Nursery :=
  { s with runner := Function.update s.runner n r }

/-- `CancelScope.cancel()`. -/
def cancelScope (n : ℕ) (s : Nursery) : Nursery :=
  { s with scopeCancelled := Function.update s.scopeCancelled n true }

/-- `Event.set()`. -/
def setEvent (n : ℕ) (s : Nursery) : Nursery :=
  { s with eventSet := Function.update s.eventSet n true }

/-- Whether `_run()` of a session can end in some way now.  Before `started()` the task runs under
the scopes of the task that opens the connection, and what cancels those is not in the model. -/
def canEnd (s : Nursery) (n : ℕ) (e : Ending) : Bool :=
  (s.runner n == .starting || s.runner n == .running) &&
    match e with
    | .returned | .raised => true
    | .scopeCancelled => s.scopeCancelled n && (s.runner n == .starting || !s.cancelled)
    | .cancelledOutside => s.runner n == .starting || s.cancelled

/-- `_run()` of a session is over. -/
def endRunner (n : ℕ) (s : Nursery) : Nursery := s.setRunner n (.ended (s.runner n).hasStarted)

variable {s : Nursery} {n m : ℕ}

@[simp] theorem start_runner_self : s.start.runner s.sessions = .spawned :=
  Function.update_self ..

theorem start_runner_of_ne (h : m ≠ s.sessions) : s.start.runner m = s.runner m :=
  Function.update_of_ne h ..

@[simp] theorem setRunner_self {r : Runner} : (s.setRunner n r).runner n = r :=
  Function.update_self ..

theorem setRunner_of_ne {r : Runner} (h : m ≠ n) : (s.setRunner n r).runner m = s.runner m :=
  Function.update_of_ne h ..

@[simp] theorem setEvent_self : (s.setEvent n).eventSet n = true := Function.update_self ..

theorem setEvent_of_ne (h : m ≠ n) : (s.setEvent n).eventSet m = s.eventSet m :=
  Function.update_of_ne h ..

theorem isActive_of_canEnd {e : Ending} (h : s.canEnd n e) : (s.runner n).isActive := by
  cases hr : s.runner n <;> simp [canEnd, hr] at h <;> rfl

end Nursery

/-! ## Where a task stands, direction only -/

/-- The method a task is in. -/
def Place.direction : Place → Option Direction
  | .outside => none
  | .joined d _ | .queued d _ | .inside d => some d

namespace Place

@[simp] theorem direction_outside : outside.direction = none := rfl

@[simp] theorem direction_joined (d : Direction) (w : Bool) : (joined d w).direction = some d := rfl

@[simp] theorem direction_queued (d : Direction) (w : Bool) : (queued d w).direction = some d := rfl

@[simp] theorem direction_inside (d : Direction) : (inside d).direction = some d := rfl

@[simp] theorem direction_eq_none {p : Place} : p.direction = none ↔ p = outside := by
  cases p <;> simp

@[simp] theorem direction_wake (p : Place) (e : Direction) :
    (p.wake e).direction = p.direction := by cases p <;> rfl

@[simp] theorem wake_eq_outside {p : Place} {e : Direction} : p.wake e = outside ↔ p = outside := by
  cases p <;> simp [wake]

/-- Who joined a transition is woken by the end it is to have. -/
theorem joined_of_wake {p : Place} {d e : Direction} (h : p.wake e = joined d true) (hde : d ≠ e) :
    p = joined d true := by
  cases p with
  | joined d' w =>
    obtain ⟨rfl, hw⟩ : d' = d ∧ (w || decide (d' = e)) = true := by simpa [wake] using h
    simpa [hde] using hw
  | _ => simp [wake] at h

end Place

namespace ConnectionBase

variable {Task : Type*} {c : ConnectionBase Task}

/-- **A task goes on from a wait in a state it can make something of**: no transition is under way,
and an `open()` finds the connection `DISCONNECTED`. -/
def Orderly (c : ConnectionBase Task) : Label Task → Prop
  | .resume t => ∀ d, c.place t = .queued d true →
      c.state.isTransitioning = false ∧ (d = .up → c.state = .disconnected)
  | _ => True

/-- A change of state takes no task into a method or out of it. -/
@[simp] theorem setState_place_direction (c : ConnectionBase Task) (n : ConnectionState)
    (t : Task) : ((c.setState n).place t).direction = (c.place t).direction := by
  obtain ⟨s, fc, fd, sig, pl⟩ := c
  cases s <;> cases n <;> cases fc <;> cases fd <;>
    simp [setState, send, setIsConnected, setIsDisconnected]

variable [DecidableEq Task] {t u : Task} {d : Direction}

/-- Who goes into `_open()` or `_close()` wakes nobody. -/
theorem enter_place (hf : c.FlagsAgree) (d : Direction) (t u : Task) :
    (c.enter d t).place u = if u = t then .inside d else c.place u := by
  rw [enter, put_place, setState_place hf, wakeAt_transition]
  simp

theorem leave_place_direction (c : ConnectionBase Task) (d : Direction) (o : Outcome)
    (t u : Task) :
    ((c.leave d o t).place u).direction = if u = t then none else (c.place u).direction := by
  rw [leave, put_place]
  split <;> simp

/-- Who has been woken after a transition that ended the other way had been woken before. -/
theorem joined_of_leave {e : Direction} {o : Outcome} (hf : c.FlagsAgree)
    (h : (c.leave d o t).place u = .joined e true) (he : (c.leave d o t).state ≠ e.target) :
    c.place u = .joined e true := by
  obtain ⟨x, hx⟩ : ∃ x : Direction, (if o.success then d.target else d.reverse.target) = x.target :=
    ⟨if o.success then d else d.reverse, (apply_ite _ _ _ _).symm⟩
  rw [leave_state, hx] at he
  rw [leave, hx, put_place, setState_place hf, wakeAt_target] at h
  split at h
  · cases h
  split at h
  · exact h
  · exact Place.joined_of_wake h fun hex => he (hex ▸ rfl)

end ConnectionBase

end FlockwaveConn
