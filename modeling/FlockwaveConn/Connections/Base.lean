import Mathlib.Tactic
import FlockwaveConn.Machinery.Transition

/-!
# Connections/Base — `ConnectionBase`, with any number of tasks inside its methods

Tasks switch at an `await` only, so the body of `open()` and `close()` falls into atomic stretches:
from the call to the first wait (or to `_open()`), from the end of a wait to `_open()`, and from the
end of `_open()` to the return.  Each stretch is one label, and `connectionBase` is the machine of
all of them.

`open()` and `close()` are one method read in two directions: `Direction.up` is `open()` with
`CONNECTING` and `CONNECTED`, `Direction.down` is `close()` with `DISCONNECTING` and `DISCONNECTED`.
-/

namespace FlockwaveConn

/-- The four states a connection can be in. -/
inductive ConnectionState
  | disconnected
  | connecting
  | connected
  | disconnecting
  deriving DecidableEq, Repr

/-- `ConnectionState.is_transitioning`. -/
def ConnectionState.isTransitioning : ConnectionState → Bool
  | .connecting | .disconnecting => true
  | .disconnected | .connected => false

/-- What a connection sends to those who listen to its signals. -/
inductive Signal
  | stateChanged (oldState newState : ConnectionState)
  | connected
  | disconnected
  deriving DecidableEq, Repr

/-! ## The two directions -/

/-- `open()` goes up, `close()` goes down. -/
inductive Direction
  | up
  | down
  deriving DecidableEq, Repr

namespace Direction

instance : Fintype Direction := ⟨{up, down}, fun d => by cases d <;> decide⟩

/-- The state the method is to end in. -/
def target : Direction → ConnectionState
  | up => .connected
  | down => .disconnected

/-- The state while `_open()` (`_close()`) runs. -/
def transition : Direction → ConnectionState
  | up => .connecting
  | down => .disconnecting

/-- The other method. -/
def reverse : Direction → Direction
  | up => down
  | down => up

@[simp] theorem reverse_reverse (d : Direction) : d.reverse.reverse = d := by cases d <;> rfl

@[simp] theorem reverse_ne (d : Direction) : d.reverse ≠ d := by cases d <;> decide

@[simp] theorem ne_reverse (d : Direction) : d ≠ d.reverse := by cases d <;> decide

@[simp] theorem reverse_eq_iff {d e : Direction} : d.reverse = e ↔ d = e.reverse := by
  cases d <;> cases e <;> decide

theorem eq_or_eq_reverse (d e : Direction) : e = d ∨ e = d.reverse := by
  cases d <;> cases e <;> decide

@[simp] theorem target_inj {d e : Direction} : d.target = e.target ↔ d = e := by
  cases d <;> cases e <;> decide

@[simp] theorem transition_inj {d e : Direction} : d.transition = e.transition ↔ d = e := by
  cases d <;> cases e <;> decide

@[simp] theorem target_ne_transition (d e : Direction) : d.target ≠ e.transition := by
  cases d <;> cases e <;> decide

@[simp] theorem transition_ne_target (d e : Direction) : d.transition ≠ e.target :=
  (target_ne_transition e d).symm

@[simp] theorem isTransitioning_target (d : Direction) : d.target.isTransitioning = false := by
  cases d <;> rfl

@[simp] theorem isTransitioning_transition (d : Direction) :
    d.transition.isTransitioning = true := by cases d <;> rfl

/-- A state is the end of a method or the way to it. -/
theorem state_cases (s : ConnectionState) : ∃ d : Direction, s = d.target ∨ s = d.transition := by
  cases s
  · exact ⟨down, .inl rfl⟩
  · exact ⟨up, .inr rfl⟩
  · exact ⟨up, .inl rfl⟩
  · exact ⟨down, .inr rfl⟩

/-- What is left of the four states: the other end. -/
theorem eq_reverse_target {d : Direction} {s : ConnectionState} (h1 : s ≠ d.target)
    (h2 : s ≠ d.transition) (h3 : s ≠ d.reverse.transition) : s = d.reverse.target := by
  obtain ⟨e, he | he⟩ := state_cases s <;> rcases eq_or_eq_reverse d e with rfl | rfl
  · exact absurd he h1
  · exact he
  · exact absurd he h2
  · exact absurd he h3

end Direction

/-! ## Where a task stands -/

/-- Where a task stands with respect to one connection.  A wait on an `AsyncBool` ends at some step
after the flag was `True`; `woken` says that it has been so since the call. -/
inductive Place
  /-- Not in `open()` and not in `close()`. -/
  | outside
  /-- `return await self.wait_until_…()`: another task does what this one was called for. -/
  | joined (d : Direction) (woken : Bool)
  /-- `await self.wait_until_…()` for the end of the opposite transition, and then goes on. -/
  | queued (d : Direction) (woken : Bool)
  /-- Inside `_open()` or `_close()`. -/
  | inside (d : Direction)
  deriving DecidableEq, Repr

namespace Place

/-- The flag a task is blocked on: the one of this direction's target. -/
def blockedOn : Place → Option Direction
  | joined d false => some d
  | queued d false => some d.reverse
  | _ => none

/-- Scheduled to leave its wait. -/
def isWoken : Place → Bool
  | joined _ w => w
  | queued _ w => w
  | _ => false

/-- The flag of a direction's target has become `True`. -/
def wake (e : Direction) : Place → Place
  | joined d w => joined d (w || d = e)
  | queued d w => queued d (w || d.reverse = e)
  | p => p

@[simp] theorem blockedOn_outside : outside.blockedOn = none := rfl

@[simp] theorem blockedOn_inside (d : Direction) : (inside d).blockedOn = none := rfl

@[simp] theorem wake_outside (e : Direction) : outside.wake e = outside := rfl

@[simp] theorem wake_eq_inside {p : Place} {d e : Direction} :
    p.wake e = inside d ↔ p = inside d := by
  cases p <;> simp [wake]

theorem blockedOn_wake (p : Place) (e : Direction) :
    (p.wake e).blockedOn = if p.blockedOn = some e then none else p.blockedOn := by
  cases p with
  | outside | inside d => simp [wake]
  | joined d w | queued d w => cases w <;> cases d <;> cases e <;> rfl

/-- Waking only ever takes a task out of a wait. -/
theorem blockedOn_of_wake {p : Place} {d e : Direction} (h : (p.wake e).blockedOn = some d) :
    p.blockedOn = some d ∧ d ≠ e := by
  rw [blockedOn_wake] at h
  split at h
  · cases h
  · next hne => exact ⟨h, fun hde => hne (hde ▸ h)⟩

end Place

/-- A connection object, with the place of every task that uses it. -/
structure ConnectionBase (Task : Type*) where
  state : ConnectionState
  isConnected : Bool
  isDisconnected : Bool
  /-- The signals sent so far, oldest first. -/
  signals : List Signal
  place : Task → Place

/-- How `_open()` or `_close()` ends. -/
inductive Outcome
  | returned
  | raised
  | cancelled
  deriving DecidableEq, Repr

/-- The `success` variable of `open()` and `close()`. -/
def Outcome.success : Outcome → Bool
  | .returned => true
  | .raised | .cancelled => false

namespace ConnectionBase

variable {Task : Type*}

/-- `ConnectionBase.__init__`. -/
def init : ConnectionBase Task where
  state := .disconnected
  isConnected := false
  isDisconnected := true
  signals := []
  place := fun _ => .outside

/-- `send()` of one of the three signals, to receivers that do not raise. -/
def send (x : Signal) (c : ConnectionBase Task) : ConnectionBase Task :=
  { c with signals := c.signals ++ [x] }

/-- The setter of an `AsyncBool` wakes those who wait for the value. -/
def setIsConnected (v : Bool) (c : ConnectionBase Task) : ConnectionBase Task :=
  { c with isConnected := v, place := if v then fun t => (c.place t).wake .up else c.place }

/-- …and the other flag. -/
def setIsDisconnected (v : Bool) (c : ConnectionBase Task) : ConnectionBase Task :=
  { c with isDisconnected := v, place := if v then fun t => (c.place t).wake .down else c.place }

/-- `ConnectionBase._set_state`. -/
def setState (newState : ConnectionState) (c : ConnectionBase Task) : ConnectionBase Task :=
  let oldState := c.state
  if newState = oldState then c else
  let c := { c with state := newState }
  let c := c.send (.stateChanged oldState newState)
  let c := if !c.isConnected && newState = .connected then (c.setIsConnected true).send .connected
    else c
  let c := if !c.isDisconnected && newState = .disconnected then
      (c.setIsDisconnected true).send .disconnected
    else c
  let c := if c.isConnected && newState ≠ .connected then c.setIsConnected false else c
  let c := if c.isDisconnected && newState ≠ .disconnected then c.setIsDisconnected false else c
  c

/-- The flag behind `wait_until_connected()` and the one behind `wait_until_disconnected()`. -/
def flag (c : ConnectionBase Task) : Direction → Bool
  | .up => c.isConnected
  | .down => c.isDisconnected

variable [DecidableEq Task]

/-- The task moves to another place. -/
def put (t : Task) (p : Place) (c : ConnectionBase Task) : ConnectionBase Task :=
  { c with place := Function.update c.place t p }

/-- `self._set_state(CONNECTING)`, then into `_open()`. -/
def enter (d : Direction) (t : Task) (c : ConnectionBase Task) : ConnectionBase Task :=
  (c.setState d.transition).put t (.inside d)

/-- The `finally` clause: `_open()` has ended, so the method ends. -/
def leave (d : Direction) (o : Outcome) (t : Task) (c : ConnectionBase Task) :
    ConnectionBase Task :=
  (c.setState (if o.success then d.target else d.reverse.target)).put t .outside

/-- A method of a connection, from its call to its first wait. -/
def request (d : Direction) (t : Task) (c : ConnectionBase Task) : ConnectionBase Task :=
  if c.state = d.target then c
  else if c.state = d.transition then c.put t (.joined d (c.flag d))
  else if c.state = d.reverse.transition then c.put t (.queued d (c.flag d.reverse))
  else c.enter d t

/-- `ConnectionBase.open`. -/
def open_ (t : Task) (c : ConnectionBase Task) : ConnectionBase Task := c.request .up t

/-- `ConnectionBase.close`. -/
def close (t : Task) (c : ConnectionBase Task) : ConnectionBase Task := c.request .down t

/-- The atomic stretches of `open()` and `close()`. -/
inductive Label (Task : Type*)
  /-- A task calls `open()` or `close()`. -/
  | call (d : Direction) (t : Task)
  /-- A woken task is scheduled. -/
  | resume (t : Task)
  /-- A wait is left by an exception. -/
  | interrupt (t : Task)
  /-- `_open()` or `_close()` ends. -/
  | finish (t : Task) (o : Outcome)

/-- The task that runs. -/
def Label.task : Label Task → Task
  | .call _ t | .resume t | .interrupt t | .finish t _ => t

/-- One atomic stretch. -/
def step (c : ConnectionBase Task) : Label Task → Option (ConnectionBase Task)
  | .call .up t => if c.place t = .outside then some (c.open_ t) else none
  | .call .down t => if c.place t = .outside then some (c.close t) else none
  | .resume t =>
    match c.place t with
    | .joined _ true => some (c.put t .outside)
    | .queued d true => some (c.enter d t)
    | _ => none
  | .interrupt t =>
    match c.place t with
    | .joined _ _ | .queued _ _ => some (c.put t .outside)
    | _ => none
  | .finish t o =>
    match c.place t with
    | .inside d => some (c.leave d o t)
    | _ => none

end ConnectionBase

/-- **A connection and its tasks.** -/
def connectionBase (Task : Type*) [DecidableEq Task] :
    Machine (ConnectionBase Task) (ConnectionBase.Label Task) where
  init := .init
  step := ConnectionBase.step

namespace ConnectionBase

variable {Task : Type*}

/-! ## What `_set_state` does

`_set_state` reads the old flags in each of its four guards.  Where they agree with the old state
the four blocks come down to: the flags agree with the new one, and the waiters of the flag that
became `True` are woken. -/

/-- The two flags say what the state is. -/
def FlagsAgree (c : ConnectionBase Task) : Prop := ∀ d, c.flag d = decide (c.state = d.target)

/-- The signals of one change of state. -/
def signalsOf (x : ConnectionState × ConnectionState) : List Signal :=
  .stateChanged x.1 x.2 ::
    match x.2 with
    | .connected => [.connected]
    | .disconnected => [.disconnected]
    | _ => []

/-- Who is woken when a state is entered. -/
def wakeAt : ConnectionState → Place → Place
  | .connected => Place.wake .up
  | .disconnected => Place.wake .down
  | _ => id

theorem setState_self {c : ConnectionBase Task} {n : ConnectionState} (h : n = c.state) :
    c.setState n = c := if_pos h

theorem setState_of_ne {c : ConnectionBase Task} {n : ConnectionState} (hf : c.FlagsAgree)
    (h : n ≠ c.state) :
    c.setState n =
      { state := n
        isConnected := decide (n = .connected)
        isDisconnected := decide (n = .disconnected)
        signals := c.signals ++ signalsOf (c.state, n)
        place := fun t => wakeAt n (c.place t) } := by
  obtain ⟨s, fc, fd, sig, pl⟩ := c
  obtain rfl : fc = decide (s = .connected) := hf .up
  obtain rfl : fd = decide (s = .disconnected) := hf .down
  cases s <;> cases n <;>
    simp_all [setState, send, setIsConnected, setIsDisconnected, signalsOf, wakeAt]

@[simp] theorem setState_state (c : ConnectionBase Task) (n : ConnectionState) :
    (c.setState n).state = n := by
  obtain ⟨s, fc, fd, sig, pl⟩ := c
  cases s <;> cases n <;> cases fc <;> cases fd <;> rfl

theorem setState_flagsAgree {c : ConnectionBase Task} (hf : c.FlagsAgree) (n : ConnectionState) :
    (c.setState n).FlagsAgree := by
  by_cases h : n = c.state
  · rwa [setState_self h]
  · rw [setState_of_ne hf h]
    rintro (_ | _) <;> rfl

theorem setState_place {c : ConnectionBase Task} (hf : c.FlagsAgree) (n : ConnectionState)
    (t : Task) :
    (c.setState n).place t = if n = c.state then c.place t else wakeAt n (c.place t) := by
  by_cases h : n = c.state
  · rw [setState_self h, if_pos h]
  · rw [setState_of_ne hf h, if_neg h]

theorem wakeAt_transition (d : Direction) : wakeAt d.transition = id := by cases d <;> rfl

theorem wakeAt_target (d : Direction) : wakeAt d.target = Place.wake d := by cases d <;> rfl

/-- No change of state moves a task into `_open()` or `_close()`, or out of it. -/
@[simp] theorem setState_place_inside {c : ConnectionBase Task} {n : ConnectionState} {t : Task}
    {d : Direction} : (c.setState n).place t = .inside d ↔ c.place t = .inside d := by
  obtain ⟨s, fc, fd, sig, pl⟩ := c
  cases s <;> cases n <;> cases fc <;> cases fd <;>
    simp [setState, send, setIsConnected, setIsDisconnected]

/-! ## What a step does -/

variable [DecidableEq Task]

@[simp] theorem put_state (c : ConnectionBase Task) (t : Task) (p : Place) :
    (c.put t p).state = c.state := rfl

@[simp] theorem put_signals (c : ConnectionBase Task) (t : Task) (p : Place) :
    (c.put t p).signals = c.signals := rfl

@[simp] theorem put_flag (c : ConnectionBase Task) (t : Task) (p : Place) (d : Direction) :
    (c.put t p).flag d = c.flag d := by cases d <;> rfl

@[simp] theorem put_flagsAgree (c : ConnectionBase Task) (t : Task) (p : Place) :
    (c.put t p).FlagsAgree ↔ c.FlagsAgree :=
  ⟨fun h d => (put_flag c t p d).symm.trans (h d), fun h d => (put_flag c t p d).trans (h d)⟩

@[simp] theorem put_place_self (c : ConnectionBase Task) (t : Task) (p : Place) :
    (c.put t p).place t = p := Function.update_self ..

theorem put_place_of_ne (c : ConnectionBase Task) {t u : Task} (p : Place) (h : u ≠ t) :
    (c.put t p).place u = c.place u := Function.update_of_ne h ..

theorem put_place (c : ConnectionBase Task) (t u : Task) (p : Place) :
    (c.put t p).place u = if u = t then p else c.place u := Function.update_apply ..

/-- A task that is not where the other one moves to was there before. -/
theorem place_of_put {c : ConnectionBase Task} {t u : Task} {p q : Place}
    (h : (c.put t p).place u = q) (hq : q ≠ p) : u ≠ t ∧ c.place u = q := by
  rw [put_place] at h
  split at h
  · exact absurd h.symm hq
  · next hut => exact ⟨hut, h⟩

@[simp] theorem enter_state (c : ConnectionBase Task) (d : Direction) (t : Task) :
    (c.enter d t).state = d.transition := by simp [enter]

@[simp] theorem leave_state (c : ConnectionBase Task) (d : Direction) (o : Outcome) (t : Task) :
    (c.leave d o t).state = if o.success then d.target else d.reverse.target := by simp [leave]

/-- **Everything a step can do**, the guards included. -/
inductive Move (c : ConnectionBase Task) : Label Task → ConnectionBase Task → Prop
  /-- The state is the target already, so the method returns at once. -/
  | noop {d : Direction} {t : Task} (hout : c.place t = .outside) (hs : c.state = d.target) :
      Move c (.call d t) c
  | join {d : Direction} {t : Task} (hout : c.place t = .outside) (hs : c.state = d.transition) :
      Move c (.call d t) (c.put t (.joined d (c.flag d)))
  | queue {d : Direction} {t : Task} (hout : c.place t = .outside)
      (hs : c.state = d.reverse.transition) :
      Move c (.call d t) (c.put t (.queued d (c.flag d.reverse)))
  | start {d : Direction} {t : Task} (hout : c.place t = .outside)
      (hs : c.state = d.reverse.target) : Move c (.call d t) (c.enter d t)
  /-- A task that joined another's transition returns. -/
  | released {d : Direction} {t : Task} (hp : c.place t = .joined d true) :
      Move c (.resume t) (c.put t .outside)
  /-- A task that waited for the opposite transition goes on, whatever the state is by now. -/
  | goOn {d : Direction} {t : Task} (hp : c.place t = .queued d true) :
      Move c (.resume t) (c.enter d t)
  | giveUp {t : Task} (hout : c.place t ≠ .outside) (hin : ∀ d, c.place t ≠ .inside d) :
      Move c (.interrupt t) (c.put t .outside)
  | finish {d : Direction} {t : Task} {o : Outcome} (hp : c.place t = .inside d) :
      Move c (.finish t o) (c.leave d o t)

/-- The four ways a call can begin. -/
theorem move_of_request {c : ConnectionBase Task} {d : Direction} {t : Task}
    (hout : c.place t = .outside) : Move c (.call d t) (c.request d t) := by
  unfold request
  split_ifs with h1 h2 h3
  · exact .noop hout h1
  · exact .join hout h2
  · exact .queue hout h3
  · exact .start hout (Direction.eq_reverse_target h1 h2 h3)

/-- A call that returns at once finds the state it is to bring about. -/
theorem request_of_outside {c : ConnectionBase Task} {d : Direction} {t : Task}
    (hout : c.place t = .outside) (h : (c.request d t).place t = .outside) :
    c.state = d.target ∧ c.request d t = c := by
  have hm := move_of_request (d := d) hout
  generalize c.request d t = c' at hm h
  cases hm with
  | noop _ hs => exact ⟨hs, rfl⟩
  | join | queue => simp at h
  | start => simp [enter] at h

/-- A call that goes into `_open()` at once finds the connection at the other end. -/
theorem request_of_inside {c : ConnectionBase Task} {d e : Direction} {t : Task}
    (hout : c.place t = .outside) (h : (c.request d t).place t = .inside e) :
    e = d ∧ c.state = d.reverse.target := by
  have hm := move_of_request (d := d) hout
  generalize c.request d t = c' at hm h
  cases hm with
  | noop _ hs => simp [hout] at h
  | join | queue => simp at h
  | start _ hs => exact ⟨by simpa [enter] using h.symm, hs⟩

theorem move_of_step {c c' : ConnectionBase Task} {l : Label Task} (h : c.step l = some c') :
    Move c l c' := by
  cases l with
  | call d t =>
    obtain ⟨hout, rfl⟩ : c.place t = .outside ∧ c.request d t = c' := by
      cases d <;> simpa [step, open_, close] using h
    exact move_of_request hout
  | resume t =>
    simp only [step] at h
    split at h
    · next hp =>
        obtain rfl := Option.some.inj h
        exact .released hp
    · next hp =>
        obtain rfl := Option.some.inj h
        exact .goOn hp
    · cases h
  | interrupt t =>
    simp only [step] at h
    split at h
    · next hp =>
        obtain rfl := Option.some.inj h
        exact .giveUp (by simp [hp]) (by simp [hp])
    · next hp =>
        obtain rfl := Option.some.inj h
        exact .giveUp (by simp [hp]) (by simp [hp])
    · cases h
  | finish t o =>
    simp only [step] at h
    split at h
    · next hp =>
        obtain rfl := Option.some.inj h
        exact .finish hp
    · cases h

/-- To the other tasks a step is a change of state, if it is anything. -/
theorem Move.place_of_ne {c c' : ConnectionBase Task} {l : Label Task} (h : Move c l c')
    {u : Task} (hu : l.task ≠ u) : c'.place u = (c.setState c'.state).place u := by
  have hne : u ≠ l.task := Ne.symm hu
  cases h with
  | noop => rw [setState_self rfl]
  | join | queue | released | giveUp =>
    simp only [Label.task] at hne
    rw [put_state, setState_self rfl, put_place_of_ne _ _ hne]
  | start | goOn =>
    simp only [Label.task] at hne
    rw [enter_state, enter, put_place_of_ne _ _ hne]
  | finish =>
    simp only [Label.task] at hne
    rw [leave_state, leave, put_place_of_ne _ _ hne]

/-- A step takes no other task into `_open()` or `_close()`, nor out of it. -/
theorem Move.place_inside_of_ne {c c' : ConnectionBase Task} {l : Label Task} (h : Move c l c')
    {u : Task} (hu : l.task ≠ u) {d : Direction} :
    c'.place u = .inside d ↔ c.place u = .inside d := by
  rw [h.place_of_ne hu, setState_place_inside]

end ConnectionBase

end FlockwaveConn
