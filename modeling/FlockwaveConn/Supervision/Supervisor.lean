import FlockwaveConn.Machinery.Transition
import FlockwaveConn.Supervision.Loop

/-!
# Supervision/Supervisor — `ConnectionSupervisor`

`add()` and `remove()` put commands on a queue; the main loop takes them off one by one.  For an
`add` it spawns a call of `supervise()` with `start_soon`: the call runs its first step when trio
schedules it, which may be before or after the main loop has taken the next command.  For a `remove`
it looks up the entry of the connection, which that first step creates.

What a connection does is up to the labels here: `event` ends the wait a call is in.
-/

namespace FlockwaveConn.Supervision

/-- The arguments of `add()`, which are those of `ConnectionSupervisor.supervise()`. -/
structure Job (κ π : Type*) where
  connection : κ
  hasTask : Bool
  policy : Option π
  deriving DecidableEq, Repr

/-- What is on the command queue. -/
inductive Command (κ π : Type*)
  | add (x : Job κ π)
  | remove (c : κ)
  deriving DecidableEq, Repr

/-- `_Entry`; the cancel scope is the one of a call. -/
structure Entry (π : Type*) where
  policy : π
  call : ℕ
  deriving DecidableEq, Repr

/-- A call of `ConnectionSupervisor.supervise()` in the nursery. -/
structure Call (κ π ε : Type*) where
  args : Job κ π
  stage : Stage ε
  /-- Its cancel scope, or the nursery, is cancelled. -/
  cancelled : Bool
  shouldClose : Bool

/-- How `connection.close()` ends in a `finally` clause. -/
inductive CloseEnd (ε : Type*)
  | returned
  | raised (e : ε)
  | cancelled

/-- The exception of the `finally` clause takes the place of the one before. -/
def CloseEnd.after {ε : Type*} (r : Result ε) : CloseEnd ε → Result ε
  | .returned => r
  | .raised e => .raised e
  | .cancelled => .cancelled

namespace Call

variable {κ π ε : Type*}

/-- What `start_soon` puts into the nursery. -/
def spawn (x : Job κ π) : Call κ π ε := ⟨x, .starting, false, false⟩

/-- `CancelScope.cancel()`. -/
def cancel (k : Call κ π ε) : Call κ π ε := { k with cancelled := true }

def setStage (st : Stage ε) (k : Call κ π ε) : Call κ π ε := { k with stage := st }

/-- A task that trio still has to run: it has not started, its code is between two waits, or it is
at a checkpoint of a cancelled scope. -/
def isRunnable (k : Call κ π ε) : Bool :=
  match k.stage with
  | .starting | .looping (.done _) => true
  | .looping _ | .closing _ => k.cancelled
  | .finished _ => false

/-- What an entry can say of a call: its connection and how far it is. -/
def view (k : Call κ π ε) : κ × Stage ε := (k.args.connection, k.stage)

end Call

/-- A supervisor that is running. -/
structure Supervisor (κ π ε : Type*) where
  queue : List (Command κ π)
  entries : κ → Option (Entry π)
  /-- The calls of `supervise()`, in the order they were spawned in. -/
  calls : List (Call κ π ε)
  /-- An exception has left a call: the nursery is cancelled, and with it the main loop. -/
  down : Bool
  /-- What the calls have asked and done so far; each note with its call and the policy it asked. -/
  notes : List (ℕ × π × Note ε)

/-- What a supervisor is created with, and what is around it. -/
structure Surroundings (κ π ε : Type*) where
  /-- `self._policy`. -/
  policy : π
  isListener : κ → Bool
  /-- What a policy answers, given all that has been noted before. -/
  answer : π → List (ℕ × π × Note ε) → κ → PolicyArg ε → Except ε Action

namespace Supervisor

/-- The steps of the callers, the main loop and the calls of `supervise()`. -/
inductive Label (κ π ε : Type*)
  /-- `add()` or `remove()` puts a command on the queue. -/
  | send (x : Command κ π)
  /-- The main loop takes the next command. -/
  | receive
  /-- A spawned call runs its first step. -/
  | start (i : ℕ) (isConnected : Bool)
  /-- The wait a call is in ends. -/
  | event (i : ℕ) (ev : Event ε)
  /-- The `finally` clause of a call. -/
  | leave (i : ℕ)
  /-- `connection.close()` in the `finally` clause ends. -/
  | closed (i : ℕ) (o : CloseEnd ε)

variable {κ π ε : Type*}

/-- `ConnectionSupervisor.__init__`. -/
def init : Supervisor κ π ε where
  queue := []
  entries := fun _ => none
  calls := []
  down := false
  notes := []

/-- The size of the command queue. -/
def capacity : ℕ := 32

/-- A call moves on. -/
def setStage (i : ℕ) (st : Stage ε) (s : Supervisor κ π ε) : Supervisor κ π ε :=
  { s with calls := s.calls.modify i (Call.setStage st) }

/-- An exception leaves a child task: the nursery cancels all it has. -/
def crash (s : Supervisor κ π ε) : Supervisor κ π ε :=
  { s with down := true, calls := s.calls.map Call.cancel }

/-- A call is over. -/
def finish (i : ℕ) (r : Result ε) (s : Supervisor κ π ε) : Supervisor κ π ε :=
  if r.isError then (s.setStage i (.finished r)).crash else s.setStage i (.finished r)

variable [DecidableEq κ]

/-- One turn of `_run_main_loop`. -/
def process (s : Supervisor κ π ε) : Command κ π → Supervisor κ π ε
  | .add x => { s with calls := s.calls ++ [.spawn x] }
  | .remove c =>
    match s.entries c with
    | some e => { s with calls := s.calls.modify e.call Call.cancel }
    | none => s

/-- The first step of `supervise()`: `policy = policy or self._policy`, the entry, and the call of
the module-level `supervise()`. -/
def start (S : Surroundings κ π ε) (i : ℕ) (k : Call κ π ε) (isConnected : Bool)
    (s : Supervisor κ π ε) : Supervisor κ π ε :=
  if (s.entries k.args.connection).isSome then s.finish i .assertionError
  else if S.isListener k.args.connection && !k.args.hasTask then s.finish i .runtimeError
  else
    { s with
      entries := Function.update s.entries k.args.connection
        (some ⟨k.args.policy.getD S.policy, i⟩)
      calls := s.calls.modify i fun k =>
        { k with stage := .looping .opening, shouldClose := !isConnected } }

/-- The policy `supervise(connection, task=task, policy=self._policy, name=name)` gets. -/
def handedOver (S : Surroundings κ π ε) (_ : Job κ π) : π := S.policy

/-- The policy of a call, as it is asked from inside the loop. -/
def ask (S : Surroundings κ π ε) (i : ℕ) (x : Job κ π) (s : Supervisor κ π ε) : Ask ε :=
  fun notes arg =>
    S.answer (handedOver S x) (s.notes ++ notes.map fun n => (i, handedOver S x, n)) x.connection
      arg

/-- The loop of a call runs up to its next wait. -/
def advance (S : Surroundings κ π ε) (i : ℕ) (k : Call κ π ε) (ph : Phase ε) (ev : Event ε)
    (s : Supervisor κ π ε) : Option (Supervisor κ π ε) :=
  (step (s.ask S i k.args) ph ev).map fun x =>
    { s.setStage i (.looping x.1) with
      notes := s.notes ++ x.2.map fun n => (i, handedOver S k.args, n) }

/-- The `finally` clause. -/
def leave (i : ℕ) (k : Call κ π ε) (r : Result ε) (s : Supervisor κ π ε) : Supervisor κ π ε :=
  let s := { s with entries := Function.update s.entries k.args.connection none }
  if k.shouldClose then s.setStage i (.closing r) else s.finish i r

/-- One step. -/
def step (S : Surroundings κ π ε) (s : Supervisor κ π ε) : Label κ π ε → Option (Supervisor κ π ε)
  | .send x => if s.queue.length < capacity then some { s with queue := s.queue ++ [x] } else none
  | .receive =>
    match s.queue with
    | x :: xs => if s.down then none else some ({ s with queue := xs }.process x)
    | [] => none
  | .start i isConnected =>
    match s.calls[i]? with
    | some k => match k.stage with
      | .starting => some (s.start S i k isConnected)
      | _ => none
    | none => none
  | .event i ev =>
    match s.calls[i]? with
    | some k => match k.stage with
      | .looping ph =>
        if ev.isCancelled && !k.cancelled then none else s.advance S i k ph ev
      | _ => none
    | none => none
  | .leave i =>
    match s.calls[i]? with
    | some k => match k.stage with
      | .looping (.done r) => some (s.leave i k r)
      | _ => none
    | none => none
  | .closed i o =>
    match s.calls[i]? with
    | some k => match k.stage with
      | .closing r =>
        if o matches .cancelled && !k.cancelled then none else some (s.finish i (o.after r))
      | _ => none
    | none => none

end Supervisor

/-- **A supervisor, its callers and its calls.** -/
def supervisor {κ π ε : Type*} [DecidableEq κ] (S : Surroundings κ π ε) :
    Machine (Supervisor κ π ε) (Supervisor.Label κ π ε) where
  init := .init
  step := Supervisor.step S

namespace Supervisor

/-! ## What a step does -/

/-- What holds of all calls holds after one of them has changed, if it holds of the new one. -/
theorem forall_mem_modify {α : Type*} {P : α → Prop} {l : List α} {f : α → α} {i : ℕ}
    (h : ∀ a ∈ l, P a) (hf : ∀ a, l[i]? = some a → P (f a)) : ∀ a ∈ l.modify i f, P a := by
  intro b hb
  obtain ⟨j, hj⟩ := List.getElem?_of_mem hb
  rw [List.getElem?_modify] at hj
  obtain ⟨a, ha, rfl⟩ := Option.map_eq_some_iff.mp hj
  split
  · next hij => exact hf a (hij ▸ ha)
  · exact h a (List.mem_of_getElem? ha)

variable {κ π ε : Type*} [DecidableEq κ] {S : Surroundings κ π ε} {s s' : Supervisor κ π ε}

/-- **Everything a step can do.** -/
inductive Turn (S : Surroundings κ π ε) (s : Supervisor κ π ε) :
    Label κ π ε → Supervisor κ π ε → Prop
  | send (x : Command κ π) : Turn S s (.send x) { s with queue := s.queue ++ [x] }
  | receive {x : Command κ π} {xs : List (Command κ π)} (hq : s.queue = x :: xs) :
      Turn S s .receive ({ s with queue := xs }.process x)
  | start {i : ℕ} {k : Call κ π ε} {b : Bool} (hk : s.calls[i]? = some k)
      (hst : k.stage = .starting) : Turn S s (.start i b) (s.start S i k b)
  | advance {i : ℕ} {k : Call κ π ε} {ph ph' : Phase ε} {ev : Event ε} {ns : List (Note ε)}
      (hk : s.calls[i]? = some k) (hst : k.stage = .looping ph)
      (hph : Supervision.step (s.ask S i k.args) ph ev = some (ph', ns)) :
      Turn S s (.event i ev)
        { s.setStage i (.looping ph') with
          notes := s.notes ++ ns.map fun n => (i, handedOver S k.args, n) }
  | leave {i : ℕ} {k : Call κ π ε} {r : Result ε} (hk : s.calls[i]? = some k)
      (hst : k.stage = .looping (.done r)) : Turn S s (.leave i) (s.leave i k r)
  | closed {i : ℕ} {k : Call κ π ε} {r : Result ε} {o : CloseEnd ε} (hk : s.calls[i]? = some k)
      (hst : k.stage = .closing r) : Turn S s (.closed i o) (s.finish i (o.after r))

theorem turn_of_step {l : Label κ π ε} (h : s.step S l = some s') : Turn S s l s' := by
  cases l with
  | send x =>
    simp only [step] at h
    split_ifs at h
    obtain rfl := Option.some.inj h
    exact .send x
  | receive =>
    simp only [step] at h
    split at h
    · next hq =>
        split_ifs at h
        obtain rfl := Option.some.inj h
        exact .receive hq
    · cases h
  | start i b =>
    simp only [step] at h
    split at h
    · next hk =>
        split at h
        · next hst =>
            obtain rfl := Option.some.inj h
            exact .start hk hst
        · cases h
    · cases h
  | event i ev =>
    simp only [step] at h
    split at h
    · next hk =>
        split at h
        · next hst =>
            split_ifs at h
            obtain ⟨x, hx, rfl⟩ := Option.map_eq_some_iff.mp h
            exact .advance hk hst hx
        · cases h
    · cases h
  | leave i =>
    simp only [step] at h
    split at h
    · next hk =>
        split at h
        · next hst =>
            obtain rfl := Option.some.inj h
            exact .leave hk hst
        · cases h
    · cases h
  | closed i o =>
    simp only [step] at h
    split at h
    · next hk =>
        split at h
        · next hst =>
            split_ifs at h
            obtain rfl := Option.some.inj h
            exact .closed hk hst
        · cases h
    · cases h

end Supervisor

end FlockwaveConn.Supervision
