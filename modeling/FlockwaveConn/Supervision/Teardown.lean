import FlockwaveConn.Connections.Invariant
import FlockwaveConn.Supervision.Loop

/-!
# Supervision/Teardown — the clean-up of one supervised connection

`ConnectionSupervisor.supervise()` of one connection, run by the task `sup` against the
`ConnectionBase` it supervises, with any other tasks on the same connection.  `remove()` cancels the
scope the whole call runs in, the clean-up in its `finally` clause included: there a checkpoint of
`_close()` raises `Cancelled`, and `ConnectionBase.close()` takes the connection back to
`CONNECTED`.

The call of `connection.open()` and the start of the clean-up are steps of their own here, so other
tasks may come in between where the code does not let them: each run of the code is a run of this
machine.
-/

namespace FlockwaveConn.Supervision

/-- The supervision task, what it was given, and the checkpoints of the connection's `_close()`,
which succeeds when it is not cancelled: `true` stands for a shielded checkpoint. -/
structure Setting (Task ε : Type*) where
  sup : Task
  /-- A task to run while the connection is open. -/
  hasTask : Bool
  ask : List (Note ε) → Ask ε
  checkpoints : List Bool

/-- A connection and its supervision. -/
structure Supervised (Task ε : Type*) where
  conn : ConnectionBase Task
  stage : Stage ε
  /-- `remove()` has cancelled the scope of the call. -/
  cancelled : Bool
  /-- The supervisor has an entry for the connection. -/
  entry : Bool
  /-- The local variable `should_close`. -/
  shouldClose : Bool
  /-- The connection has been `DISCONNECTED` at some instant since the wait for it began. -/
  sawDown : Bool
  notes : List (Note ε)

/-- The steps of the supervision task, of the main loop, and of the other tasks. -/
inductive Supervised.Label (Task ε : Type*)
  /-- Another task, on the same connection. -/
  | other (l : ConnectionBase.Label Task)
  | start
  | callOpen
  /-- The wait inside `open()` or `close()` is over. -/
  | resume
  | opened
  | openFailed (e : ε)
  | taskReturned
  | taskRaised (e : ε)
  /-- The wait for the disconnection is over. -/
  | dropped
  | slept
  /-- `Cancelled` is raised at the checkpoint the task is at. -/
  | cancel
  /-- The main loop processes `remove()`. -/
  | remove
  | cleanUp
  /-- `_close()` ends. -/
  | closed

namespace Setting

variable {Task ε : Type*} (S : Setting Task ε)

/-- `_close()` under a cancelled scope: the first checkpoint that is not shielded raises. -/
def closeOutcome (cancelled : Bool) : Outcome :=
  if cancelled && S.checkpoints.any (!·) then .cancelled else .returned

/-- No checkpoint of `_close()` can be cancelled. -/
def Shielded : Prop := ∀ b ∈ S.checkpoints, b = true

theorem closeOutcome_of_shielded {S : Setting Task ε} (h : S.Shielded) (b : Bool) :
    S.closeOutcome b = .returned := by
  have hany : S.checkpoints.any (!·) = false := by
    rw [List.any_eq_false]
    intro x hx
    simp [h x hx]
  simp [closeOutcome, hany]

theorem closeOutcome_of_not_shielded {S : Setting Task ε} (h : ¬ S.Shielded) :
    S.closeOutcome true = .cancelled := by
  have hany : S.checkpoints.any (!·) = true := by
    simp only [Shielded, not_forall] at h
    obtain ⟨x, hx, hne⟩ := h
    exact List.any_eq_true.mpr ⟨x, hx, by simpa using hne⟩
  simp [closeOutcome, hany]

end Setting

namespace Supervised

variable {Task ε : Type*}

/-- The connection has changed. -/
def withConn (s : Supervised Task ε) (c : ConnectionBase Task) : Supervised Task ε :=
  { s with conn := c, sawDown := s.sawDown || c.isDisconnected }

/-- The loop runs up to its next wait. -/
def advance (S : Setting Task ε) (ev : Event ε) (s : Supervised Task ε) :
    Option (Supervised Task ε) :=
  match s.stage with
  | .looping ph => (step (S.ask s.notes) ph ev).map fun x =>
      { s with stage := .looping x.1, notes := s.notes ++ x.2, sawDown := s.conn.isDisconnected }
  | _ => none

variable [DecidableEq Task]

/-- The first step of `ConnectionSupervisor.supervise()`. -/
def start (s : Supervised Task ε) : Supervised Task ε :=
  { s with
    stage := .looping .opening
    entry := true
    shouldClose := decide (s.conn.state ≠ .connected) }

/-- `await connection.open()`, which may return without a wait. -/
def callOpen (S : Setting Task ε) (s : Supervised Task ε) : Option (Supervised Task ε) :=
  let s := s.withConn (s.conn.open_ S.sup)
  if s.conn.place S.sup = .outside then s.advance S .opened else some s

/-- The `finally` clause: `del self._entries[connection]`, then `close()` if `should_close`. -/
def cleanUp (S : Setting Task ε) (r : Result ε) (s : Supervised Task ε) : Supervised Task ε :=
  let s := { s with entry := false }
  if s.shouldClose then
    let s := s.withConn (s.conn.close S.sup)
    { s with stage := if s.conn.place S.sup = .outside then .finished r else .closing r }
  else { s with stage := .finished r }

/-- The result of the call once `close()` has ended in the `finally` clause. -/
def afterClose (o : Outcome) (r : Result ε) : Result ε := if o.success then r else .cancelled

/-- One step. -/
def step (S : Setting Task ε) (s : Supervised Task ε) : Label Task ε → Option (Supervised Task ε)
  | .other l => if l.task = S.sup then none else (s.conn.step l).map s.withConn
  | .start =>
    match s.stage with
    | .starting => some s.start
    | _ => none
  | .callOpen =>
    match s.stage, s.conn.place S.sup with
    | .looping .opening, .outside => s.callOpen S
    | _, _ => none
  | .resume =>
    match s.stage, s.conn.place S.sup with
    | .looping .opening, .joined _ true =>
      (s.withConn (s.conn.put S.sup .outside)).advance S .opened
    | .looping .opening, .queued d true => some (s.withConn (s.conn.enter d S.sup))
    | .closing r, .joined _ true =>
      if s.cancelled then none
      else some { s.withConn (s.conn.put S.sup .outside) with stage := .finished r }
    | .closing _, .queued d true =>
      if s.cancelled then none else some (s.withConn (s.conn.enter d S.sup))
    | _, _ => none
  | .opened =>
    match s.stage, s.conn.place S.sup with
    | .looping .opening, .inside d =>
      (s.withConn (s.conn.leave d .returned S.sup)).advance S .opened
    | _, _ => none
  | .openFailed e =>
    match s.stage, s.conn.place S.sup with
    | .looping .opening, .inside d =>
      (s.withConn (s.conn.leave d .raised S.sup)).advance S (.failed e)
    | _, _ => none
  | .taskReturned =>
    match s.stage with
    | .looping .attending => if S.hasTask then s.advance S .ended else none
    | _ => none
  | .taskRaised e =>
    match s.stage with
    | .looping .attending => if S.hasTask then s.advance S (.failed e) else none
    | _ => none
  | .dropped =>
    match s.stage with
    | .looping .attending => if s.sawDown then s.advance S .ended else none
    | _ => none
  | .slept => s.advance S .slept
  | .cancel =>
    if s.cancelled then
      match s.stage, s.conn.place S.sup with
      | .looping .opening, .inside d =>
        (s.withConn (s.conn.leave d .cancelled S.sup)).advance S .cancelled
      | .looping .opening, .joined _ _ | .looping .opening, .queued _ _ =>
        (s.withConn (s.conn.put S.sup .outside)).advance S .cancelled
      | .looping .attending, _ | .looping (.sleeping _), _ => s.advance S .cancelled
      | .closing _, .joined _ _ | .closing _, .queued _ _ =>
        some { s.withConn (s.conn.put S.sup .outside) with stage := .finished .cancelled }
      | _, _ => none
    else none
  | .remove => some { s with cancelled := s.cancelled || s.entry }
  | .cleanUp =>
    match s.stage, s.conn.place S.sup with
    | .looping (.done r), .outside => some (s.cleanUp S r)
    | _, _ => none
  | .closed =>
    match s.stage, s.conn.place S.sup with
    | .closing r, .inside d =>
      let o := S.closeOutcome s.cancelled
      some { s.withConn (s.conn.leave d o S.sup) with stage := .finished (afterClose o r) }
    | _, _ => none

end Supervised

/-- **The supervision of one connection.** -/
def supervised {Task ε : Type*} [DecidableEq Task] (S : Setting Task ε) :
    Machine (Supervised Task ε) (Supervised.Label Task ε) where
  init := {
    conn := .init
    stage := .starting
    cancelled := false
    entry := false
    shouldClose := false
    sawDown := true
    notes := [] }
  step := Supervised.step S

namespace Supervised

variable {Task ε : Type*} {S : Setting Task ε} {s s' : Supervised Task ε}

/-! ## What a step does -/

theorem advance_stage {ev : Event ε} (h : s.advance S ev = some s') :
    (∃ ph, s.stage = .looping ph) ∧ ∃ ph, s'.stage = .looping ph := by
  unfold advance at h
  split at h
  · next ph hst =>
    obtain ⟨x, _, rfl⟩ := Option.map_eq_some_iff.mp h
    exact ⟨⟨ph, hst⟩, x.1, rfl⟩
  · cases h

variable [DecidableEq Task]

/-- **What a step can do**, told apart by the stage it starts from. -/
inductive Turn (S : Setting Task ε) (s : Supervised Task ε) :
    Label Task ε → Supervised Task ε → Prop
  | other {l : ConnectionBase.Label Task} {c : ConnectionBase Task} (hne : l.task ≠ S.sup)
      (hs : s.conn.step l = some c) : Turn S s (.other l) (s.withConn c)
  | start (hst : s.stage = .starting) : Turn S s .start s.start
  /-- A stretch of the loop, up to its next wait or its end. -/
  | loop {l : Label Task ε} {s' : Supervised Task ε} (hst : ∃ ph, s.stage = .looping ph)
      (hst' : ∃ ph, s'.stage = .looping ph) : Turn S s l s'
  | remove : Turn S s .remove { s with cancelled := s.cancelled || s.entry }
  | cleanUp {r : Result ε} (hst : s.stage = .looping (.done r))
      (hp : s.conn.place S.sup = .outside) : Turn S s .cleanUp (s.cleanUp S r)
  /-- Nobody has cancelled the scope, so `close()` in the clean-up goes on after its wait. -/
  | goOn {r : Result ε} {d : Direction} (hst : s.stage = .closing r) (hc : s.cancelled = false) :
      Turn S s .resume (s.withConn (s.conn.enter d S.sup))
  | released {r : Result ε} (hst : s.stage = .closing r) (hc : s.cancelled = false) :
      Turn S s .resume { s.withConn (s.conn.put S.sup .outside) with stage := .finished r }
  | interrupted {r : Result ε} (hst : s.stage = .closing r) (hc : s.cancelled = true) :
      Turn S s .cancel
        { s.withConn (s.conn.put S.sup .outside) with stage := .finished .cancelled }
  | closed {r : Result ε} {d : Direction} (hst : s.stage = .closing r)
      (hp : s.conn.place S.sup = .inside d) :
      Turn S s .closed
        { s.withConn (s.conn.leave d (S.closeOutcome s.cancelled) S.sup) with
          stage := .finished (afterClose (S.closeOutcome s.cancelled) r) }

theorem Turn.of_advance {l : Label Task ε} {ev : Event ε} {c : ConnectionBase Task}
    (h : (s.withConn c).advance S ev = some s') : Turn S s l s' :=
  .loop (advance_stage h).1 (advance_stage h).2

theorem turn_of_callOpen {ph : Phase ε} (hst : s.stage = .looping ph)
    (h : s.callOpen S = some s') : Turn S s .callOpen s' := by
  simp only [callOpen] at h
  split at h
  · exact .of_advance h
  · obtain rfl := Option.some.inj h
    exact .loop ⟨ph, hst⟩ ⟨ph, hst⟩

theorem turn_of_step {l : Label Task ε} (h : s.step S l = some s') : Turn S s l s' := by
  cases l with
  | other l =>
    simp only [step] at h
    split_ifs at h with hne
    obtain ⟨c, hc, rfl⟩ := Option.map_eq_some_iff.mp h
    exact .other hne hc
  | start =>
    simp only [step] at h
    split at h
    · next hst =>
        obtain rfl := Option.some.inj h
        exact .start hst
    · cases h
  | callOpen =>
    simp only [step] at h
    split at h
    · next hst _ => exact turn_of_callOpen hst h
    · cases h
  | resume =>
    simp only [step] at h
    split at h
    · exact .of_advance h
    · next hst _ =>
        obtain rfl := Option.some.inj h
        exact .loop ⟨_, hst⟩ ⟨_, hst⟩
    · next hst _ =>
        split_ifs at h with hc
        obtain rfl := Option.some.inj h
        exact .released hst (by simpa using hc)
    · next hst _ =>
        split_ifs at h with hc
        obtain rfl := Option.some.inj h
        exact .goOn hst (by simpa using hc)
    · cases h
  | opened | openFailed e =>
    simp only [step] at h
    split at h
    · exact .of_advance h
    · cases h
  | taskReturned | taskRaised e | dropped =>
    simp only [step] at h
    split at h
    · split_ifs at h
      exact .loop (advance_stage h).1 (advance_stage h).2
    · cases h
  | slept => exact .loop (advance_stage h).1 (advance_stage h).2
  | cancel =>
    simp only [step] at h
    split_ifs at h with hc
    split at h
    · exact .of_advance h
    · exact .of_advance h
    · exact .of_advance h
    · exact .loop (advance_stage h).1 (advance_stage h).2
    · exact .loop (advance_stage h).1 (advance_stage h).2
    · next hst _ =>
        obtain rfl := Option.some.inj h
        exact .interrupted hst hc
    · next hst _ =>
        obtain rfl := Option.some.inj h
        exact .interrupted hst hc
    · cases h
  | remove =>
    obtain rfl := Option.some.inj h
    exact .remove
  | cleanUp =>
    simp only [step] at h
    split at h
    · next hst hp =>
        obtain rfl := Option.some.inj h
        exact .cleanUp hst hp
    · cases h
  | closed =>
    simp only [step] at h
    split at h
    · next hst hp =>
        obtain rfl := Option.some.inj h
        exact .closed hst hp
    · cases h

end Supervised

end FlockwaveConn.Supervision
