import FlockwaveConn.Connections.Receivers

/-!
# Listeners/Base — `ListenerBase` is `ConnectionBase` under other names

`listeners/base.py` has its own copy of the four states, the two flags and the three signals.
`ListenerBase` is translated here from that copy, method by method, and it turns out to be the same
machine (`listenerBase_bisimulation`): also where a receiver raises in the middle of `_set_state`.

So what the other modules say of a connection holds of a listener, read through `toConnection`.
-/

namespace FlockwaveConn

/-- The four states a listener can be in. -/
inductive ListenerState
  | closed
  | preparing
  | opened
  | closing
  deriving DecidableEq, Repr

/-- What a listener sends to those who listen to its signals. -/
inductive ListenerSignal
  | stateChanged (oldState newState : ListenerState)
  | opened
  | closed
  deriving DecidableEq, Repr

/-- A listener object, with the place of every task that uses it; `up` is `open()`. -/
structure ListenerBase (Task : Type*) where
  state : ListenerState
  isOpen : Bool
  isClosed : Bool
  /-- The signals sent so far, oldest first. -/
  signals : List ListenerSignal
  place : Task → Place

namespace ListenerBase

variable {Task : Type*}

/-- `ListenerBase.__init__`. -/
def init : ListenerBase Task where
  state := .closed
  isOpen := false
  isClosed := true
  signals := []
  place := fun _ => .outside

/-- `send()` of one of the three signals. -/
def send (x : ListenerSignal) (b : ListenerBase Task) : ListenerBase Task :=
  { b with signals := b.signals ++ [x] }

/-- The setter of `_is_open` wakes those who wait for it. -/
def setIsOpen (v : Bool) (b : ListenerBase Task) : ListenerBase Task :=
  { b with isOpen := v, place := if v then fun t => (b.place t).wake .up else b.place }

/-- …and the one of `_is_closed`. -/
def setIsClosed (v : Bool) (b : ListenerBase Task) : ListenerBase Task :=
  { b with isClosed := v, place := if v then fun t => (b.place t).wake .down else b.place }

/-- `ListenerBase._set_state`: the listener, and whether an exception of a receiver comes out. -/
def setState (raises : ListenerSignal → Bool) (newState : ListenerState) (b : ListenerBase Task) :
    ListenerBase Task × Bool :=
  let oldState := b.state
  if newState = oldState then (b, false) else
  let b := { b with state := newState }
  let b := b.send (.stateChanged oldState newState)
  if raises (.stateChanged oldState newState) then (b, true) else
  let opens := !b.isOpen && newState = .opened
  let b := if opens then (b.setIsOpen true).send .opened else b
  if opens && raises .opened then (b, true) else
  let closes := !b.isClosed && newState = .closed
  let b := if closes then (b.setIsClosed true).send .closed else b
  if closes && raises .closed then (b, true) else
  let b := if b.isOpen && newState ≠ .opened then b.setIsOpen false else b
  let b := if b.isClosed && newState ≠ .closed then b.setIsClosed false else b
  (b, false)

variable [DecidableEq Task]

/-- The task moves to another place. -/
def put (t : Task) (p : Place) (b : ListenerBase Task) : ListenerBase Task :=
  { b with place := Function.update b.place t p }

/-- `self._set_state(PREPARING)`, then into `_open()`. -/
def enterOpen (raises : ListenerSignal → Bool) (t : Task) (b : ListenerBase Task) :
    ListenerBase Task :=
  match b.setState raises .preparing with
  | (b, true) => b.put t .outside
  | (b, false) => b.put t (.inside .up)

/-- `self._set_state(CLOSING)`, then into `_close()`. -/
def enterClose (raises : ListenerSignal → Bool) (t : Task) (b : ListenerBase Task) :
    ListenerBase Task :=
  match b.setState raises .closing with
  | (b, true) => b.put t .outside
  | (b, false) => b.put t (.inside .down)

/-- The `finally` clause of `open()`. -/
def leaveOpen (raises : ListenerSignal → Bool) (success : Bool) (t : Task)
    (b : ListenerBase Task) : ListenerBase Task :=
  (b.setState raises (if success then .opened else .closed)).1.put t .outside

/-- The `finally` clause of `close()`. -/
def leaveClose (raises : ListenerSignal → Bool) (success : Bool) (t : Task)
    (b : ListenerBase Task) : ListenerBase Task :=
  (b.setState raises (if success then .closed else .opened)).1.put t .outside

/-- `ListenerBase.close`, to its first wait or to `_close()`. -/
def close (raises : ListenerSignal → Bool) (t : Task) (b : ListenerBase Task) :
    ListenerBase Task :=
  match b.state with
  | .closed => b
  | .closing => b.put t (.joined .down b.isClosed)
  | .preparing => b.put t (.queued .down b.isOpen)
  | .opened => b.enterClose raises t

/-- `ListenerBase.open`, to its first wait or to `_open()`. -/
def open_ (raises : ListenerSignal → Bool) (t : Task) (b : ListenerBase Task) :
    ListenerBase Task :=
  match b.state with
  | .opened => b
  | .preparing => b.put t (.joined .up b.isOpen)
  | .closing => b.put t (.queued .up b.isClosed)
  | .closed => b.enterOpen raises t

/-- One atomic stretch. -/
def step (b : ListenerBase Task) (x : ConnectionBase.Label Task × (ListenerSignal → Bool)) :
    Option (ListenerBase Task) :=
  match x.1 with
  | .call .up t => if b.place t = .outside then some (b.open_ x.2 t) else none
  | .call .down t => if b.place t = .outside then some (b.close x.2 t) else none
  | .resume t =>
    match b.place t with
    | .joined _ true => some (b.put t .outside)
    | .queued .up true => some (b.enterOpen x.2 t)
    | .queued .down true => some (b.enterClose x.2 t)
    | _ => none
  | .interrupt t =>
    match b.place t with
    | .joined _ _ | .queued _ _ => some (b.put t .outside)
    | _ => none
  | .finish t o =>
    match b.place t with
    | .inside .up => some (b.leaveOpen x.2 o.success t)
    | .inside .down => some (b.leaveClose x.2 o.success t)
    | _ => none

end ListenerBase

/-- **A listener and its tasks**, with receivers that may raise. -/
def listenerBase (Task : Type*) [DecidableEq Task] :
    Machine (ListenerBase Task) (ConnectionBase.Label Task × (ListenerSignal → Bool)) where
  init := .init
  step := ListenerBase.step

/-! ## The renaming -/

/-- `CLOSED`, `PREPARING`, `OPEN`, `CLOSING` are `DISCONNECTED`, `CONNECTING`, `CONNECTED`,
`DISCONNECTING`. -/
def ListenerState.toConnection : ListenerState ≃ ConnectionState where
  toFun
    | .closed => .disconnected
    | .preparing => .connecting
    | .opened => .connected
    | .closing => .disconnecting
  invFun
    | .disconnected => .closed
    | .connecting => .preparing
    | .connected => .opened
    | .disconnecting => .closing
  left_inv s := by cases s <;> rfl
  right_inv s := by cases s <;> rfl

namespace ListenerState

@[simp] theorem toConnection_closed : closed.toConnection = .disconnected := rfl

@[simp] theorem toConnection_preparing : preparing.toConnection = .connecting := rfl

@[simp] theorem toConnection_opened : opened.toConnection = .connected := rfl

@[simp] theorem toConnection_closing : closing.toConnection = .disconnecting := rfl

end ListenerState

/-- `opened` and `closed` are `connected` and `disconnected`. -/
def ListenerSignal.toConnection : ListenerSignal ≃ Signal where
  toFun
    | .stateChanged o n => .stateChanged o.toConnection n.toConnection
    | .opened => .connected
    | .closed => .disconnected
  invFun
    | .stateChanged o n =>
      .stateChanged (ListenerState.toConnection.symm o) (ListenerState.toConnection.symm n)
    | .connected => .opened
    | .disconnected => .closed
  left_inv x := by cases x <;> simp
  right_inv x := by cases x <;> simp

namespace ListenerSignal

@[simp] theorem toConnection_stateChanged (o n : ListenerState) :
    (stateChanged o n).toConnection = .stateChanged o.toConnection n.toConnection := rfl

@[simp] theorem toConnection_opened : opened.toConnection = .connected := rfl

@[simp] theorem toConnection_closed : closed.toConnection = .disconnected := rfl

end ListenerSignal

namespace ListenerBase

variable {Task : Type*}

/-- A listener, read as a connection. -/
def toConnection (b : ListenerBase Task) : ConnectionBase Task where
  state := b.state.toConnection
  isConnected := b.isOpen
  isDisconnected := b.isClosed
  signals := b.signals.map ListenerSignal.toConnection
  place := b.place

/-- The same stretch, with the receivers that raise renamed. -/
def labels (Task : Type*) : (ConnectionBase.Label Task × (ListenerSignal → Bool)) ≃
    (ConnectionBase.Label Task × (Signal → Bool)) :=
  Equiv.prodCongr (Equiv.refl _) (Equiv.arrowCongr ListenerSignal.toConnection (Equiv.refl _))

/-- **`_set_state` is the same in the two classes**, up to where an exception of a receiver leaves
it. -/
theorem toConnection_setState (raises : ListenerSignal → Bool) (n : ListenerState)
    (b : ListenerBase Task) :
    b.toConnection.trySetState (raises ∘ ListenerSignal.toConnection.symm) n.toConnection =
      ((b.setState raises n).1.toConnection, (b.setState raises n).2) := by
  obtain ⟨s, fo, fc, sig, pl⟩ := b
  have hr : ∀ x, (raises ∘ ListenerSignal.toConnection.symm) (ListenerSignal.toConnection x) =
    raises x := fun x => by simp
  have h1 := hr (.stateChanged s n)
  have h2 := hr .opened
  have h3 := hr .closed
  generalize raises ∘ ListenerSignal.toConnection.symm = raises' at h1 h2 h3
  simp only [ListenerSignal.toConnection_stateChanged, ListenerSignal.toConnection_opened,
    ListenerSignal.toConnection_closed] at h1 h2 h3
  cases s <;> cases n <;> simp only [ListenerState.toConnection_closed,
    ListenerState.toConnection_opened, ListenerState.toConnection_closing,
    ListenerState.toConnection_preparing] at h1 <;> cases fo <;> cases fc <;>
    simp [toConnection, setState, ConnectionBase.trySetState, h1, h2, h3, send, setIsOpen,
      setIsClosed, ConnectionBase.send, ConnectionBase.setIsConnected,
      ConnectionBase.setIsDisconnected]
  all_goals split_ifs <;> simp

variable [DecidableEq Task] (raises : ListenerSignal → Bool) (t : Task) (b : ListenerBase Task)

@[simp] theorem toConnection_put (p : Place) :
    (b.put t p).toConnection = b.toConnection.put t p := rfl

theorem toConnection_enterOpen :
    (b.enterOpen raises t).toConnection =
      b.toConnection.tryEnter (raises ∘ ListenerSignal.toConnection.symm) .up t := by
  have h := toConnection_setState raises .preparing b
  rw [ListenerState.toConnection_preparing] at h
  rw [enterOpen, ConnectionBase.tryEnter, Direction.transition, h]
  obtain ⟨b', _ | _⟩ := b.setState raises .preparing <;> rfl

theorem toConnection_enterClose :
    (b.enterClose raises t).toConnection =
      b.toConnection.tryEnter (raises ∘ ListenerSignal.toConnection.symm) .down t := by
  have h := toConnection_setState raises .closing b
  rw [ListenerState.toConnection_closing] at h
  rw [enterClose, ConnectionBase.tryEnter, Direction.transition, h]
  obtain ⟨b', _ | _⟩ := b.setState raises .closing <;> rfl

theorem toConnection_open :
    (b.open_ raises t).toConnection =
      b.toConnection.tryRequest (raises ∘ ListenerSignal.toConnection.symm) .up t := by
  have hs : b.toConnection.state = b.state.toConnection := rfl
  unfold open_ ConnectionBase.tryRequest
  cases h : b.state <;>
    simp [hs, h, Direction.target, Direction.transition, Direction.reverse]
  · exact toConnection_enterOpen raises t b
  · rfl
  · rfl

theorem toConnection_close :
    (b.close raises t).toConnection =
      b.toConnection.tryRequest (raises ∘ ListenerSignal.toConnection.symm) .down t := by
  have hs : b.toConnection.state = b.state.toConnection := rfl
  unfold close ConnectionBase.tryRequest
  cases h : b.state <;>
    simp [hs, h, Direction.target, Direction.transition, Direction.reverse]
  · rfl
  · exact toConnection_enterClose raises t b
  · rfl

theorem toConnection_leaveOpen (o : Outcome) :
    (b.leaveOpen raises o.success t).toConnection =
      b.toConnection.tryLeave (raises ∘ ListenerSignal.toConnection.symm) .up o t := by
  have h := toConnection_setState raises (if o.success then .opened else .closed) b
  rw [leaveOpen, ConnectionBase.tryLeave, toConnection_put]
  cases o <;> exact congrArg (ConnectionBase.put t .outside) (congrArg Prod.fst h.symm)

theorem toConnection_leaveClose (o : Outcome) :
    (b.leaveClose raises o.success t).toConnection =
      b.toConnection.tryLeave (raises ∘ ListenerSignal.toConnection.symm) .down o t := by
  have h := toConnection_setState raises (if o.success then .closed else .opened) b
  rw [leaveClose, ConnectionBase.tryLeave, toConnection_put]
  cases o <;> exact congrArg (ConnectionBase.put t .outside) (congrArg Prod.fst h.symm)

/-- **One step**: the same stretch of the two classes. -/
theorem toConnection_step (b : ListenerBase Task)
    (x : ConnectionBase.Label Task × (ListenerSignal → Bool)) :
    (b.step x).map toConnection = b.toConnection.tryStep (labels Task x) := by
  obtain ⟨l, raises⟩ := x
  have hlabel : labels Task (l, raises) = (l, raises ∘ ListenerSignal.toConnection.symm) := rfl
  have hplace : ∀ t, b.toConnection.place t = b.place t := fun _ => rfl
  rw [hlabel]
  cases l with
  | call d t =>
    cases d <;> simp only [step, ConnectionBase.tryStep, hplace] <;> split
    · simp [toConnection_open]
    · rfl
    · simp [toConnection_close]
    · rfl
  | resume t =>
    simp only [step, ConnectionBase.tryStep, hplace]
    cases b.place t with
    | outside | inside d => rfl
    | joined d w => cases w <;> rfl
    | queued d w =>
      cases w <;> cases d
      · rfl
      · rfl
      · simp [toConnection_enterOpen]
      · simp [toConnection_enterClose]
  | interrupt t =>
    simp only [step, ConnectionBase.tryStep, hplace]
    cases b.place t <;> rfl
  | finish t o =>
    simp only [step, ConnectionBase.tryStep, hplace]
    cases b.place t with
    | inside d =>
      cases d
      · simp [toConnection_leaveOpen]
      · simp [toConnection_leaveClose]
    | _ => rfl

theorem toConnection_leaveOpen_silent (o : Outcome) :
    (b.leaveOpen (fun _ => false) o.success t).toConnection = b.toConnection.leave .up o t :=
  (toConnection_leaveOpen _ t b o).trans (ConnectionBase.tryLeave_silent ..)

theorem toConnection_leaveClose_silent (o : Outcome) :
    (b.leaveClose (fun _ => false) o.success t).toConnection = b.toConnection.leave .down o t :=
  (toConnection_leaveClose _ t b o).trans (ConnectionBase.tryLeave_silent ..)

/-- …also where no receiver raises. -/
theorem toConnection_step_silent (b : ListenerBase Task) (l : ConnectionBase.Label Task) :
    (b.step (l, fun _ => false)).map toConnection = b.toConnection.step l :=
  (b.toConnection_step (l, fun _ => false)).trans (b.toConnection.tryStep_silent l)

end ListenerBase

/-- **`ListenerBase` and `ConnectionBase` are the same machine** under the renaming: in any run of
either, with any tasks, outcomes and receivers, the states, the flags, the signals sent and the
places of the tasks correspond step by step. -/
theorem listenerBase_bisimulation (Task : Type*) [DecidableEq Task] :
    (listenerBase Task).Bisimulation (raisingConnection Task) (ListenerBase.labels Task)
        (fun b c => b.toConnection = c) ∧
      ∀ ls, Option.Rel (fun b c => b.toConnection = c) ((listenerBase Task).exec .init ls)
        ((raisingConnection Task).exec .init (ls.map (ListenerBase.labels Task))) := by
  have hbisim : (listenerBase Task).Bisimulation (raisingConnection Task)
      (ListenerBase.labels Task) fun b c => b.toConnection = c := by
    refine ⟨rfl, ?_⟩
    rintro b _ x rfl
    have h := b.toConnection_step x
    change Option.Rel _ (b.step x) (b.toConnection.tryStep _)
    rw [← h]
    cases b.step x with
    | none => exact .none
    | some b' => exact .some rfl
  exact ⟨hbisim, hbisim.exec hbisim.init⟩

end FlockwaveConn
