import FlockwaveConn.Connections.Sequential

/-!
# Connections/Process — a connection to a child process

`ProcessConnection._close()` gives up `_process` and its two streams first, and then waits for the
child: for five seconds after `terminate()`, and without a limit after `kill()`.  If one of these
waits is cancelled the connection is `CONNECTED` again, without a process; the next `_close()` has
nothing to do, so the connection gets to `DISCONNECTED` although the child may still be running.

The other way to a wrong `exit_code` is an `open()` that fails to start its process: it has
forgotten the exit code of the one before.  There is no third way (`leavesNothing_iff`).
-/

namespace FlockwaveConn

/-- What `terminate()` and `kill()` send. -/
inductive ChildSignal
  | terminate
  | kill
  deriving DecidableEq, Repr

/-- A child process. -/
structure ChildProcess where
  /-- `None` while it runs. -/
  returncode : Option ℤ
  signals : List ChildSignal

namespace ChildProcess

def init : ChildProcess := ⟨none, []⟩

/-- `send_signal()`, which first looks whether the process is still there. -/
def send (x : ChildSignal) (p : ChildProcess) : ChildProcess :=
  if p.returncode.isSome then p else { p with signals := p.signals ++ [x] }

@[simp] theorem send_returncode (x : ChildSignal) (p : ChildProcess) :
    (p.send x).returncode = p.returncode := by
  unfold send
  split <;> rfl

end ChildProcess

/-- A `ProcessConnection`; its children go by the order in which they were started. -/
structure ProcessConnection where
  base : ConnectionBase Unit
  /-- `_process`. -/
  process : Option ℕ
  /-- The process that `_stdin` belongs to. -/
  stdin : Option ℕ
  stdout : Option ℕ
  exitCode : Option ℤ
  /-- How many times `_open()` has started a process. -/
  started : ℕ
  child : ℕ → ChildProcess
  /-- The local `process` of a `_close()` under way, and what it has been sent last. -/
  closing : Option (ℕ × ChildSignal)

namespace ProcessConnection

def init : ProcessConnection where
  base := .init
  process := none
  stdin := none
  stdout := none
  exitCode := none
  started := 0
  child := fun _ => .init
  closing := none

/-- A child changes. -/
def setChild (n : ℕ) (p : ChildProcess) (c : ProcessConnection) : ProcessConnection :=
  { c with child := Function.update c.child n p }

/-- `open()`, up to the wait for the process; `_process_descriptor_factory()` may raise. -/
def open_ (raises : Bool) (c : ProcessConnection) : ProcessConnection :=
  let base := c.base.request .up ()
  if c.base.Enters .up then
    if raises then { c with base := base.leave .up .raised () }
    else { c with base := base, exitCode := none }
  else { c with base := base }

/-- `start_in_nursery()` returns; the streams are there since the process is started with `PIPE`. -/
def opened (c : ProcessConnection) : ProcessConnection :=
  { c with
    base := c.base.leave .up .returned ()
    process := some c.started
    stdin := some c.started
    stdout := some c.started
    started := c.started + 1 }

/-- `close()`, up to its first wait. -/
def close (c : ProcessConnection) : ProcessConnection :=
  let base := c.base.request .down ()
  if c.base.Enters .down then
    match c.process with
    -- already closed or waiting to be closed
    | none => { c with base := base.leave .down .returned () }
    | some n =>
      { c.setChild n ((c.child n).send .terminate) with
        base := base
        process := none
        stdin := none
        stdout := none
        closing := some (n, .terminate) }
  else { c with base := base }

/-- The `finally` clause of `_close()`, and then the one of `close()`. -/
def closed (n : ℕ) (o : Outcome) (c : ProcessConnection) : ProcessConnection :=
  { c with base := c.base.leave .down o (), exitCode := (c.child n).returncode, closing := none }

/-- The stretches of the calls, and the ends of the children. -/
inductive Label
  /-- `open()` -/
  | open_ (raises : Bool)
  | started
  | startFails (cancelled : Bool)
  | close
  /-- `process.wait()` returns. -/
  | waited
  /-- `move_on_after(5)` -/
  | timeout
  /-- `close()` is cancelled at one of its waits. -/
  | cancel
  /-- A child exits, of its own or for a signal. -/
  | exits (n : ℕ) (code : ℤ)

/-- One stretch. -/
def step (c : ProcessConnection) : Label → Option ProcessConnection
  | .open_ raises => if c.base.place () = .outside then some (c.open_ raises) else none
  | .started => if c.base.place () = .inside .up then some c.opened else none
  | .startFails cancelled =>
    if c.base.place () = .inside .up then
      some { c with base := c.base.leave .up (if cancelled then .cancelled else .raised) () }
    else none
  | .close => if c.base.place () = .outside then some c.close else none
  | .waited =>
    match c.closing with
    | some (n, _) => if (c.child n).returncode.isSome then some (c.closed n .returned) else none
    | none => none
  | .timeout =>
    match c.closing with
    | some (n, .terminate) =>
      if (c.child n).returncode.isSome then some (c.closed n .returned)
      else some { c.setChild n ((c.child n).send .kill) with closing := some (n, .kill) }
    | _ => none
  | .cancel =>
    match c.closing with
    | some (n, _) => some (c.closed n .cancelled)
    | none => none
  | .exits n code =>
    if n < c.started ∧ (c.child n).returncode = none then
      some (c.setChild n { c.child n with returncode := some code })
    else none

end ProcessConnection

/-- **A process connection, the calls made to it one after the other, and its children.** -/
def processConnection : Machine ProcessConnection ProcessConnection.Label where
  init := .init
  step := ProcessConnection.step

namespace ProcessConnection

variable {c c' : ProcessConnection} {l : Label} {n : ℕ}

/-- The process that was started last has exited, and `exit_code` is its return code. -/
def Recorded (c : ProcessConnection) : Prop :=
  ∀ n, c.started = n + 1 → ∃ code, (c.child n).returncode = some code ∧ c.exitCode = some code

/-- There is a process, and its streams. -/
def HoldsProcess (c : ProcessConnection) : Prop :=
  ∃ n, c.process = some n ∧ c.stdin = some n ∧ c.stdout = some n

/-- **A `DISCONNECTED` connection has no process left**, and a `CONNECTED` one has one. -/
structure LeavesNothing (c : ProcessConnection) : Prop where
  disconnected : c.base.state = .disconnected → c.Recorded
  connected : c.base.state = .connected → c.HoldsProcess

/-- No `close()` is cancelled while it waits for a process, and an `open()` may fail to start one
before the first process only. -/
def Calm (c : ProcessConnection) : Label → Prop
  | .cancel => False
  | .startFails _ => c.started = 0
  | _ => True

/-! ## The invariant

A call that is under way has given up the process before, or does not have it yet. -/

/-- Where the calls stand, and what there is then. -/
inductive Stands (c : ProcessConnection) : Prop
  | idle (hp : c.base.place () = .outside) (hc : c.closing = none)
    (hdown : c.base.state = .disconnected → c.process = none ∧ c.Recorded)
    (hup : c.base.state = .connected → ∃ n, c.started = n + 1 ∧
      c.process = some n ∧ c.stdin = some n ∧ c.stdout = some n)
  | opening (hp : c.base.place () = .inside .up) (hs : c.base.state = .connecting)
    (hc : c.closing = none) (hproc : c.process = none) (hcode : c.exitCode = none)
  | closing (n : ℕ) (x : ChildSignal) (hp : c.base.place () = .inside .down)
    (hs : c.base.state = .disconnecting) (hc : c.closing = some (n, x)) (hn : c.started = n + 1)
    (hproc : c.process = none)

/-- **The invariant** of the runs that keep to `Calm`. -/
structure Sound (c : ProcessConnection) : Prop where
  coherent : c.base.Coherent
  stands : c.Stands

theorem sound_init : init.Sound where
  coherent := ConnectionBase.coherent_init
  stands := .idle rfl rfl (fun _ => ⟨rfl, fun _ hn => absurd hn (by simp [init])⟩)
    fun h => absurd h (by simp [init, ConnectionBase.init])

/-- **A connection that is closed has no process left, and one that is open holds a process and its
streams.** -/
theorem Sound.leavesNothing (h : c.Sound) : c.LeavesNothing := by
  cases h.stands with
  | idle _ _ hdown hup =>
    refine ⟨fun hs => (hdown hs).2, fun hs => ?_⟩
    obtain ⟨n, _, hn⟩ := hup hs
    exact ⟨n, hn⟩
  | opening _ hs | closing _ _ _ hs =>
    exact ⟨fun h => by simp [hs] at h, fun h => by simp [hs] at h⟩

/-- A child may change as long as its return code stays. -/
theorem Recorded.setChild {p : ChildProcess} (h : c.Recorded)
    (hp : ∀ code, (c.child n).returncode = some code → p.returncode = some code) :
    (c.setChild n p).Recorded := by
  intro m hm
  obtain ⟨code, hcode, hexit⟩ := h m hm
  refine ⟨code, ?_, hexit⟩
  by_cases hmn : m = n
  · subst hmn
    simpa [ProcessConnection.setChild] using hp code hcode
  · simpa [ProcessConnection.setChild, hmn] using hcode

/-! ## The stretches -/

theorem Sound.resting (h : c.Sound) (hp : c.base.place () = .outside) : c.base.Resting :=
  ⟨h.coherent, hp⟩

/-- At rest no call is under way. -/
theorem Sound.idle (h : c.Sound) (hp : c.base.place () = .outside) :
    c.closing = none ∧ (c.base.state = .disconnected → c.process = none ∧ c.Recorded) ∧
      (c.base.state = .connected → ∃ n, c.started = n + 1 ∧
        c.process = some n ∧ c.stdin = some n ∧ c.stdout = some n) := by
  cases h.stands with
  | idle _ hc hdown hup => exact ⟨hc, hdown, hup⟩
  | opening hp' | closing _ _ hp' => exact absurd (hp.symm.trans hp') (by simp)

/-- **`open()`** -/
theorem Sound.open_ (h : c.Sound) (hp : c.base.place () = .outside) (raises : Bool) :
    (c.open_ raises).Sound := by
  obtain ⟨hc, hdown, -⟩ := h.idle hp
  have hrest := h.resting hp
  unfold ProcessConnection.open_
  by_cases hs : c.base.state = Direction.up.target
  · rw [if_neg fun he => hrest.enters_iff.mp he hs, ConnectionBase.Resting.request_of_eq hs]
    exact h
  have hend : c.base.state = .disconnected := hrest.state_ne_iff.mp hs
  rw [if_pos (hrest.enters_iff.mpr hs)]
  split
  · have hout := hrest.leave hs .raised
    have hstate : ((c.base.request .up ()).leave .up .raised ()).state = .disconnected :=
      ConnectionBase.leave_state ..
    exact ⟨hout.coherent, .idle hout.outside hc (fun _ => hdown hend)
      fun hup => absurd (hstate.symm.trans hup) (by simp)⟩
  · rw [hrest.request_of_ne hs]
    exact ⟨h.coherent.enter .up (), .opening (ConnectionBase.put_place_self ..)
      (ConnectionBase.enter_state ..) hc (hdown hend).1 rfl⟩

/-- **`start_in_nursery()` returns.** -/
theorem Sound.opened (h : c.Sound) (hp : c.base.place () = .inside .up) : c.opened.Sound := by
  have hstate : (c.base.leave .up .returned ()).state = .connected := ConnectionBase.leave_state ..
  have hclosing : c.closing = none := by
    cases h.stands with
    | idle hp' | closing _ _ hp' => exact absurd (hp.symm.trans hp') (by simp)
    | opening _ _ hc => exact hc
  exact ⟨h.coherent.leave .up .returned (), .idle (ConnectionBase.put_place_self ..) hclosing
    (fun hdown => absurd (hstate.symm.trans hdown) (by simp))
    fun _ => ⟨c.started, rfl, rfl, rfl, rfl⟩⟩

/-- **`start_in_nursery()` fails**, and there is no exit code. -/
theorem Sound.startFails (h : c.Sound) (hp : c.base.place () = .inside .up) {o : Outcome}
    (ho : o.success = false) :
    (LeavesNothing { c with base := c.base.leave .up o () } ↔ c.started = 0) ∧
      (c.started = 0 → Sound { c with base := c.base.leave .up o () }) := by
  have hstate : (c.base.leave .up o ()).state = .disconnected := by
    rw [ConnectionBase.leave_state, ho]
    rfl
  cases h.stands with
  | idle hp' | closing _ _ hp' => exact absurd (hp.symm.trans hp') (by simp)
  | opening _ _ hc hproc hcode =>
    have hsound : c.started = 0 → Sound { c with base := c.base.leave .up o () } := fun hz =>
      ⟨h.coherent.leave .up o (), .idle (ConnectionBase.put_place_self ..) hc
        (fun _ => ⟨hproc, fun n hn => absurd (hz.symm.trans hn) (by simp)⟩)
        fun hup => absurd (hstate.symm.trans hup) (by simp)⟩
    refine ⟨⟨fun hl => ?_, fun hz => (hsound hz).leavesNothing⟩, hsound⟩
    by_contra hz
    obtain ⟨n, hn⟩ := Nat.exists_eq_succ_of_ne_zero hz
    obtain ⟨code, -, hexit⟩ := hl.disconnected hstate n hn
    exact absurd (hcode.symm.trans hexit) (by simp)

/-- **`close()`** -/
theorem Sound.close (h : c.Sound) (hp : c.base.place () = .outside) : c.close.Sound := by
  obtain ⟨hc, hdown, hup⟩ := h.idle hp
  have hrest := h.resting hp
  unfold ProcessConnection.close
  by_cases hs : c.base.state = Direction.down.target
  · rw [if_neg fun he => hrest.enters_iff.mp he hs, ConnectionBase.Resting.request_of_eq hs]
    exact h
  obtain ⟨n, hstarted, hproc, -⟩ := hup (hrest.state_ne_iff.mp hs)
  rw [if_pos (hrest.enters_iff.mpr hs), hrest.request_of_ne hs]
  simp only [hproc]
  exact ⟨h.coherent.enter .down (), .closing n .terminate (ConnectionBase.put_place_self ..)
    (ConnectionBase.enter_state ..) rfl hstarted rfl⟩

/-- A wait for the process is over, and it has exited. -/
theorem Sound.closed (h : c.Sound) {x : ChildSignal} (hc : c.closing = some (n, x))
    (hcode : (c.child n).returncode.isSome = true) : (c.closed n .returned).Sound := by
  have hstate : (c.base.leave .down .returned ()).state = .disconnected :=
    ConnectionBase.leave_state ..
  obtain ⟨code, hcode⟩ := Option.isSome_iff_exists.mp hcode
  cases h.stands with
  | idle _ hc' | opening _ _ hc' => exact absurd (hc.symm.trans hc') (by simp)
  | closing m _ _ _ hc' hstarted hproc =>
    obtain ⟨rfl, -⟩ : n = m ∧ _ := by simpa using hc.symm.trans hc'
    refine ⟨h.coherent.leave .down .returned (), .idle (ConnectionBase.put_place_self ..) rfl
      (fun _ => ⟨hproc, fun k hk => ?_⟩) fun hup => absurd (hstate.symm.trans hup) (by simp)⟩
    obtain rfl : n = k := Nat.succ.inj (hstarted.symm.trans hk)
    exact ⟨code, hcode, hcode⟩

/-- **A `close()` that is cancelled leaves the connection `CONNECTED`, without a process.** -/
theorem Sound.not_leavesNothing_of_cancel (h : c.Sound) {x : ChildSignal}
    (hc : c.closing = some (n, x)) : ¬ (c.closed n .cancelled).LeavesNothing := by
  intro hl
  cases h.stands with
  | idle _ hc' | opening _ _ hc' => exact absurd (hc.symm.trans hc') (by simp)
  | closing _ _ _ _ _ _ hproc =>
    obtain ⟨m, hm, -⟩ := hl.connected (ConnectionBase.leave_state ..)
    exact absurd (hproc.symm.trans hm) (by simp)

/-- **A change of a child that keeps its return code.** -/
theorem Sound.setChild {p : ChildProcess} (h : c.Sound)
    (hp : ∀ code, (c.child n).returncode = some code → p.returncode = some code) :
    (c.setChild n p).Sound := by
  refine ⟨h.coherent, ?_⟩
  cases h.stands with
  | idle hpl hc hdown hup =>
    exact .idle hpl hc (fun hs => ⟨(hdown hs).1, (hdown hs).2.setChild hp⟩) hup
  | opening hpl hs hc hproc hcode => exact .opening hpl hs hc hproc hcode
  | closing m x hpl hs hc hn hproc => exact .closing m x hpl hs hc hn hproc

/-- `kill()`, and the second wait. -/
theorem Sound.killed (h : c.Sound) {x : ChildSignal} (hc : c.closing = some (n, x)) :
    Sound { c with closing := some (n, .kill) } := by
  refine ⟨h.coherent, ?_⟩
  cases h.stands with
  | idle _ hc' | opening _ _ hc' => exact absurd (hc.symm.trans hc') (by simp)
  | closing m _ hp hs hc' hn hproc =>
    obtain ⟨rfl, -⟩ : n = m ∧ _ := by simpa using hc.symm.trans hc'
    exact .closing n .kill hp hs rfl hn hproc

/-- **One stretch.** -/
theorem Sound.step (h : c.Sound) (hs : c.step l = some c') :
    (c'.LeavesNothing ↔ c.Calm l) ∧ (c.Calm l → c'.Sound) := by
  have hcalm : c.Calm l → c'.Sound → (c'.LeavesNothing ↔ c.Calm l) ∧ (c.Calm l → c'.Sound) :=
    fun hl hc => ⟨iff_of_true hc.leavesNothing hl, fun _ => hc⟩
  cases l with
  | open_ raises =>
    obtain ⟨hp, ⟨⟩⟩ := Option.ite_none_right_eq_some.mp hs
    exact hcalm trivial (h.open_ hp raises)
  | started =>
    obtain ⟨hp, ⟨⟩⟩ := Option.ite_none_right_eq_some.mp hs
    exact hcalm trivial (h.opened hp)
  | startFails cancelled =>
    obtain ⟨hp, ⟨⟩⟩ := Option.ite_none_right_eq_some.mp hs
    exact h.startFails hp (by cases cancelled <;> rfl)
  | close =>
    obtain ⟨hp, ⟨⟩⟩ := Option.ite_none_right_eq_some.mp hs
    exact hcalm trivial (h.close hp)
  | waited =>
    simp only [ProcessConnection.step] at hs
    split at hs
    · next n x hc =>
      obtain ⟨hcode, ⟨⟩⟩ := Option.ite_none_right_eq_some.mp hs
      exact hcalm trivial (h.closed hc hcode)
    · cases hs
  | timeout =>
    simp only [ProcessConnection.step] at hs
    split at hs
    · next n hc =>
      split at hs
      · next hcode =>
        obtain rfl := Option.some.inj hs
        exact hcalm trivial (h.closed hc hcode)
      · obtain rfl := Option.some.inj hs
        exact hcalm trivial ((h.setChild (by simp)).killed hc)
    · cases hs
  | cancel =>
    simp only [ProcessConnection.step] at hs
    split at hs
    · next n x hc =>
      obtain rfl := Option.some.inj hs
      exact ⟨iff_of_false (h.not_leavesNothing_of_cancel hc) id, fun hf => hf.elim⟩
    · cases hs
  | exits n code =>
    obtain ⟨⟨_, hrun⟩, ⟨⟩⟩ := Option.ite_none_right_eq_some.mp hs
    exact hcalm trivial (h.setChild fun code hcode => by simp [hrun] at hcode)

/-- **A `DISCONNECTED` connection has no process left, and a `CONNECTED` one has one, exactly if no
`close()` is cancelled at a wait and no later `open()` fails to start its process.** -/
theorem leavesNothing_iff (ls : List Label) :
    processConnection.Along LeavesNothing processConnection.init ls ↔
      processConnection.Guarded Calm processConnection.init ls := by
  constructor
  · intro h
    refine h.guarded_of (Machine.guarded_anyStep _ ls) sound_init fun c l c' hc _ hst hleaves => ?_
    have hcalm := (hc.step hst).1.mp hleaves
    exact ⟨hcalm, (hc.step hst).2 hcalm⟩
  · intro h
    have hsound := h.along sound_init fun c l c' hc hcalm hst => (hc.step hst).2 hcalm
    exact hsound.mono fun c hc => hc.leavesNothing

/-- A `close()` is cancelled, the next one has nothing to do, and the child runs on. -/
theorem outlived_cancel :
    ¬ ∀ ls, processConnection.Along LeavesNothing processConnection.init ls := by
  intro h
  have hclosing := ((h [.open_ false, .started, .close, .cancel, .close]).2 _ rfl).2 _ rfl
  have hlast := ((hclosing.2 _ rfl).2 _ rfl).2 _ rfl
  obtain ⟨code, hcode, -⟩ := hlast.here.disconnected rfl 0 rfl
  exact nomatch hcode

end ProcessConnection

end FlockwaveConn
