import FlockwaveConn.Connections.Exclusive

/-!
# Connections/OneShot — a connection that can be opened once

`IncomingTCPStreamConnection` makes its stream out of the socket that `accept()` has returned, and
`StreamWrapperConnection` is given its stream and is `CONNECTED` from the start.  In both a second
`_create_stream()` raises.

Neither waits for anything in `_open()`, so nobody finds such a connection `CONNECTING`, and two
tasks that have waited for the end of one `close()` do not get in each other's way: of each of them
`open()` raises before the other one is scheduled.  So the transitions are exclusive in every run,
and a connection that has been `DISCONNECTED` once is so for good (`livesOnce_along`).
-/

namespace FlockwaveConn

namespace ConnectionBase

variable {Task : Type*} [DecidableEq Task]

/-- Into `_open()` or `_close()`, and out of it without a wait. -/
def pass (d : Direction) (o : Outcome) (t : Task) (c : ConnectionBase Task) :
    ConnectionBase Task :=
  (c.enter d t).leave d o t

end ConnectionBase

/-- A connection whose stream can be had once. -/
structure OneShot (Task : Type*) where
  base : ConnectionBase Task
  /-- `self._stored_socket is not None`; a wrapper never has one. -/
  stored : Bool
  /-- `self._stream is not None`. -/
  stream : Bool

namespace OneShot

variable {Task : Type*}

/-- `IncomingTCPStreamConnection.__init__`, or `StreamWrapperConnection.__init__`. -/
def init : Bool → OneShot Task
  | false => ⟨.init, true, false⟩
  | true => ⟨ConnectionBase.init.setState .connected, false, true⟩

/-- The steps of the tasks.  A `read()` that has failed or has come to the end of the file calls
`close()`, and is a call of it here. -/
inductive Label (Task : Type*)
  | call (d : Direction) (t : Task)
  /-- A woken task is scheduled. -/
  | resume (t : Task)
  /-- A wait in `open()` or `close()` is cancelled. -/
  | interrupt (t : Task)
  /-- `aclose()` ends. -/
  | aclosed (t : Task) (o : Outcome)

/-- `_create_stream()`: how it ends, and the connection with what it has created. -/
def createStream (s : OneShot Task) : Outcome × OneShot Task :=
  if s.stored then (.returned, { s with stored := false, stream := true }) else (.raised, s)

variable [DecidableEq Task]

/-- `_open()` of a task that has come to it. -/
def runOpen (t : Task) (s : OneShot Task) : OneShot Task :=
  if s.base.place t = .inside .up then
    { s.createStream.2 with base := s.base.leave .up s.createStream.1 t }
  else s

/-- `_close()` of a task that has come to it: without a stream there is nothing to wait for. -/
def runClose (t : Task) (s : OneShot Task) : OneShot Task :=
  if s.base.place t = .inside .down && !s.stream then
    { s with base := s.base.leave .down .returned t }
  else s

/-- One atomic stretch. -/
def step (s : OneShot Task) : Label Task → Option (OneShot Task)
  | .call d t =>
    (s.base.step (.call d t)).map fun b => ({ s with base := b }.runOpen t).runClose t
  | .resume t =>
    (s.base.step (.resume t)).map fun b => ({ s with base := b }.runOpen t).runClose t
  | .interrupt t => (s.base.step (.interrupt t)).map fun b => { s with base := b }
  | .aclosed t o =>
    if s.base.place t = .inside .down then
      -- the `finally` clause of `_close()`
      some { s with base := s.base.leave .down o t, stream := false }
    else none

end OneShot

/-- **A connection that can be opened once, and its tasks.** -/
def oneShot (Task : Type*) [DecidableEq Task] (wrapper : Bool) :
    Machine (OneShot Task) (OneShot.Label Task) where
  init := .init wrapper
  step := OneShot.step

/-! ## A method that does not wait -/

namespace ConnectionBase

variable {Task : Type*} {c : ConnectionBase Task}

theorem setState_signals (hf : c.FlagsAgree) {n : ConnectionState} (h : n ≠ c.state) :
    (c.setState n).signals = c.signals ++ signalsOf (c.state, n) := by rw [setState_of_ne hf h]

variable [DecidableEq Task] {d : Direction} {o : Outcome} {t u : Task}

@[simp] theorem pass_state (d : Direction) (o : Outcome) (t : Task) (c : ConnectionBase Task) :
    (c.pass d o t).state = if o.success then d.target else d.reverse.target := leave_state ..

/-- The two changes of state, as they are announced. -/
theorem pass_signals (hf : c.FlagsAgree) (hs : c.state ≠ d.transition) :
    (c.pass d o t).signals = c.signals ++ signalsOf (c.state, d.transition) ++
      signalsOf (d.transition, if o.success then d.target else d.reverse.target) := by
  have hf' : (c.enter d t).FlagsAgree := (put_flagsAgree ..).mpr (setState_flagsAgree hf _)
  have hne : (if o.success then d.target else d.reverse.target) ≠ (c.enter d t).state := by
    rw [enter_state]
    split <;> simp
  rw [pass, leave, put_signals, setState_signals hf' hne, enter_state, enter, put_signals,
    setState_signals hf hs.symm]

/-- The other tasks see the end of it only. -/
theorem pass_place_of_ne (hf : c.FlagsAgree) (hs : c.state ≠ d.transition) (hu : u ≠ t) :
    (c.pass d o t).place u =
      wakeAt (if o.success then d.target else d.reverse.target) (c.place u) := by
  have hf' : (c.enter d t).FlagsAgree := (put_flagsAgree ..).mpr (setState_flagsAgree hf _)
  have hne : (if o.success then d.target else d.reverse.target) ≠ (c.enter d t).state := by
    rw [enter_state]
    split <;> simp
  rw [pass, leave, put_place_of_ne _ _ hu, setState_place hf', if_neg hne, enter,
    put_place_of_ne _ _ hu, setState_place hf, if_neg hs.symm, wakeAt_transition, id_eq]

@[simp] theorem pass_place_self (d : Direction) (o : Outcome) (t : Task)
    (c : ConnectionBase Task) : (c.pass d o t).place t = .outside := put_place_self ..

/-- **A method that does not wait disturbs no other**, where nobody is inside one. -/
theorem Exclusive.pass (hin : ∀ u e, c.place u ≠ .inside e) (d : Direction) (o : Outcome)
    (t : Task) : (c.pass d o t).Exclusive :=
  (Exclusive.enter hin d t).leave (put_place_self ..) o

theorem Coherent.pass (h : c.Coherent) (d : Direction) (o : Outcome) (t : Task) :
    (c.pass d o t).Coherent := (h.enter d t).leave d o t

end ConnectionBase

namespace OneShot

variable {Task : Type*}

/-- **The connection lives once.** -/
structure LivesOnce (s : OneShot Task) : Prop where
  /-- No two tasks are inside `_open()` or `_close()`. -/
  exclusive : s.base.Exclusive
  /-- Nobody finds the connection `CONNECTING`. -/
  notConnecting : s.base.state ≠ .connecting
  /-- Once `disconnected` has been sent the connection is closed, and has no stream… -/
  gone : .disconnected ∈ s.base.signals → s.base.state = .disconnected ∧ s.stream = false
  /-- …and `connected` is not sent again. -/
  never : s.base.signals.Pairwise fun x y => x = .disconnected → y ≠ .connected

/-- The invariant of all runs. -/
structure Sound (s : OneShot Task) : Prop extends s.LivesOnce where
  coherent : s.base.Coherent
  /-- As long as the socket has not been used nothing has happened. -/
  unused : s.stored = true → s.base.state = .disconnected ∧ s.base.signals = [] ∧
    ∀ t, s.base.place t = .outside
  /-- `close()` never waits for the end of an `_open()`. -/
  closes : ∀ t w, s.base.place t ≠ .queued .down w
  /-- A task that goes on with its `open()` finds the connection closed. -/
  woken : ∀ t, s.base.place t = .queued .up true → s.base.state = .disconnected
  /-- …as is one whose socket has been used. -/
  closed : s.base.state = .disconnected → s.stored = false → s.stream = false

theorem sound_init (wrapper : Bool) : (init wrapper : OneShot Task).Sound := by
  cases wrapper with
  | false =>
    exact ⟨⟨ConnectionBase.exclusive_init, by simp [init, ConnectionBase.init],
      by simp [init, ConnectionBase.init], .nil⟩, ConnectionBase.coherent_init,
      fun _ => ⟨rfl, rfl, fun _ => rfl⟩, by simp [init, ConnectionBase.init],
      by simp [init, ConnectionBase.init], by simp [init]⟩
  | true =>
    have hplace : ∀ t, (init true : OneShot Task).base.place t = .outside := fun _ => rfl
    have hstate : (init true : OneShot Task).base.state = Direction.up.target := rfl
    have hsignals : (init true : OneShot Task).base.signals =
        [.stateChanged .disconnected .connected, .connected] := rfl
    have hex : (init true : OneShot Task).base.Exclusive :=
      .of_transition_iff (by simp [hplace]) fun d => by simp [hplace, hstate]
    have hcoh : (init true : OneShot Task).base.Coherent :=
      ⟨ConnectionBase.setState_flagsAgree ConnectionBase.coherent_init.flags _, by simp [hplace],
        fun d hd => by simp [hstate] at hd⟩
    exact ⟨⟨hex, hstate ▸ Direction.target_ne_transition .up .up, by simp [hsignals],
      by simp [hsignals]⟩, hcoh, by simp [init], by simp [hplace], by simp [hplace],
      fun hs => absurd hs (by simp [hstate, Direction.target])⟩

theorem pairwise_append {xs ys : List Signal}
    (hxs : xs.Pairwise fun x y => x = .disconnected → y ≠ .connected)
    (h : .connected ∈ ys → .disconnected ∉ xs ++ ys) :
    (xs ++ ys).Pairwise fun x y => x = .disconnected → y ≠ .connected := by
  have hys : ∀ x ∈ xs ++ ys, ∀ y ∈ ys, x = .disconnected → y ≠ .connected := by
    rintro x hx y hy rfl rfl
    exact h hy hx
  refine List.pairwise_append.mpr ⟨hxs, ?_, fun x hx => hys x (List.mem_append_left _ hx)⟩
  exact List.pairwise_of_forall_mem_list fun x hx => hys x (List.mem_append_right _ hx)

/-- Nobody is woken out of a wait for the end of an `_open()`, or into one. -/
theorem queued_of_wakeAt {n : ConnectionState} {p : Place} {d : Direction} {w : Bool}
    (h : ConnectionBase.wakeAt n p = .queued d w) : ∃ w', p = .queued d w' := by
  cases n <;> cases p <;> simp_all [ConnectionBase.wakeAt, Place.wake]

/-- A task that waits for the end of a `close()` is not woken by anything else. -/
theorem queued_of_wake_up {p : Place} (h : ConnectionBase.wakeAt .connected p = .queued .up true) :
    p = .queued .up true := by
  cases p with
  | queued d w =>
    obtain ⟨rfl, hw⟩ : d = .up ∧ (w || decide (d.reverse = .up)) = true := by
      simpa [ConnectionBase.wakeAt, Place.wake] using h
    simpa using hw
  | _ => cases h

namespace Sound

variable {s : OneShot Task}

theorem notMem_disconnected (h : s.Sound) (hs : s.base.state ≠ .disconnected) :
    .disconnected ∉ s.base.signals := fun hmem => hs (h.gone hmem).1

theorem used (h : s.Sound) (hs : s.base.state ≠ .disconnected) : s.stored = false :=
  Bool.eq_false_iff.mpr fun hstored => hs (h.unused hstored).1

/-- The connection is closed at the end of the step. -/
theorem of_disconnected {b : ConnectionBase Task} {stored : Bool} (h : s.Sound)
    (hex : b.Exclusive) (hcoh : b.Coherent) (hstate : b.state = .disconnected)
    (hused : stored = false) {xs : List Signal} (hsignals : b.signals = s.base.signals ++ xs)
    (hxs : .connected ∉ xs) (hcloses : ∀ t w, b.place t ≠ .queued .down w) :
    Sound ⟨b, stored, false⟩ where
  exclusive := hex
  notConnecting := by simp [hstate]
  gone _ := ⟨hstate, rfl⟩
  never := by
    rw [hsignals]
    exact pairwise_append h.never fun hmem => absurd hmem hxs
  coherent := hcoh
  unused hstored := by simp [hused] at hstored
  closes := hcloses
  woken _ _ := hstate
  closed _ _ := rfl

/-- It is open before the step and not closed at the end of it. -/
theorem of_connected {b : ConnectionBase Task} {stream : Bool} (h : s.Sound)
    (hs : s.base.state ≠ .disconnected) (hex : b.Exclusive) (hcoh : b.Coherent)
    (hstate : b.state = .connected ∨ b.state = .disconnecting) {xs : List Signal}
    (hsignals : b.signals = s.base.signals ++ xs) (hxs : .disconnected ∉ xs)
    (hplace : ∀ u d, b.place u = .queued d true → s.base.place u = .queued d true)
    (hcloses : ∀ t w, b.place t ≠ .queued .down w) : Sound ⟨b, s.stored, stream⟩ where
  exclusive := hex
  notConnecting := by rcases hstate with hstate | hstate <;> simp [hstate]
  gone hmem := by simp [hsignals, hxs, h.notMem_disconnected hs] at hmem
  never := by
    rw [hsignals]
    exact pairwise_append h.never fun _ => by simp [hxs, h.notMem_disconnected hs]
  coherent := hcoh
  unused hstored := absurd hstored (by simp [h.used hs])
  closes := hcloses
  woken u hu := absurd (h.woken u (hplace u _ hu)) hs
  closed hb := by rcases hstate with hstate | hstate <;> simp [hstate] at hb

end Sound

/-! ## What a step does -/

variable [DecidableEq Task] {s s' : OneShot Task} {t : Task}

/-- **Everything a step can do.** -/
inductive Change (s : OneShot Task) : OneShot Task → Prop
  /-- The method returns at once. -/
  | none : Change s s
  /-- A task begins a wait or gives it up. -/
  | moved {t : Task} {p : Place} (hin : ∀ d, s.base.place t ≠ .inside d)
      (hp : p ≠ .outside → s.base.state = .disconnecting ∧
        (p = .joined .down false ∨ p = .queued .up false)) :
      Change s { s with base := s.base.put t p }
  /-- `_create_stream()` gives the stream. -/
  | opened {t : Task} (hs : s.base.state = .disconnected) (hstored : s.stored = true) :
      Change s { base := s.base.pass .up .returned t, stored := false, stream := true }
  /-- …or raises. -/
  | refused {t : Task} (hs : s.base.state = .disconnected) (hstored : s.stored = false) :
      Change s { s with base := s.base.pass .up .raised t }
  /-- `aclose()` begins. -/
  | closing {t : Task} (hs : s.base.state = .connected) :
      Change s { s with base := s.base.enter .down t }
  /-- Without a stream the connection is closed at once. -/
  | closed {t : Task} (hs : s.base.state = .connected) (hstream : s.stream = false) :
      Change s { s with base := s.base.pass .down .returned t }
  /-- `aclose()` ends. -/
  | aclosed {t : Task} (o : Outcome) (hp : s.base.place t = .inside .down) :
      Change s { s with base := s.base.leave .down o t, stream := false }

/-- A task that has not got to `_open()` and not to `_close()`. -/
theorem run_of_not_inside (hin : ∀ d, s.base.place t ≠ .inside d) :
    (s.runOpen t).runClose t = s := by
  rw [runOpen, if_neg (hin .up), runClose, if_neg (by simp [hin .down])]

/-- A task that has got to `_open()`. -/
theorem change_of_up (hs : s.base.state = .disconnected) :
    s.Change (({ s with base := s.base.enter .up t }.runOpen t).runClose t) := by
  have hplace : (s.base.enter .up t).place t = .inside .up := ConnectionBase.put_place_self ..
  have hclose : ∀ s' : OneShot Task, s'.base.place t = .outside → s'.runClose t = s' :=
    fun s' hout => if_neg (by simp [hout])
  rw [runOpen, if_pos hplace, hclose _ (ConnectionBase.put_place_self ..)]
  obtain ⟨b, stored, stream⟩ := s
  cases stored with
  | true => exact .opened hs rfl
  | false => exact .refused hs rfl

/-- A task that has got to `_close()`. -/
theorem change_of_down (hs : s.base.state = .connected) :
    s.Change (({ s with base := s.base.enter .down t }.runOpen t).runClose t) := by
  have hplace : (s.base.enter .down t).place t = .inside .down := ConnectionBase.put_place_self ..
  rw [runOpen, if_neg (by simp [hplace]), runClose]
  cases hstream : s.stream with
  | true =>
    rw [if_neg (by simp)]
    exact hstream ▸ .closing hs
  | false =>
    rw [if_pos (by simp [hplace])]
    exact hstream ▸ .closed hs hstream

/-- A wait that begins, or a wait that is over. -/
theorem change_of_put {p : Place} (hin : ∀ d, s.base.place t ≠ .inside d)
    (hp : p ≠ .outside → s.base.state = .disconnecting ∧
      (p = .joined .down false ∨ p = .queued .up false)) :
    s.Change (({ s with base := s.base.put t p }.runOpen t).runClose t) := by
  have hout : ∀ d, p ≠ .inside d := by
    rintro d rfl
    simp at hp
  rw [run_of_not_inside fun d => by simpa using hout d]
  exact .moved hin hp

/-- The stretch after a call, or after a wait. -/
theorem Sound.change_of_move (h : s.Sound) {l : ConnectionBase.Label Task} {b : ConnectionBase Task}
    (hl : ∀ t o, l ≠ .finish t o) (hm : s.base.Move l b) :
    s.Change (({ s with base := b }.runOpen l.task).runClose l.task) := by
  have hup : s.base.state ≠ Direction.up.transition := h.notConnecting
  have hflag : s.base.state = .disconnecting → s.base.flag .down = false := fun hs => by
    rw [h.coherent.flags, hs]
    rfl
  cases hm with
  | @noop d t hout =>
    have hin : ∀ e, s.base.place t ≠ .inside e := by simp [hout]
    rw [ConnectionBase.Label.task, run_of_not_inside hin]
    exact .none
  | @join d t hout hs =>
    cases d with
    | up => exact absurd hs hup
    | down => exact change_of_put (t := t) (by simp [hout]) fun _ => ⟨hs, .inl (by rw [hflag hs])⟩
  | @queue d t hout hs =>
    cases d with
    | up =>
      exact change_of_put (t := t) (by simp [hout]) fun _ => ⟨hs, .inr (by rw [← hflag hs]; rfl)⟩
    | down => exact absurd hs hup
  | @start d t hout hs =>
    cases d with
    | up => exact change_of_up hs
    | down => exact change_of_down hs
  | @released d t hp => exact change_of_put (t := t) (by simp [hp]) fun hne => absurd rfl hne
  | @goOn d t hp =>
    cases d with
    | up => exact change_of_up (h.woken t hp)
    | down => exact absurd hp (h.closes t true)
  | giveUp hout hin => exact change_of_put hin fun hne => absurd rfl hne
  | finish => exact absurd rfl (hl _ _)

theorem Sound.change_of_step (h : s.Sound) {l : Label Task} (hst : s.step l = some s') :
    s.Change s' := by
  cases l with
  | call d t | resume t =>
    obtain ⟨b, hb, rfl⟩ := Option.map_eq_some_iff.mp hst
    exact h.change_of_move (by simp) (ConnectionBase.move_of_step hb)
  | interrupt t =>
    obtain ⟨b, hb, rfl⟩ := Option.map_eq_some_iff.mp hst
    have hm := ConnectionBase.move_of_step hb
    cases hm with
    | giveUp _ hin => exact .moved hin fun hne => absurd rfl hne
  | aclosed t o =>
    by_cases hp : s.base.place t = .inside .down
    · obtain rfl := Option.some.inj ((if_pos hp).symm.trans hst)
      exact .aclosed o hp
    · cases (if_neg hp).symm.trans hst

/-! ## What all runs keep -/

namespace Sound

theorem moved {p : Place} (h : s.Sound) (hin : ∀ d, s.base.place t ≠ .inside d)
    (hp : p ≠ .outside → s.base.state = .disconnecting ∧
      (p = .joined .down false ∨ p = .queued .up false)) :
    Sound { s with base := s.base.put t p } := by
  have hplace : ∀ q : Place, (∀ w, q ≠ .joined .down w) → q ≠ .queued .up false → q ≠ .outside →
      p ≠ q := by
    rintro q hj hq hout rfl
    obtain hpj | hpq := (hp hout).2
    · exact hj _ hpj
    · exact hq hpq
  have hother : ∀ u (q : Place), (s.base.put t p).place u = q → q ≠ p → s.base.place u = q :=
    fun u q hu hq => (ConnectionBase.place_of_put hu hq).2
  have hinside : ∀ d, p ≠ .inside d := fun d => hplace _ (by simp) (by simp) (by simp)
  refine ⟨⟨h.exclusive.put hin hinside, h.notConnecting, h.gone, h.never⟩, ?_, ?_, ?_, ?_, h.closed⟩
  · refine h.coherent.put hin fun d hb => ?_
    obtain rfl | hne := eq_or_ne p .outside
    · cases hb
    · obtain ⟨hs, -⟩ := hp hne
      rw [show s.base.state = Direction.down.transition from hs]
      exact Direction.transition_ne_target .down d
  · intro hstored
    obtain ⟨hs, hsignals, hout⟩ := h.unused hstored
    have hp' : p = .outside := by_contra fun hne => by simp [hs] at hp; exact hne hp
    refine ⟨hs, hsignals, fun u => ?_⟩
    rw [ConnectionBase.put_place, hp']
    split
    · rfl
    · exact hout u
  · intro u w hu
    exact h.closes u w (hother u _ hu (hplace _ (by simp) (by simp) (by simp)).symm)
  · intro u hu
    exact h.woken u (hother u _ hu (hplace _ (by simp) (by simp) (by simp)).symm)

theorem opened (h : s.Sound) (hs : s.base.state = .disconnected) (hstored : s.stored = true) :
    Sound { base := s.base.pass .up .returned t, stored := false, stream := true } := by
  obtain ⟨-, hnil, hout⟩ := h.unused hstored
  have hne : s.base.state ≠ Direction.up.transition := by simp [hs, Direction.transition]
  have hsignals := ConnectionBase.pass_signals (o := .returned) (t := t) h.coherent.flags hne
  rw [hnil, hs] at hsignals
  have hplace : ∀ u, (s.base.pass .up .returned t).place u = .outside := by
    intro u
    obtain rfl | hu := eq_or_ne u t
    · exact ConnectionBase.pass_place_self ..
    · rw [ConnectionBase.pass_place_of_ne h.coherent.flags hne hu, hout]
      rfl
  have hin : ∀ u e, s.base.place u ≠ .inside e := by simp [hout]
  exact ⟨⟨.pass hin _ _ _, by simp [Outcome.success, Direction.target],
    by simp [hsignals, ConnectionBase.signalsOf, Outcome.success, Direction.target,
      Direction.transition],
    by simp [hsignals, ConnectionBase.signalsOf, Outcome.success, Direction.target,
      Direction.transition]⟩,
    h.coherent.pass _ _ _, by simp, by simp [hplace], by simp [hplace],
    by simp [Outcome.success, Direction.target]⟩

theorem pass_closes (h : s.Sound) (d : Direction) (o : Outcome)
    (hs : s.base.state ≠ d.transition) (u : Task) (w : Bool) :
    (s.base.pass d o t).place u ≠ .queued .down w := by
  intro hu
  obtain rfl | hut := eq_or_ne u t
  · simp at hu
  · rw [ConnectionBase.pass_place_of_ne h.coherent.flags hs hut] at hu
    obtain ⟨w', hw'⟩ := queued_of_wakeAt hu
    exact h.closes u w' hw'

theorem refused (h : s.Sound) (hs : s.base.state = .disconnected) (hstored : s.stored = false) :
    Sound { s with base := s.base.pass .up .raised t } := by
  have hne : s.base.state ≠ Direction.up.transition := by simp [hs, Direction.transition]
  have hin : ∀ u e, s.base.place u ≠ .inside e := h.exclusive.not_inside (by rw [hs]; rfl)
  have hsignals := ConnectionBase.pass_signals (o := .raised) (t := t) h.coherent.flags hne
  rw [hs, List.append_assoc] at hsignals
  rw [h.closed hs hstored]
  exact h.of_disconnected (.pass hin _ _ _) (h.coherent.pass _ _ _)
    (ConnectionBase.pass_state ..) hstored hsignals (by decide) (h.pass_closes _ _ hne)

theorem closing (h : s.Sound) (hs : s.base.state = .connected) :
    Sound { s with base := s.base.enter .down t } := by
  have hup : s.base.state ≠ .disconnected := by simp [hs]
  have hin : ∀ u e, s.base.place u ≠ .inside e := h.exclusive.not_inside (by rw [hs]; rfl)
  have hne : Direction.down.transition ≠ s.base.state := by simp [hs, Direction.transition]
  have hsignals : (s.base.enter .down t).signals =
      s.base.signals ++ [.stateChanged .connected .disconnecting] := by
    rw [ConnectionBase.enter, ConnectionBase.put_signals,
      ConnectionBase.setState_signals h.coherent.flags hne, hs]
    rfl
  have hplace : ∀ u d w, (s.base.enter .down t).place u = .queued d w →
      s.base.place u = .queued d w := by
    intro u d w hu
    obtain ⟨-, hu⟩ := ConnectionBase.place_of_put hu (by simp)
    rwa [ConnectionBase.setState_place h.coherent.flags, if_neg hne,
      ConnectionBase.wakeAt_transition] at hu
  exact h.of_connected hup (.enter hin _ _) (h.coherent.enter _ _)
    (.inr (ConnectionBase.enter_state ..)) hsignals (by decide) (fun u d hu => hplace u d true hu)
    fun u w hu => h.closes u w (hplace u _ _ hu)

theorem closed_at_once (h : s.Sound) (hs : s.base.state = .connected) (hstream : s.stream = false) :
    Sound { s with base := s.base.pass .down .returned t } := by
  have hup : s.base.state ≠ .disconnected := by simp [hs]
  have hne : s.base.state ≠ Direction.down.transition := by simp [hs, Direction.transition]
  have hin : ∀ u e, s.base.place u ≠ .inside e := h.exclusive.not_inside (by rw [hs]; rfl)
  have hsignals := ConnectionBase.pass_signals (o := .returned) (t := t) h.coherent.flags hne
  rw [hs, List.append_assoc] at hsignals
  rw [hstream]
  exact h.of_disconnected (.pass hin _ _ _) (h.coherent.pass _ _ _)
    (ConnectionBase.pass_state ..) (h.used hup) hsignals (by decide) (h.pass_closes _ _ hne)

theorem aclosed (h : s.Sound) (hp : s.base.place t = .inside .down) (o : Outcome) :
    Sound { s with base := s.base.leave .down o t, stream := false } := by
  have hs : s.base.state = .disconnecting := h.exclusive.disconnecting.mpr ⟨t, hp⟩
  have hup : s.base.state ≠ .disconnected := by simp [hs]
  have hex := h.exclusive.leave hp o
  have hcoh := h.coherent.leave .down o t
  obtain ⟨n, hn, hne⟩ : ∃ n, n = (if o.success then Direction.down.target else
      Direction.down.reverse.target) ∧ n ≠ s.base.state := by
    refine ⟨_, rfl, ?_⟩
    rw [show s.base.state = Direction.down.transition from hs]
    split
    · exact Direction.target_ne_transition .down .down
    · exact Direction.target_ne_transition .up .down
  rw [ConnectionBase.leave, ← hn] at hex hcoh ⊢
  have hsignals : ((s.base.setState n).put t .outside).signals =
      s.base.signals ++ ConnectionBase.signalsOf (.disconnecting, n) := by
    rw [ConnectionBase.put_signals, ConnectionBase.setState_signals h.coherent.flags hne, hs]
  have hplace : ∀ u d w, ((s.base.setState n).put t .outside).place u = .queued d w →
      ConnectionBase.wakeAt n (s.base.place u) = .queued d w := by
    intro u d w hu
    obtain ⟨-, hu⟩ := ConnectionBase.place_of_put hu (by simp)
    rwa [ConnectionBase.setState_place h.coherent.flags, if_neg hne] at hu
  have hcloses : ∀ u w, ((s.base.setState n).put t .outside).place u ≠ .queued .down w := by
    intro u w hu
    obtain ⟨w', hw'⟩ := queued_of_wakeAt (hplace u _ _ hu)
    exact h.closes u w' hw'
  have hstate : ((s.base.setState n).put t .outside).state = n := by simp
  cases o with
  | returned =>
    obtain rfl : n = .disconnected := hn
    exact h.of_disconnected hex hcoh hstate (h.used hup) hsignals (by decide) hcloses
  | raised | cancelled =>
    obtain rfl : n = .connected := hn
    refine h.of_connected hup hex hcoh (.inl hstate) hsignals (by decide) (fun u d hu => ?_) hcloses
    cases d with
    | up => exact queued_of_wake_up (hplace u _ _ hu)
    | down => exact absurd hu (hcloses u true)

theorem change (h : s.Sound) (hc : s.Change s') : s'.Sound := by
  cases hc with
  | none => exact h
  | moved hin hp => exact h.moved hin hp
  | opened hs hstored => exact h.opened hs hstored
  | refused hs hstored => exact h.refused hs hstored
  | closing hs => exact h.closing hs
  | closed hs hstream => exact h.closed_at_once hs hstream
  | aclosed o hp => exact h.aclosed hp o

end Sound

/-- **A connection that can be opened once lives once**, whatever its tasks do. -/
theorem livesOnce_along (wrapper : Bool) (ls : List (Label Task)) :
    (oneShot Task wrapper).Along LivesOnce (oneShot Task wrapper).init ls :=
  ((Machine.guarded_anyStep _ ls).along (sound_init wrapper)
    fun _ _ _ h _ hst => h.change (h.change_of_step hst)).mono fun _ h => h.toLivesOnce

end OneShot

end FlockwaveConn
