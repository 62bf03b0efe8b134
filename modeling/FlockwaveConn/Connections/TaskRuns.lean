import FlockwaveConn.Connections.TaskConnection

/-!
# Connections/TaskRuns — a task connection and its task

A `TaskConnectionBase` is to be connected exactly while its task runs.  What holds the two together
is the `close()` that the task makes when `_run()` is over, and the cancel scope by which a
`_close()` reaches the task.  A run that loses neither of them (`Keeps`) keeps the promise
(`followsTask_of_keeps`).
-/

namespace FlockwaveConn.TaskConnection

variable {User : Type*}

/-! ## What the class promises -/

/-- The task of the latest session that was opened is in `_run()`. -/
def TaskRuns (c : TaskConnection User) : Prop :=
  ∃ n, c.opened = some n ∧ c.nursery.runner n = .running

/-- **Connected exactly while the task runs**, where no task is inside `open()` or `close()` (nor
about to leave a wait in there). -/
def FollowsTask (c : TaskConnection User) : Prop :=
  (∀ t, c.base.place t = .outside) →
    (c.base.state = .connected ↔ c.TaskRuns) ∧ (¬ c.TaskRuns → c.base.state = .disconnected)

/-- `_close()` would not get hold of the task that runs: a `close()` that was cancelled has the
cancel scope. -/
def LostScope (c : TaskConnection User) : Prop :=
  c.cancelScope = none ∧ ∃ n, c.closedEvent = some n ∧ c.nursery.runner n = .running

/-- **A step that lets the task and the connection stay together.** -/
def Keeps (c : TaskConnection User) : Label User → Prop
  -- a `close()` finds the cancel scope of the task, if that runs
  | .call d _ => d = .down → c.base.state = .connected → ¬ c.LostScope
  | .resume t => ∀ d, c.base.place t = .queued d true →
      c.base.state.isTransitioning = false ∧ (d = .up → c.base.state = .disconnected) ∧
        (d = .down → c.base.state = .connected → ¬ c.LostScope)
  -- after `started()` the task does not fail, unless somebody is closing the connection
  | .ends n e => (e = .raised ∨ e = .cancelledOutside) → c.nursery.runner n = .running →
      c.base.state = .disconnecting
  -- …and its own `close()` is not cancelled, unless somebody else is closing the connection
  | .interrupt t => ∀ n, t = .inr n → c.closedEvent = some n → c.nursery.runner n = .ended true →
      c.base.state = .disconnecting ∨ c.base.state = .disconnected
  -- a `close()` is not cancelled when the task does not run and nobody else is to close
  | .finish t o => o = .cancelled → c.base.place t = .inside .down → ∃ n, c.closedEvent = some n ∧
      (c.nursery.runner n = .running ∨ c.base.place (.inr n) ≠ .outside ∧ t ≠ .inr n)
  | _ => True

/-! ## The invariant -/

/-- What also holds in the middle of a stretch. -/
structure Tied (c : TaskConnection User) : Prop where
  coherent : c.base.Coherent
  exclusive : c.base.Exclusive
  /-- Sessions to come have no task and no event. -/
  fresh : ∀ n, c.nursery.sessions ≤ n →
    c.nursery.runner n = .absent ∧ c.nursery.eventSet n = false ∧ c.closedEvent ≠ some n
  /-- The task of a session calls `close()` only, and that when its `_run()` is over. -/
  own : ∀ n d, (c.base.place (.inr n)).direction = some d →
    d = .down ∧ ∃ b, c.nursery.runner n = .ended b

/-- **The connection goes by the session of `_closed_event`**, and only the task of that session may
be active. -/
structure Bound (c : TaskConnection User) : Prop extends c.Tied where
  active : ∀ n, (c.nursery.runner n).isActive →
    c.closedEvent = some n ∧ c.nursery.eventSet n = false ∧ c.base.state ≠ .disconnected
  scope : ∀ n, c.cancelScope = some n → c.base.state = .connected ∧ c.closedEvent = some n
  session : ∀ t d, c.base.place t = .inside d → c.closedEvent = some (c.session t)
  inForce : c.base.state = .connected ∨ c.base.state = .disconnecting →
    ∃ n, c.closedEvent = some n ∧ c.opened = some n ∧ (c.nursery.runner n).hasStarted
  /-- A task that joined a `close()` is released by `DISCONNECTED` only. -/
  released : ∀ n d, c.base.place (.inr n) = .joined d true → c.closedEvent = some n →
    c.base.state = .disconnected

/-- A task that is over has its `close()` before it, or somebody is closing the connection. -/
def Watched (c : TaskConnection User) : Prop :=
  c.base.state = .connected ∨ c.base.state = .connecting →
    ∀ n, c.closedEvent = some n → c.nursery.runner n = .ended true →
      c.base.place (.inr n) ≠ .outside

/-- **The invariant is what the class promises.** -/
theorem Bound.followsTask {c : TaskConnection User} (h : c.Bound) (hw : c.Watched) :
    c.FollowsTask := by
  intro hout
  have hstable : c.base.state.isTransitioning = false := by
    obtain ⟨d, hd | hd⟩ := Direction.state_cases c.base.state
    · simp [hd]
    · obtain ⟨t, ht⟩ := h.coherent.occupied d hd
      simp [hout t] at ht
  have hup : c.base.state = .connected → c.TaskRuns := by
    intro hs
    obtain ⟨n, hn, hop, hst⟩ := h.inForce (.inl hs)
    refine ⟨n, hop, ?_⟩
    have hne : c.nursery.runner n ≠ .ended true := fun hr => hw (.inl hs) n hn hr (hout _)
    cases hr : c.nursery.runner n with
    | running => rfl
    | ended b => cases b <;> simp_all [Runner.hasStarted]
    | _ => simp [hr, Runner.hasStarted] at hst
  have hdown : c.TaskRuns → c.base.state ≠ .disconnected := by
    rintro ⟨n, -, hr⟩
    exact (h.active n (by simp [hr, Runner.isActive])).2.2
  have hcases : c.base.state = .connected ∨ c.base.state = .disconnected := by
    cases hs : c.base.state <;> simp_all [ConnectionState.isTransitioning]
  rcases hcases with hs | hs
  · exact ⟨⟨hup, fun _ => hs⟩, fun hn => absurd (hup hs) hn⟩
  · refine ⟨⟨fun hc => absurd (hs.symm.trans hc) (by decide), fun hr => absurd hs (hdown hr)⟩, ?_⟩
    exact fun _ => hs

theorem bound_init : (init : TaskConnection User).Bound where
  coherent := ConnectionBase.coherent_init
  exclusive := ConnectionBase.exclusive_init
  fresh _ _ := ⟨rfl, rfl, nofun⟩
  own _ _ h := by simp [init, ConnectionBase.init] at h
  active _ h := by simp [init, Nursery.init, Runner.isActive] at h
  scope _ h := by simp [init] at h
  session _ _ h := by simp [init, ConnectionBase.init] at h
  inForce h := by simp [init, ConnectionBase.init] at h
  released _ _ h := by simp [init, ConnectionBase.init] at h

/-- A new session takes the number that is next. -/
theorem Tied.newSession {c : TaskConnection User} {s : Nursery} {f : User ⊕ ℕ → ℕ}
    (h : c.Tied) (hsess : s.sessions = c.nursery.sessions + 1)
    (hev : s.eventSet = c.nursery.eventSet)
    (hr : ∀ n ≠ c.nursery.sessions, s.runner n = c.nursery.runner n) :
    Tied { c with nursery := s, closedEvent := some c.nursery.sessions, session := f } where
  coherent := h.coherent
  exclusive := h.exclusive
  fresh n hn := by
    have hlt : c.nursery.sessions < n := by
      change s.sessions ≤ n at hn
      omega
    refine ⟨(hr n hlt.ne').trans (h.fresh n hlt.le).1, ?_, fun heq => hlt.ne (Option.some.inj heq)⟩
    exact (congrFun hev n).trans (h.fresh n hlt.le).2.1
  own n e he := by
    obtain ⟨hd, b, hb⟩ := h.own n e he
    refine ⟨hd, b, (hr n ?_).trans hb⟩
    rintro rfl
    simp [(h.fresh _ le_rfl).1] at hb

/-- Where the connection is up, a task that is active has started. -/
theorem Bound.running_of_active {c : TaskConnection User} {n : ℕ} (h : c.Bound)
    (hs : c.base.state ≠ .connecting)
    (hact : (c.nursery.runner n).isActive) :
    c.closedEvent = some n ∧ c.nursery.runner n = .running := by
  obtain ⟨hn, -, hne⟩ := h.active n hact
  have hup : c.base.state = .connected ∨ c.base.state = .disconnecting := by
    cases hst : c.base.state <;> simp_all
  obtain ⟨m, hm, -, hstarted⟩ := h.inForce hup
  obtain rfl : m = n := Option.some.inj (hm.symm.trans hn)
  refine ⟨hn, ?_⟩
  cases hr : c.nursery.runner m <;> simp_all [Runner.isActive, Runner.hasStarted]

/-- In a transition the session that counts is the one the task inside is there for. -/
theorem Bound.state_of_inside {c : TaskConnection User} {t : User ⊕ ℕ} {d : Direction} (h : c.Bound)
    (ht : c.base.place t = .inside d) :
    c.base.state = d.transition ∧ c.closedEvent = some (c.session t) :=
  ⟨(h.exclusive.transition_iff d).mpr ⟨t, ht⟩, h.session t d ht⟩

theorem Bound.scope_eq_none {c : TaskConnection User} (h : c.Bound)
    (hs : c.base.state ≠ .connected) : c.cancelScope = none :=
  Option.eq_none_iff_forall_ne_some.mpr fun n hn => hs (h.scope n hn).1

/-! ## The tasks of the sessions -/

/-- **A step of a task that is active**: it stays active, or its event is set. -/
theorem Bound.runnerStep {c : TaskConnection User} {s : Nursery} {n : ℕ} (h : c.Bound)
    (hact : (c.nursery.runner n).isActive) (hsess : s.sessions = c.nursery.sessions)
    (hother : ∀ m, m ≠ n →
      s.runner m = c.nursery.runner m ∧ s.eventSet m = c.nursery.eventSet m)
    (hself : (s.runner n).isActive → s.eventSet n = c.nursery.eventSet n)
    (hst : (c.nursery.runner n).hasStarted → (s.runner n).hasStarted) :
    Bound { c with nursery := s } where
  coherent := h.coherent
  exclusive := h.exclusive
  fresh m hm := by
    obtain ⟨h1, h2, h3⟩ := h.fresh m (hsess ▸ hm)
    have hmn : m ≠ n := by
      rintro rfl
      simp [h1, Runner.isActive] at hact
    exact ⟨(hother m hmn).1.trans h1, (hother m hmn).2.trans h2, h3⟩
  own m e he := by
    obtain ⟨hd, b, hb⟩ := h.own m e he
    have hmn : m ≠ n := by
      rintro rfl
      simp [hb, Runner.isActive] at hact
    exact ⟨hd, b, (hother m hmn).1.trans hb⟩
  active m hm := by
    by_cases hmn : m = n
    · subst hmn
      obtain ⟨h1, h2, h3⟩ := h.active m hact
      exact ⟨h1, (hself hm).trans h2, h3⟩
    · obtain ⟨h1, h2, h3⟩ := h.active m ((hother m hmn).1 ▸ hm)
      exact ⟨h1, (hother m hmn).2.trans h2, h3⟩
  scope := h.scope
  session := h.session
  inForce hs := by
    obtain ⟨m, hm, hop, hstm⟩ := h.inForce hs
    refine ⟨m, hm, hop, ?_⟩
    by_cases hmn : m = n
    · exact hmn ▸ hst (hmn ▸ hstm)
    · exact ((hother m hmn).1).symm ▸ hstm
  released := h.released

/-- The invariant is not about the state of the nursery itself. -/
theorem Bound.flags {c : TaskConnection User} (h : c.Bound) (x y : Bool) :
    Bound { c with nursery := { c.nursery with cancelled := x, closed := y } } :=
  ⟨⟨h.coherent, h.exclusive, h.fresh, h.own⟩, h.active, h.scope, h.session, h.inForce, h.released⟩

/-- The task of a session goes on. -/
theorem Bound.setRunner {c : TaskConnection User} {n : ℕ} {r : Runner} (h : c.Bound)
    (hw : c.Watched) (hact : (c.nursery.runner n).isActive) (hr : ∀ b, r ≠ .ended b)
    (hst : (c.nursery.runner n).hasStarted → r.hasStarted) :
    Bound { c with nursery := c.nursery.setRunner n r } ∧
      Watched { c with nursery := c.nursery.setRunner n r } := by
  refine ⟨h.runnerStep hact rfl (fun m hm => ⟨Nursery.setRunner_of_ne hm, rfl⟩) (fun _ => rfl)
    (by simpa using hst), fun hs m hm hrm => hw hs m hm ?_⟩
  by_cases hmn : m = n
  · subst hmn
    exact absurd (Nursery.setRunner_self.symm.trans hrm) (hr true)
  · exact (Nursery.setRunner_of_ne hmn).symm.trans hrm

/-- **`_run()` is over**: its event is set, and no task is active any more. -/
theorem Bound.endRunner {c : TaskConnection User} {n : ℕ} (h : c.Bound)
    (hact : (c.nursery.runner n).isActive) :
    Bound { c with nursery := (c.nursery.endRunner n).setEvent n } := by
  refine h.runnerStep hact rfl (fun m hm => ⟨Nursery.setRunner_of_ne hm, Nursery.setEvent_of_ne hm⟩)
    (fun hn => ?_) fun hst => ?_
  · have hend : ((c.nursery.endRunner n).setEvent n).runner n = .ended _ := Nursery.setRunner_self
    simp [hend, Runner.isActive] at hn
  · have hend : ((c.nursery.endRunner n).setEvent n).runner n = .ended _ := Nursery.setRunner_self
    rw [hend, hst]
    rfl

variable [DecidableEq User] {c : TaskConnection User} {t : User ⊕ ℕ} {d : Direction}

/-! ## Moves of a task -/

/-- The invariant of the nursery's side, under a move of a task in or to a wait. -/
theorem Tied.put {p : Place} (h : c.Tied) (hin : ∀ d, c.base.place t ≠ .inside d)
    (hp : ∀ d, p ≠ .inside d) (hb : ∀ d, p.blockedOn = some d → c.base.state ≠ d.target)
    (hown : ∀ n d, t = .inr n → p.direction = some d →
      d = .down ∧ ∃ b, c.nursery.runner n = .ended b) :
    Tied { c with base := c.base.put t p } where
  coherent := h.coherent.put hin hb
  exclusive := h.exclusive.put hin hp
  fresh := h.fresh
  own n e he := by
    rw [ConnectionBase.put_place] at he
    split at he
    · next ht => exact hown n e ht.symm he
    · exact h.own n e he

/-- **A task moves in or to a wait.** -/
theorem Bound.put {p : Place} (h : c.Bound) (hin : ∀ d, c.base.place t ≠ .inside d)
    (hp : ∀ d, p ≠ .inside d) (hb : ∀ d, p.blockedOn = some d → c.base.state ≠ d.target)
    (hown : ∀ n d, t = .inr n → p.direction = some d →
      d = .down ∧ ∃ b, c.nursery.runner n = .ended b)
    (hrel : ∀ n d, t = .inr n → p ≠ .joined d true) :
    Bound { c with base := c.base.put t p } where
  toTied := h.toTied.put hin hp hb hown
  active := h.active
  scope := h.scope
  session u e hu := h.session u e ((ConnectionBase.put_place_inside hin hp).mp hu)
  inForce := h.inForce
  released n e he hn := by
    rw [ConnectionBase.put_place] at he
    split at he
    · next ht => exact absurd he (hrel n e ht.symm)
    · exact h.released n e he hn

/-- A task goes into `_open()` or `_close()` where no transition is under way. -/
theorem Tied.enter (h : c.Tied) (hs : c.base.state.isTransitioning = false)
    (hown : ∀ n, t = .inr n → d = .down ∧ ∃ b, c.nursery.runner n = .ended b) :
    Tied { c with base := c.base.enter d t } where
  coherent := h.coherent.enter d t
  exclusive := .enter (h.exclusive.not_inside hs) d t
  fresh := h.fresh
  own n e he := by
    rw [ConnectionBase.enter_place h.coherent.flags] at he
    split at he
    · next ht =>
      obtain rfl : d = e := by simpa using he
      exact hown n ht.symm
    · exact h.own n e he

/-- The task that was in `_open()` or `_close()` comes out. -/
theorem Tied.leave (h : c.Tied) (ht : c.base.place t = .inside d) (o : Outcome)
    (cs op : Option ℕ) :
    Tied { c with base := c.base.leave d o t, cancelScope := cs, opened := op } where
  coherent := h.coherent.leave d o t
  exclusive := h.exclusive.leave ht o
  fresh := h.fresh
  own n e he := by
    rw [ConnectionBase.leave_place_direction] at he
    split at he
    · cases he
    · exact h.own n e he

/-- **A transition ends in `DISCONNECTED`**, and no task is active. -/
theorem Tied.toDisconnected {o : Outcome} (h : c.Tied) (ht : c.base.place t = .inside d)
    (hend : (if o.success then d.target else d.reverse.target) = .disconnected)
    (hact : ∀ n, (c.nursery.runner n).isActive = false) (hcs : c.cancelScope = none) :
    Bound { c with base := c.base.leave d o t } where
  toTied := h.leave ht o _ _
  active n hn := absurd hn (by simp [hact n])
  scope n hn := by simp [hcs] at hn
  session u e hu := absurd hu (h.exclusive.not_inside_leave ht o u e)
  inForce hs := by
    rw [ConnectionBase.leave_state, hend] at hs
    simp at hs
  released _ _ _ _ := by rw [ConnectionBase.leave_state, hend]

/-- **A transition ends in `CONNECTED`**, with a session whose task has started. -/
theorem Bound.toConnected {o : Outcome} {n : ℕ} {cs : Option ℕ} (h : c.Bound)
    (ht : c.base.place t = .inside d)
    (hend : (if o.success then d.target else d.reverse.target) = .connected)
    (hn : c.closedEvent = some n) (hst : (c.nursery.runner n).hasStarted)
    (hcs : cs = none ∨ cs = some n) :
    Bound { c with base := c.base.leave d o t, cancelScope := cs, opened := some n } where
  toTied := h.toTied.leave ht o _ _
  active m hm := by
    obtain ⟨h1, h2, -⟩ := h.active m hm
    refine ⟨h1, h2, ?_⟩
    rw [ConnectionBase.leave_state, hend]
    decide
  scope m hm := by
    rcases hcs with rfl | rfl
    · cases hm
    · obtain rfl := Option.some.inj hm
      exact ⟨by rw [ConnectionBase.leave_state, hend], hn⟩
  session u e hu := absurd hu (h.exclusive.not_inside_leave ht o u e)
  inForce _ := ⟨n, hn, rfl, hst⟩
  released m e hm hcl := by
    have hdown : e = .down := by
      refine ((h.leave ht o none none).own m e ?_).1
      rw [hm]
      rfl
    subst hdown
    have hj : c.base.place (.inr m) = .joined .down true := by
      refine ConnectionBase.joined_of_leave h.coherent.flags hm ?_
      rw [ConnectionBase.leave_state, hend]
      decide
    have htr := (h.exclusive.transition_iff d).mpr ⟨t, ht⟩
    exact absurd (htr.symm.trans (h.released m _ hj hcl)) (Direction.transition_ne_target d .down)

/-! ## Into `_open()` and `_close()` -/

/-- **`_open()` begins a session.** -/
theorem Bound.opens (h : c.Bound) (hs : c.base.state = .disconnected) (hown : ∀ n, t ≠ .inr n) :
    Bound (open_ t { c with base := c.base.enter .up t }) ∧
      Watched (open_ t { c with base := c.base.enter .up t }) := by
  have hidle : ∀ n, (c.nursery.runner n).isActive = false := by
    intro n
    by_contra hact
    exact (h.active n (by simpa using hact)).2.2 hs
  have hnone : c.cancelScope = none := h.scope_eq_none (by simp [hs])
  have htied : Tied { c with base := c.base.enter .up t } :=
    h.toTied.enter (by simp [hs, ConnectionState.isTransitioning]) fun n hn => absurd hn (hown n)
  have hplace := ConnectionBase.enter_place h.coherent.flags .up t
  have hin := h.exclusive.not_inside (by simp [hs, ConnectionState.isTransitioning])
  unfold open_
  simp only
  split
  · have h1 := (htied.newSession (s := c.nursery.refuse) (f := c.session) rfl rfl
      fun _ _ => rfl).toDisconnected (t := t) (d := .up) (o := .raised) (by simp [hplace]) rfl hidle
      hnone
    refine ⟨h1, fun hst => ?_⟩
    simp [Outcome.success, Direction.reverse, Direction.target] at hst
  · have hrun : ∀ n, n ≠ c.nursery.sessions → c.nursery.start.runner n = c.nursery.runner n :=
      fun n hn => Nursery.start_runner_of_ne hn
    have hnew : c.nursery.start.runner c.nursery.sessions = .spawned := Nursery.start_runner_self
    have hfresh := h.fresh c.nursery.sessions le_rfl
    refine ⟨⟨htied.newSession rfl rfl hrun, fun n hn => ?_, fun n hn => ?_, fun u e hu => ?_,
      fun hst => ?_, fun n e hn hcl => ?_⟩, fun _ n hn hr => ?_⟩
    · obtain rfl : n = c.nursery.sessions := by
        by_contra hne
        rw [hrun n hne, hidle n] at hn
        cases hn
      exact ⟨rfl, hfresh.2.1, by simp [Direction.transition]⟩
    · cases hnone.symm.trans hn
    · obtain ⟨rfl, -⟩ := (ConnectionBase.enter_place_inside hin).mp hu
      simp
    · simp [Direction.transition] at hst
    · obtain rfl := Option.some.inj hcl
      rw [hplace, if_neg (hown _).symm] at hn
      obtain ⟨-, b, hb⟩ := h.own _ e (by rw [hn]; rfl)
      cases hfresh.1.symm.trans hb
    · obtain rfl := Option.some.inj hn
      cases hnew.symm.trans hr

theorem close_of_none (h : c.cancelScope = none) :
    c.close t = { c with base := c.base.leave .down .returned t } := by
  simp [close, h]

theorem close_of_some {n m : ℕ} (h : c.cancelScope = some n) (hm : c.closedEvent = some m) :
    c.close t = { c with cancelScope := none, nursery := c.nursery.cancelScope n
                         session := Function.update c.session t m } := by
  simp [close, h, hm]

/-- **`_close()` takes the scope of the session in force**, or ends the transition at once. -/
theorem Bound.closes (h : c.Bound) (hs : c.base.state.isTransitioning = false)
    (hown : ∀ n, t = .inr n → ∃ b, c.nursery.runner n = .ended b)
    (hlost : c.base.state = .connected → ¬ c.LostScope) :
    Bound (close t { c with base := c.base.enter .down t }) ∧
      Watched (close t { c with base := c.base.enter .down t }) := by
  have htied : Tied { c with base := c.base.enter .down t } :=
    h.toTied.enter hs fun n hn => ⟨rfl, hown n hn⟩
  have hplace := ConnectionBase.enter_place h.coherent.flags .down t
  have hconn : c.base.state ≠ .connecting := fun hst => by
    simp [hst, ConnectionState.isTransitioning] at hs
  rcases c.cancelScope.eq_none_or_eq_some with hcs | ⟨n, hcs⟩
  · have hidle : ∀ n, (c.nursery.runner n).isActive = false := by
      intro n
      by_contra hact
      obtain ⟨hn, hr⟩ := h.running_of_active hconn (by simpa using hact)
      have hst : c.base.state = .connected := by
        have hne := (h.active n (by simpa using hact)).2.2
        cases hst : c.base.state <;> simp_all [ConnectionState.isTransitioning]
      exact hlost hst ⟨hcs, n, hn, hr⟩
    rw [close_of_none (by exact hcs)]
    refine ⟨htied.toDisconnected (d := .down) (by simp [hplace]) rfl hidle hcs, fun hst => ?_⟩
    simp [Outcome.success, Direction.target] at hst
  · obtain ⟨hst, hn⟩ := h.scope n hcs
    rw [close_of_some (by exact hcs) (by exact hn)]
    refine ⟨⟨⟨htied.coherent, htied.exclusive, h.fresh, htied.own⟩, fun m hm => ?_, nofun,
      fun u e hu => ?_, fun _ => h.inForce (.inl hst), fun m e hm hcl => ?_⟩, fun hst' => ?_⟩
    · obtain ⟨h1, h2, -⟩ := h.active m hm
      exact ⟨h1, h2, by simp [Direction.transition]⟩
    · obtain ⟨rfl, -⟩ := (ConnectionBase.enter_place_inside (h.exclusive.not_inside hs)).mp hu
      simp [hn]
    · rw [hplace] at hm
      split at hm
      · cases hm
      · exact absurd ((h.released m e hm hcl).symm.trans hst) (by decide)
    · simp [Direction.transition] at hst'

/-- A task goes on from where no transition is under way, to the end of its stretch. -/
theorem Bound.enters (h : c.Bound) (hs : c.base.state.isTransitioning = false)
    (hup : d = .up → c.base.state = .disconnected)
    (hlost : d = .down → c.base.state = .connected → ¬ c.LostScope)
    (hown : ∀ n, t = .inr n → d = .down ∧ ∃ b, c.nursery.runner n = .ended b) :
    Bound (proceed t { c with base := c.base.enter d t }) ∧
      Watched (proceed t { c with base := c.base.enter d t }) := by
  have hplace : (c.base.enter d t).place t = .inside d := ConnectionBase.put_place_self ..
  cases d with
  | up =>
    simp only [proceed, hplace]
    exact h.opens (hup rfl) fun n hn => nomatch (hown n hn).1
  | down =>
    simp only [proceed, hplace]
    exact h.closes hs (fun n hn => (hown n hn).2) (hlost rfl)

/-- A stretch that ends outside `_open()` and `_close()`. -/
theorem proceed_put {p : Place} (hp : ∀ d, p ≠ .inside d) :
    proceed t { c with base := c.base.put t p } = { c with base := c.base.put t p } := by
  rw [proceed]
  split
  · next h => exact absurd ((ConnectionBase.put_place_self ..).symm.trans h) (hp _)
  · next h => exact absurd ((ConnectionBase.put_place_self ..).symm.trans h) (hp _)
  · rfl

/-- **A call to `open()` or `close()`.**  The task of a session that is over calls `close()`; it is
what its session waits for. -/
theorem Bound.request (h : c.Bound) (hout : c.base.place t = .outside)
    (hlost : d = .down → c.base.state = .connected → ¬ c.LostScope)
    (hown : ∀ n, t = .inr n → d = .down ∧ ∃ b, c.nursery.runner n = .ended b)
    (hw : c.base.state = .connected ∨ c.base.state = .connecting →
      ∀ n, c.closedEvent = some n → c.nursery.runner n = .ended true →
        t = .inr n ∨ c.base.place (.inr n) ≠ .outside) :
    (c.request d t).Bound ∧ (c.request d t).Watched := by
  have hm := ConnectionBase.move_of_request (d := d) hout
  have hwait : ∀ p : Place, p.direction = some d →
      Watched { c with base := c.base.put t p } := by
    intro p hp hst n hn hr hpl
    rw [ConnectionBase.put_place] at hpl
    split at hpl
    · simp [hpl] at hp
    · next hne => exact ((hw hst n hn hr).resolve_left (Ne.symm hne)) hpl
  have hin : ∀ e, c.base.place t ≠ .inside e := by simp [hout]
  rw [TaskConnection.request]
  generalize c.base.request d t = b at hm
  cases hm with
  | noop _ hs =>
    have hself : proceed t { c with base := c.base } = c := by simp [proceed, hout]
    rw [hself]
    refine ⟨h, fun hst n hn hr => ?_⟩
    refine (hw hst n hn hr).resolve_left ?_
    rintro rfl
    obtain ⟨rfl, -⟩ := hown n rfl
    simp [hs, Direction.target] at hst
  | join _ hs =>
    rw [proceed_put (by simp)]
    have hflag : c.base.flag d = false := by simp [h.coherent.flags d, hs]
    refine ⟨h.put hin (by simp) (fun e _ => by simp [hs]) (fun n e hn he => ?_) ?_, hwait _ rfl⟩
    · obtain rfl : d = e := by simpa using he
      exact hown n hn
    · simp [hflag]
  | queue _ hs =>
    rw [proceed_put (by simp)]
    refine ⟨h.put hin (by simp) (fun e _ => by simp [hs]) (fun n e hn he => ?_) (by simp),
      hwait _ rfl⟩
    obtain rfl : d = e := by simpa using he
    exact hown n hn
  | start _ hs =>
    refine h.enters (by simp [hs]) ?_ hlost hown
    rintro rfl
    exact hs

/-- **A woken task goes on.** -/
theorem Bound.resume {b : ConnectionBase (User ⊕ ℕ)} (h : c.Bound) (hw : c.Watched)
    (hg : c.Keeps (.resume t)) (hs : c.base.step (.resume t) = some b) :
    Bound (proceed t { c with base := b }) ∧ Watched (proceed t { c with base := b }) := by
  cases ConnectionBase.move_of_step hs with
  | @released e _ hp =>
    rw [proceed_put (by simp)]
    refine ⟨h.put (by simp [hp]) (by simp) (by simp) (by simp) (by simp), ?_⟩
    intro hst n hn hr
    rw [ConnectionBase.put_place]
    split
    · next hnt =>
      have hdis := h.released n e (hnt ▸ hp) hn
      simp [hdis] at hst
    · exact hw hst n hn hr
  | @goOn e _ hp =>
    obtain ⟨hst, hup, hlost⟩ := hg e hp
    refine h.enters hst hup hlost ?_
    rintro n rfl
    exact h.own n e (by simp [hp])

/-- **A wait is left by an exception.** -/
theorem Bound.interrupt {b : ConnectionBase (User ⊕ ℕ)} (h : c.Bound) (hw : c.Watched)
    (hg : c.Keeps (.interrupt t)) (hs : c.base.step (.interrupt t) = some b) :
    Bound { c with base := b } ∧ Watched { c with base := b } := by
  cases ConnectionBase.move_of_step hs with
  | giveUp _ hin =>
    refine ⟨h.put hin (by simp) (by simp) (by simp) (by simp), ?_⟩
    intro hst n hn hr
    rw [ConnectionBase.put_place]
    split
    · next hnt =>
      have hoff := hg n hnt.symm hn hr
      rcases hst with hst | hst <;> simp [show c.base.state = _ from hst] at hoff
    · exact hw hst n hn hr

/-! ## The end of `_open()` and `_close()` -/

/-- After a `leave()` that ends `CONNECTED`, a task that is over is still watched. -/
theorem watched_leave {o : Outcome} {x y : Option ℕ}
    (hw : ∀ n, c.closedEvent = some n → c.nursery.runner n = .ended true →
      c.base.place (.inr n) ≠ .outside ∧ t ≠ .inr n) :
    Watched { c with base := c.base.leave d o t, cancelScope := x, opened := y } := by
  intro _ n hn hr hpl
  obtain ⟨hne, htn⟩ := hw n hn hr
  have hdir := ConnectionBase.leave_place_direction c.base d o t (.inr n)
  rw [if_neg (Ne.symm htn), Place.direction_eq_none.mpr hpl] at hdir
  exact hne (Place.direction_eq_none.mp hdir.symm)

/-- **`_open()` returns.** -/
theorem Bound.opened (h : c.Bound) (hw : c.Watched) (ht : c.base.place t = .inside .up)
    (hst : (c.nursery.runner (c.session t)).hasStarted) :
    Bound { c with base := c.base.leave .up .returned t, cancelScope := some (c.session t)
                   opened := some (c.session t) } ∧
      Watched { c with base := c.base.leave .up .returned t, cancelScope := some (c.session t)
                       opened := some (c.session t) } := by
  obtain ⟨hs, hn⟩ := h.state_of_inside ht
  refine ⟨h.toConnected ht rfl hn hst (.inr rfl), watched_leave fun n hcl hr => ?_⟩
  refine ⟨hw (.inr hs) n hcl hr, ?_⟩
  rintro rfl
  exact nomatch (h.own n .up (by simp [ht])).1

/-- **`_open()` fails**: the task has ended without having started. -/
theorem Bound.openFailed {o : Outcome} (h : c.Bound) (ht : c.base.place t = .inside .up)
    (ho : o ≠ .returned) (hr : c.nursery.runner (c.session t) = .ended false) :
    Bound { c with base := c.base.leave .up o t } ∧
      Watched { c with base := c.base.leave .up o t } := by
  obtain ⟨hs, hn⟩ := h.state_of_inside ht
  have ho : o.success = false := by cases o <;> first | rfl | exact absurd rfl ho
  have hidle : ∀ n, (c.nursery.runner n).isActive = false := by
    intro n
    by_contra hact
    have hcl := (h.active n (by simpa using hact)).1
    obtain rfl : c.session t = n := Option.some.inj (hn.symm.trans hcl)
    simp [hr, Runner.isActive] at hact
  have hcs : c.cancelScope = none := h.scope_eq_none (by simp [hs, Direction.transition])
  refine ⟨h.toDisconnected ht (by simp [ho, Direction.reverse, Direction.target]) hidle hcs, ?_⟩
  intro hst
  simp [ho, Direction.reverse, Direction.target] at hst

/-- **`_close()` returns**: the event of the session has been set. -/
theorem Bound.closed (h : c.Bound) (ht : c.base.place t = .inside .down)
    (hev : c.nursery.eventSet (c.session t) = true) :
    Bound { c with base := c.base.leave .down .returned t } ∧
      Watched { c with base := c.base.leave .down .returned t } := by
  obtain ⟨hs, hn⟩ := h.state_of_inside ht
  have hidle : ∀ n, (c.nursery.runner n).isActive = false := by
    intro n
    by_contra hact
    obtain ⟨hcl, hunset, -⟩ := h.active n (by simpa using hact)
    obtain rfl : c.session t = n := Option.some.inj (hn.symm.trans hcl)
    exact absurd (hev.symm.trans hunset) (by decide)
  have hcs : c.cancelScope = none := h.scope_eq_none (by simp [hs, Direction.transition])
  refine ⟨h.toDisconnected ht rfl hidle hcs, fun hst => ?_⟩
  simp [Outcome.success, Direction.target] at hst

/-- **`_close()` is cancelled.** -/
theorem Bound.closeCancelled (h : c.Bound) (hg : c.Keeps (.finish t .cancelled))
    (ht : c.base.place t = .inside .down) :
    Bound { c with base := c.base.leave .down .cancelled t } ∧
      Watched { c with base := c.base.leave .down .cancelled t } := by
  obtain ⟨hs, hn⟩ := h.state_of_inside ht
  obtain ⟨n, hcl, hop, hst⟩ := h.inForce (.inr hs)
  have hcs : c.cancelScope = none := h.scope_eq_none (by simp [hs, Direction.transition])
  have h1 := h.toConnected (o := .cancelled) ht rfl hcl hst (.inl rfl)
  obtain ⟨m, hm, hkeep⟩ := hg rfl ht
  obtain rfl : n = m := Option.some.inj (hcl.symm.trans hm)
  refine ⟨?_, ?_⟩
  · rw [← hop, ← hcs] at h1
    exact h1
  · refine watched_leave (x := c.cancelScope) (y := c.opened) fun k hk hr => ?_
    obtain rfl : n = k := Option.some.inj (hcl.symm.trans hk)
    rcases hkeep with hrun | hne
    · exact absurd (hrun.symm.trans hr) (by decide)
    · exact hne

theorem ends_of_current {n : ℕ} (e : Ending) (hn : c.closedEvent = some n) :
    c.ends n e =
      let c' := { c with nursery := (c.nursery.endRunner n).setEvent n }
      match e with
      | .returned | .scopeCancelled => c'.request .down (.inr n)
      | .cancelledOutside => c'
      | .raised =>
        { c' with nursery := { c'.nursery with
            cancelled := c'.nursery.cancelled || (c.nursery.runner n).hasStarted } } := by
  cases e <;> simp [TaskConnection.ends, hn]

/-- **`_run()` ends**: the task calls `close()`, or it was being closed. -/
theorem Bound.ends {n : ℕ} {e : Ending} (h : c.Bound) (hg : c.Keeps (.ends n e))
    (hend : c.nursery.canEnd n e) : (c.ends n e).Bound ∧ (c.ends n e).Watched := by
  have hact := Nursery.isActive_of_canEnd hend
  obtain ⟨hn, -, -⟩ := h.active n hact
  have hrun : (c.nursery.endRunner n).runner n = .ended (c.nursery.runner n).hasStarted :=
    Nursery.setRunner_self
  have h1 := h.endRunner hact
  have hw1 : ∀ m, c.closedEvent = some m → m = n := fun m hm => Option.some.inj (hm.symm.trans hn)
  -- the task skips its `close()`
  have hskip : (e = .raised ∨ e = .cancelledOutside) →
      Watched { c with nursery := (c.nursery.endRunner n).setEvent n } := by
    intro he hs m hm hr
    obtain rfl := hw1 m hm
    have hst : (c.nursery.runner m).hasStarted = true := by
      simpa using Runner.ended.inj (hrun.symm.trans hr)
    have hdis := hg he (by cases hr : c.nursery.runner m <;> simp_all [Runner.isActive,
      Runner.hasStarted])
    simp [show c.base.state = _ from hdis] at hs
  -- …or makes it
  have hclose : Bound (TaskConnection.request .down (.inr n)
      { c with nursery := (c.nursery.endRunner n).setEvent n }) ∧
      Watched (TaskConnection.request .down (.inr n)
        { c with nursery := (c.nursery.endRunner n).setEvent n }) := by
    have hout : c.base.place (.inr n) = .outside := by
      by_contra hne
      obtain ⟨x, hx⟩ := Option.ne_none_iff_exists'.mp (mt Place.direction_eq_none.mp hne)
      obtain ⟨-, b, hb⟩ := h.own n x hx
      simp [hb, Runner.isActive] at hact
    refine h1.request hout (fun _ _ hlost => ?_) (fun m hm => ?_) fun _ m hm _ => .inl ?_
    · obtain ⟨-, m, hm, hr⟩ := hlost
      obtain rfl := hw1 m hm
      cases hrun.symm.trans hr
    · obtain rfl := Sum.inr.inj hm
      exact ⟨rfl, _, hrun⟩
    · rw [hw1 m hm]
  rw [ends_of_current e hn]
  cases e with
  | returned | scopeCancelled => exact hclose
  | cancelledOutside => exact ⟨h1, hskip (.inr rfl)⟩
  | raised => exact ⟨h1.flags _ _, hskip (.inl rfl)⟩

/-- **One step.** -/
theorem Bound.step {c' : TaskConnection User} {l : Label User} (h : c.Bound) (hw : c.Watched)
    (hg : c.Keeps l) (hs : c.step l = some c') : c'.Bound ∧ c'.Watched := by
  cases l with
  | call d t =>
    obtain ⟨hout, rfl⟩ : c.base.place (.inl t) = .outside ∧ c.request d (.inl t) = c' := by
      simpa [TaskConnection.step] using hs
    exact h.request hout hg (fun n hn => nomatch hn) fun hst n hn hr => .inr (hw hst n hn hr)
  | resume t =>
    obtain ⟨b, hb, rfl⟩ := Option.map_eq_some_iff.mp hs
    exact h.resume hw hg hb
  | interrupt t =>
    simp only [TaskConnection.step] at hs
    split at hs
    · obtain ⟨b, hb, rfl⟩ := Option.map_eq_some_iff.mp hs
      exact h.interrupt hw hg hb
    · cases hs
  | finish t o =>
    simp only [TaskConnection.step] at hs
    split at hs <;> simp only [Option.ite_none_right_eq_some, Option.some.injEq, reduceCtorEq] at hs
    · next ht =>
      obtain ⟨hst, rfl⟩ := hs
      exact h.opened hw ht hst
    · next ht ho =>
      obtain ⟨⟨hr, -⟩, rfl⟩ := hs
      exact h.openFailed ht ho hr
    · next ht =>
      obtain ⟨hev, rfl⟩ := hs
      exact h.closed ht hev
    · next ht =>
      obtain ⟨-, rfl⟩ := hs
      exact h.closeCancelled hg ht
  | begin n =>
    obtain ⟨hr, rfl⟩ : c.nursery.runner n = .spawned ∧ _ := by simpa [TaskConnection.step] using hs
    exact h.setRunner hw (by simp [hr, Runner.isActive]) nofun (by simp [hr, Runner.hasStarted])
  | started n =>
    obtain ⟨hr, rfl⟩ : c.nursery.runner n = .starting ∧ _ := by simpa [TaskConnection.step] using hs
    exact h.setRunner hw (by simp [hr, Runner.isActive]) nofun fun _ => rfl
  | ends n e =>
    obtain ⟨hend, rfl⟩ : c.nursery.canEnd n e = true ∧ c.ends n e = c' := by
      simpa [TaskConnection.step] using hs
    exact h.ends hg hend
  | cancelNursery =>
    obtain rfl := Option.some.inj hs
    exact ⟨h.flags _ _, hw⟩
  | closeNursery =>
    simp only [TaskConnection.step] at hs
    split at hs
    · obtain rfl := Option.some.inj hs
      exact ⟨h.flags _ _, hw⟩
    · cases hs

/-- **In a run that keeps the task and the connection together, the connection is connected exactly
while its task runs.** -/
theorem followsTask_of_keeps {ls : List (Label User)}
    (h : (taskConnection User).Guarded Keeps .init ls) :
    (taskConnection User).Along FollowsTask .init ls := by
  have hinit : (init : TaskConnection User).Bound ∧ (init : TaskConnection User).Watched :=
    ⟨bound_init, fun hs => by simp [init, ConnectionBase.init] at hs⟩
  refine (h.along (I := fun c => c.Bound ∧ c.Watched) hinit ?_).mono fun c hc =>
    hc.1.followsTask hc.2
  exact fun c l c' hc hg hs => hc.1.step hc.2 hg hs

/-- The task runs to its end, and closes the connection. -/
theorem followsTask_of_finite_task : (taskConnection Unit).Along FollowsTask .init
    [.call .up (), .begin 0, .started 0, .finish (.inl ()) .returned, .ends 0 .returned,
      .finish (.inr 0) .returned] :=
  followsTask_of_keeps <| .cons rfl (fun hd => nomatch hd) <| .cons rfl trivial <|
    .cons rfl trivial <| .cons rfl (fun ho => nomatch ho) <|
      .cons rfl (fun he => nomatch he) <| .cons rfl (fun ho => nomatch ho) trivial

/-- The task fails after it has started: the connection stays `CONNECTED`. -/
theorem connected_without_task :
    ¬ ∀ ls : List (Label Unit), (taskConnection Unit).Along FollowsTask .init ls := by
  intro h
  have hrun := h [.call .up (), .begin 0, .started 0, .finish (.inl ()) .returned, .ends 0 .raised]
  have hend := (((((hrun.2 _ rfl).2 _ rfl).2 _ rfl).2 _ rfl).2 _ rfl).here
  obtain ⟨n, hn, hr⟩ := (hend (by rintro (_ | _) <;> rfl)).1.mp rfl
  obtain rfl := Option.some.inj hn
  cases hr

end FlockwaveConn.TaskConnection
