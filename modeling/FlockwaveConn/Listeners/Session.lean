import FlockwaveConn.Listeners.Trio

/-!
# Listeners/Session — what holds while transitions keep apart

As long as no two tasks are inside `_open()` and `_close()` (`Orderly`), a session begins only when
the listener is `CLOSED`, so there is one at a time: the task of an older session is not active, and
the event that a `_close()` waits for is that of the task that runs (`ordered_of_orderly`).
-/

namespace FlockwaveConn.TrioListener

variable {User : Type*}

/-- The base class, read as a connection. -/
def conn (c : TrioListener User) : ConnectionBase (User ⊕ ℕ) := c.base.toConnection

theorem conn_state_eq {c : TrioListener User} {x : ListenerState} :
    c.conn.state = x.toConnection ↔ c.base.state = x := ListenerState.toConnection.injective.eq_iff

/-! ## Everything a step can do -/

/-- The call that a label makes. -/
def Label.calls : Label User → Option (Direction × (User ⊕ ℕ))
  | .call d t => some (d, .inl t)
  | .runScheduled n => some (.down, .inr n)
  | _ => none

/-- The task that runs, if it is one that opens or closes the listener. -/
def Label.task : Label User → Option (User ⊕ ℕ)
  | .call _ t => some (.inl t)
  | .runScheduled n => some (.inr n)
  | .resume t | .interrupt t | .finish t _ => some t
  | _ => none

theorem Label.task_of_calls {l : Label User} {d : Direction} {t : User ⊕ ℕ}
    (h : l.calls = some (d, t)) : l.task = some t := by
  cases l with
  | call e u | runScheduled n => exact congrArg some (Prod.mk.inj (Option.some.inj h)).2
  | _ => cases h

/-- For the sessions only `close()` is called. -/
theorem Label.eq_of_calls_inr {l : Label User} {d : Direction} {n : ℕ}
    (h : l.calls = some (d, .inr n)) : l = .runScheduled n ∧ d = .down := by
  cases l with
  | runScheduled m =>
    obtain ⟨rfl, hm⟩ := Prod.mk.inj (Option.some.inj h)
    obtain rfl := Sum.inr.inj hm
    exact ⟨rfl, rfl⟩
  | call e t => cases (Prod.mk.inj (Option.some.inj h)).2
  | _ => cases h

/-- A `close()` that begins is scheduled no longer. -/
def took (l : Label User) (c : TrioListener User) : TrioListener User :=
  { c with
    scheduled := match l with
      | .runScheduled n => Function.update c.scheduled n false
      | _ => c.scheduled }

/-- A task goes into `_open()` or `_close()`: it has called where the listener is at the other end,
or it has waited for that. -/
def Goes (c : TrioListener User) (l : Label User) (d : Direction) (t : User ⊕ ℕ) : Prop :=
  (l.calls = some (d, t) ∧ c.conn.place t = .outside ∧ c.conn.state = d.reverse.target) ∨
    l = .resume t ∧ c.conn.place t = .queued d true

theorem Goes.eq_of_task {c : TrioListener User} {l : Label User} {d : Direction} {t u : User ⊕ ℕ}
    (h : c.Goes l d t) (hu : l.task = some u) : t = u := by
  rcases h with ⟨hl, -⟩ | ⟨rfl, -⟩
  · exact Option.some.inj ((Label.task_of_calls hl).symm.trans hu)
  · exact Option.some.inj hu

section

variable [DecidableEq User]

/-- **Everything a step can do**, the guards included. -/
inductive Move (c : TrioListener User) : Label User → TrioListener User → Prop
  | noop {l : Label User} {d : Direction} {t : User ⊕ ℕ} {b : ListenerBase (User ⊕ ℕ)}
      (hl : l.calls = some (d, t)) (hout : c.conn.place t = .outside)
      (hs : c.conn.state = d.target) (hb : b.toConnection = c.conn) :
      Move c l { c.took l with base := b }
  | waits {l : Label User} {d e : Direction} {t : User ⊕ ℕ} {p : Place}
      {b : ListenerBase (User ⊕ ℕ)} (hl : l.calls = some (d, t))
      (hout : c.conn.place t = .outside) (hs : c.conn.state = e.transition)
      (hp : p = .joined d (c.conn.flag e) ∧ e = d ∨ p = .queued d (c.conn.flag e) ∧ e = d.reverse)
      (hb : b.toConnection = c.conn.put t p) : Move c l { c.took l with base := b }
  | refused {l : Label User} {t : User ⊕ ℕ} {b : ListenerBase (User ⊕ ℕ)} (hgo : c.Goes l .up t)
      (hb : b.toConnection = (c.conn.enter .up t).leave .up .raised t) :
      Move c l { c.took l with base := b, nursery := c.nursery.refuse }
  | opens {l : Label User} {t : User ⊕ ℕ} {b : ListenerBase (User ⊕ ℕ)} (hgo : c.Goes l .up t)
      (hb : b.toConnection = c.conn.enter .up t) :
      Move c l { c.took l with base := b, nursery := c.nursery.start
                               session := Function.update c.session t c.nursery.sessions }
  | closesAtOnce {l : Label User} {t : User ⊕ ℕ} {b : ListenerBase (User ⊕ ℕ)}
      (hgo : c.Goes l .down t) (hm : c.taskExited = none)
      (hb : b.toConnection = (c.conn.enter .down t).leave .down .returned t) :
      Move c l { c.took l with base := b, cancelScope := none
                               nursery := c.cancelScope.elim c.nursery c.nursery.cancelScope }
  | closes {l : Label User} {t : User ⊕ ℕ} {b : ListenerBase (User ⊕ ℕ)} {m : ℕ}
      (hgo : c.Goes l .down t) (hm : c.taskExited = some m)
      (hb : b.toConnection = c.conn.enter .down t) :
      Move c l { c.took l with base := b, cancelScope := none
                               nursery := c.cancelScope.elim c.nursery c.nursery.cancelScope
                               session := Function.update c.session t m }
  | released {d : Direction} {t : User ⊕ ℕ} {b : ListenerBase (User ⊕ ℕ)}
      (hp : c.conn.place t = .joined d true) (hb : b.toConnection = c.conn.put t .outside) :
      Move c (.resume t) { c with base := b }
  | giveUp {t : User ⊕ ℕ} {b : ListenerBase (User ⊕ ℕ)} (hcan : c.canCancel t)
      (hin : ∀ d, c.conn.place t ≠ .inside d) (hb : b.toConnection = c.conn.put t .outside) :
      Move c (.interrupt t) { c with base := b }
  | finished {d : Direction} {t : User ⊕ ℕ} {o : Outcome} {b : ListenerBase (User ⊕ ℕ)}
      (hp : c.conn.place t = .inside d) (hcan : c.canFinish t o)
      (hb : b.toConnection = c.conn.leave d o t) : Move c (.finish t o) { c with base := b }
  | begin {n : ℕ} (hr : c.nursery.runner n = .spawned) : Move c (.begin n) (c.begin n)
  | started {n : ℕ} (hr : c.nursery.runner n = .starting) :
      Move c (.started n) { c with nursery := c.nursery.setRunner n .running }
  | ends {n : ℕ} {e : Ending} (hend : c.nursery.canEnd n e) : Move c (.ends n e) (c.ends n e)
  | flags {l : Label User} (x y : Bool) (hl : l = .cancelNursery ∨ l = .closeNursery) :
      Move c l { c with nursery := { c.nursery with cancelled := x, closed := y } }

variable {c c' : TrioListener User} {l : Label User} {d : Direction} {t : User ⊕ ℕ}
  {b : ListenerBase (User ⊕ ℕ)}

/-- What the base class does, it does as a connection. -/
theorem conn_move {x : ConnectionBase.Label (User ⊕ ℕ)} (h : c.base.step (x, silent) = some b) :
    ConnectionBase.Move c.conn x b.toConnection := by
  have hstep := c.base.toConnection_step_silent x
  rw [show c.base.step (x, fun _ => false) = some b from h] at hstep
  exact ConnectionBase.move_of_step hstep.symm

theorem proceed_of_not_inside (h : ∀ d, c.conn.place t ≠ .inside d) : c.proceed t = c := by
  rw [proceed]
  split
  · next hp => exact absurd hp (h _)
  · next hp => exact absurd hp (h _)
  · rfl

/-- `_close()` before any session. -/
theorem close_of_none (h : c.taskExited = none) :
    c.close t = { c with base := c.base.leaveClose silent true t, cancelScope := none
                         nursery := c.cancelScope.elim c.nursery c.nursery.cancelScope } := by
  simp [close, h]

theorem close_of_some {m : ℕ} (h : c.taskExited = some m) :
    c.close t = { c with session := Function.update c.session t m, cancelScope := none
                         nursery := c.cancelScope.elim c.nursery c.nursery.cancelScope } := by
  simp [close, h]

/-- The two ways into `_open()`, and the two into `_close()`. -/
theorem move_of_goes (hgo : c.Goes l d t) (hb : b.toConnection = c.conn.enter d t) :
    Move c l ({ c.took l with base := b }.proceed t) := by
  have hin : b.place t = .inside d := by
    have hplace : b.toConnection.place t = .inside d := by
      rw [hb, ConnectionBase.enter, ConnectionBase.put_place_self]
    exact hplace
  cases d with
  | up =>
    simp only [proceed, hin, open_]
    split
    · refine .refused hgo ?_
      rw [← hb]
      exact b.toConnection_leaveOpen_silent t .raised
    · exact .opens hgo hb
  | down =>
    simp only [proceed, hin]
    rcases c.taskExited.eq_none_or_eq_some with hm | ⟨m, hm⟩
    · rw [close_of_none (by exact hm)]
      refine .closesAtOnce hgo hm ?_
      rw [← hb]
      exact b.toConnection_leaveClose_silent t .returned
    · rw [close_of_some (by exact hm)]
      exact .closes hgo hm hb

/-- A call, to its first wait or to its end. -/
theorem move_of_call (hl : l.calls = some (d, t))
    (hm : ConnectionBase.Move c.conn (.call d t) b.toConnection) :
    Move c l ({ c.took l with base := b }.proceed t) := by
  generalize hb : b.toConnection = y at hm
  have hout : ∀ p, (∀ e, p ≠ Place.inside e) → y = c.conn.put t p →
      { c.took l with base := b }.proceed t = { c.took l with base := b } := by
    rintro p hp rfl
    refine proceed_of_not_inside fun e he => hp e ?_
    rw [← ConnectionBase.put_place_self c.conn t p, ← hb]
    exact he
  cases hm with
  | noop h0 hs =>
    rw [proceed_of_not_inside]
    · exact .noop hl h0 hs hb
    · intro e he
      exact nomatch h0.symm.trans ((congrFun (congrArg _ hb) t).symm.trans he)
  | join h0 hs =>
    rw [hout _ (by simp) rfl]
    exact .waits hl h0 hs (.inl ⟨rfl, rfl⟩) hb
  | queue h0 hs =>
    rw [hout _ (by simp) rfl]
    exact .waits hl h0 hs (.inr ⟨rfl, rfl⟩) hb
  | start h0 hs => exact move_of_goes (.inl ⟨hl, h0, hs⟩) hb

theorem move_of_step (h : c.step l = some c') : Move c l c' := by
  cases l with
  | call d t =>
    obtain ⟨b, hb, rfl⟩ := Option.map_eq_some_iff.mp h
    exact move_of_call (l := .call d t) rfl (conn_move hb)
  | runScheduled n =>
    obtain ⟨-, h⟩ := Option.ite_none_right_eq_some.mp h
    obtain ⟨b, hb, rfl⟩ := Option.map_eq_some_iff.mp h
    exact move_of_call (l := .runScheduled n) rfl (conn_move hb)
  | resume t =>
    obtain ⟨b, hb, rfl⟩ := Option.map_eq_some_iff.mp h
    have hm := conn_move hb
    generalize hy : b.toConnection = y at hm
    cases hm with
    | released hp =>
      rw [proceed_of_not_inside]
      · exact .released hp hy
      · intro e he
        have hplace : b.toConnection.place t = .outside := by
          rw [hy, ConnectionBase.put_place_self]
        exact nomatch hplace.symm.trans he
    | goOn hp => exact move_of_goes (l := .resume t) (.inr ⟨rfl, hp⟩) hy
  | interrupt t =>
    obtain ⟨hcan, h⟩ := Option.ite_none_right_eq_some.mp h
    obtain ⟨b, hb, rfl⟩ := Option.map_eq_some_iff.mp h
    have hm := conn_move hb
    generalize hy : b.toConnection = y at hm
    cases hm with
    | giveUp _ hin => exact .giveUp hcan hin hy
  | finish t o =>
    obtain ⟨hcan, h⟩ := Option.ite_none_right_eq_some.mp h
    obtain ⟨b, hb, rfl⟩ := Option.map_eq_some_iff.mp h
    have hm := conn_move hb
    generalize hy : b.toConnection = y at hm
    cases hm with
    | finish hp => exact .finished hp hcan hy
  | begin n =>
    obtain ⟨hr, h⟩ := Option.ite_none_right_eq_some.mp h
    obtain rfl := Option.some.inj h
    exact .begin hr
  | started n =>
    obtain ⟨hr, h⟩ := Option.ite_none_right_eq_some.mp h
    obtain rfl := Option.some.inj h
    exact .started hr
  | ends n e =>
    obtain ⟨hend, h⟩ := Option.ite_none_right_eq_some.mp h
    obtain rfl := Option.some.inj h
    exact .ends hend
  | cancelNursery =>
    obtain rfl := Option.some.inj h
    exact .flags _ _ (.inl rfl)
  | closeNursery =>
    obtain ⟨-, h⟩ := Option.ite_none_right_eq_some.mp h
    obtain rfl := Option.some.inj h
    exact .flags _ _ (.inr rfl)

end

/-! ## One session at a time -/

variable {c c' : TrioListener User} {l : Label User} {d : Direction} {t : User ⊕ ℕ}

/-- No two transitions overlap, and no `open()` goes on where the listener is not `CLOSED`. -/
def Orderly (c : TrioListener User) : Label User → Prop
  | .resume t => c.conn.Orderly (.resume t)
  | _ => True

/-- Where a task goes in no transition is under way, and an `open()` finds the listener `CLOSED`. -/
theorem Goes.stable (hgo : c.Goes l d t) (hg : c.Orderly l) :
    c.conn.state.isTransitioning = false ∧ (d = .up → c.conn.state = .disconnected) := by
  rcases hgo with ⟨-, -, hs⟩ | ⟨rfl, hp⟩
  · refine ⟨by simp [hs], ?_⟩
    rintro rfl
    exact hs
  · exact hg d hp

/-- **The invariant**, of the base class read as a connection (`y`), the nursery (`s`),
`_task_exited` (`x`) and the sessions the tasks inside are there for (`f`). -/
structure Ordered (y : ConnectionBase (User ⊕ ℕ)) (s : Nursery) (x : Option ℕ)
    (f : User ⊕ ℕ → ℕ) : Prop where
  coherent : y.Coherent
  exclusive : y.Exclusive
  fresh : ∀ n, s.sessions ≤ n → s.runner n = .absent ∧ s.eventSet n = false
  own : ∀ n d, (y.place (.inr n)).direction = some d → d = .down
  /-- Only the task of the latest session is active, and what waits for it waits for its event. -/
  active : ∀ n, (s.runner n).isActive → n + 1 = s.sessions ∧ s.eventSet n = false ∧
    y.state ≠ .disconnected ∧ (s.runner n = .running ∨ y.state = .connecting) ∧
      (s.runner n = .spawned ∨ x = some n)
  opener : ∀ t, y.place t = .inside .up →
    f t + 1 = s.sessions ∧ ((s.runner (f t)).hasStarted → x = some (f t))
  closer : ∀ t, y.place t = .inside .down → x = some (f t)

namespace Ordered

variable {y : ConnectionBase (User ⊕ ℕ)} {s s' : Nursery} {x : Option ℕ} {f : User ⊕ ℕ → ℕ}
  {n : ℕ} {o : Outcome}

theorem init : Ordered (TrioListener.init : TrioListener User).conn .init none fun _ => 0 where
  coherent := ConnectionBase.coherent_init
  exclusive := ConnectionBase.exclusive_init
  fresh _ _ := ⟨rfl, rfl⟩
  own _ _ h := nomatch h
  active _ h := nomatch h
  opener _ h := nomatch h
  closer _ h := nomatch h

/-- Of the nursery, the sessions, their tasks and their events matter. -/
theorem congr (h : Ordered y s x f) (h1 : s'.sessions = s.sessions) (h2 : s'.runner = s.runner)
    (h3 : s'.eventSet = s.eventSet) : Ordered y s' x f := by
  obtain ⟨h4, h5, h6, h7, h8, h9, h10⟩ := h
  rw [← h1, ← h2, ← h3] at h6 h8
  rw [← h1, ← h2] at h9
  exact ⟨h4, h5, h6, h7, h8, h9, h10⟩

/-- Cancelling a scope changes nothing of that. -/
theorem cancelScope (h : Ordered y s x f) (k : Option ℕ) :
    Ordered y (k.elim s s.cancelScope) x f := by
  cases k with
  | none => exact h
  | some n => exact h.congr rfl rfl rfl

/-- No task is active where the listener is `CLOSED`. -/
theorem idle (h : Ordered y s x f) (hs : y.state = .disconnected) :
    (s.runner n).isActive = false := by
  by_contra hact
  exact (h.active n (by simpa using hact)).2.2.1 hs

/-- Outside of `PREPARING` a task that is active has started. -/
theorem running_of_active (h : Ordered y s x f) (hs : y.state ≠ .connecting)
    (hn : (s.runner n).isActive) : s.runner n = .running ∧ x = some n := by
  obtain ⟨-, -, -, hrun, hx⟩ := h.active n hn
  have hrun := hrun.resolve_right hs
  exact ⟨hrun, hx.resolve_left (by simp [hrun])⟩

/-- **A step of the task of a session**: it goes on, with its event as it was, or it ends; and
`_task_exited` is its event from then on. -/
theorem taskStep (h : Ordered y s x f) (hact : (s.runner n).isActive)
    (hsess : s'.sessions = s.sessions)
    (hother : ∀ m, m ≠ n → s'.runner m = s.runner m ∧ s'.eventSet m = s.eventSet m)
    (hself : (s'.runner n).isActive →
      (s'.runner n = .running ∨ y.state = .connecting) ∧ s'.eventSet n = s.eventSet n)
    (hclose : ∀ u, y.place u = .inside .down → f u = n) : Ordered y s' (some n) f := by
  obtain ⟨hn, hev, hne, -, -⟩ := h.active n hact
  refine ⟨h.coherent, h.exclusive, fun m hm => ?_, h.own, fun m hm => ?_, fun u hu => ?_,
    fun u hu => congrArg some (hclose u hu).symm⟩
  · rw [hsess] at hm
    have hmn : m ≠ n := by
      rintro rfl
      exact absurd hn (Nat.ne_of_gt (Nat.lt_succ_of_le hm))
    exact ⟨(hother m hmn).1.trans (h.fresh m hm).1, (hother m hmn).2.trans (h.fresh m hm).2⟩
  · by_cases hmn : m = n
    · subst hmn
      obtain ⟨hrun, hev'⟩ := hself hm
      exact ⟨hn.trans hsess.symm, hev'.trans hev, hne, hrun, .inr rfl⟩
    · rw [(hother m hmn).1] at hm
      exact absurd (Nat.succ.inj ((h.active m hm).1.trans hn.symm)) hmn
  · have hu := (h.opener u hu).1
    exact ⟨hu.trans hsess.symm, fun _ => congrArg some (Nat.succ.inj (hn.trans hu.symm))⟩

/-- The task of a session is scheduled for the first time. -/
theorem begin (h : Ordered y s x f) (hr : s.runner n = .spawned) :
    Ordered y (s.setRunner n .starting) (some n) f := by
  have hact : (s.runner n).isActive := by simp [hr, Runner.isActive]
  have hstate : y.state = .connecting :=
    (h.active n hact).2.2.2.1.resolve_left (by simp [hr])
  refine h.taskStep hact rfl (fun m hm => ⟨Nursery.setRunner_of_ne hm, rfl⟩)
    (fun _ => ⟨.inr hstate, rfl⟩) fun u hu => ?_
  have htr := (h.exclusive.transition_iff .down).mpr ⟨u, hu⟩
  exact absurd (hstate.symm.trans htr) (by decide)

/-- The task goes on in `_run()`, or ends. -/
theorem runnerStep (h : Ordered y s x f) (hact : (s.runner n).isActive)
    (hbegun : s.runner n ≠ .spawned) (hsess : s'.sessions = s.sessions)
    (hother : ∀ m, m ≠ n → s'.runner m = s.runner m ∧ s'.eventSet m = s.eventSet m)
    (hself : (s'.runner n).isActive → s'.runner n = .running ∧ s'.eventSet n = s.eventSet n) :
    Ordered y s' x f := by
  obtain rfl : x = some n := (h.active n hact).2.2.2.2.resolve_left hbegun
  exact h.taskStep hact hsess hother (fun hm => ⟨.inl (hself hm).1, (hself hm).2⟩)
    fun u hu => (Option.some.inj (h.closer u hu)).symm

variable [DecidableEq User]

/-- A task moves in or to a wait. -/
theorem put {p : Place} (h : Ordered y s x f) (hin : ∀ d, y.place t ≠ .inside d)
    (hp : ∀ d, p ≠ .inside d) (hb : ∀ d, p.blockedOn = some d → y.state ≠ d.target)
    (hown : ∀ n d, t = .inr n → p.direction = some d → d = .down) :
    Ordered (y.put t p) s x f where
  coherent := h.coherent.put hin hb
  exclusive := h.exclusive.put hin hp
  fresh := h.fresh
  own n e he := by
    rw [ConnectionBase.put_place] at he
    split at he
    · next ht => exact hown n e ht.symm he
    · exact h.own n e he
  active := h.active
  opener u hu := h.opener u ((ConnectionBase.put_place_inside hin hp).mp hu)
  closer u hu := h.closer u ((ConnectionBase.put_place_inside hin hp).mp hu)

/-- The places that a task in `_open()` or `_close()` leaves behind. -/
theorem own_leave (hown : ∀ n d, (y.place (.inr n)).direction = some d → d = .down) (n : ℕ)
    (e : Direction) (he : ((y.leave d o t).place (.inr n)).direction = some e) : e = .down := by
  rw [ConnectionBase.leave_place_direction] at he
  split at he
  · cases he
  · exact hown n e he

theorem own_enter (h : Ordered y s x f) (ht : ∀ n, t = .inr n → d = .down) (n : ℕ)
    (e : Direction) (he : ((y.enter d t).place (.inr n)).direction = some e) : e = .down := by
  rw [ConnectionBase.enter_place h.coherent.flags] at he
  split at he
  · next hnt =>
    obtain rfl : d = e := by simpa using he
    exact ht n hnt.symm
  · exact h.own n e he

/-- **A transition ends**, in `CLOSED` only if no task is active. -/
theorem of_leave (hc : y.Coherent) (he : y.Exclusive)
    (hfresh : ∀ n, s.sessions ≤ n → s.runner n = .absent ∧ s.eventSet n = false)
    (hown : ∀ n d, (y.place (.inr n)).direction = some d → d = .down)
    (ht : y.place t = .inside d) (hact : ∀ n, (s.runner n).isActive →
      n + 1 = s.sessions ∧ s.eventSet n = false ∧ (y.leave d o t).state ≠ .disconnected ∧
        s.runner n = .running ∧ x = some n) : Ordered (y.leave d o t) s x f := by
  have hin := he.not_inside_leave ht o
  refine ⟨hc.leave d o t, he.leave ht o, hfresh, own_leave hown, fun n hn => ?_,
    fun u hu => absurd hu (hin u _), fun u hu => absurd hu (hin u _)⟩
  obtain ⟨h1, h2, h3, h4, h5⟩ := hact n hn
  exact ⟨h1, h2, h3, .inl h4, .inr h5⟩

/-- **A session begins.** -/
theorem opens (h : Ordered y s x f) (hs : y.state = .disconnected) (ht : ∀ n, t ≠ .inr n) :
    Ordered (y.enter .up t) s.start x (Function.update f t s.sessions) := by
  have hst : y.state.isTransitioning = false := by simp [hs, ConnectionState.isTransitioning]
  have hin : ∀ u e, (y.enter .up t).place u = .inside e ↔ u = t ∧ .up = e :=
    fun u e => ConnectionBase.enter_place_inside (h.exclusive.not_inside hst)
  have hnew : s.start.runner s.sessions = .spawned := Nursery.start_runner_self
  have hold : ∀ n, n ≠ s.sessions → s.start.runner n = s.runner n :=
    fun n hn => Nursery.start_runner_of_ne hn
  refine ⟨h.coherent.enter .up t, .enter (h.exclusive.not_inside hst) .up t, fun n hn => ?_,
    h.own_enter fun n hn => absurd hn (ht n), fun n hn => ?_, fun u hu => ?_, fun u hu => ?_⟩
  · have hlt : s.sessions < n := hn
    exact ⟨(hold n hlt.ne').trans (h.fresh n hlt.le).1, (h.fresh n hlt.le).2⟩
  · obtain rfl : n = s.sessions := by
      by_contra hne
      rw [hold n hne, h.idle hs] at hn
      cases hn
    refine ⟨rfl, (h.fresh _ le_rfl).2, by simp [Direction.transition], .inr ?_, .inl hnew⟩
    simp [Direction.transition]
  · obtain ⟨rfl, -⟩ := (hin u _).mp hu
    simp only [Function.update_self]
    exact ⟨rfl, fun hsta => by simp [hnew, Runner.hasStarted] at hsta⟩
  · exact absurd ((hin u _).mp hu).2 (by decide)

/-- A session is refused. -/
theorem refused (h : Ordered y s x f) (hs : y.state = .disconnected) (ht : ∀ n, t ≠ .inr n) :
    Ordered ((y.enter .up t).leave .up .raised t) s.refuse x f := by
  have hst : y.state.isTransitioning = false := by simp [hs, ConnectionState.isTransitioning]
  refine of_leave (h.coherent.enter .up t) (.enter (h.exclusive.not_inside hst) .up t)
    (fun n hn => h.fresh n ?_) (h.own_enter fun n hn => absurd hn (ht n))
    (ConnectionBase.put_place_self ..) fun n hn => ?_
  · have hlt : s.sessions < n := hn
    exact hlt.le
  · exact absurd ((h.idle hs).symm.trans hn) (by decide)

/-- **A task goes into `_close()`** and waits for the task of the session. -/
theorem closes {m : ℕ} (h : Ordered y s x f) (hx : x = some m)
    (hs : y.state.isTransitioning = false) :
    Ordered (y.enter .down t) s x (Function.update f t m) := by
  have hin : ∀ u e, (y.enter .down t).place u = .inside e ↔ u = t ∧ .down = e :=
    fun u e => ConnectionBase.enter_place_inside (h.exclusive.not_inside hs)
  refine ⟨h.coherent.enter .down t, .enter (h.exclusive.not_inside hs) .down t, h.fresh,
    h.own_enter fun _ _ => rfl, fun n hn => ?_, fun u hu => ?_, fun u hu => ?_⟩
  · obtain ⟨h1, h2, -, -, h5⟩ := h.active n hn
    obtain ⟨hrun, -⟩ := h.running_of_active (fun hc => by simp [hc,
      ConnectionState.isTransitioning] at hs) hn
    exact ⟨h1, h2, by simp [Direction.transition], .inl hrun, h5⟩
  · exact absurd ((hin u _).mp hu).2 (by decide)
  · obtain ⟨rfl, -⟩ := (hin u _).mp hu
    simp [hx]

/-- …or is done, if there has been none. -/
theorem closesAtOnce (h : Ordered y s x f) (hx : x = none)
    (hs : y.state.isTransitioning = false) :
    Ordered ((y.enter .down t).leave .down .returned t) s x f := by
  refine of_leave (h.coherent.enter .down t) (.enter (h.exclusive.not_inside hs) .down t) h.fresh
    (h.own_enter fun _ _ => rfl) (ConnectionBase.put_place_self ..) fun n hn => ?_
  have hconn : y.state ≠ .connecting :=
    fun hc => by simp [hc, ConnectionState.isTransitioning] at hs
  exact absurd (hx.symm.trans (h.running_of_active hconn hn).2) (Option.some_ne_none n).symm

end Ordered

/-- The invariant of a listener. -/
def Sound (c : TrioListener User) : Prop := Ordered c.conn c.nursery c.taskExited c.session

theorem Sound.of_conn {y : ConnectionBase (User ⊕ ℕ)} (hb : c.conn = y)
    (h : Ordered y c.nursery c.taskExited c.session) : c.Sound := by
  subst hb
  exact h

/-- No `open()` is made for a session. -/
theorem Sound.not_inr_of_goes (h : c.Sound) (hgo : c.Goes l .up t) (n : ℕ) : t ≠ .inr n := by
  rintro rfl
  rcases hgo with ⟨hl, -⟩ | ⟨-, hp⟩
  · exact nomatch (Label.eq_of_calls_inr hl).2
  · exact nomatch h.own n .up (by simp [hp])

theorem ends_of_current {n : ℕ} (e : Ending) (hx : c.taskExited = some n) :
    c.ends n e =
      match e with
      | .returned | .raised =>
        { c with scheduled := Function.update c.scheduled n true, cancelScope := none
                 nursery := (c.nursery.endRunner n).setEvent n }
      | .scopeCancelled =>
        { c with cancelScope := none, nursery := (c.nursery.endRunner n).setEvent n }
      | .cancelledOutside => { c with nursery := c.nursery.endRunner n } := by
  cases e <;> simp [TrioListener.ends, exits, hx]

/-- The task whose `_run()` ends is that of the session in force. -/
theorem Sound.current_of_canEnd {n : ℕ} {e : Ending} (h : c.Sound) (hend : c.nursery.canEnd n e) :
    c.nursery.runner n ≠ .spawned ∧ c.taskExited = some n := by
  have hbegun : c.nursery.runner n ≠ .spawned := by
    intro hr
    simp [Nursery.canEnd, hr] at hend
  obtain ⟨-, -, -, -, hx⟩ := h.active n (Nursery.isActive_of_canEnd hend)
  exact ⟨hbegun, hx.resolve_left hbegun⟩

variable [DecidableEq User]

/-- **`_open()` and `_close()` end as they can.** -/
theorem Sound.finished {o : Outcome} (h : c.Sound) (hp : c.conn.place t = .inside d)
    (hcan : c.canFinish t o) : Ordered (c.conn.leave d o t) c.nursery c.taskExited c.session := by
  have hpl : c.base.place t = .inside d := hp
  refine .of_leave h.coherent h.exclusive h.fresh h.own hp fun n hn => ?_
  obtain ⟨hsess, hev, -, hrun, hx⟩ := h.active n hn
  have htr := (h.exclusive.transition_iff d).mpr ⟨t, hp⟩
  cases d with
  | up =>
    obtain ⟨hf, hbegun⟩ := h.opener t hp
    obtain rfl : n = c.session t := Nat.succ.inj (hsess.trans hf.symm)
    have hst : o = .returned ∧ (c.nursery.runner (c.session t)).hasStarted = true := by
      cases o with
      | returned => exact ⟨rfl, by simpa [canFinish, hpl] using hcan⟩
      | raised | cancelled =>
        have hend : c.nursery.runner (c.session t) = .ended false := by
          simpa [canFinish, hpl] using hcan
        simp [hend, Runner.isActive] at hn
    obtain ⟨rfl, hst⟩ := hst
    refine ⟨hsess, hev, by simp [Outcome.success, Direction.target], ?_, hbegun hst⟩
    cases hr : c.nursery.runner (c.session t) <;> simp_all [Runner.isActive, Runner.hasStarted]
  | down =>
    obtain ⟨hrun, hx⟩ := h.running_of_active (by simp [htr, Direction.transition]) hn
    obtain rfl : n = c.session t := Option.some.inj (hx.symm.trans (h.closer t hp))
    refine ⟨hsess, hev, ?_, hrun, hx⟩
    cases o with
    | returned =>
      have hset : c.nursery.eventSet (c.session t) = true := by simpa [canFinish, hpl] using hcan
      exact absurd (hset.symm.trans hev) (by decide)
    | raised | cancelled => simp [Outcome.success, Direction.reverse, Direction.target]

/-- **One step.** -/
theorem Sound.move (h : c.Sound) (hg : c.Orderly l) (hm : Move c l c') : c'.Sound := by
  cases hm with
  | noop _ _ _ hb => exact .of_conn hb h
  | @waits l d e t p b hl hout hs hp hb =>
    have hdir : p.direction = some d ∧ ∀ e, p ≠ .inside e := by
      rcases hp with ⟨rfl, -⟩ | ⟨rfl, -⟩ <;> simp
    refine .of_conn hb (h.put (by simp [hout]) hdir.2 (fun e _ => by simp [hs]) ?_)
    rintro n e' rfl he
    obtain rfl := Option.some.inj (hdir.1.symm.trans he)
    exact (Label.eq_of_calls_inr hl).2
  | refused hgo hb =>
    exact .of_conn hb (h.refused ((hgo.stable hg).2 rfl) (h.not_inr_of_goes hgo))
  | opens hgo hb =>
    exact .of_conn hb (h.opens ((hgo.stable hg).2 rfl) (h.not_inr_of_goes hgo))
  | closesAtOnce hgo hx hb =>
    exact .of_conn hb ((h.closesAtOnce hx (hgo.stable hg).1).cancelScope _)
  | closes hgo hx hb => exact .of_conn hb ((h.closes hx (hgo.stable hg).1).cancelScope _)
  | released hp hb => exact .of_conn hb (h.put (by simp [hp]) (by simp) (by simp) (by simp))
  | giveUp _ hin hb => exact .of_conn hb (h.put hin (by simp) (by simp) (by simp))
  | finished hp hcan hb => exact .of_conn hb (h.finished hp hcan)
  | begin hr => exact h.begin hr
  | @started n hr =>
    refine h.runnerStep (n := n) (by simp [hr, Runner.isActive]) (by simp [hr]) rfl
      (fun m hm => ⟨Nursery.setRunner_of_ne hm, rfl⟩) fun _ => ⟨Nursery.setRunner_self, rfl⟩
  | @ends n e hend =>
    have hact := Nursery.isActive_of_canEnd hend
    obtain ⟨hbegun, hx⟩ := h.current_of_canEnd hend
    have hover : ¬ ((c.nursery.endRunner n).runner n).isActive := by
      rw [show (c.nursery.endRunner n).runner n = .ended _ from Nursery.setRunner_self]
      simp [Runner.isActive]
    rw [ends_of_current e hx]
    cases e with
    | returned | raised | scopeCancelled =>
      exact h.runnerStep hact hbegun rfl
        (fun m hm => ⟨Nursery.setRunner_of_ne hm, Nursery.setEvent_of_ne hm⟩)
        fun hn => absurd hn hover
    | cancelledOutside =>
      exact h.runnerStep hact hbegun rfl (fun m hm => ⟨Nursery.setRunner_of_ne hm, rfl⟩)
        fun hn => absurd hn hover
  | flags => exact h.congr rfl rfl rfl

end FlockwaveConn.TrioListener
