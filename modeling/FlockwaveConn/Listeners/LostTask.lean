import FlockwaveConn.Listeners.Session

/-!
# Listeners/LostTask — a listener whose task has ended

When the task of a listener has ended, the listener is to be closed, and `_task_exited` to be set.
The task sees to it where `_run()` returns or raises, and a `_close()` that cancels the task sees to
it where it is not cancelled itself.  Where the nursery is cancelled nobody does: the lines behind
the `with` block are skipped.
-/

namespace FlockwaveConn

/-- A task that does not leave its method before the listener has been closed. -/
def Place.isWaiting : Place → Bool
  | .joined _ w => !w
  | .queued _ _ => true
  | .outside | .inside _ => false

/-- …and does so after a change of state that it does not wait for. -/
theorem Place.isWaiting_wake {p : Place} {e : Direction} (h : p.isWaiting)
    (hp : p.direction ≠ some e) : (p.wake e).isWaiting := by
  cases p with
  | joined d w =>
    have hde : d ≠ e := fun hde => hp (congrArg some hde)
    simpa [wake, hde] using h
  | queued d w => rfl
  | _ => cases h

namespace TrioListener

variable {User : Type*}

/-- No `open()` or `close()` is in progress or scheduled. -/
def AtRest (c : TrioListener User) : Prop :=
  (∀ t, c.base.place t = .outside) ∧ ∀ n, c.scheduled n = false

/-- **A listener that has lost its task is closed**, and its event is set. -/
def ClosedWithTask (c : TrioListener User) : Prop :=
  c.AtRest → ∀ n, c.taskExited = some n → c.nursery.runner n = .ended true →
    c.base.state = .closed ∧ c.nursery.eventSet n = true

/-- Somebody is to close the listener for a session whose task has ended. -/
def Attended (c : TrioListener User) (n : ℕ) : Prop :=
  c.scheduled n = true ∨ (c.conn.place (.inr n)).isWaiting = true

/-- **A step that lets the listener be closed with its task.** -/
def Closes (c : TrioListener User) : Label User → Prop
  | .resume t => c.conn.Orderly (.resume t)
  -- a task that has started is not cancelled with the nursery, and a `_close()` that has cancelled
  -- it is still there when it ends
  | .ends n e => c.nursery.runner n = .running →
      e ≠ .cancelledOutside ∧ (e = .scopeCancelled → c.base.state = .closing)
  -- the scheduled `close()` is not cancelled while it is to close the listener
  | .interrupt t => ∀ n, t = .inr n → c.taskExited = some n → c.nursery.runner n = .ended true →
      c.base.state = .closing ∨ c.base.state = .closed
  -- a `_close()` is not cancelled after the task has ended, unless somebody else is to close it
  | .finish t o => o = .cancelled → c.base.place t = .inside .down →
      ∀ n, c.taskExited = some n → c.nursery.runner n = .ended true → c.Attended n
  | _ => True

theorem Closes.orderly {c : TrioListener User} {l : Label User} (h : c.Closes l) :
    c.Orderly l := by
  cases l with
  | resume t => exact h
  | _ => trivial

/-! ## The invariant -/

/-- While the listener is `OPEN`, or `PREPARING` for a session, somebody attends to its end. -/
structure Watched (c : TrioListener User) : Prop where
  attended : c.base.state = .opened ∨ c.base.state = .preparing →
    ∀ n, c.taskExited = some n → (c.base.state = .preparing → n + 1 = c.nursery.sessions) →
      c.nursery.runner n = .ended true → c.Attended n
  event : ∀ n, c.taskExited = some n → c.nursery.runner n = .ended true →
    c.nursery.eventSet n = true

theorem Watched.closedWithTask {c : TrioListener User} (h : c.Watched) (hc : c.Sound) :
    c.ClosedWithTask := by
  rintro ⟨hout, hnone⟩ n hn hr
  refine ⟨?_, h.event n hn hr⟩
  have hopen : c.base.state ≠ .opened := by
    intro hs
    rcases h.attended (.inl hs) n hn (fun hp => nomatch hs.symm.trans hp) hr with hsch | hw
    · exact nomatch hsch.symm.trans (hnone n)
    · have hpl : c.conn.place (.inr n) = .outside := hout _
      simp [hpl, Place.isWaiting] at hw
  have hstable : ∀ d : Direction, c.conn.state ≠ d.transition := by
    intro d hd
    obtain ⟨t, ht⟩ := hc.coherent.occupied d hd
    exact nomatch (hout t).symm.trans ht
  cases hs : c.base.state with
  | closed => rfl
  | opened => exact absurd hs hopen
  | preparing => exact absurd (conn_state_eq.mpr hs) (hstable .up)
  | closing => exact absurd (conn_state_eq.mpr hs) (hstable .down)

theorem Watched.init : (init : TrioListener User).Watched where
  attended _ _ h := nomatch h
  event _ h := nomatch h

/-- Where the listener is closed or being closed, nobody need attend. -/
theorem Watched.of_down {c : TrioListener User}
    (hs : c.conn.state = .disconnected ∨ c.conn.state = .disconnecting)
    (hev : ∀ n, c.taskExited = some n → c.nursery.runner n = .ended true →
      c.nursery.eventSet n = true) : c.Watched where
  attended hup := by
    rcases hup with hup | hup <;> rcases hs with hs | hs <;>
      exact nomatch hs.symm.trans (conn_state_eq.mpr hup)
  event := hev

/-- A step that changes neither the state nor the session, and leaves those in place that attend. -/
theorem Watched.frame {c c' : TrioListener User} (h : c.Watched)
    (hs : c'.conn.state = c.conn.state) (hx : c'.taskExited = c.taskExited)
    (hnur : c'.nursery = c.nursery) (hatt : ∀ n, c.Attended n →
      c.base.state = .opened ∨ c.base.state = .preparing → c.taskExited = some n →
        c.nursery.runner n = .ended true → c'.Attended n) : c'.Watched where
  attended hup n hn hsess hr := by
    rw [conn_state_eq.mp hs] at hup hsess
    rw [hx] at hn
    rw [hnur] at hsess hr
    exact hatt n (h.attended hup n hn hsess hr) hup hn hr
  event n hn hr := by
    rw [hx] at hn
    rw [hnur] at hr ⊢
    exact h.event n hn hr

/-- …and where the task has not ended neither. -/
theorem Watched.of_runner {c : TrioListener User} {n : ℕ} (hn : c.taskExited = some n)
    (hr : c.nursery.runner n ≠ .ended true) : c.Watched where
  attended _ m hm _ hrm := by
    obtain rfl := Option.some.inj (hn.symm.trans hm)
    exact absurd hrm hr
  event m hm hrm := by
    obtain rfl := Option.some.inj (hn.symm.trans hm)
    exact absurd hrm hr

theorem Watched.cancelScope {c : TrioListener User} (h : c.Watched) {n : ℕ}
    (hn : c.taskExited = some n)
    (hr : (c.cancelScope.elim c.nursery c.nursery.cancelScope).runner n = .ended true) :
    (c.cancelScope.elim c.nursery c.nursery.cancelScope).eventSet n = true := by
  cases hk : c.cancelScope with
  | none => exact h.event n hn (by simpa [hk] using hr)
  | some k => exact h.event n hn (by simpa [hk, Nursery.cancelScope] using hr)

/-- **A session ends**: its own `close()`, or the one that has cancelled it, closes the listener. -/
theorem Watched.of_ends {c : TrioListener User} (hc : c.Sound) {n : ℕ} {e : Ending}
    (hg : c.Closes (.ends n e)) (hend : c.nursery.canEnd n e) : (c.ends n e).Watched := by
  obtain ⟨-, hx⟩ := hc.current_of_canEnd hend
  have hrun : (c.nursery.endRunner n).runner n = .ended (c.nursery.runner n).hasStarted :=
    Nursery.setRunner_self
  have hset : ((c.nursery.endRunner n).setEvent n).eventSet n = true := Nursery.setEvent_self
  -- a task that has not started has nothing to be closed
  have hstart :
      c.nursery.runner n ≠ .running → (c.nursery.endRunner n).runner n ≠ .ended true := by
    intro hne hr
    have hst := Runner.ended.inj (hrun.symm.trans hr)
    cases hr : c.nursery.runner n <;> simp_all [Nursery.canEnd, Runner.hasStarted]
  rw [ends_of_current e hx]
  by_cases hr : c.nursery.runner n = .running
  · obtain ⟨hout, hclosing⟩ := hg hr
    cases e with
    | returned | raised =>
      -- the `close()` of this session has been scheduled
      refine ⟨fun _ m hm _ _ => .inl ?_, fun m hm _ => ?_⟩ <;>
        obtain rfl := Option.some.inj (hx.symm.trans hm)
      · exact Function.update_self ..
      · exact hset
    | scopeCancelled =>
      -- the `_close()` that has cancelled the task is still there
      refine .of_down (.inr (conn_state_eq.mpr (hclosing rfl))) fun m hm _ => ?_
      obtain rfl := Option.some.inj (hx.symm.trans hm)
      exact hset
    | cancelledOutside => exact absurd rfl hout
  · cases e <;> exact .of_runner hx (hstart hr)

variable [DecidableEq User] {c c' : TrioListener User} {l : Label User} {d : Direction}
  {t : User ⊕ ℕ} {b : ListenerBase (User ⊕ ℕ)} {o : Outcome}

/-- Whoever has come out of `_open()` or `_close()` into `OPEN` has left those in place that attend
to the listener. -/
theorem Attended.leave {n : ℕ} (h : c.Attended n) (hc : c.Sound)
    (ht : c.conn.place t = .inside d) (hs : (c.conn.leave d o t).state = .connected)
    (hb : b.toConnection = c.conn.leave d o t) : Attended { c with base := b } n := by
  rcases h with hsch | hw
  · exact .inl hsch
  · refine .inr ?_
    have hne : .inr n ≠ t := by
      rintro rfl
      simp [ht, Place.isWaiting] at hw
    have hdir : (c.conn.place (.inr n)).direction ≠ some .up := fun hd => nomatch hc.own n _ hd
    change (b.toConnection.place (.inr n)).isWaiting = true
    rw [ConnectionBase.leave_state] at hs
    rw [hb, ConnectionBase.leave, ConnectionBase.put_place_of_ne _ _ hne, hs,
      ConnectionBase.setState_place hc.coherent.flags]
    split
    · exact hw
    · exact Place.isWaiting_wake hw hdir

/-- **A call of `open()` or `close()` is over.** -/
theorem Watched.finished (h : c.Watched) (hc : c.Sound) (hg : c.Closes (.finish t o))
    (hp : c.conn.place t = .inside d) (hcan : c.canFinish t o)
    (hb : b.toConnection = c.conn.leave d o t) : Watched { c with base := b } := by
  have hpl : c.base.place t = .inside d := hp
  have hstate : b.toConnection.state = if o.success then d.target else d.reverse.target := by
    rw [hb, ConnectionBase.leave_state]
  cases d with
  | up =>
    cases o with
    | returned =>
      obtain ⟨hsess, hbegun⟩ := hc.opener t hp
      have hx := hbegun (by simpa [canFinish, hpl] using hcan)
      have hprep : c.base.state = .preparing :=
        conn_state_eq.mp ((hc.exclusive.transition_iff .up).mpr ⟨t, hp⟩)
      refine ⟨fun _ n hn _ hr => ?_, h.event⟩
      obtain rfl := Option.some.inj (hx.symm.trans hn)
      exact (h.attended (.inr hprep) _ hn (fun _ => hsess) hr).leave hc hp
        (by simp [Outcome.success, Direction.target]) hb
    | raised | cancelled => exact .of_down (.inl hstate) h.event
  | down =>
    cases o with
    | returned => exact .of_down (.inl hstate) h.event
    | raised => simp [canFinish, hpl] at hcan
    | cancelled =>
      exact ⟨fun _ n hn _ hr => (hg rfl hpl n hn hr).leave hc hp
        (by simp [Outcome.success, Direction.reverse, Direction.target]) hb, h.event⟩

/-- **One step.** -/
theorem Watched.move (h : c.Watched) (hc : c.Sound) (hg : c.Closes l) (hm : Move c l c') :
    c'.Watched := by
  cases hm with
  | @noop l d t b hl hout hs hb =>
    cases l with
    | call e u => exact h.frame (congrArg _ hb) rfl rfl fun n hatt _ _ _ =>
        hatt.imp_right fun hw => (congrArg (fun y => (y.place (.inr n)).isWaiting) hb).trans hw
    | runScheduled n =>
      obtain ⟨rfl, rfl⟩ := Prod.mk.inj (Option.some.inj hl)
      exact .of_down (.inl ((congrArg ConnectionBase.state hb).trans hs)) h.event
    | _ => cases hl
  | @waits l d e t p b hl hout hs hp hb =>
    have hstate : b.toConnection.state = c.conn.state := by rw [hb, ConnectionBase.put_state]
    have hplace : ∀ n, .inr n ≠ t → b.toConnection.place (.inr n) = c.conn.place (.inr n) :=
      fun n hn => by rw [hb, ConnectionBase.put_place_of_ne _ _ hn]
    cases l with
    | call e' u =>
      obtain ⟨-, rfl⟩ := Prod.mk.inj (Option.some.inj hl)
      exact h.frame hstate rfl rfl fun n hatt _ _ _ =>
        hatt.imp_right fun hw => (congrArg Place.isWaiting (hplace n Sum.inr_ne_inl)).trans hw
    | runScheduled m =>
      obtain ⟨rfl, rfl⟩ := Prod.mk.inj (Option.some.inj hl)
      rcases hp with ⟨rfl, rfl⟩ | ⟨rfl, rfl⟩
      · exact .of_down (.inr (hstate.trans hs)) h.event
      refine h.frame hstate rfl rfl fun n hatt _ _ _ => ?_
      by_cases hnm : n = m
      · subst hnm
        refine .inr ?_
        change (b.toConnection.place (.inr n)).isWaiting = true
        rw [hb, ConnectionBase.put_place_self]
        rfl
      · exact hatt.imp (fun hsch => (Function.update_of_ne hnm ..).trans hsch) fun hw =>
          (congrArg Place.isWaiting (hplace n fun hn => hnm (Sum.inr.inj hn))).trans hw
    | _ => cases hl
  | @refused l t b hgo hb =>
    refine .of_down (.inl ?_) h.event
    change b.toConnection.state = _
    simp [hb, Outcome.success, Direction.reverse, Direction.target]
  | @opens l t b hgo hb =>
    have hstate : b.toConnection.state = .connecting := by simp [hb, Direction.transition]
    have hold : ∀ n, c.nursery.start.runner n = .ended true → c.nursery.runner n = .ended true := by
      intro n hr
      rwa [Nursery.start_runner_of_ne] at hr
      rintro rfl
      exact absurd (Nursery.start_runner_self.symm.trans hr) (by decide)
    refine ⟨fun _ n _ hsess hr => ?_, fun n hn hr => h.event n hn (hold n hr)⟩
    obtain rfl : n = c.nursery.sessions := Nat.succ.inj (hsess (conn_state_eq.mp hstate))
    exact absurd (Nursery.start_runner_self.symm.trans hr) (by decide)
  | @closesAtOnce l t b hgo _ hb =>
    refine .of_down (.inl ?_) fun n => h.cancelScope
    change b.toConnection.state = _
    simp [hb, Outcome.success, Direction.target]
  | @closes l t b m hgo _ hb =>
    refine .of_down (.inr ?_) fun n => h.cancelScope
    change b.toConnection.state = _
    simp [hb, Direction.transition]
  | @released d t b hp hb =>
    have hstate : b.toConnection.state = c.conn.state := by rw [hb, ConnectionBase.put_state]
    refine h.frame hstate rfl rfl fun n hatt _ _ _ => hatt.imp_right fun hw => ?_
    have hne : .inr n ≠ t := by
      rintro rfl
      simp [hp, Place.isWaiting] at hw
    change (b.toConnection.place (.inr n)).isWaiting = true
    rwa [hb, ConnectionBase.put_place_of_ne _ _ hne]
  | @giveUp t b _ hin hb =>
    have hstate : b.toConnection.state = c.conn.state := by rw [hb, ConnectionBase.put_state]
    refine h.frame hstate rfl rfl fun n hatt hup hn hr => hatt.imp_right fun hw => ?_
    have hne : .inr n ≠ t := by
      intro hnt
      have hdown := hg n hnt.symm hn hr
      rcases hup with hup | hup <;> rcases hdown with hdown | hdown <;>
        exact absurd (hup.symm.trans hdown) (by decide)
    change (b.toConnection.place (.inr n)).isWaiting = true
    rwa [hb, ConnectionBase.put_place_of_ne _ _ hne]
  | @finished d t o b hp hcan hb => exact h.finished hc hg hp hcan hb
  | @begin n hr =>
    refine .of_runner rfl ?_
    rw [show (c.begin n).nursery.runner n = .starting from Nursery.setRunner_self]
    decide
  | @started n hr =>
    obtain ⟨-, -, -, -, hx⟩ := hc.active n (by simp [hr, Runner.isActive])
    refine .of_runner (hx.resolve_left (by simp [hr])) ?_
    rw [show (c.nursery.setRunner n .running).runner n = _ from Nursery.setRunner_self]
    decide
  | @ends n e hend => exact .of_ends hc hg hend
  | flags => exact ⟨h.attended, h.event⟩

/-! ## The run -/

/-- **In a run whose steps let the listener be closed with its task, it is.** -/
theorem closedWithTask_of_closes {ls : List (Label User)}
    (h : (trioListener User).Guarded Closes .init ls) :
    (trioListener User).Along ClosedWithTask .init ls := by
  have hinit : (init : TrioListener User).Sound ∧ (init : TrioListener User).Watched :=
    ⟨Ordered.init, Watched.init⟩
  refine (h.along (I := fun c => c.Sound ∧ c.Watched) hinit ?_).mono
    fun c hc => hc.2.closedWithTask hc.1
  rintro c l c' ⟨hc, hw⟩ hg hs
  have hm := move_of_step hs
  exact ⟨hc.move hg.orderly hm, hw.move hc hg hm⟩

/-- The task returns; the `close()` that has been scheduled closes the listener. -/
theorem closedWithTask_of_finite_task :
    (trioListener Unit).Along ClosedWithTask .init
      [.call .up (), .begin 0, .started 0, .finish (.inl ()) .returned, .ends 0 .returned,
        .runScheduled 0, .finish (.inr 0) .returned] :=
  closedWithTask_of_closes <| .cons rfl trivial <| .cons rfl trivial <| .cons rfl trivial <|
    .cons rfl nofun <| .cons rfl (fun _ => ⟨nofun, nofun⟩) <| .cons rfl trivial <|
      .cons rfl nofun trivial

/-- **The nursery is cancelled**: the listener stays `OPEN` without a task. -/
theorem open_without_task :
    ¬ ∀ ls : List (Label Unit), (trioListener Unit).Along ClosedWithTask .init ls := by
  intro h
  have hrun := h [.call .up (), .begin 0, .started 0, .finish (.inl ()) .returned, .cancelNursery,
    .ends 0 .cancelledOutside]
  have hlast := ((((((hrun.2 _ rfl).2 _ rfl).2 _ rfl).2 _ rfl).2 _ rfl).2 _ rfl).here
  exact nomatch (hlast ⟨by rintro (_ | _) <;> rfl, fun _ => rfl⟩ 0 rfl rfl).1

end TrioListener

end FlockwaveConn
