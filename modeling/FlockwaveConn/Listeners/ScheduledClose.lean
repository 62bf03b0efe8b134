import FlockwaveConn.Connections.Stranded
import FlockwaveConn.Listeners.Session

/-!
# Listeners/ScheduledClose — the `close()` that a session leaves behind

A task whose `_run()` has ended by itself has a `close()` scheduled, which knows nothing of the
session it is made for.  It is to close the listener of its own session or to do nothing; but when
it runs while an `open()` is under way it waits for the end of that, also where that is an `open()`
that fails, and goes on when a later one succeeds.
-/

namespace FlockwaveConn.TrioListener

variable {User : Type*}

/-- **No scheduled `close()` waits after its session is over.** -/
def NoneLeftWaiting (c : TrioListener User) : Prop :=
  ∀ n, (c.conn.place (.inr n)).blockedOn ≠ none →
    n + 1 = c.nursery.sessions ∧ c.base.state ≠ .closed

/-- **A scheduled `close()` has to do with its own session only**, or it returns and nothing else
has changed. -/
def OwnSession [DecidableEq User] (c : TrioListener User) (l : Label User)
    (c' : TrioListener User) : Prop :=
  ∀ n, l.task = some (.inr n) →
    n + 1 = c.nursery.sessions ∨ c'.conn = c.conn.put (.inr n) .outside

/-- **A scheduled `close()` runs in time**: its session is the latest, and if the listener is
`PREPARING`, its task has started; or the listener is `CLOSED`. -/
def Timely (c : TrioListener User) : Label User → Prop
  | .runScheduled n => c.base.state = .closed ∨ n + 1 = c.nursery.sessions ∧
      (c.base.state = .preparing → (c.nursery.runner n).hasStarted)
  | .resume t => c.conn.Orderly (.resume t) ∧
      ∀ n, t = .inr n → c.conn.place t = .queued .down true → n + 1 = c.nursery.sessions
  | _ => True

theorem Timely.orderly {c : TrioListener User} {l : Label User} (h : c.Timely l) :
    c.Orderly l := by
  cases l with
  | resume t => exact h.1
  | _ => trivial

/-! ## The invariant -/

/-- Who waits, or is in `_close()`, for a session is there for the latest. -/
structure Current (y : ConnectionBase (User ⊕ ℕ)) (s : Nursery) : Prop where
  waiting : ∀ n e, (y.place (.inr n)).blockedOn = some e →
    n + 1 = s.sessions ∧ (e = .up → y.state = .connecting ∧ (s.runner n).hasStarted)
  inside : ∀ n, y.place (.inr n) = .inside .down → n + 1 = s.sessions

theorem Current.init : Current (init : TrioListener User).conn .init where
  waiting _ _ h := nomatch h
  inside _ h := nomatch h

theorem Current.noneLeftWaiting {c : TrioListener User} (h : Current c.conn c.nursery)
    (hc : c.Sound) : c.NoneLeftWaiting := by
  intro n hn
  obtain ⟨e, he⟩ := Option.ne_none_iff_exists'.mp hn
  obtain ⟨hsess, hup⟩ := h.waiting n e he
  refine ⟨hsess, fun hs => ?_⟩
  have hstate : c.conn.state = .disconnected := conn_state_eq.mpr hs
  cases e with
  | down => exact hc.coherent.awake _ _ he hstate
  | up => exact nomatch hstate.symm.trans (hup rfl).1

variable {c c' : TrioListener User} {l : Label User} {d : Direction} {t u : User ⊕ ℕ}
  {y : ConnectionBase (User ⊕ ℕ)} {s s' : Nursery} {n : ℕ} {e : Direction} {o : Outcome}

/-- Where a task goes in nobody waits for the listener to be `OPEN`, and where that is `_open()`,
nobody waits at all. -/
theorem Current.eq_down_of_goes (h : Current c.conn c.nursery) (hc : c.Sound) (hg : c.Timely l)
    (hgo : c.Goes l d t) (he : (c.conn.place (.inr n)).blockedOn = some e) :
    e = .down ∧ d = .down := by
  obtain ⟨hst, hup⟩ := hgo.stable hg.orderly
  cases e with
  | up =>
    have hs := ((h.waiting n .up he).2 rfl).1
    simp [hs, ConnectionState.isTransitioning] at hst
  | down =>
    refine ⟨rfl, ?_⟩
    cases d with
    | down => rfl
    | up => exact absurd (hup rfl) (hc.coherent.awake _ _ he)

/-- A `close()` goes in for the session that is in force. -/
theorem Timely.sessions_of_goes (hg : c.Timely l) (hgo : c.Goes l .down (.inr n)) :
    n + 1 = c.nursery.sessions := by
  rcases hgo with ⟨hl, -, hs⟩ | ⟨rfl, hp⟩
  · obtain ⟨rfl, -⟩ := Label.eq_of_calls_inr hl
    rcases hg with hclosed | ⟨hn, -⟩
    · have hstate : c.conn.state = .disconnected := conn_state_eq.mpr hclosed
      exact nomatch hs.symm.trans hstate
    · exact hn
  · exact hg.2 n rfl hp

namespace Current

/-- The task of a session goes on, or ends. -/
theorem congr (h : Current y s) (hsess : s'.sessions = s.sessions)
    (hst : ∀ n, (s.runner n).hasStarted → (s'.runner n).hasStarted) : Current y s' where
  waiting n e he := by
    obtain ⟨h1, h2⟩ := h.waiting n e he
    exact ⟨h1.trans hsess.symm, fun hup => ⟨(h2 hup).1, hst n (h2 hup).2⟩⟩
  inside n hn := (h.inside n hn).trans hsess.symm

/-- Cancelling a scope changes nothing of that. -/
theorem cancelScope (h : Current y s) (k : Option ℕ) : Current y (k.elim s s.cancelScope) := by
  cases k with
  | none => exact h
  | some n => exact h.congr rfl fun _ hst => hst

/-- The task of one session changes, and is not less started than before. -/
theorem runnerStep (h : Current y s) {n : ℕ} (hsess : s'.sessions = s.sessions)
    (hother : ∀ m, m ≠ n → s'.runner m = s.runner m)
    (hself : (s.runner n).hasStarted → (s'.runner n).hasStarted) : Current y s' := by
  refine h.congr hsess fun m hm => ?_
  by_cases hmn : m = n
  · exact hmn ▸ hself (hmn ▸ hm)
  · rwa [hother m hmn]

variable [DecidableEq User]

/-- A task moves in or to a wait. -/
theorem put {p : Place} (h : Current y s) (hp : p ≠ .inside .down)
    (hown : ∀ n e, t = .inr n → p.blockedOn = some e →
      n + 1 = s.sessions ∧ (e = .up → y.state = .connecting ∧ (s.runner n).hasStarted)) :
    Current (y.put t p) s where
  waiting n e he := by
    rw [ConnectionBase.put_place] at he
    split at he
    · next ht => exact hown n e ht.symm he
    · exact h.waiting n e he
  inside n hn := h.inside n (ConnectionBase.place_of_put hn hp.symm).2

/-- A task goes into `_open()` or `_close()`. -/
theorem enter (hf : y.FlagsAgree) (hin : ∀ u e, y.place u ≠ .inside e)
    (hwait : ∀ n e, (y.place (.inr n)).blockedOn = some e → e = .down ∧ n + 1 = s.sessions)
    (ht : ∀ n, t = .inr n → d = .down → n + 1 = s.sessions) : Current (y.enter d t) s where
  waiting n e he := by
    rw [ConnectionBase.enter_place hf] at he
    split at he
    · cases he
    · obtain ⟨rfl, hn⟩ := hwait n e he
      exact ⟨hn, nofun⟩
  inside n hn := by
    obtain ⟨hnt, hd⟩ := (ConnectionBase.enter_place_inside hin).mp hn
    exact ht n hnt.symm hd

/-- The one task that is inside comes out; who waits for the listener to be `OPEN` is woken. -/
theorem leave (h : Current y s) (hc : y.Coherent) (hex : y.Exclusive) (ht : y.place t = .inside d)
    (hup : ∀ n, (y.place (.inr n)).blockedOn = some .up → (y.leave d o t).state = .connected) :
    Current (y.leave d o t) s where
  waiting n e he := by
    have hold : (y.place (.inr n)).blockedOn = some e := by
      have hb := he
      rw [ConnectionBase.leave, ConnectionBase.put_place] at hb
      split at hb
      · cases hb
      · exact ConnectionBase.blockedOn_setState hc.flags hb
    refine ⟨(h.waiting n e hold).1, ?_⟩
    rintro rfl
    exact absurd (hup n hold) ((hc.leave d o t).awake _ _ he)
  inside n hn := by
    obtain ⟨hut, hu⟩ := ConnectionBase.leave_place_inside.mp hn
    exact absurd (hex.atMostOne _ _ _ _ hu ht) hut

end Current

variable [DecidableEq User]

/-- A task goes into `_close()`. -/
theorem Current.closes (h : Current c.conn c.nursery) (hc : c.Sound) (hg : c.Timely l)
    (hgo : c.Goes l .down t) : Current (c.conn.enter .down t) c.nursery := by
  refine .enter hc.coherent.flags (hc.exclusive.not_inside (hgo.stable hg.orderly).1)
    (fun n e he => ⟨(h.eq_down_of_goes hc hg hgo he).1, (h.waiting n e he).1⟩) ?_
  rintro n rfl -
  exact hg.sessions_of_goes hgo

/-- **One step.** -/
theorem Current.move (h : Current c.conn c.nursery) (hc : c.Sound) (hg : c.Timely l)
    (hm : Move c l c') : Current c'.conn c'.nursery := by
  cases hm with
  | noop _ _ _ hb =>
    change Current (ListenerBase.toConnection _) _
    exact hb ▸ h
  | @waits l d e t p b hl hout hs hp hb =>
    change Current (ListenerBase.toConnection _) _
    rw [hb]
    refine h.put (by rcases hp with ⟨rfl, -⟩ | ⟨rfl, -⟩ <;> simp) ?_
    rintro n e' rfl he
    obtain ⟨rfl, rfl⟩ := Label.eq_of_calls_inr hl
    rcases hg with hclosed | ⟨hn, hprep⟩
    · have hstate : c.conn.state = .disconnected := conn_state_eq.mpr hclosed
      exact absurd (hstate.symm.trans hs) (Direction.target_ne_transition .down e)
    refine ⟨hn, ?_⟩
    rintro rfl
    rcases hp with ⟨rfl, rfl⟩ | ⟨rfl, rfl⟩
    · cases hw : c.conn.flag .down <;> simp [hw, Place.blockedOn] at he
    · exact ⟨hs, hprep (conn_state_eq.mp hs)⟩
  | @refused l t b hgo hb =>
    change Current (ListenerBase.toConnection _) _
    rw [hb]
    have hin := hc.exclusive.not_inside (hgo.stable hg.orderly).1
    have hnone : ∀ n e, (c.conn.place (.inr n)).blockedOn ≠ some e :=
      fun n e he => absurd (h.eq_down_of_goes hc hg hgo he).2 (by decide)
    have h1 : Current (c.conn.enter .up t) c.nursery.refuse :=
      .enter hc.coherent.flags hin (fun n e he => absurd he (hnone n e))
        fun _ _ hd => absurd hd (by decide)
    refine h1.leave (hc.coherent.enter .up t) (.enter hin .up t)
      (ConnectionBase.put_place_self ..) fun n hn => ?_
    rw [ConnectionBase.enter_place hc.coherent.flags] at hn
    split at hn
    · cases hn
    · exact absurd hn (hnone n _)
  | @opens l t b hgo hb =>
    change Current (ListenerBase.toConnection _) _
    rw [hb]
    refine .enter hc.coherent.flags (hc.exclusive.not_inside (hgo.stable hg.orderly).1)
      (fun n e he => ?_) fun _ _ hd => absurd hd (by decide)
    exact absurd (h.eq_down_of_goes hc hg hgo he).2 (by decide)
  | @closesAtOnce l t b hgo _ hb =>
    change Current (ListenerBase.toConnection _) _
    rw [hb]
    have hin := hc.exclusive.not_inside (hgo.stable hg.orderly).1
    refine (Current.leave (h.closes hc hg hgo) (hc.coherent.enter .down t) (.enter hin .down t)
      (ConnectionBase.put_place_self ..) fun n hn => ?_).cancelScope _
    rw [ConnectionBase.enter_place hc.coherent.flags] at hn
    split at hn
    · cases hn
    · exact absurd (h.eq_down_of_goes hc hg hgo hn).1 (by decide)
  | @closes l t b m hgo _ hb =>
    change Current (ListenerBase.toConnection _) _
    rw [hb]
    exact (h.closes hc hg hgo).cancelScope _
  | released hp hb =>
    change Current (ListenerBase.toConnection _) _
    exact hb ▸ h.put (by simp) (by simp)
  | giveUp _ hin hb =>
    change Current (ListenerBase.toConnection _) _
    exact hb ▸ h.put (by simp) (by simp)
  | @finished d t o b hp hcan hb =>
    change Current (ListenerBase.toConnection _) _
    rw [hb]
    refine h.leave hc.coherent hc.exclusive hp fun n hn => ?_
    obtain ⟨hsess, hup⟩ := h.waiting n .up hn
    obtain ⟨hs, hst⟩ := hup rfl
    obtain rfl : d = .up := by
      have htr := (hc.exclusive.transition_iff d).mpr ⟨t, hp⟩
      exact Direction.transition_inj.mp (htr.symm.trans hs)
    obtain rfl : n = c.session t := Nat.succ.inj (hsess.trans (hc.opener t hp).1.symm)
    have hpl : c.base.place t = .inside .up := hp
    cases o with
    | returned => simp [Outcome.success, Direction.target]
    | raised | cancelled =>
      have hend : c.nursery.runner (c.session t) = .ended false := by
        simpa [canFinish, hpl] using hcan
      simp [hend, Runner.hasStarted] at hst
  | @begin n hr =>
    exact h.runnerStep rfl (fun m hm => Nursery.setRunner_of_ne hm)
      (by simp [hr, Runner.hasStarted])
  | @started n hr =>
    refine h.runnerStep (n := n) rfl (fun m hm => Nursery.setRunner_of_ne hm) fun _ => ?_
    rw [show (c.nursery.setRunner n .running).runner n = _ from Nursery.setRunner_self]
    rfl
  | @ends n e hend =>
    obtain ⟨-, hx⟩ := hc.current_of_canEnd hend
    have hstep : ∀ s : Nursery, s.sessions = c.nursery.sessions →
        s.runner = (c.nursery.endRunner n).runner → Current c.conn s := by
      intro s hsess hrun
      refine h.runnerStep (n := n) hsess (fun m hm => ?_) fun hst => ?_
      · rw [hrun]
        exact Nursery.setRunner_of_ne hm
      · rw [hrun, show (c.nursery.endRunner n).runner n = _ from Nursery.setRunner_self, hst]
        rfl
    rw [ends_of_current e hx]
    cases e <;> exact hstep _ rfl rfl
  | flags => exact h.congr rfl fun _ hst => hst

/-! ## The run -/

/-- **A step of a scheduled `close()`**: it acts in its own session, or it returns. -/
theorem Current.ownSession (h : Current c.conn c.nursery) (hc : c.Sound) (hg : c.Timely l)
    (hm : Move c l c') : c.OwnSession l c' := by
  intro n hn
  cases hm with
  | @noop l d t b hl hout hs hb =>
    obtain rfl : t = .inr n := Option.some.inj ((Label.task_of_calls hl).symm.trans hn)
    refine .inr ?_
    change b.toConnection = _
    rw [hb, ConnectionBase.put, ← hout, Function.update_eq_self]
  | @waits l d e t p b hl hout hs hp hb =>
    obtain rfl : t = .inr n := Option.some.inj ((Label.task_of_calls hl).symm.trans hn)
    obtain ⟨rfl, rfl⟩ := Label.eq_of_calls_inr hl
    rcases hg with hclosed | ⟨hsess, -⟩
    · have hstate : c.conn.state = .disconnected := conn_state_eq.mpr hclosed
      exact absurd (hstate.symm.trans hs) (Direction.target_ne_transition .down e)
    · exact .inl hsess
  | refused hgo | opens hgo =>
    obtain rfl := hgo.eq_of_task hn
    exact absurd rfl (hc.not_inr_of_goes hgo n)
  | closesAtOnce hgo | closes hgo =>
    obtain rfl := hgo.eq_of_task hn
    exact .inl (hg.sessions_of_goes hgo)
  | released hp hb =>
    obtain rfl := Option.some.inj hn
    exact .inr hb
  | giveUp _ _ hb =>
    obtain rfl := Option.some.inj hn
    exact .inr hb
  | @finished d t o b hp _ hb =>
    obtain rfl : t = .inr n := Option.some.inj hn
    obtain rfl := hc.own n d (by simp [hp])
    exact .inl (h.inside n hp)
  | begin | started | ends => cases hn
  | flags x y hl => rcases hl with rfl | rfl <;> cases hn

/-- **In a run where scheduled `close()` calls run in time, each has to do with its own session
only**, and none waits after that is over. -/
theorem ownSession_of_timely {ls : List (Label User)}
    (h : (trioListener User).Guarded Timely .init ls) :
    (trioListener User).Along NoneLeftWaiting .init ls ∧
      (trioListener User).Throughout OwnSession .init ls := by
  have hinit : (init : TrioListener User).Sound ∧
      Current (init : TrioListener User).conn (init : TrioListener User).nursery :=
    ⟨Ordered.init, Current.init⟩
  have hstep : ∀ (c : TrioListener User) l c', c.Sound ∧ Current c.conn c.nursery → c.Timely l →
      (trioListener User).step c l = some c' →
        (c'.Sound ∧ Current c'.conn c'.nursery) ∧ c.OwnSession l c' := by
    rintro c l c' ⟨hc, hcur⟩ hg hs
    have hm := move_of_step hs
    exact ⟨⟨hc.move hg.orderly hm, hcur.move hc hg hm⟩, hcur.ownSession hc hg hm⟩
  refine ⟨?_, h.throughout hinit hstep⟩
  refine (h.along (I := fun c => c.Sound ∧ Current c.conn c.nursery) hinit
    fun c l c' hc hg hs => (hstep c l c' hc hg hs).1).mono fun c hc => hc.2.noneLeftWaiting hc.1

/-- The task returns, and the `close()` that it leaves behind closes the listener. -/
theorem ownSession_of_finite_task :
    (trioListener Unit).Along NoneLeftWaiting .init
        [.call .up (), .begin 0, .started 0, .finish (.inl ()) .returned, .ends 0 .returned,
          .runScheduled 0, .finish (.inr 0) .returned] ∧
      (trioListener Unit).Throughout OwnSession .init
        [.call .up (), .begin 0, .started 0, .finish (.inl ()) .returned, .ends 0 .returned,
          .runScheduled 0, .finish (.inr 0) .returned] :=
  ownSession_of_timely <| .cons rfl trivial <| .cons rfl trivial <| .cons rfl trivial <|
    .cons rfl trivial <| .cons rfl trivial <|
      .cons rfl (.inr ⟨rfl, fun _ => rfl⟩) <| .cons rfl trivial trivial

/-- **The task fails before it has started, and its `close()` waits**: it closes the listener after
the next `open()`. -/
theorem scheduledClose_hits_next_session :
    ¬ ∀ ls : List (Label Unit), (trioListener Unit).Along NoneLeftWaiting .init ls ∧
      (trioListener Unit).Throughout OwnSession .init ls := by
  intro h
  have hrun := (h [.call .up (), .begin 0, .ends 0 .raised, .runScheduled 0,
    .finish (.inl ()) .raised, .call .up (), .begin 1, .started 1, .finish (.inl ()) .returned,
    .resume (.inr 0)]).2
  have hlast := ((((((((((hrun _ rfl).2 _ rfl).2 _ rfl).2 _ rfl).2 _ rfl).2 _ rfl).2 _ rfl).2 _
    rfl).2 _ rfl).2 _ rfl).1
  rcases hlast 0 rfl with hsess | hconn
  · exact nomatch hsess
  · exact nomatch congrArg ConnectionBase.state hconn

end FlockwaveConn.TrioListener
