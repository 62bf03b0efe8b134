import FlockwaveConn.Connections.Base

/-!
# Connections/UDPListener — `UDPListenerConnection` and its socket

`_open()` has to resolve an address and bind, so other tasks run meanwhile; `_close()` has no
checkpoint, so a task that gets inside it is out again in the same stretch.  On top of
`ConnectionBase` there is one more variable, `_socket`, and it tells a connection that is open from
one that is not: whoever holds a socket is `CONNECTED` (`Sound.connected`), in every run, also
in those where closers race.
-/

namespace FlockwaveConn

/-- A UDP listener and its tasks. -/
structure UDPListener (Task : Type*) where
  base : ConnectionBase Task
  /-- `_socket`; each socket has its own number. -/
  socket : Option ℕ
  /-- The sockets that have been created so far. -/
  created : ℕ

namespace UDPListener

open ConnectionBase

variable {Task : Type*}

/-- `SocketConnectionBase.__init__`. -/
def init : UDPListener Task := ⟨.init, none, 0⟩

section

variable [DecidableEq Task]

/-- `SocketConnectionBase._close()`, for a task that has come to it. -/
def runClose (t : Task) (c : UDPListener Task) : UDPListener Task :=
  match c.base.place t with
  | .inside .down =>
    match c.socket with
    | some _ => { c with base := c.base.leave .down .returned t, socket := none }
    -- `assert self._socket is not None`
    | none => { c with base := c.base.leave .down .raised t }
  | _ => c

/-- `close()`, as a task calls it that is in no other method of the connection. -/
def close (t : Task) (c : UDPListener Task) : UDPListener Task :=
  { c with base := c.base.close t }.runClose t

/-- `self._socket = await self._create_and_open_socket()`, and the end of `open()`. -/
def endOpen (o : Outcome) (t : Task) (c : UDPListener Task) : UDPListener Task :=
  if o.success then ⟨c.base.leave .up o t, some c.created, c.created + 1⟩
  else { c with base := c.base.leave .up o t }

/-- One atomic stretch. -/
def step (c : UDPListener Task) (l : ConnectionBase.Label Task) : Option (UDPListener Task) :=
  match l with
  | .finish t o => if c.base.place t = .inside .up then some (c.endOpen o t) else none
  | l => (c.base.step l).map fun b => { c with base := b }.runClose l.task

end

/-! ## The invariant -/

/-- What holds between two stretches. -/
structure Sound (c : UDPListener Task) : Prop where
  connected : c.socket.isSome → c.base.state = .connected
  settled : c.base.state ≠ .disconnecting
  /-- A connection that is being opened has no socket. -/
  opening : ∀ t, c.base.place t = .inside .up → c.base.state ≠ .disconnected ∧ c.socket = none
  alone : ∀ t u, c.base.place t = .inside .up → c.base.place u = .inside .up → t = u
  noCloser : ∀ t, c.base.place t ≠ .inside .down
  /-- Nobody finds a connection `DISCONNECTING`. -/
  noQueue : ∀ t w, c.base.place t ≠ .queued .up w

theorem sound_init : (init : UDPListener Task).Sound where
  connected h := by cases h
  settled := nofun
  opening t h := by cases h
  alone t u h := by cases h
  noCloser t h := by cases h
  noQueue t w h := by cases h

/-- No change of state makes a task wait for the end of a transition. -/
theorem setState_place_queued {c : ConnectionBase Task} {n : ConnectionState} {t : Task}
    {d : Direction} {w : Bool} (h : (c.setState n).place t = .queued d w) :
    ∃ w', c.place t = .queued d w' := by
  have hwake : ∀ (p : Place) (e : Direction) (w : Bool), p.wake e = .queued d w →
      ∃ w', p = .queued d w' := by
    intro p e w hp
    cases p <;> simp_all [Place.wake]
  obtain ⟨s, fc, fd, sig, pl⟩ := c
  cases s <;> cases n <;> cases fc <;> cases fd <;>
    first
    | exact ⟨w, h⟩
    | exact hwake _ _ _ h

/-- **A connection that is not `CONNECTED` has no socket**, in any state of any run. -/
theorem Sound.socket_eq_none {c : UDPListener Task} (h : c.Sound) (hs : c.base.state ≠ .connected) :
    c.socket = none := by
  by_contra hsome
  exact hs (h.connected (Option.isSome_iff_ne_none.mpr hsome))

variable [DecidableEq Task] {c c' : UDPListener Task} {l : ConnectionBase.Label Task} {t : Task}

/-- A task in `_close()` leaves it at once: with a socket it closes the connection, without one it
brings it back to `CONNECTED`. -/
theorem runClose_enter (t : Task) (c : UDPListener Task) :
    { c with base := c.base.enter .down t }.runClose t =
      if c.socket.isSome then
        { c with base := (c.base.enter .down t).leave .down .returned t, socket := none }
      else { c with base := (c.base.enter .down t).leave .down .raised t } := by
  have hp : (c.base.enter .down t).place t = .inside .down := put_place_self ..
  simp only [runClose, hp]
  cases c.socket <;> rfl

/-- The two changes of state around a `_close()` leave the other tasks where they are. -/
theorem place_of_enter_leave {b : ConnectionBase Task} {o : Outcome} {u : Task} {p : Place}
    (h : ((b.enter .down t).leave .down o t).place u = p) (hne : p ≠ .outside) :
    u ≠ t ∧ (∀ d, p = .inside d → b.place u = .inside d) ∧
      ∀ d w, p = .queued d w → ∃ w', b.place u = .queued d w' := by
  obtain ⟨hut, h⟩ := place_of_put h hne
  refine ⟨hut, ?_, ?_⟩
  · rintro d rfl
    rwa [setState_place_inside, enter, put_place_of_ne _ _ hut, setState_place_inside] at h
  · rintro d w rfl
    obtain ⟨w', hw'⟩ := setState_place_queued h
    rw [enter, put_place_of_ne _ _ hut] at hw'
    exact setState_place_queued hw'

/-- **A `close()` that gets through to `_close()`.** -/
theorem Sound.closing (h : c.Sound) (t : Task) :
    ({ c with base := c.base.enter .down t }.runClose t).Sound := by
  have hin : ∀ o u d, ((c.base.enter .down t).leave .down o t).place u = .inside d →
      c.base.place u = .inside d :=
    fun o u d hu => (place_of_enter_leave hu (by simp)).2.1 d rfl
  have hq : ∀ o u w, ((c.base.enter .down t).leave .down o t).place u ≠ .queued .up w := by
    intro o u w hu
    obtain ⟨w', hw'⟩ := (place_of_enter_leave hu (by simp)).2.2 .up w rfl
    exact h.noQueue u w' hw'
  rw [runClose_enter]
  split
  · next hs =>
      refine ⟨nofun, by simp [Outcome.success, Direction.target],
        fun u hu => ?_, fun u v hu hv => h.alone u v (hin _ u _ hu) (hin _ v _ hv),
        fun u hu => h.noCloser u (hin _ u _ hu), hq _⟩
      have := (h.opening u (hin _ u _ hu)).2
      simp [this] at hs
  · next hs =>
      refine ⟨fun h => absurd h hs, by simp [Outcome.success, Direction.target, Direction.reverse],
        fun u hu => ⟨by simp [Outcome.success, Direction.target, Direction.reverse],
          (h.opening u (hin _ u _ hu)).2⟩,
        fun u v hu hv => h.alone u v (hin _ u _ hu) (hin _ v _ hv),
        fun u hu => h.noCloser u (hin _ u _ hu), hq _⟩

/-- A task may move, without a change of state, to any place that nobody else looks at. -/
theorem Sound.moved (h : c.Sound) (t : Task) {p : Place} (hp : ∀ d, p ≠ .inside d)
    (hq : ∀ w, p ≠ .queued .up w) :
    ({ c with base := c.base.put t p } : UDPListener Task).Sound := by
  have hpl : ∀ u q, (c.base.put t p).place u = q → q ≠ p → c.base.place u = q :=
    fun u q hu hqp => (place_of_put hu hqp).2
  exact ⟨h.connected, h.settled, fun u hu => h.opening u (hpl u _ hu (hp _).symm),
    fun u v hu hv => h.alone u v (hpl u _ hu (hp _).symm) (hpl v _ hv (hp _).symm),
    fun u hu => h.noCloser u (hpl u _ hu (hp _).symm),
    fun u w hu => h.noQueue u w (hpl u _ hu (hq _).symm)⟩

/-- **An `open()` that gets through to `_open()`** finds nobody else there. -/
theorem Sound.entering (h : c.Sound) (t : Task) (hs : c.base.state = .disconnected) :
    ({ c with base := c.base.enter .up t } : UDPListener Task).Sound := by
  have hnone : c.socket = none := h.socket_eq_none (by simp [hs])
  have hin : ∀ u d, (c.base.enter .up t).place u = .inside d → u ≠ t →
      c.base.place u = .inside d := by
    intro u d hu hut
    rwa [enter, put_place_of_ne _ _ hut, setState_place_inside] at hu
  have honly : ∀ u, (c.base.enter .up t).place u = .inside .up → u = t := by
    intro u hu
    by_contra hut
    exact (h.opening u (hin u _ hu hut)).1 hs
  refine ⟨fun h => by simp [hnone] at h, by simp [Direction.transition],
    fun u _ => ⟨by simp [Direction.transition], hnone⟩,
    fun u v hu hv => (honly u hu).trans (honly v hv).symm, fun u hu => ?_, fun u w hu => ?_⟩
  · have hut : u ≠ t := by
      rintro rfl
      simp [enter] at hu
    exact h.noCloser u (hin u _ hu hut)
  · have hut : u ≠ t := by
      rintro rfl
      simp [enter] at hu
    rw [enter, put_place_of_ne _ _ hut] at hu
    obtain ⟨w', hw'⟩ := setState_place_queued hu
    exact h.noQueue u w' hw'

/-- **The end of an `_open()`.** -/
theorem Sound.endOpen (h : c.Sound) (o : Outcome) (ht : c.base.place t = .inside .up) :
    (c.endOpen o t).Sound := by
  have hpl : ∀ u q, (c.base.leave .up o t).place u = q → q ≠ .outside →
      u ≠ t ∧ (c.base.setState (if o.success then Direction.up.target
        else Direction.up.reverse.target)).place u = q := fun u q hu hq => place_of_put hu hq
  have hnoUp : ∀ u, (c.base.leave .up o t).place u ≠ .inside .up := by
    intro u hu
    obtain ⟨hut, hu⟩ := hpl u _ hu (by simp)
    exact hut (h.alone u t (setState_place_inside.mp hu) ht)
  have hnoDown : ∀ u, (c.base.leave .up o t).place u ≠ .inside .down := fun u hu =>
    h.noCloser u (setState_place_inside.mp (hpl u _ hu (by simp)).2)
  have hnoQueue : ∀ u w, (c.base.leave .up o t).place u ≠ .queued .up w := by
    intro u w hu
    obtain ⟨w', hw'⟩ := setState_place_queued (hpl u _ hu (by simp)).2
    exact h.noQueue u w' hw'
  unfold UDPListener.endOpen
  split
  · next ho =>
      exact ⟨fun _ => by simp [ho, Direction.target], by simp [ho, Direction.target],
        fun u hu => absurd hu (hnoUp u), fun u v hu => absurd hu (hnoUp u), hnoDown, hnoQueue⟩
  · next ho =>
      have hnone := (h.opening t ht).2
      exact ⟨fun hs => by simp [hnone] at hs, by simp [ho, Direction.target, Direction.reverse],
        fun u hu => absurd hu (hnoUp u), fun u v hu => absurd hu (hnoUp u), hnoDown, hnoQueue⟩

theorem runClose_of_not_inside {b : ConnectionBase Task} (h : b.place t ≠ .inside .down) :
    ({ c with base := b } : UDPListener Task).runClose t = { c with base := b } := by
  unfold runClose
  split
  · next hin => exact absurd hin h
  · rfl

/-- **Every stretch keeps the invariant.** -/
theorem Sound.step (h : c.Sound) (hs : c.step l = some c') : c'.Sound := by
  by_cases hfin : ∃ t o, l = .finish t o
  · obtain ⟨t, o, rfl⟩ := hfin
    simp only [UDPListener.step] at hs
    split_ifs at hs with ht
    obtain rfl := Option.some.inj hs
    exact h.endOpen o ht
  · obtain ⟨b, hb, rfl⟩ : ∃ b, c.base.step l = some b ∧
        ({ c with base := b } : UDPListener Task).runClose l.task = c' := by
      cases l with
      | finish t o => exact absurd ⟨t, o, rfl⟩ hfin
      | call | resume | interrupt => exact Option.map_eq_some_iff.mp hs
    cases move_of_step hb with
    | @noop d t hout =>
      rwa [runClose_of_not_inside (by simp [Label.task, hout])]
    | @join d t hout =>
      rw [runClose_of_not_inside (by simp [Label.task])]
      exact h.moved t (by simp) (by simp)
    | @queue d t hout hst =>
      rw [runClose_of_not_inside (by simp [Label.task])]
      cases d with
      | up => exact absurd hst h.settled
      | down => exact h.moved t (by simp) (by simp)
    | @start d t hout hst =>
      cases d with
      | up =>
        rw [runClose_of_not_inside (by simp [Label.task, enter])]
        exact h.entering t hst
      | down => exact h.closing t
    | @released d t hp =>
      rw [runClose_of_not_inside (by simp [Label.task])]
      exact h.moved t (by simp) (by simp)
    | @goOn d t hp =>
      cases d with
      | up => exact absurd hp (h.noQueue t true)
      | down => exact h.closing t
    | @giveUp t =>
      rw [runClose_of_not_inside (by simp [Label.task])]
      exact h.moved t (by simp) (by simp)
    | @finish d t o => exact absurd ⟨t, o, rfl⟩ hfin

/-- **A `close()` keeps it too**, from wherever a task calls it. -/
theorem Sound.close (h : c.Sound) (t : Task) : (c.close t).Sound := by
  unfold UDPListener.close ConnectionBase.close request
  split_ifs with h1 h2 h3
  · rwa [runClose_of_not_inside (h.noCloser t)]
  · exact absurd h2 h.settled
  · rw [runClose_of_not_inside (by simp)]
    exact h.moved t (by simp) (by simp)
  · exact h.closing t

end UDPListener

end FlockwaveConn
