import FlockwaveConn.Connections.Invariant

/-!
# Connections/Exclusive — one transition at a time

`open()` waits for the end of a `close()` under way, and then goes on without a second look at the
state (and the same with the two swapped).  Two tasks that waited for the same transition are woken
together: the first goes into `_close()`, the second follows it.

That is the only way: a run keeps its transitions apart exactly if no task goes on from such a wait
while another transition is under way (`exclusive_iff_undisturbed`).  Such a run is a run of a lock
(`lock_of_undisturbed`).
-/

namespace FlockwaveConn.ConnectionBase

variable {Task : Type*}

/-- **Transitions are exclusive**: at most one task is inside `_open()` or `_close()`, and the state
says in which of the two a task is. -/
structure Exclusive (c : ConnectionBase Task) : Prop where
  atMostOne : ∀ t u d e, c.place t = .inside d → c.place u = .inside e → t = u
  connecting : c.state = .connecting ↔ ∃ t, c.place t = .inside .up
  disconnecting : c.state = .disconnecting ↔ ∃ t, c.place t = .inside .down

/-- A task that waited for the end of the opposite transition goes on only while no transition is
under way. -/
def Undisturbed (c : ConnectionBase Task) : Label Task → Prop
  | .resume t => (∃ d, c.place t = .queued d true) → c.state.isTransitioning = false
  | _ => True

section

variable [DecidableEq Task] {c : ConnectionBase Task} {t u : Task} {d e : Direction}

/-- Whoever moves in or to a wait takes nobody into a transition or out of it. -/
theorem put_place_inside {p : Place} (hin : ∀ d, c.place t ≠ .inside d)
    (hp : ∀ d, p ≠ .inside d) : (c.put t p).place u = .inside e ↔ c.place u = .inside e := by
  rw [put_place]
  split
  · next hu => exact iff_of_false (hp e) (hu ▸ hin e)
  · rfl

/-- Where nobody is inside, the one who goes in is inside. -/
theorem enter_place_inside (hin : ∀ u e, c.place u ≠ .inside e) :
    (c.enter d t).place u = .inside e ↔ u = t ∧ d = e := by
  rw [enter, put_place]
  split
  · next hu => simp [hu]
  · next hu => simp [hu, hin]

/-- Whoever comes out of a transition takes nobody else into one or out of it. -/
theorem leave_place_inside {o : Outcome} :
    (c.leave d o t).place u = .inside e ↔ u ≠ t ∧ c.place u = .inside e := by
  rw [leave, put_place]
  split
  · next hu => simp [hu]
  · next hu => simp [hu]

end

namespace Exclusive

variable {c : ConnectionBase Task}

/-- The two clauses about the state, in one direction-blind form. -/
theorem transition_iff (h : c.Exclusive) (d : Direction) :
    c.state = d.transition ↔ ∃ t, c.place t = .inside d := by
  cases d
  · exact h.connecting
  · exact h.disconnecting

theorem of_transition_iff (h1 : ∀ t u d e, c.place t = .inside d → c.place u = .inside e → t = u)
    (h2 : ∀ d : Direction, c.state = d.transition ↔ ∃ t, c.place t = .inside d) : c.Exclusive :=
  ⟨h1, h2 .up, h2 .down⟩

/-- Outside a transition nobody is inside. -/
theorem not_inside (h : c.Exclusive) (hs : c.state.isTransitioning = false) (t : Task)
    (d : Direction) : c.place t ≠ .inside d := by
  intro ht
  have := (h.transition_iff d).mpr ⟨t, ht⟩
  simp [this] at hs

variable [DecidableEq Task] {c' : ConnectionBase Task} {l : Label Task} {t : Task} {d : Direction}

/-- Nobody is inside when the one task that was has come out. -/
theorem not_inside_leave (h : c.Exclusive) (hp : c.place t = .inside d) (o : Outcome) (u : Task)
    (e : Direction) : (c.leave d o t).place u ≠ .inside e := by
  intro hu
  obtain ⟨hut, hu⟩ := leave_place_inside.mp hu
  exact hut (h.atMostOne u t e d hu hp)

theorem put {p : Place} (h : c.Exclusive) (hin : ∀ d, c.place t ≠ .inside d)
    (hp : ∀ d, p ≠ .inside d) : (c.put t p).Exclusive := by
  have key : ∀ u d, (c.put t p).place u = .inside d ↔ c.place u = .inside d :=
    fun u d => put_place_inside hin hp
  refine of_transition_iff (fun u v d e hu hv => ?_) fun d => ?_
  · exact h.atMostOne u v d e ((key u d).mp hu) ((key v e).mp hv)
  · simp only [put_state, key, h.transition_iff]

/-- Where nobody is inside, one task may go in. -/
theorem enter (hin : ∀ u e, c.place u ≠ .inside e) (d : Direction) (t : Task) :
    (c.enter d t).Exclusive := by
  have key : ∀ u e, (c.enter d t).place u = .inside e ↔ u = t ∧ d = e :=
    fun u e => enter_place_inside hin
  refine of_transition_iff (fun u v e f hu hv => ?_) fun e => ?_
  · rw [((key u e).mp hu).1, ((key v f).mp hv).1]
  · simp [key]

/-- The one task that is inside may come out. -/
theorem leave (h : c.Exclusive) (hp : c.place t = .inside d) (o : Outcome) :
    (c.leave d o t).Exclusive := by
  have key := h.not_inside_leave hp o
  refine of_transition_iff (fun u _ e _ hu _ => absurd hu (key u e)) fun e => ?_
  refine iff_of_false ?_ (not_exists.mpr fun u => key u e)
  rw [leave_state]
  split <;> simp

/-- **One step**: an undisturbed step keeps transitions exclusive. -/
theorem move (h : c.Exclusive) (hu : c.Undisturbed l) (hm : Move c l c') : c'.Exclusive := by
  cases hm with
  | noop => exact h
  | join hout | queue hout => exact h.put (by simp [hout]) (by simp)
  | start _ hs => exact enter (h.not_inside (by simp [hs])) _ _
  | released hp => exact h.put (by simp [hp]) (by simp)
  | goOn hp => exact enter (h.not_inside (hu ⟨_, hp⟩)) _ _
  | giveUp _ hin => exact h.put hin (by simp)
  | finish hp => exact h.leave hp _

/-- **…and only an undisturbed step does**: the task that goes on while another is inside makes
two. -/
theorem undisturbed_of_move (h : c.Exclusive) (hm : Move c l c') (h' : c'.Exclusive) :
    c.Undisturbed l := by
  cases hm with
  | @goOn e t hp =>
    intro _
    cases htr : c.state.isTransitioning with
    | false => rfl
    | true =>
      obtain ⟨f, hf | hf⟩ := Direction.state_cases c.state
      · simp [hf] at htr
      obtain ⟨u, hu⟩ := (h.transition_iff f).mp hf
      have hut : u ≠ t := by rintro rfl; simp [hp] at hu
      have hu' : (c.enter e t).place u = .inside f := by
        rwa [ConnectionBase.enter, put_place_of_ne _ _ hut, setState_place_inside]
      exact absurd (h'.atMostOne u t f e hu' (put_place_self ..)) hut
  | released hp =>
    rintro ⟨e, hq⟩
    simp [hp] at hq
  | _ => trivial

end Exclusive

theorem exclusive_init : (init : ConnectionBase Task).Exclusive :=
  .of_transition_iff (fun _ _ _ _ h => by simp [init] at h)
    fun d => by cases d <;> simp [init, Direction.transition]

section

variable [DecidableEq Task]

/-- **A run keeps its transitions exclusive exactly if it is undisturbed.** -/
theorem exclusive_iff_undisturbed (ls : List (Label Task)) :
    (connectionBase Task).Along Exclusive .init ls
      ↔ (connectionBase Task).Guarded Undisturbed .init ls := by
  refine Machine.along_iff_guarded exclusive_init fun c l c' hc hs => ⟨fun hc' => ?_, fun hu => ?_⟩
  · exact hc.undisturbed_of_move (move_of_step hs) hc'
  · exact hc.move hu (move_of_step hs)

/-- Two tasks call `close()` while a third one is inside `_open()`; it succeeds, both are woken, and
both go into `_close()`. -/
theorem closers_race :
    ¬ ∀ ls : List (Label (Fin 3)), (connectionBase (Fin 3)).Along Exclusive .init ls := by
  intro h
  have hrun := h [.call .up 0, .call .down 1, .call .down 2, .finish 0 .returned, .resume 1,
    .resume 2]
  have hend := (((((hrun.2 _ rfl).2 _ rfl).2 _ rfl).2 _ rfl).2 _ rfl).2 _ rfl
  exact absurd (hend.here.atMostOne 1 2 .down .down (by decide) (by decide)) (by decide)

end

/-! ## The lock it comes down to

What `open()` and `close()` are for, as seen from the tasks: a transition is a lock, taken by the
task that goes into `_open()` or `_close()` and given back when it comes out. -/

/-- Taking and giving back a lock. -/
inductive LockLabel (Owner : Type*)
  | acquire (o : Owner)
  | release

/-- A lock that remembers its owner. -/
def lock (Owner : Type*) : Machine (Option Owner) (LockLabel Owner) where
  init := none
  step
    | none, .acquire o => some (some o)
    | some _, .release => some none
    | _, _ => none

open Classical in
/-- The task that is inside, and the direction it moves the connection in. -/
noncomputable def holder (c : ConnectionBase Task) : Option (Direction × Task) :=
  if h : ∃ x : Direction × Task, c.place x.2 = .inside x.1 then some h.choose else none

theorem holder_eq_none {c : ConnectionBase Task} (h : ∀ u e, c.place u ≠ .inside e) :
    c.holder = none := dif_neg fun ⟨x, hx⟩ => h x.2 x.1 hx

theorem holder_eq_some {c : ConnectionBase Task} (h : c.Exclusive) {t : Task} {d : Direction}
    (ht : c.place t = .inside d) : c.holder = some (d, t) := by
  have hex : ∃ x : Direction × Task, c.place x.2 = .inside x.1 := ⟨(d, t), ht⟩
  have hc := hex.choose_spec
  have h2 : hex.choose.2 = t := h.atMostOne _ _ _ _ hc ht
  have h1 : hex.choose.1 = d := by
    rw [h2, ht] at hc
    exact (Place.inside.inj hc).symm
  rw [holder, dif_pos hex]
  exact congrArg some (Prod.ext h1 h2)

variable [DecidableEq Task]

theorem holder_put {c : ConnectionBase Task} {t : Task} {p : Place} (h : c.Exclusive)
    (hin : ∀ d, c.place t ≠ .inside d) (hp : ∀ d, p ≠ .inside d) :
    (c.put t p).holder = c.holder := by
  by_cases hex : ∃ u e, c.place u = .inside e
  · obtain ⟨u, e, hu⟩ := hex
    have hut : u ≠ t := fun hut => hin e (hut ▸ hu)
    rw [holder_eq_some h hu, holder_eq_some (h.put hin hp) (by rwa [put_place_of_ne c p hut])]
  · push Not at hex
    rw [holder_eq_none hex, holder_eq_none fun u e => ?_]
    rw [put_place]
    split
    · exact hp e
    · exact hex u e

theorem holder_enter {c : ConnectionBase Task} (hin : ∀ u e, c.place u ≠ .inside e) (d : Direction)
    (t : Task) : c.holder = none ∧ (c.enter d t).holder = some (d, t) :=
  ⟨holder_eq_none hin, holder_eq_some (Exclusive.enter hin d t) (put_place_self ..)⟩

/-- **An undisturbed step takes the lock, gives it back, or leaves it as it is.** -/
theorem Exclusive.lock_step {c c' : ConnectionBase Task} {l : Label Task} (hc : c.Exclusive)
    (hu : c.Undisturbed l) (hs : c.step l = some c') :
    Machine.ReadAs (lock (Direction × Task)) Machine.anyStep holder c l c' := by
  cases move_of_step hs with
  | noop => exact .inl rfl
  | join hout | queue hout => exact .inl (holder_put hc (by simp [hout]) (by simp))
  | released hp => exact .inl (holder_put hc (by simp [hp]) (by simp))
  | giveUp _ hin => exact .inl (holder_put hc hin (by simp))
  | @start d t _ hst =>
    obtain ⟨h0, h1⟩ := holder_enter (hc.not_inside (by simp [hst])) d t
    exact .inr ⟨.acquire (d, t), trivial, by rw [h0, h1]; rfl⟩
  | @goOn d t hp =>
    obtain ⟨h0, h1⟩ := holder_enter (hc.not_inside (hu ⟨_, hp⟩)) d t
    exact .inr ⟨.acquire (d, t), trivial, by rw [h0, h1]; rfl⟩
  | @finish d t o hp =>
    have h1 : (c.leave d o t).holder = none := by
      refine holder_eq_none ((hc.leave hp o).not_inside ?_)
      rw [leave_state]
      split <;> simp
    exact .inr ⟨.release, trivial, by rw [holder_eq_some hc hp, h1]; rfl⟩

/-- **An undisturbed run is a run of a lock**, step by step. -/
theorem lock_of_undisturbed {ls : List (Label Task)}
    (h : (connectionBase Task).Guarded Undisturbed .init ls) :
    (connectionBase Task).Throughout
      (Machine.ReadAs (lock (Direction × Task)) Machine.anyStep holder) .init ls :=
  h.throughout exclusive_init fun _ _ _ hc hu hs =>
    ⟨hc.move hu (move_of_step hs), hc.lock_step hu hs⟩

end FlockwaveConn.ConnectionBase
