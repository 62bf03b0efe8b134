import FlockwaveConn.Connections.Base

/-!
# Connections/Invariant — what no interleaving can break

Three facts hold in every state of every run of `connectionBase`, also where two tasks race: the
flags agree with the state, a flag that is `True` has no blocked waiter, and a transition in
progress has a task inside it.
-/

namespace FlockwaveConn.ConnectionBase

variable {Task : Type*}

/-- The invariant of all runs. -/
structure Coherent (c : ConnectionBase Task) : Prop where
  flags : c.FlagsAgree
  /-- A task is blocked on a flag only while the state is not the one the flag stands for. -/
  awake : ∀ t d, (c.place t).blockedOn = some d → c.state ≠ d.target
  /-- A transition is under way only while some task is inside it. -/
  occupied : ∀ d, c.state = d.transition → ∃ t, c.place t = .inside d

theorem coherent_init : (init : ConnectionBase Task).Coherent where
  flags := by rintro (_ | _) <;> rfl
  awake := fun _ _ h => by simp [init] at h
  occupied := fun d h => absurd h (by cases d <;> simp [init, Direction.transition])

variable [DecidableEq Task]

namespace Coherent

variable {c c' : ConnectionBase Task} {l : Label Task} {t : Task} {d : Direction}

/-- A task outside `_open()` and `_close()` may move anywhere it does not block on a `True` flag. -/
theorem put {p : Place} (h : c.Coherent) (hin : ∀ d, c.place t ≠ .inside d)
    (hp : ∀ d, p.blockedOn = some d → c.state ≠ d.target) : (c.put t p).Coherent where
  flags := (put_flagsAgree c t p).mpr h.flags
  awake u e hb := by
    rw [put_place] at hb
    split at hb
    · exact hp e hb
    · exact h.awake u e hb
  occupied e he := by
    obtain ⟨u, hu⟩ := h.occupied e he
    have hut : u ≠ t := fun hut => hin e (hut ▸ hu)
    exact ⟨u, by rwa [put_place_of_ne c p hut]⟩

theorem enter (h : c.Coherent) (d : Direction) (t : Task) : (c.enter d t).Coherent where
  flags := (put_flagsAgree _ t _).mpr (setState_flagsAgree h.flags _)
  awake u e _ := by simp
  occupied e he := by
    obtain rfl : d = e := by simpa using he
    exact ⟨t, put_place_self ..⟩

theorem leave (h : c.Coherent) (d : Direction) (o : Outcome) (t : Task) :
    (c.leave d o t).Coherent := by
  obtain ⟨x, hx⟩ : ∃ x : Direction, (if o.success then d.target else d.reverse.target) = x.target :=
    ⟨if o.success then d else d.reverse, (apply_ite _ _ _ _).symm⟩
  rw [ConnectionBase.leave, hx]
  refine ⟨(put_flagsAgree _ t _).mpr (setState_flagsAgree h.flags _), fun u e hb => ?_,
    fun e he => ?_⟩
  · rw [put_place, setState_place h.flags] at hb
    simp only [put_state, setState_state, ne_eq, Direction.target_inj]
    split at hb
    · cases hb
    split at hb
    · next hs => exact fun hxe => h.awake u e hb (hs ▸ hxe ▸ rfl)
    · rw [wakeAt_target] at hb
      exact (Place.blockedOn_of_wake hb).2.symm
  · simp at he

theorem move (h : c.Coherent) (hm : Move c l c') : c'.Coherent := by
  cases hm with
  | noop => exact h
  | join hout hs =>
    refine h.put (by simp [hout]) fun e _ => ?_
    simp [hs]
  | queue hout hs =>
    refine h.put (by simp [hout]) fun e _ => ?_
    simp [hs]
  | start | goOn => exact h.enter _ _
  | released hp => exact h.put (by simp [hp]) (by simp)
  | giveUp _ hin => exact h.put hin (by simp)
  | finish => exact h.leave _ _ _

end Coherent

/-- **Every state of every run is coherent.** -/
theorem coherent_of_reach {G : ConnectionBase Task → Label Task → Prop} {c : ConnectionBase Task}
    (h : (connectionBase Task).Reach G c) : c.Coherent :=
  h.invariant coherent_init fun _ _ _ hc _ hs => hc.move (move_of_step hs)

end FlockwaveConn.ConnectionBase
