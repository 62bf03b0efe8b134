import FlockwaveConn.Connections.Invariant

/-!
# Connections/Stranded — who is left behind when a transition fails

A caller waits for one flag, but a transition has two ends.  The waiters of `CONNECTED` are those
that joined an `open()` and those that called `close()` during one; if that `_open()` fails, the
state goes back to `DISCONNECTED` and nobody wakes them.

Where no transition fails in front of such a waiter (`NobodyLeft`), each blocked task has a task
inside the transition it waits for (`Attended`), so nobody is stranded.
-/

namespace FlockwaveConn.ConnectionBase

variable {Task : Type*}

/-- A stable state with nobody inside `_open()` or `_close()`, and no woken task to be scheduled. -/
structure Quiet (c : ConnectionBase Task) : Prop where
  stable : c.state.isTransitioning = false
  empty : ∀ t d, c.place t ≠ .inside d
  scheduled : ∀ t, (c.place t).isWoken = false

/-- **No caller is stranded**: once all is quiet, no task is blocked inside `open()` or
`close()`. -/
def NoneStranded (c : ConnectionBase Task) : Prop := c.Quiet → ∀ t, c.place t = .outside

/-- `_open()` (`_close()`) does not fail while tasks wait for it to succeed, unless another task is
inside the same method. -/
def NobodyLeft (c : ConnectionBase Task) : Label Task → Prop
  | .finish t o => o.success = false → ∀ d, c.place t = .inside d →
      (∃ u, u ≠ t ∧ c.place u = .inside d) ∨ ∀ u, (c.place u).blockedOn ≠ some d
  | _ => True

/-- Each blocked task has a task inside the transition whose success it waits for. -/
def Attended (c : ConnectionBase Task) : Prop :=
  ∀ u d, (c.place u).blockedOn = some d → ∃ t, c.place t = .inside d

/-- A task in no wait is outside or inside. -/
theorem Attended.noneStranded {c : ConnectionBase Task} (h : c.Attended) : c.NoneStranded := by
  intro hq t
  have hnone : ∀ d, (c.place t).blockedOn ≠ some d := fun d hb =>
    (h t d hb).elim fun u hu => hq.empty u d hu
  have hw := hq.scheduled t
  cases hp : c.place t with
  | outside => rfl
  | inside d => exact absurd hp (hq.empty t d)
  | joined d w | queued d w =>
    obtain rfl : w = false := by simpa [hp, Place.isWoken] using hw
    exact absurd (by rw [hp]; rfl) (hnone _)

/-- A change of state blocks nobody. -/
theorem blockedOn_setState {c : ConnectionBase Task} (hf : c.FlagsAgree) {n : ConnectionState}
    {u : Task} {d : Direction} (h : ((c.setState n).place u).blockedOn = some d) :
    (c.place u).blockedOn = some d := by
  rw [setState_place hf] at h
  split at h
  · exact h
  · cases n with
    | connected | disconnected => exact (Place.blockedOn_of_wake h).1
    | connecting | disconnecting => exact h

variable [DecidableEq Task]

theorem Attended.put {c : ConnectionBase Task} {t : Task} {p : Place} (h : c.Attended)
    (hin : ∀ d, c.place t ≠ .inside d)
    (hp : ∀ d, p.blockedOn = some d → ∃ u, c.place u = .inside d) : (c.put t p).Attended := by
  intro u d hb
  obtain ⟨v, hv⟩ : ∃ v, c.place v = .inside d := by
    rw [put_place] at hb
    split at hb
    · exact hp d hb
    · exact h u d hb
  have hvt : v ≠ t := fun hvt => hin d (hvt ▸ hv)
  exact ⟨v, by rwa [put_place_of_ne c p hvt]⟩

theorem Attended.enter {c : ConnectionBase Task} {t : Task} (h : c.Attended) (hc : c.Coherent)
    (hin : ∀ d, c.place t ≠ .inside d) (d : Direction) : (c.enter d t).Attended := by
  intro u e hb
  by_cases hut : u = t
  · subst hut
    rw [ConnectionBase.enter, put_place_self] at hb
    cases hb
  rw [ConnectionBase.enter, put_place_of_ne _ _ hut] at hb
  obtain ⟨v, hv⟩ := h u e (blockedOn_setState hc.flags hb)
  have hvt : v ≠ t := fun hvt => hin e (hvt ▸ hv)
  exact ⟨v, by rwa [ConnectionBase.enter, put_place_of_ne _ _ hvt, setState_place_inside]⟩

/-- Whoever is still blocked after a transition has ended waited for the end it did not have. -/
theorem Attended.leave {c : ConnectionBase Task} {t : Task} {d : Direction} {o : Outcome}
    (h : c.Attended) (hc : c.Coherent) (hg : c.NobodyLeft (.finish t o))
    (hp : c.place t = .inside d) : (c.leave d o t).Attended := by
  intro u e hb
  have haw := (hc.leave d o t).awake u e hb
  have hb' : (c.place u).blockedOn = some e := by
    by_cases hut : u = t
    · subst hut
      rw [ConnectionBase.leave, put_place_self] at hb
      cases hb
    · rw [ConnectionBase.leave, put_place_of_ne _ _ hut] at hb
      exact blockedOn_setState hc.flags hb
  obtain ⟨v, hvt, hv⟩ : ∃ v, v ≠ t ∧ c.place v = .inside e := by
    cases hs : o.success with
    | true =>
      have hde : d ≠ e := by simpa [hs] using haw
      obtain ⟨v, hv⟩ := h u e hb'
      refine ⟨v, ?_, hv⟩
      rintro rfl
      exact hde (Place.inside.inj (hp.symm.trans hv))
    | false =>
      obtain rfl : e = d := by
        have hde : d.reverse ≠ e := by simpa [hs] using haw
        exact (Direction.eq_or_eq_reverse d e).resolve_right hde.symm
      rcases hg hs e hp with hother | hnone
      · exact hother
      · exact absurd hb' (hnone u)
  exact ⟨v, by rwa [ConnectionBase.leave, put_place_of_ne _ _ hvt, setState_place_inside]⟩

/-- **One step**: who begins to wait finds the transition under way, and no step takes the last task
out of a transition that somebody waits for. -/
theorem Attended.move {c c' : ConnectionBase Task} {l : Label Task} (h : c.Attended)
    (hc : c.Coherent) (hg : c.NobodyLeft l) (hm : Move c l c') : c'.Attended := by
  cases hm with
  | noop => exact h
  | @join d t hout hs =>
    refine h.put (by simp [hout]) fun e he => ?_
    obtain rfl : d = e := by cases hf : c.flag d <;> simp_all [Place.blockedOn]
    exact hc.occupied d hs
  | @queue d t hout hs =>
    refine h.put (by simp [hout]) fun e he => ?_
    obtain rfl : d.reverse = e := by
      cases hf : c.flag d.reverse <;> simp_all [Place.blockedOn]
    exact hc.occupied d.reverse hs
  | start hout => exact h.enter hc (by simp [hout]) _
  | released hp => exact h.put (by simp [hp]) (by simp)
  | goOn hp => exact h.enter hc (by simp [hp]) _
  | giveUp _ hin => exact h.put hin (by simp)
  | finish hp => exact h.leave hc hg hp

/-- **In a run where no transition fails in front of its waiters, nobody is ever stranded.** -/
theorem noneStranded_of_nobodyLeft {ls : List (Label Task)}
    (h : (connectionBase Task).Guarded NobodyLeft .init ls) :
    (connectionBase Task).Along NoneStranded .init ls := by
  have hinit : (init : ConnectionBase Task).Coherent ∧ (init : ConnectionBase Task).Attended :=
    ⟨coherent_init, fun _ _ hb => by simp [init] at hb⟩
  refine (h.along (I := fun c => c.Coherent ∧ c.Attended) hinit ?_).mono fun c hc =>
    hc.2.noneStranded
  intro c l c' hc hg hs
  have hm := move_of_step hs
  exact ⟨hc.1.move hm, hc.2.move hc.1 hg hm⟩

/-- A second task joins an `open()` that succeeds. -/
theorem noneStranded_join : (connectionBase (Fin 2)).Along NoneStranded .init
    [.call .up 0, .call .up 1, .finish 0 .returned, .resume 1] :=
  noneStranded_of_nobodyLeft <| .cons rfl trivial <| .cons rfl trivial <|
    .cons rfl (fun hf => (nomatch hf)) <| .cons rfl trivial trivial

/-- A task joins an `open()` that fails: all is quiet, and it is still blocked. -/
theorem joiner_stranded :
    ¬ ∀ ls : List (Label (Fin 2)), (connectionBase (Fin 2)).Along NoneStranded .init ls := by
  intro h
  have hrun := h [.call .up 0, .call .up 1, .finish 0 .raised]
  have hend := (((hrun.2 _ rfl).2 _ rfl).2 _ rfl).here
  exact absurd (hend ⟨by decide, by decide, by decide⟩ 1) (by decide)

end FlockwaveConn.ConnectionBase
