import FlockwaveConn.Connections.Invariant

/-!
# Connections/Honest — what a normal return of `open()` and `close()` promises

A caller may return because another task does what it was called for, and by the time it is
scheduled the state may be a different one.  What it can rely on is the past: at some instant of its
call the state was the one it asked for.  A caller that does the work itself can rely on more, for
it returns in the very step that sets the state.  `honest_return` is both.
-/

namespace FlockwaveConn

/-- In a call to `open()` or `close()`, at any point of it. -/
def Place.During (d : Direction) : Place → Prop
  | outside => False
  | joined e _ | queued e _ | inside e => e = d

/-- In a call, with the target of the call still to come. -/
def Place.Owes (d : Direction) : Place → Prop
  | outside => False
  | joined e w => e = d ∧ w = false
  | queued e _ | inside e => e = d

theorem Place.Owes.during {d : Direction} {p : Place} (h : p.Owes d) : p.During d := by
  cases p with
  | joined e w => exact h.1
  | _ => exact h

namespace ConnectionBase

variable {Task : Type*}

/-- The stretch takes the task out of its call by an exception. -/
def Label.Throws (t : Task) : Label Task → Prop
  | .interrupt u => u = t
  | .finish u o => u = t ∧ o.success = false
  | .call _ _ | .resume _ => False

/-- A change of state settles what is owed where it brings about the target. -/
theorem owes_wakeAt {d : Direction} {p : Place} (n : ConnectionState) (h : p.Owes d) :
    (wakeAt n p).Owes d ∨ n = d.target := by
  cases n with
  | connecting | disconnecting => exact .inl h
  | connected | disconnected =>
    cases p with
    | outside => exact h.elim
    | queued e w => exact .inl h
    | inside e => exact .inl h
    | joined e w =>
      obtain ⟨rfl, rfl⟩ := h
      cases e <;> simp [wakeAt, Place.wake, Place.Owes, Direction.target]

theorem during_wakeAt {d : Direction} {p : Place} (n : ConnectionState) (h : p.During d) :
    (wakeAt n p).During d := by
  cases n <;> cases p <;> exact h

theorem owes_setState {c : ConnectionBase Task} (hf : c.FlagsAgree) {d : Direction} {t : Task}
    (n : ConnectionState) (h : (c.place t).Owes d) :
    ((c.setState n).place t).Owes d ∨ n = d.target := by
  rw [setState_place hf]
  split
  · exact .inl h
  · exact owes_wakeAt n h

theorem during_setState {c : ConnectionBase Task} (hf : c.FlagsAgree) {d : Direction} {t : Task}
    (n : ConnectionState) (h : (c.place t).During d) : ((c.setState n).place t).During d := by
  rw [setState_place hf]
  split
  · exact h
  · exact during_wakeAt n h

variable [DecidableEq Task] {c c' : ConnectionBase Task} {l : Label Task} {d : Direction} {t : Task}

/-- An exception takes the task out. -/
theorem Move.outside_of_throws (hm : Move c l c') (h : l.Throws t) : c'.place t = .outside := by
  cases hm with
  | giveUp =>
    obtain rfl := h
    exact put_place_self ..
  | finish =>
    obtain ⟨rfl, -⟩ := h
    exact put_place_self ..
  | _ => exact h.elim

/-- **What is owed is paid**: a step leaves the call as it is, or the target is reached. -/
theorem Move.owes (hm : Move c l c') (hf : c.FlagsAgree) (hl : ¬ l.Throws t)
    (h : (c.place t).Owes d) : (c'.place t).Owes d ∨ c'.state = d.target := by
  by_cases hlt : l.task = t
  · subst hlt
    cases hm with
    | noop => exact .inl h
    | join hout | queue hout | start hout => simp [Label.task, hout, Place.Owes] at h
    | released hp => simp [Label.task, hp, Place.Owes] at h
    | goOn hp =>
      obtain rfl : _ = d := by simpa [Label.task, hp, Place.Owes] using h
      exact .inl (by simp [ConnectionBase.enter, Label.task, Place.Owes])
    | giveUp => exact absurd rfl hl
    | @finish e t o hp =>
      obtain rfl : e = d := by simpa [Label.task, hp, Place.Owes] using h
      have ho : o.success = true := by
        by_contra ho
        exact hl ⟨rfl, by simpa using ho⟩
      exact .inr (by simp [ho])
  · rw [hm.place_of_ne hlt]
    exact owes_setState hf _ h

/-- A step leaves a task in its call or takes it out. -/
theorem Move.during (hm : Move c l c') (hf : c.FlagsAgree) (h : (c.place t).During d) :
    (c'.place t).During d ∨ c'.place t = .outside := by
  by_cases hlt : l.task = t
  · subst hlt
    cases hm with
    | noop => exact .inl h
    | join hout | queue hout | start hout => simp [Label.task, hout, Place.During] at h
    | released | giveUp | finish => exact .inr (put_place_self ..)
    | goOn hp =>
      obtain rfl : _ = d := by simpa [Label.task, hp, Place.During] using h
      exact .inl (by simp [ConnectionBase.enter, Label.task, Place.During])
  · rw [hm.place_of_ne hlt]
    exact .inl (during_setState hf _ h)

/-- A call returns at once, with its target reached, or owes it. -/
theorem owes_of_call (hm : Move c (.call d t) c') (hf : c.FlagsAgree) :
    c'.place t = .outside ∧ c'.state = d.target ∨ (c'.place t).Owes d := by
  cases hm with
  | noop hout hs => exact .inl ⟨hout, hs⟩
  | join _ hs =>
    refine .inr ?_
    have hw : c.flag d = false := by simp [hf d, hs]
    simp [hw, Place.Owes]
  | queue => exact .inr (by simp [Place.Owes])
  | start => exact .inr (by simp [ConnectionBase.enter, Place.Owes])

/-- **What is owed is paid before the call returns**, at some instant from now on. -/
theorem sometime_of_owes {ls : List (Label Task)} {c₂ : ConnectionBase Task} (hc : c.Coherent)
    (hexec : (connectionBase Task).exec c ls = some c₂)
    (hduring : (connectionBase Task).Before (fun c => c.place t ≠ .outside) c ls)
    (hret : c₂.place t = .outside) (hnormal : ∀ l ∈ ls.getLast?, ¬ l.Throws t)
    (h : (c.place t).Owes d) :
    (connectionBase Task).Sometime (fun c => c.state = d.target) c ls := by
  induction ls generalizing c with
  | nil =>
    obtain rfl := Option.some.inj hexec
    simp [hret, Place.Owes] at h
  | cons l ls ih =>
    obtain ⟨c', hs, hexec'⟩ := Option.bind_eq_some_iff.mp hexec
    have hm := move_of_step hs
    have hduring' := hduring.2 c' hs
    have hl : ¬ l.Throws t := by
      intro hl
      obtain rfl := hduring'.eq_nil (by simpa using hm.outside_of_throws hl)
      exact hnormal l rfl hl
    refine .inr ⟨c', hs, ?_⟩
    rcases hm.owes hc.flags hl h with h' | htarget
    · refine ih (hc.move hm) hexec' hduring' (fun m hmem => hnormal m ?_) h'
      cases ls with
      | nil => cases hmem
      | cons a as => rwa [Option.mem_def, List.getLast?_cons_cons]
    · refine .here ?_ ls
      exact htarget

/-- A task that has not left is still in the call it made. -/
theorem during_of_exec {ls : List (Label Task)} {c₂ : ConnectionBase Task} (hc : c.Coherent)
    (hexec : (connectionBase Task).exec c ls = some c₂)
    (hduring : (connectionBase Task).Before (fun c => c.place t ≠ .outside) c ls)
    (hin : c₂.place t ≠ .outside) (h : (c.place t).During d) : (c₂.place t).During d := by
  induction ls generalizing c with
  | nil =>
    obtain rfl := Option.some.inj hexec
    exact h
  | cons l ls ih =>
    obtain ⟨c', hs, hexec'⟩ := Option.bind_eq_some_iff.mp hexec
    have hm := move_of_step hs
    have hduring' := hduring.2 c' hs
    rcases hm.during hc.flags h with h' | hout
    · exact ih (hc.move hm) hexec' hduring' h'
    · obtain rfl := hduring'.eq_nil (by simpa using hout)
      obtain rfl := Option.some.inj hexec'
      exact absurd hout hin

/-- **A task whose own `_open()` has completed leaves `open()` in the step that sets the state.** -/
theorem leaves_of_inside (o : Outcome) (h : c.place t = .inside d) :
    ∃ c', (connectionBase Task).step c (.finish t o) = some c' ∧ c'.place t = .outside
      ∧ (o.success = true → c'.state = d.target) := by
  refine ⟨c.leave d o t, ?_, put_place_self .., fun ho => ?_⟩
  · simp [connectionBase, ConnectionBase.step, h]
  · simp [ConnectionBase.leave, ho]

/-- **A normal return is honest.**  Let a task call `open()` (`close()`) in any reachable state, and
let any steps of any tasks follow while it is in the call.  If these end with the return of the
call, and not by an exception, then the state was `CONNECTED` (`DISCONNECTED`) at some instant
between the call and the return.  If they leave the task inside `_open()` (`_close()`), it is the
one of its own method, and at its end, whatever its outcome, the task leaves the method in that very
step, which sets the state to `CONNECTED` (`DISCONNECTED`) where the outcome is a return. -/
theorem honest_return {c₀ c₁ c₂ : ConnectionBase Task} {d : Direction} {t : Task}
    {ls : List (Label Task)} (hreach : (connectionBase Task).Reachable c₀)
    (hcall : (connectionBase Task).step c₀ (.call d t) = some c₁)
    (hexec : (connectionBase Task).exec c₁ ls = some c₂)
    (hduring : (connectionBase Task).Before (fun c => c.place t ≠ .outside) c₁ ls) :
    (c₂.place t = .outside → (∀ l ∈ ls.getLast?, ¬ l.Throws t) →
        (connectionBase Task).Sometime (fun c => c.state = d.target) c₁ ls)
      ∧ ∀ e o, c₂.place t = .inside e → e = d
        ∧ ∃ c₃, (connectionBase Task).step c₂ (.finish t o) = some c₃ ∧ c₃.place t = .outside
          ∧ (o.success = true → c₃.state = d.target) := by
  have hc := coherent_of_reach hreach
  have hm : Move c₀ (.call d t) c₁ := move_of_step hcall
  have hc₁ := hc.move hm
  rcases owes_of_call hm hc.flags with ⟨hout, htarget⟩ | howes
  · obtain rfl := hduring.eq_nil (by simpa using hout)
    obtain rfl := Option.some.inj hexec
    exact ⟨fun _ _ => htarget, fun e o hin => by simp [hout] at hin⟩
  · refine ⟨fun hret hnormal => sometime_of_owes hc₁ hexec hduring hret hnormal howes, ?_⟩
    intro e o hin
    have hd := during_of_exec hc₁ hexec hduring (by simp [hin]) howes.during
    obtain rfl : e = d := by simpa [hin, Place.During] using hd
    exact ⟨rfl, leaves_of_inside o hin⟩

/-- Task 1 joins the `open()` of task 0; before it is scheduled, task 0 has closed the connection
again.  Task 0 itself is inside `_open()` from its call on. -/
theorem honest_return_overtaken :
    (connectionBase (Fin 2)).Sometime (fun c => c.state = .connected)
        ((init.enter .up 0).put 1 (.joined .up false))
        [.finish 0 .returned, .call .down 0, .finish 0 .returned, .resume 1]
      ∧ ∃ c₃, (connectionBase (Fin 2)).step (init.enter .up 0) (.finish 0 .returned) = some c₃
        ∧ c₃.place 0 = .outside ∧ c₃.state = .connected := by
  constructor
  · refine (honest_return (d := .up) (t := 1) (Machine.reachable_of_exec [.call .up 0] rfl) rfl rfl
      ?_).1 rfl ?_
    · exact .cons rfl (by decide) <| .cons rfl (by decide) <| .cons rfl (by decide) <|
        .cons rfl (by decide) trivial
    · rintro l ⟨⟩
      exact id
  · have hcall : (connectionBase (Fin 2)).step init (.call .up 0) = some (init.enter .up 0) := rfl
    have hexec :
        (connectionBase (Fin 2)).exec (init.enter .up 0) [] = some (init.enter .up 0) := rfl
    obtain ⟨-, c₃, hs, hout, htarget⟩ :=
      (honest_return Machine.Reach.init hcall hexec trivial).2 .up .returned rfl
    exact ⟨c₃, hs, hout, htarget rfl⟩

end ConnectionBase

end FlockwaveConn
