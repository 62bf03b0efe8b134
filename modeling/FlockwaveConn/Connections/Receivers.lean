import FlockwaveConn.Connections.Invariant

/-!
# Connections/Receivers — receivers of signals that raise

`send()` calls the receivers of a signal in turn and lets their exception out.  So `_set_state` may
stop at each of its three sends, and what comes after the send is left undone: at `state_changed`
neither flag has been set yet, and where that is the first `_set_state` of `open()` or `close()`, no
`finally` clause takes the state back either.

An exception of a receiver of `connected` or `disconnected` does no harm where the old state was a
transition, for then nothing is left to be done (`settled_of_harmless`).
-/

namespace FlockwaveConn.ConnectionBase

variable {Task : Type*}

/-- `ConnectionBase._set_state`, to receivers that may raise: the connection, and whether an
exception comes out. -/
def trySetState (raises : Signal → Bool) (newState : ConnectionState) (c : ConnectionBase Task) :
    ConnectionBase Task × Bool :=
  let oldState := c.state
  if newState = oldState then (c, false) else
  let c := { c with state := newState }
  let c := c.send (.stateChanged oldState newState)
  if raises (.stateChanged oldState newState) then (c, true) else
  let up := !c.isConnected && newState = .connected
  let c := if up then (c.setIsConnected true).send .connected else c
  if up && raises .connected then (c, true) else
  let down := !c.isDisconnected && newState = .disconnected
  let c := if down then (c.setIsDisconnected true).send .disconnected else c
  if down && raises .disconnected then (c, true) else
  let c := if c.isConnected && newState ≠ .connected then c.setIsConnected false else c
  let c := if c.isDisconnected && newState ≠ .disconnected then c.setIsDisconnected false else c
  (c, false)

variable [DecidableEq Task]

/-- `self._set_state(CONNECTING)`, which stands before the `try` block, then into `_open()`. -/
def tryEnter (raises : Signal → Bool) (d : Direction) (t : Task) (c : ConnectionBase Task) :
    ConnectionBase Task :=
  let x := c.trySetState raises d.transition
  x.1.put t (if x.2 then .outside else .inside d)

/-- The `finally` clause. -/
def tryLeave (raises : Signal → Bool) (d : Direction) (o : Outcome) (t : Task)
    (c : ConnectionBase Task) : ConnectionBase Task :=
  (c.trySetState raises (if o.success then d.target else d.reverse.target)).1.put t .outside

/-- A method of a connection, from its call to its first wait or to its end. -/
def tryRequest (raises : Signal → Bool) (d : Direction) (t : Task) (c : ConnectionBase Task) :
    ConnectionBase Task :=
  if c.state = d.target then c
  else if c.state = d.transition then c.put t (.joined d (c.flag d))
  else if c.state = d.reverse.transition then c.put t (.queued d (c.flag d.reverse))
  else c.tryEnter raises d t

/-- One atomic stretch; each of them sets the state once at most. -/
def tryStep (c : ConnectionBase Task) (x : Label Task × (Signal → Bool)) :
    Option (ConnectionBase Task) :=
  match x.1 with
  | .call d t => if c.place t = .outside then some (c.tryRequest x.2 d t) else none
  | .resume t =>
    match c.place t with
    | .joined _ true => some (c.put t .outside)
    | .queued d true => some (c.tryEnter x.2 d t)
    | _ => none
  | .interrupt t =>
    match c.place t with
    | .joined _ _ | .queued _ _ => some (c.put t .outside)
    | _ => none
  | .finish t o =>
    match c.place t with
    | .inside d => some (c.tryLeave x.2 d o t)
    | _ => none

end ConnectionBase

/-- **A connection whose signals have receivers that may raise**; which ones do is part of the
label. -/
def raisingConnection (Task : Type*) [DecidableEq Task] :
    Machine (ConnectionBase Task) (ConnectionBase.Label Task × (Signal → Bool)) where
  init := .init
  step := ConnectionBase.tryStep

namespace ConnectionBase

variable {Task : Type*}

/-! ## Receivers that do not raise -/

theorem trySetState_silent (n : ConnectionState) (c : ConnectionBase Task) :
    c.trySetState (fun _ => false) n = (c.setState n, false) := by
  by_cases h : n = c.state <;> simp [trySetState, setState, h]

section

variable [DecidableEq Task]

theorem tryEnter_silent (d : Direction) (t : Task) (c : ConnectionBase Task) :
    c.tryEnter (fun _ => false) d t = c.enter d t := by
  simp [tryEnter, trySetState_silent, enter]

theorem tryLeave_silent (d : Direction) (o : Outcome) (t : Task) (c : ConnectionBase Task) :
    c.tryLeave (fun _ => false) d o t = c.leave d o t := by
  simp [tryLeave, trySetState_silent, leave]

/-- **Where no receiver raises, it is the connection it was.** -/
theorem tryStep_silent (c : ConnectionBase Task) (l : Label Task) :
    c.tryStep (l, fun _ => false) = c.step l := by
  cases l with
  | call d t =>
    cases d <;> simp [tryStep, step, tryRequest, open_, close, request, tryEnter_silent]
  | resume t =>
    rcases hp : c.place t with _ | ⟨d, _ | _⟩ | ⟨d, _ | _⟩ | d <;>
      simp [tryStep, step, hp, tryEnter_silent]
  | interrupt t => rfl
  | finish t o => cases hp : c.place t <;> simp [tryStep, step, hp, tryLeave_silent]

end

/-! ## What an exception leaves undone -/

/-- A change of state in which no receiver of `state_changed` raises, and one of `connected` or
`disconnected` only where the old state is a transition. -/
def HarmlessChange (raises : Signal → Bool) (old new : ConnectionState) : Prop :=
  ∀ x ∈ signalsOf (old, new), raises x = true →
    x ≠ .stateChanged old new ∧ old.isTransitioning = true

/-- **A harmless exception** comes out when all has been done. -/
theorem trySetState_of_harmless {c : ConnectionBase Task} {n : ConnectionState}
    {raises : Signal → Bool} (hf : c.FlagsAgree)
    (h : n ≠ c.state → HarmlessChange raises c.state n) :
    (c.trySetState raises n).1 = c.setState n ∧
      ((c.trySetState raises n).2 = true → n.isTransitioning = false) := by
  by_cases hn : n = c.state
  · simp [trySetState, setState, hn]
  have h := h hn
  have hs : raises (.stateChanged c.state n) = false := by
    by_contra hr
    exact (h _ List.mem_cons_self (by simpa using hr)).1 rfl
  obtain ⟨s, fc, fd, sig, pl⟩ := c
  obtain rfl : fc = decide (s = .connected) := hf .up
  obtain rfl : fd = decide (s = .disconnected) := hf .down
  cases s <;> cases n <;>
    simp_all [trySetState, setState, HarmlessChange, send, setIsConnected, setIsDisconnected,
      signalsOf, ConnectionState.isTransitioning, apply_ite Prod.fst]

theorem flagsAgree_iff {c : ConnectionBase Task} :
    c.FlagsAgree ↔ c.isConnected = decide (c.state = .connected) ∧
      c.isDisconnected = decide (c.state = .disconnected) :=
  ⟨fun h => ⟨h .up, h .down⟩, fun h => by rintro (_ | _); exacts [h.1, h.2]⟩

/-- **A harmful one** comes out in the middle of a change: on the way into a transition, or with a
flag that does not say what the state is. -/
theorem trySetState_of_harmful {c : ConnectionBase Task} {n : ConnectionState}
    {raises : Signal → Bool} (hf : c.FlagsAgree) (hn : n ≠ c.state)
    (h : ¬ HarmlessChange raises c.state n) :
    (c.trySetState raises n).2 = true ∧ (c.trySetState raises n).1.state = n ∧
      (n.isTransitioning = false → ¬ (c.trySetState raises n).1.FlagsAgree) := by
  obtain ⟨s, fc, fd, sig, pl⟩ := c
  obtain rfl : fc = decide (s = .connected) := hf .up
  obtain rfl : fd = decide (s = .disconnected) := hf .down
  cases hr : raises (.stateChanged s n) <;> cases s <;> cases n <;>
    simp_all [trySetState, HarmlessChange, send, setIsConnected, setIsDisconnected, signalsOf,
      ConnectionState.isTransitioning, flagsAgree_iff]

/-- A change of state brings nobody into a method. -/
theorem trySetState_place {c : ConnectionBase Task} {n : ConnectionState} {raises : Signal → Bool}
    {t : Task} (h : c.place t = .outside) : (c.trySetState raises n).1.place t = .outside := by
  obtain ⟨s, fc, fd, sig, pl⟩ := c
  simp only at h
  cases hr : raises (.stateChanged s n) <;> cases s <;> cases n <;> cases fc <;> cases fd <;>
    simp [trySetState, hr, send, setIsConnected, setIsDisconnected, apply_ite Prod.fst, h]
  all_goals split <;> simp [h]

/-! ## One step -/

/-- The state that a stretch sets, if it sets one. -/
def sets (c : ConnectionBase Task) : Label Task → Option ConnectionState
  | .call d _ => if c.state = d.reverse.target then some d.transition else none
  | .resume t =>
    match c.place t with
    | .queued d true => some d.transition
    | _ => none
  | .interrupt _ => none
  | .finish t o =>
    match c.place t with
    | .inside d => some (if o.success then d.target else d.reverse.target)
    | _ => none

/-- Where the stretch changes the state, no exception comes out before all has been done. -/
def Harmless (c : ConnectionBase Task) (x : Label Task × (Signal → Bool)) : Prop :=
  ∀ n, c.sets x.1 = some n → n ≠ c.state → HarmlessChange x.2 c.state n

theorem harmless_of_silent (c : ConnectionBase Task) (l : Label Task) :
    c.Harmless (l, fun _ => false) := fun _ _ _ _ _ hr => by simp at hr

/-- The requirement: where no call is in progress the connection is at rest, and its flags say
so. -/
def Settled (c : ConnectionBase Task) : Prop :=
  (∀ t, c.place t = .outside) → c.state.isTransitioning = false ∧ c.FlagsAgree

theorem Coherent.settled {c : ConnectionBase Task} (h : c.Coherent) : c.Settled := by
  refine fun hout => ⟨?_, h.flags⟩
  obtain ⟨d, hd | hd⟩ := Direction.state_cases c.state
  · simp [hd]
  · obtain ⟨t, ht⟩ := h.occupied d hd
    simp [hout t] at ht

variable [DecidableEq Task]

theorem tryEnter_of_harmless {c : ConnectionBase Task} {raises : Signal → Bool} {d : Direction}
    (hf : c.FlagsAgree) (h : d.transition ≠ c.state → HarmlessChange raises c.state d.transition)
    (t : Task) : c.tryEnter raises d t = c.enter d t := by
  obtain ⟨h1, h2⟩ := trySetState_of_harmless hf h
  have hr : (c.trySetState raises d.transition).2 = false := by
    by_contra hr
    simpa using h2 (by simpa using hr)
  simp [tryEnter, enter, h1, hr]

/-- **A harmless step is a step of `connectionBase`.** -/
theorem tryStep_of_harmless {c : ConnectionBase Task} {x : Label Task × (Signal → Bool)}
    (hf : c.FlagsAgree) (h : c.Harmless x) : c.tryStep x = c.step x.1 := by
  obtain ⟨l, raises⟩ := x
  cases l with
  | call d t =>
    have key : c.tryRequest raises d t = c.request d t := by
      unfold tryRequest request
      split_ifs with h1 h2 h3
      · rfl
      · rfl
      · rfl
      · exact tryEnter_of_harmless hf (h _ (if_pos (Direction.eq_reverse_target h1 h2 h3))) t
    cases d <;> simp only [tryStep, step, open_, close, key]
  | resume t =>
    cases hp : c.place t with
    | queued d w =>
      cases w with
      | false => simp [tryStep, step, hp]
      | true =>
        have key := tryEnter_of_harmless hf (h d.transition (by simp [sets, hp])) t
        simp [tryStep, step, hp, key]
    | joined d w => cases w <;> simp [tryStep, step, hp]
    | _ => simp [tryStep, step, hp]
  | interrupt t => rfl
  | finish t o =>
    cases hp : c.place t with
    | inside d =>
      have hn : c.sets (.finish t o) = some (if o.success then d.target else d.reverse.target) := by
        simp only [sets, hp]
      have key := (trySetState_of_harmless hf (h _ hn)).1
      simp only [tryStep, step, hp, tryLeave, leave, key]
    | _ => simp [tryStep, step, hp]

/-- **Where receivers raise only what is harmless, the connection settles.** -/
theorem settled_of_harmless (ls : List (Label Task × (Signal → Bool)))
    (h : (raisingConnection Task).Guarded Harmless .init ls) :
    (raisingConnection Task).Along Settled .init ls := by
  refine (h.along coherent_init fun c x c' hc hx hs => ?_).mono fun c hc => hc.settled
  exact hc.move (move_of_step ((tryStep_of_harmless hc.flags hx).symm.trans hs))

/-- A receiver of `connected` that raises when the first `open()` has succeeded: the exception comes
out of `open()`, the connection is `CONNECTED`, and a second task closes it. -/
theorem settled_of_harmless_two :
    (raisingConnection (Fin 2)).Along Settled .init
      [(.call .up 0, fun _ => false), (.finish 0 .returned, fun x => x = .connected),
        (.call .down 1, fun _ => false), (.finish 1 .returned, fun _ => false)] := by
  refine settled_of_harmless _ (.cons rfl (harmless_of_silent _ _) (.cons rfl ?_
    (.cons rfl (harmless_of_silent _ _) (.cons rfl (harmless_of_silent _ _) trivial))))
  rintro n hn - x - hr
  obtain rfl : x = .connected := by simpa using hr
  exact ⟨by simp, rfl⟩

/-- **A receiver that raises at `CONNECTING`** leaves the connection there, with nobody inside
it. -/
theorem connecting_wedged :
    ¬ ∀ ls, (raisingConnection Unit).Along Settled .init ls := by
  intro h
  have hrun := (h [(.call .up (), fun x => x = .stateChanged .disconnected .connecting)]).2 _ rfl
  exact absurd (hrun fun _ => rfl).1 (by decide)

/-! ## And only then

Where nobody else is in a method that could repair it, what a receiver leaves undone stays so. -/

/-- A stretch whose change of state is harmful ends with the exception. -/
theorem tryStep_of_harmful {c c' : ConnectionBase Task} {l : Label Task} {raises : Signal → Bool}
    {n : ConnectionState} (hf : c.FlagsAgree) (hs : c.tryStep (l, raises) = some c')
    (hn : c.sets l = some n) (hne : n ≠ c.state) (h : ¬ HarmlessChange raises c.state n) :
    c' = (c.trySetState raises n).1.put l.task .outside := by
  have hr := (trySetState_of_harmful hf hne h).1
  cases l with
  | call d t =>
    obtain ⟨hst, rfl⟩ : c.state = d.reverse.target ∧ d.transition = n := by
      simpa [sets] using hn
    obtain ⟨-, rfl⟩ : c.place t = .outside ∧ c.tryRequest raises d t = c' := by
      simpa [tryStep] using hs
    simp [tryRequest, tryEnter, hst, hr, Label.task]
  | resume t =>
    cases hp : c.place t with
    | queued d w =>
      cases w with
      | false => simp [sets, hp] at hn
      | true =>
        obtain rfl : d.transition = n := by simpa [sets, hp] using hn
        obtain rfl : c.tryEnter raises d t = c' := by simpa [tryStep, hp] using hs
        simp [tryEnter, hr, Label.task]
    | _ => simp [sets, hp] at hn
  | interrupt t => simp [sets] at hn
  | finish t o =>
    cases hp : c.place t with
    | inside d =>
      obtain rfl : (if o.success then d.target else d.reverse.target) = n := by
        simpa only [sets, hp, Option.some.injEq] using hn
      obtain rfl : c.tryLeave raises d o t = c' := by simpa [tryStep, hp] using hs
      rfl
    | _ => simp [sets, hp] at hn

/-- **Only a harmless step leaves a connection settled**, where no other task is in a method. -/
theorem harmless_of_settled {c c' : ConnectionBase Task} {x : Label Task × (Signal → Bool)}
    (hf : c.FlagsAgree) (hothers : ∀ u ≠ x.1.task, c.place u = .outside)
    (hs : c.tryStep x = some c') (h' : c'.Settled) : c.Harmless x := by
  obtain ⟨l, raises⟩ := x
  intro n hn hne
  by_contra h
  obtain ⟨-, hst, hfl⟩ := trySetState_of_harmful hf hne h
  obtain rfl := tryStep_of_harmful hf hs hn hne h
  have hout : ∀ u, ((c.trySetState raises n).1.put l.task .outside).place u = .outside := by
    intro u
    rw [put_place]
    split
    · rfl
    · next hu => exact trySetState_place (hothers u hu)
  obtain ⟨hrest, hflags⟩ := h' hout
  exact hfl (by simpa [hst] using hrest) ((put_flagsAgree _ _ _).mp hflags)

/-- **For one task, the connection settles exactly if its receivers raise only what is
harmless.** -/
theorem settled_iff_harmless [Subsingleton Task] (ls : List (Label Task × (Signal → Bool))) :
    (raisingConnection Task).Along Settled .init ls
      ↔ (raisingConnection Task).Guarded Harmless .init ls := by
  have hmove : ∀ (c : ConnectionBase Task) x c', c.Coherent → c.Harmless x →
      c.tryStep x = some c' → c'.Coherent := fun c x c' hc hx hs =>
    hc.move (move_of_step ((tryStep_of_harmless hc.flags hx).symm.trans hs))
  refine ⟨fun h => ?_, fun h => (h.along coherent_init hmove).mono fun c hc => hc.settled⟩
  refine h.guarded_of (Machine.guarded_anyStep _ _) coherent_init fun c x c' hc _ hs h' => ?_
  have hx := harmless_of_settled hc.flags (fun u hu => absurd (Subsingleton.elim _ _) hu) hs h'
  exact ⟨hx, hmove c x c' hc hx hs⟩

end ConnectionBase

end FlockwaveConn
