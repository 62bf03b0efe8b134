import FlockwaveConn.Connections.Base

/-!
# Connections/ReadError — what comes out of a `read()` that fails

`StreamConnectionBase.read()` closes the connection when `receive_some()` raises, and then raises
the exception again.  The `close()` is in a `try` whose `finally` clause does nothing, and that
catches nothing either: an exception of `aclose()`, or a cancellation, leaves `read()` in place of
the one that was to be reported.  So a read error is reported as it happened exactly where the
`close()` ends well, whatever the other tasks do with the connection meanwhile (`reported_iff`).
-/

namespace FlockwaveConn

/-- What a call can raise. -/
inductive ReadFailure (ε : Type*)
  /-- An `Exception`. -/
  | error (x : ε)
  /-- `Cancelled`, which is none. -/
  | cancelled
  deriving DecidableEq, Repr

/-- Where a task is in `read()`. -/
inductive StreamReader (ε : Type*)
  | idle
  /-- In `receive_some()`. -/
  | receiving
  /-- In `await self.close()`, after the exception or after the end of the file. -/
  | closing (cause : Option ε)
  /-- The call is over: what `receive_some()` raised, and what the call has raised. -/
  | done (cause : Option ε) (raised : Option (ReadFailure ε))
  deriving DecidableEq, Repr

/-- Not in `read()`. -/
def StreamReader.isFree {ε : Type*} : StreamReader ε → Bool
  | .idle | .done _ _ => true
  | .receiving | .closing _ => false

/-- A stream connection, and the tasks that open, close and read it. -/
structure StreamReaders (Task ε : Type*) where
  base : ConnectionBase Task
  /-- `self._stream is not None`. -/
  stream : Bool
  reader : Task → StreamReader ε

namespace StreamReaders

variable {Task ε : Type*}

/-- `StreamConnectionBase.__init__`, or `StreamWrapperConnection.__init__`, which is given a stream
and is `CONNECTED` from the start. -/
def init : Bool → StreamReaders Task ε
  | false => ⟨.init, false, fun _ => .idle⟩
  | true => ⟨ConnectionBase.init.setState .connected, true, fun _ => .idle⟩

/-- The steps of the tasks. -/
inductive Label (Task ε : Type*)
  /-- A task that does not read calls `open()` or `close()`. -/
  | call (d : Direction) (t : Task)
  /-- A woken task is scheduled. -/
  | resume (t : Task)
  /-- A wait in `open()` or `close()` is cancelled. -/
  | interrupt (t : Task)
  /-- `_create_stream()` ends. -/
  | created (t : Task) (o : Outcome)
  /-- `aclose()` ends, with what it raises. -/
  | aclosed (t : Task) (raised : Option (ReadFailure ε))
  /-- A task calls `read()`; without a stream the attribute `receive_some` is not there. -/
  | read (t : Task) (attributeError : ε)
  /-- `receive_some()` returns, with some data or with none. -/
  | received (t : Task) (data : Bool)
  /-- `receive_some()` raises an `Exception`. -/
  | failed (t : Task) (x : ε)
  /-- `receive_some()` is cancelled. -/
  | cancelled (t : Task)

variable [DecidableEq Task]

/-- A task gets to another point of `read()`. -/
def setReader (t : Task) (p : StreamReader ε) (s : StreamReaders Task ε) : StreamReaders Task ε :=
  { s with reader := Function.update s.reader t p }

/-- `_close()` of a task that has come to it: without a stream there is nothing to wait for. -/
def runClose (t : Task) (s : StreamReaders Task ε) : StreamReaders Task ε :=
  if s.base.place t = .inside .down && !s.stream then
    { s with base := s.base.leave .down .returned t }
  else s

/-- The rest of `read()`, where the `close()` of the task is over: an exception of the `close()`
goes before the `raise ex` that comes after it. -/
def endRead (t : Task) (raised : Option (ReadFailure ε)) (s : StreamReaders Task ε) :
    StreamReaders Task ε :=
  match s.reader t with
  | .closing cause =>
    if s.base.place t = .outside then s.setReader t (.done cause (raised.or (cause.map .error)))
    else s
  | _ => s

/-- `await self.close()` in `read()`. -/
def closeRead (t : Task) (cause : Option ε) (s : StreamReaders Task ε) : StreamReaders Task ε :=
  (({ s with base := s.base.close t }.setReader t (.closing cause)).runClose t).endRead t none

/-- One atomic stretch. -/
def step (s : StreamReaders Task ε) : Label Task ε → Option (StreamReaders Task ε)
  | .call d t =>
    if (s.reader t).isFree then
      (s.base.step (.call d t)).map fun b => { s with base := b }.runClose t
    else none
  | .resume t =>
    (s.base.step (.resume t)).map fun b => ({ s with base := b }.runClose t).endRead t none
  | .interrupt t =>
    (s.base.step (.interrupt t)).map fun b => { s with base := b }.endRead t (some .cancelled)
  | .created t o =>
    if s.base.place t = .inside .up then
      some { s with base := s.base.leave .up o t, stream := s.stream || o.success }
    else none
  | .aclosed t raised =>
    if s.base.place t = .inside .down then
      let o := match raised with
        | none => .returned
        | some (.error _) => .raised
        | some .cancelled => .cancelled
      some ({ s with base := s.base.leave .down o t, stream := false }.endRead t raised)
    else none
  | .read t attributeError =>
    if (s.reader t).isFree && s.base.place t = .outside then
      some (if s.stream then s.setReader t .receiving else s.closeRead t (some attributeError))
    else none
  | .received t data =>
    match s.reader t with
    | .receiving => some (if data then s.setReader t (.done none none) else s.closeRead t none)
    | _ => none
  | .failed t x =>
    match s.reader t with
    | .receiving => some (s.closeRead t (some x))
    | _ => none
  | .cancelled t =>
    match s.reader t with
    | .receiving => some (s.setReader t (.done none (some .cancelled)))
    | _ => none

end StreamReaders

/-- **A stream connection, the tasks that open and close it and those that read from it.** -/
def streamReaders (Task ε : Type*) [DecidableEq Task] (wrapper : Bool) :
    Machine (StreamReaders Task ε) (StreamReaders.Label Task ε) where
  init := .init wrapper
  step := StreamReaders.step

namespace StreamReaders

variable {Task ε : Type*}

/-- **Every `read()` that is over has raised what its `receive_some()` raised.** -/
def Reported (s : StreamReaders Task ε) : Prop :=
  ∀ t x raised, s.reader t = .done (some x) raised → raised = some (.error x)

/-- **The `close()` of a `read()` that has failed ends well**: its `aclose()` raises nothing else,
and its wait is not cancelled. -/
def ClosesWell (s : StreamReaders Task ε) : Label Task ε → Prop
  | .aclosed t (some y) => ∀ x, s.reader t = .closing (some x) → y = .error x
  | .interrupt t => ∀ x, s.reader t ≠ .closing (some x)
  | _ => True

variable {s s' : StreamReaders Task ε} {t : Task} {cause : Option ε}
  {raised : Option (ReadFailure ε)}

theorem Reported.of_reader (h : s.Reported) (hs : s'.reader = s.reader) : s'.Reported :=
  fun t x raised ht => h t x raised (hs ▸ ht)

variable [DecidableEq Task]

@[simp] theorem runClose_reader (t : Task) (s : StreamReaders Task ε) :
    (s.runClose t).reader = s.reader := by
  unfold runClose
  split <;> rfl

theorem endRead_of_outside (hc : s.reader t = .closing cause) (hp : s.base.place t = .outside) :
    s.endRead t raised = s.setReader t (.done cause (raised.or (cause.map .error))) := by
  rw [endRead, hc]
  exact if_pos hp

/-! ## What a stretch leaves of it -/

theorem Reported.setReader (h : s.Reported) {p : StreamReader ε}
    (hp : ∀ x raised, p = .done (some x) raised → raised = some (.error x)) :
    (s.setReader t p).Reported := by
  intro u x raised hu
  have key : (s.setReader t p).reader u = if u = t then p else s.reader u :=
    Function.update_apply ..
  rw [key] at hu
  split at hu
  · exact hp x raised hu
  · exact h u x raised hu

/-- **The end of a `read()`** whose `close()` raises nothing but the exception itself. -/
theorem Reported.endRead (h : s.Reported)
    (hr : ∀ y x, raised = some y → s.reader t = .closing (some x) → y = .error x) :
    (s.endRead t raised).Reported := by
  unfold StreamReaders.endRead
  split
  · next cause hc =>
    split
    · refine h.setReader fun x r hdone => ?_
      obtain ⟨rfl, rfl⟩ := StreamReader.done.inj hdone
      cases raised with
      | none => rfl
      | some y => exact congrArg some (hr y x rfl hc)
    · exact h
  · exact h

theorem Reported.closeRead (h : s.Reported) (t : Task) (cause : Option ε) :
    (s.closeRead t cause).Reported := by
  have hreader : Reported ({ s with base := s.base.close t }.setReader t (.closing cause)) :=
    Reported.setReader (h.of_reader rfl) nofun
  exact (hreader.of_reader (runClose_reader _ _)).endRead nofun

/-- Where a `read()` is over that has failed, its `close()` did not raise anything else. -/
theorem eq_of_reported {x : ε} {y : ReadFailure ε} (h : (s.endRead t (some y)).Reported)
    (hp : s.base.place t = .outside) (hc : s.reader t = .closing (some x)) : y = .error x := by
  rw [endRead_of_outside hc hp] at h
  exact Option.some.inj (h t x (some y) (Function.update_self ..))

/-- **One stretch** in which each `close()` ends well. -/
theorem Reported.step {l : Label Task ε} (h : s.Reported) (hl : s.ClosesWell l)
    (hs : s.step l = some s') : s'.Reported := by
  cases l with
  | call d t =>
    obtain ⟨-, b, -, rfl⟩ : _ ∧ ∃ b, s.base.step (.call d t) = some b ∧
        { s with base := b }.runClose t = s' := by simpa [StreamReaders.step] using hs
    exact h.of_reader (runClose_reader _ _)
  | resume t =>
    obtain ⟨b, -, rfl⟩ := Option.map_eq_some_iff.mp hs
    have hclose : ({ s with base := b }.runClose t).Reported := h.of_reader (runClose_reader _ _)
    exact hclose.endRead nofun
  | interrupt t =>
    obtain ⟨b, -, rfl⟩ := Option.map_eq_some_iff.mp hs
    exact Reported.endRead h fun y x _ hc => absurd hc (hl x)
  | created t o =>
    obtain ⟨-, rfl⟩ := Option.ite_none_right_eq_some.mp hs |>.imp_right Option.some.inj
    exact h
  | aclosed t raised =>
    obtain ⟨-, rfl⟩ := Option.ite_none_right_eq_some.mp hs |>.imp_right Option.some.inj
    refine Reported.endRead h fun y x hy hc => ?_
    subst hy
    exact hl x hc
  | read t attributeError =>
    obtain ⟨-, rfl⟩ := Option.ite_none_right_eq_some.mp hs |>.imp_right Option.some.inj
    split
    · exact h.setReader nofun
    · exact h.closeRead t _
  | received t data =>
    simp only [StreamReaders.step] at hs
    split at hs
    · obtain rfl := Option.some.inj hs
      split
      · exact h.setReader nofun
      · exact h.closeRead t _
    · cases hs
  | failed t x =>
    simp only [StreamReaders.step] at hs
    split at hs
    · obtain rfl := Option.some.inj hs
      exact h.closeRead t _
    · cases hs
  | cancelled t =>
    simp only [StreamReaders.step] at hs
    split at hs
    · obtain rfl := Option.some.inj hs
      exact h.setReader nofun
    · cases hs

/-- A `close()` that does not end well shows. -/
theorem closesWell_of_reported {l : Label Task ε} (hs : s.step l = some s') (h : s'.Reported) :
    s.ClosesWell l := by
  cases l with
  | interrupt t =>
    obtain ⟨b, hb, rfl⟩ := Option.map_eq_some_iff.mp hs
    intro x hc
    have hout : b.place t = .outside := by
      cases ConnectionBase.move_of_step hb with
      | giveUp => exact ConnectionBase.put_place_self ..
    have hne : (ReadFailure.cancelled : ReadFailure ε) = .error x := eq_of_reported h hout hc
    cases hne
  | aclosed t raised =>
    cases raised with
    | none => trivial
    | some y =>
      obtain ⟨-, rfl⟩ := Option.ite_none_right_eq_some.mp hs |>.imp_right Option.some.inj
      exact fun x hc => eq_of_reported h (ConnectionBase.put_place_self ..) hc
  | _ => trivial

/-- **A read error is reported as it happened exactly in the runs in which the `close()` of each
`read()` that has failed ends well.** -/
theorem reported_iff (wrapper : Bool) (ls : List (Label Task ε)) :
    (streamReaders Task ε wrapper).Along Reported (.init wrapper) ls ↔
      (streamReaders Task ε wrapper).Guarded ClosesWell (.init wrapper) ls := by
  have hinit : (init wrapper : StreamReaders Task ε).Reported := by cases wrapper <;> exact nofun
  exact Machine.along_iff_guarded hinit fun s l s' hs hst =>
    ⟨closesWell_of_reported hst, fun hl => hs.step hl hst⟩

/-- **`aclose()` raises too**, and that is what the caller of `read()` gets. -/
theorem read_error_lost :
    ¬ ∀ (wrapper : Bool) (ls : List (Label Unit String)),
      (streamReaders Unit String wrapper).Along Reported (.init wrapper) ls := by
  intro h
  have hrun := h true [.read () "AttributeError", .failed () "BrokenResourceError",
    .aclosed () (some (.error "OSError"))]
  have hend := (((hrun.2 _ rfl).2 _ rfl).2 _ rfl).here
  have heq := hend () "BrokenResourceError" (some (.error "OSError")) rfl
  simp at heq

end StreamReaders

end FlockwaveConn
