import FlockwaveConn.Machinery.Transition
import FlockwaveConn.Supervision.Loop

/-!
# Supervision/Attempts — the attempts of `supervise()`, with the nursery inside

`Supervision/Loop` takes the nursery of an attempt as one wait.  Here its two children are tasks of
their own: the one runs the task of the user, the other waits for the disconnection, and whichever
ends first cancels the scope of the nursery.  The block is left when both have ended.

Everything that happens is logged, what the outside does as well as what `supervise()` does, and the
log is a sequence of attempts, each with its verdict (`trace_of_attempts`).  There the policy
answers as it should (`CalmPolicy`): it does not raise, and it returns `False`, `None` or a
non-negative number.
-/

namespace FlockwaveConn.Supervision

variable {ε : Type*}

/-- What leaves the `try` block. -/
inductive Raised (ε : Type*)
  | exception (e : ε)
  /-- The `ExceptionGroup` of a nursery. -/
  | group (es : List ε)
  deriving DecidableEq, Repr

/-- A child of the nursery, by what it awaits in `_wait_and_call`. -/
inductive Child
  /-- `partial(task, connection)`. -/
  | task
  /-- `connection.wait_until_disconnected`. -/
  | waiter
  deriving DecidableEq, Repr

/-- How an `await` ends. -/
inductive Ending (ε : Type*)
  | returned
  | raised (e : ε)
  | cancelled
  deriving DecidableEq, Repr

/-- How far a child is. -/
inductive Progress (ε : Type*)
  /-- Spawned with `start_soon`, not run yet. -/
  | scheduled
  | running
  | ended (o : Ending ε)
  deriving DecidableEq, Repr

/-- The nursery of an attempt. -/
structure Nursery (ε : Type*) where
  child : Child → Progress ε
  /-- Its scope is cancelled. -/
  cancelled : Bool
  /-- The exceptions of its children, in the order in which they came. -/
  exceptions : List ε

/-- What goes by in a call of `supervise()`. -/
inductive Happening (ε : Type*)
  /-- `connection.open()` is called. -/
  | open_
  | opened
  | openFailed (e : ε)
  /-- The policy is asked, and its answer is acted on. -/
  | note (n : Note (Raised ε))
  | began (c : Child)
  | ended (c : Child) (o : Ending ε)
  /-- `sleep(x)` is called. -/
  | sleep (x : ℚ)
  | slept
  /-- `supervise()` ends. -/
  | left (r : Result (Raised ε))

/-- What a policy answers, or raises, given all that has gone by. -/
abbrev SupervisionPolicy (ε : Type*) :=
  List (Happening ε) → PolicyArg (Raised ε) → Except (Raised ε) Action

/-- The policy, as it is asked from inside the loop. -/
def SupervisionPolicy.ask (P : SupervisionPolicy ε) (log : List (Happening ε)) : Ask (Raised ε) :=
  fun notes arg => P (log ++ notes.map .note) arg

/-- A policy that does not raise, and answers as it should. -/
structure CalmPolicy (ε : Type*) where
  /-- What it answers, given all that has gone by. -/
  answer : List (Happening ε) → PolicyArg (Raised ε) → Action
  calm : ∀ log arg, (answer log arg).verdict = .stop ∨
    ∃ x, 0 ≤ x ∧ (answer log arg).verdict = .sleep x

def CalmPolicy.policy (P : CalmPolicy ε) : SupervisionPolicy ε := fun log arg =>
  .ok (P.answer log arg)

namespace Nursery

/-- The two children are spawned. -/
def init : Nursery ε := ⟨fun _ => .scheduled, false, []⟩

/-- A child runs its first step. -/
def begin_ (c : Child) (n : Nursery ε) : Nursery ε :=
  { n with child := Function.update n.child c .running }

/-- A child ends.  If its `await` returned it calls `cancel()`, if it raised the nursery does. -/
def finish (c : Child) (o : Ending ε) (n : Nursery ε) : Nursery ε where
  child := Function.update n.child c (.ended o)
  cancelled := true
  exceptions := n.exceptions ++ match o with
    | .raised e => [e]
    | _ => []

/-- `async with open_nursery()` ends: nothing is left of the cancellation of its own scope. -/
def event (n : Nursery ε) : Event (Raised ε) :=
  match n.exceptions with
  | [] => .ended
  | es => .failed (.group es)

end Nursery

/-- What a call of `supervise()` is waiting for. -/
inductive Place (ε : Type*)
  /-- `await connection.open()`. -/
  | opening
  /-- `await disconnection_event()`, without a task. -/
  | waiting
  | nursery (n : Nursery ε)
  | sleeping (x : ℚ)
  | done (r : Result (Raised ε))

/-- The place as the loop sees it. -/
def Place.phase : Place ε → Phase (Raised ε)
  | .opening => .opening
  | .waiting | .nursery _ => .attending
  | .sleeping x => .sleeping x
  | .done r => .done r

/-- A call of `supervise()`, and all that has gone by in it. -/
structure Supervising (ε : Type*) where
  place : Place ε
  log : List (Happening ε)

namespace Supervising

/-- The steps of the call, of the connection and of the children. -/
inductive Label (ε : Type*)
  /-- `connection.open()` returns. -/
  | opened
  | openFailed (e : ε)
  /-- A child runs its first step. -/
  | begin_ (c : Child)
  /-- What a child awaits ends. -/
  | ends (c : Child) (o : Ending ε)
  /-- The nursery is left. -/
  | leave
  /-- The bare wait ends. -/
  | dropped (e : Option ε)
  | slept

/-- Where the loop goes, `hasTask` being `if task`. -/
def enter (hasTask : Bool) : Phase (Raised ε) → Place ε
  | .opening => .opening
  | .attending => if hasTask then .nursery .init else .waiting
  | .sleeping x => .sleeping x
  | .done r => .done r

/-- What the loop does first at a place. -/
def first : Place ε → List (Happening ε)
  | .opening => [.open_]
  | .waiting => [.began .waiter]
  | .nursery _ => []
  | .sleeping x => [.sleep x]
  | .done r => [.left r]

def init : Supervising ε := ⟨.opening, first .opening⟩

/-- The loop goes on, up to its next wait; `xs` is what has just happened. -/
def proceed (P : SupervisionPolicy ε) (hasTask : Bool) (ev : Event (Raised ε))
    (xs : List (Happening ε)) (s : Supervising ε) : Option (Supervising ε) :=
  (Supervision.step (P.ask (s.log ++ xs)) s.place.phase ev).map fun x =>
    ⟨enter hasTask x.1, s.log ++ (xs ++ x.2.map .note ++ first (enter hasTask x.1))⟩

/-- One step. -/
def step (P : SupervisionPolicy ε) (hasTask : Bool) (s : Supervising ε) :
    Label ε → Option (Supervising ε)
  | .opened =>
    match s.place with
    | .opening => s.proceed P hasTask .opened [.opened]
    | _ => none
  | .openFailed e =>
    match s.place with
    | .opening => s.proceed P hasTask (.failed (.exception e)) [.openFailed e]
    | _ => none
  | .begin_ c =>
    match s.place with
    | .nursery n => match n.child c with
      | .scheduled => some ⟨.nursery (n.begin_ c), s.log ++ [.began c]⟩
      | _ => none
    | _ => none
  | .ends c o =>
    match s.place with
    | .nursery n => match n.child c with
      | .running =>
        if o matches .cancelled && !n.cancelled then none
        else some ⟨.nursery (n.finish c o), s.log ++ [.ended c o]⟩
      | _ => none
    | _ => none
  | .leave =>
    match s.place with
    | .nursery n => match n.child .task, n.child .waiter with
      | .ended _, .ended _ => s.proceed P hasTask n.event []
      | _, _ => none
    | _ => none
  | .dropped e =>
    match s.place, e with
    | .waiting, none => s.proceed P hasTask .ended [.ended .waiter .returned]
    | .waiting, some e =>
      s.proceed P hasTask (.failed (.exception e)) [.ended .waiter (.raised e)]
    | _, _ => none
  | .slept =>
    match s.place with
    | .sleeping _ => s.proceed P hasTask .slept [.slept]
    | _ => none

end Supervising

namespace Happening

/-- The child whose life this is a part of. -/
def child : Happening ε → Option Child
  | .began c | .ended c _ => some c
  | _ => none

/-- The exception a child ended with. -/
def error : Happening ε → Option ε
  | .ended _ (.raised e) => some e
  | _ => none

/-- The entries of a child. -/
def ofChild (c : Child) (xs : List (Happening ε)) : List (Happening ε) :=
  xs.filter fun x => x.child = some c

/-- The answer of the policy to a verdict call. -/
def verdict : Happening ε → Option Action
  | .note (.asked .closed (.ok a)) | .note (.asked (.exn _) (.ok a)) => some a
  | _ => none

end Happening

/-- What is on the log of a child. -/
def Progress.trace (c : Child) : Progress ε → List (Happening ε)
  | .scheduled => []
  | .running => [.began c]
  | .ended o => [.began c, .ended c o]

/-- The policy is asked, and its answer is acted on. -/
def asked (arg : PolicyArg (Raised ε)) (a : Action) : List (Happening ε) :=
  [.note (.asked arg (.ok a)), .note (.acted a)]

/-- **What goes by between the `"open"` and the verdict**: the wait for the disconnection and the
task, if there is one, each begun and ended once, in any order. -/
structure Body (hasTask : Bool) (xs : List (Happening ε)) : Prop where
  children : ∀ x ∈ xs, x.child ≠ none
  waiter : ∃ o, Happening.ofChild .waiter xs = [.began .waiter, .ended .waiter o]
  task : if hasTask then ∃ o, Happening.ofChild .task xs = [.began .task, .ended .task o]
    else Happening.ofChild .task xs = []

/-- The second argument of the verdict call: `"close"` if nothing raised, and else the exception, or
the group of the exceptions of a nursery. -/
def outcomeArg (hasTask : Bool) (xs : List (Happening ε)) : PolicyArg (Raised ε) :=
  match hasTask, xs.filterMap Happening.error with
  | _, [] => .closed
  | true, es => .exn (.group es)
  | false, e :: _ => .exn (.exception e)

/-- **An attempt, from the call of `open()` to the answer `a` of the verdict call.** -/
inductive Attempt (hasTask : Bool) : List (Happening ε) → Action → Prop
  /-- `open()` failed: there is no `"open"`, and the verdict is asked with the exception. -/
  | failed (e : ε) (a : Action) :
    Attempt hasTask ([.open_, .openFailed e] ++ asked (.exn (.exception e)) a) a
  /-- `open()` succeeded: first comes the one `"open"`, then what the children do, and at last the
  verdict. -/
  | attended (b : Action) {xs : List (Happening ε)} (h : Body hasTask xs) (a : Action) :
    Attempt hasTask
      ([.open_, .opened, .note (.asked .opened (.ok b))] ++ xs ++ asked (outcomeArg hasTask xs) a) a

/-- **Attempts with numeric verdicts**, each followed by one sleep of that length. -/
inductive Rounds (hasTask : Bool) : List (Happening ε) → Prop
  | nil : Rounds hasTask []
  | again {log xs : List (Happening ε)} {a : Action} {x : ℚ} (h : Rounds hasTask log)
    (ha : Attempt hasTask xs a) (hx : a.verdict = .sleep x) :
    Rounds hasTask (log ++ (xs ++ [.sleep x, .slept]))

/-- **The attempt that is going on**, by what `supervise()` waits for. -/
def Begun (hasTask : Bool) (xs : List (Happening ε)) : Place ε → Prop
  | .opening => xs = [.open_]
  | .waiting => hasTask = false ∧
    ∃ b, xs = [.open_, .opened, .note (.asked .opened (.ok b)), .began .waiter]
  | .nursery n => hasTask = true ∧ ∃ b ys,
    xs = [.open_, .opened, .note (.asked .opened (.ok b))] ++ ys ∧
      (∀ y ∈ ys, y.child ≠ none) ∧ (∀ c, Happening.ofChild c ys = (n.child c).trace c) ∧
      ys.filterMap Happening.error = n.exceptions ∧
      (n.cancelled = true ↔ ∃ c o, n.child c = .ended o)
  | .sleeping x => ∃ ys a, Attempt hasTask ys a ∧ a.verdict = .sleep x ∧ xs = ys ++ [.sleep x]
  | .done r => r = .returned ∧ ∃ ys a, Attempt hasTask ys a ∧ a.verdict = .stop ∧
    xs = ys ++ [.left .returned]

theorem Happening.verdict_of_child {x : Happening ε} (h : x.child ≠ none) : x.verdict = none := by
  cases x with
  | began | ended => rfl
  | open_ | opened | openFailed | note | sleep | slept | left => exact absurd rfl h

variable {hasTask : Bool} {xs : List (Happening ε)} {a : Action}

theorem outcomeArg_ne_opened (hasTask : Bool) (xs : List (Happening ε)) :
    outcomeArg hasTask xs ≠ .opened := by
  unfold outcomeArg
  split <;> simp

/-- A verdict call has one verdict, which is its answer. -/
theorem verdict_of_mem_asked {arg : PolicyArg (Raised ε)} {x : Happening ε} {b : Action}
    (hx : x ∈ asked arg a) (hb : x.verdict = some b) : b = a := by
  rcases List.mem_pair.mp hx with rfl | rfl
  · cases arg <;> simp_all [Happening.verdict]
  · simp [Happening.verdict] at hb

theorem exists_verdict_asked {arg : PolicyArg (Raised ε)} (harg : arg ≠ .opened) :
    ∃ x ∈ asked arg a, x.verdict = some a := by
  refine ⟨_, List.mem_cons_self, ?_⟩
  cases arg with
  | opened => exact absurd rfl harg
  | closed | exn => rfl

/-- **An attempt has one verdict.** -/
theorem Attempt.verdict (h : Attempt hasTask xs a) :
    (∃ x ∈ xs, x.verdict = some a) ∧ ∀ x ∈ xs, ∀ b, x.verdict = some b → b = a := by
  cases h with
  | failed e =>
    have harg : (PolicyArg.exn (.exception e) : PolicyArg (Raised ε)) ≠ .opened := by simp
    obtain ⟨y, hy, hya⟩ := exists_verdict_asked (a := a) harg
    refine ⟨⟨y, List.mem_append_right _ hy, hya⟩, fun x hx b hb => ?_⟩
    rcases List.mem_append.mp hx with hx | hx
    · rcases List.mem_pair.mp hx with rfl | rfl <;> simp [Happening.verdict] at hb
    · exact verdict_of_mem_asked hx hb
  | @attended c ys hbody =>
    obtain ⟨y, hy, hya⟩ := exists_verdict_asked (a := a) (outcomeArg_ne_opened hasTask ys)
    refine ⟨⟨y, List.mem_append_right _ hy, hya⟩, fun x hx b hb => ?_⟩
    rcases List.mem_append.mp hx with hx | hx
    · rcases List.mem_append.mp hx with hx | hx
      · simp only [List.mem_cons, List.not_mem_nil, or_false] at hx
        rcases hx with rfl | rfl | rfl <;> simp [Happening.verdict] at hb
      · simp [Happening.verdict_of_child (hbody.children x hx)] at hb
    · exact verdict_of_mem_asked hx hb

/-- The verdicts of the attempts that are over are numbers. -/
theorem Rounds.verdict (h : Rounds hasTask xs) :
    ∀ x ∈ xs, ∀ b, x.verdict = some b → b.verdict ≠ .stop := by
  induction h with
  | nil => simp
  | @again log ys b z _ ha hz ih =>
    intro x hx b' hb'
    rcases List.mem_append.mp hx with hx | hx
    · exact ih x hx b' hb'
    · rcases List.mem_append.mp hx with hx | hx
      · obtain rfl := ha.verdict.2 x hx b' hb'
        simp [hz]
      · rcases List.mem_pair.mp hx with rfl | rfl <;> simp [Happening.verdict] at hb'

/-- The attempt that is going on has a verdict to stop exactly if `supervise()` has returned. -/
theorem Begun.verdict {p : Place ε} (h : Begun hasTask xs p) :
    p = .done .returned ↔ ∃ x ∈ xs, ∃ b, x.verdict = some b ∧ b.verdict = .stop := by
  cases p with
  | opening =>
    obtain rfl := h
    simp [Happening.verdict]
  | waiting =>
    obtain ⟨-, b, rfl⟩ := h
    simp [Happening.verdict]
  | nursery n =>
    obtain ⟨-, b, ys, rfl, hys, -⟩ := h
    have hnone : ∀ y ∈ ys, y.verdict = none := fun y hy => Happening.verdict_of_child (hys y hy)
    simp only [reduceCtorEq, false_iff, not_exists, not_and]
    intro x hx b' hb'
    rcases List.mem_append.mp hx with hx | hx
    · simp only [List.mem_cons, List.not_mem_nil, or_false] at hx
      rcases hx with rfl | rfl | rfl <;> simp [Happening.verdict] at hb'
    · simp [hnone x hx] at hb'
  | sleeping z =>
    obtain ⟨ys, b, ha, hb, rfl⟩ := h
    simp only [reduceCtorEq, false_iff, not_exists, not_and]
    intro x hx b' hb'
    rcases List.mem_append.mp hx with hx | hx
    · obtain rfl := ha.verdict.2 x hx b' hb'
      simp [hb]
    · obtain rfl := List.mem_singleton.mp hx
      simp [Happening.verdict] at hb'
  | done r =>
    obtain ⟨rfl, ys, b, ha, hb, rfl⟩ := h
    obtain ⟨x, hx, hxb⟩ := ha.verdict.1
    exact iff_of_true rfl ⟨x, List.mem_append_left _ hx, b, hxb, hb⟩

namespace Supervising

variable {P : CalmPolicy ε} {s s' : Supervising ε} {past now : List (Happening ε)}

/-- What may come next at a place: the end of what is awaited there, and inside a nursery the first
step of a child, or the end of what it awaits, by a cancellation only if the scope is cancelled. -/
def Awaited : Place ε → Label ε → Prop
  | .opening, .opened | .opening, .openFailed _ => True
  | .waiting, .dropped _ => True
  | .nursery n, .begin_ c => n.child c = .scheduled
  | .nursery n, .ends c o => n.child c = .running ∧ (o = .cancelled → n.cancelled = true)
  | .nursery n, .leave => ∀ c, ∃ o, n.child c = .ended o
  | .sleeping _, .slept => True
  | _, _ => False

section

variable {Q : SupervisionPolicy ε}

theorem exists_proceed {ev : Event (Raised ε)} (xs : List (Happening ε))
    (h : ∀ ask, (Supervision.step ask s.place.phase ev).isSome = true) :
    ∃ s', s.proceed Q hasTask ev xs = some s' := by
  rw [← Option.isSome_iff_exists, proceed, Option.isSome_map]
  exact h _

theorem exists_leave_iff {n : Nursery ε} {log : List (Happening ε)} :
    (∃ s', (⟨.nursery n, log⟩ : Supervising ε).step Q hasTask .leave = some s') ↔
      ∀ c, ∃ o, n.child c = .ended o := by
  simp only [Supervising.step]
  constructor
  · rintro ⟨s', hs⟩ c
    split at hs
    · next o o' ht hw => cases c with
      | task => exact ⟨o, ht⟩
      | waiter => exact ⟨o', hw⟩
    · cases hs
  · intro h
    obtain ⟨o, ht⟩ := h .task
    obtain ⟨o', hw⟩ := h .waiter
    rw [ht, hw]
    refine exists_proceed [] fun ask => ?_
    unfold Nursery.event
    split <;> rfl

/-- **The loop goes on whenever its wait ends**, and the nursery takes whatever its children do. -/
theorem exists_step_iff (l : Label ε) :
    (∃ s', s.step Q hasTask l = some s') ↔ Awaited s.place l := by
  obtain ⟨p, log⟩ := s
  cases l with
  | opened | openFailed =>
    cases p with
    | opening => exact iff_of_true (exists_proceed _ fun _ => rfl) trivial
    | _ => simp [Supervising.step, Awaited]
  | begin_ c =>
    cases p with
    | nursery n => simp only [Supervising.step, Awaited]; cases n.child c <;> simp
    | _ => simp [Supervising.step, Awaited]
  | ends c o =>
    cases p with
    | nursery n =>
      simp only [Supervising.step, Awaited]
      cases n.child c <;> cases o <;> cases n.cancelled <;> simp
    | _ => simp [Supervising.step, Awaited]
  | leave =>
    cases p with
    | nursery n => exact exists_leave_iff
    | _ => simp [Supervising.step, Awaited]
  | dropped e =>
    cases p with
    | waiting => cases e <;> exact iff_of_true (exists_proceed _ fun _ => rfl) trivial
    | _ => cases e <;> simp [Supervising.step, Awaited]
  | slept =>
    cases p with
    | sleeping x => exact iff_of_true (exists_proceed _ fun _ => rfl) trivial
    | _ => simp [Supervising.step, Awaited]

end

end Supervising

end FlockwaveConn.Supervision
