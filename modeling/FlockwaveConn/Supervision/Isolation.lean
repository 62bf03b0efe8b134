import FlockwaveConn.Supervision.Commands

/-!
# Supervision/Isolation — what one connection can do to the others

The calls of `supervise()` and the tasks of the clients that the listeners accept are children of
one nursery, with the main loop.  So whatever exception leaves one of them ends them all: the
assertion of an `add()` for a connection that is supervised already, the error of an `add()` of a
listener without a task, what a client's task raises, and what comes out of the call of a removed
connection.  Only the accept loop of a listener guards itself.

A command or a client's task leaves the others alone exactly where it meets none of these
(`isolated_iff_harmless`).
-/

namespace FlockwaveConn.Supervision

/-- The task of a client that a listener has accepted. -/
structure Client (κ : Type*) where
  listener : κ
  running : Bool

/-- A supervisor that is running, with the tasks of the clients. -/
structure Serving (κ π ε : Type*) where
  supervisor : Supervisor κ π ε
  /-- In the order they were accepted in. -/
  clients : List (Client κ)

namespace Serving

variable {κ π ε : Type*}

def init : Serving κ π ε := ⟨.init, []⟩

/-- The steps of the supervisor and of the tasks it has started. -/
inductive Label (κ π ε : Type*)
  | supervisor (l : Supervisor.Label κ π ε)
  /-- The task of a call that is cancelled raises in its clean-up, and the exception leaves the loop
  together with the `Cancelled`. -/
  | breaks (i : ℕ) (e : ε)
  /-- The listener of a call accepts a client. -/
  | accept (i : ℕ)
  /-- The task of a client ends. -/
  | clientEnds (j : ℕ) (e : Option ε)

variable [DecidableEq κ]

/-- One step. -/
def step (S : Surroundings κ π ε) (s : Serving κ π ε) : Label κ π ε → Option (Serving κ π ε)
  | .supervisor l => (s.supervisor.step S l).map fun x => { s with supervisor := x }
  | .breaks i e =>
    match s.supervisor.calls[i]? with
    | some k => match k.stage with
      | .looping .attending =>
        if k.cancelled && k.args.hasTask then
          some { s with supervisor := s.supervisor.setStage i (.looping (.done (.raised e))) }
        else none
      | _ => none
    | none => none
  | .accept i =>
    match s.supervisor.calls[i]? with
    | some k => match k.stage with
      | .looping .attending =>
        if S.isListener k.args.connection then
          some { s with clients := s.clients ++ [⟨k.args.connection, true⟩] }
        else none
      | _ => none
    | none => none
  | .clientEnds j e =>
    match s.clients[j]? with
    | some x =>
      if x.running then
        some ⟨if e.isSome then s.supervisor.crash else s.supervisor,
          s.clients.modify j fun x => { x with running := false }⟩
      else none
    | none => none

end Serving

/-- **A supervisor, its callers, its calls and the tasks of its clients.** -/
def serving {κ π ε : Type*} [DecidableEq κ] (S : Surroundings κ π ε) :
    Machine (Serving κ π ε) (Serving.Label κ π ε) where
  init := .init
  step := Serving.step S

/-- The connection of a command. -/
def Command.connection {κ π : Type*} : Command κ π → κ
  | .add x => x.connection
  | .remove c => c

/-- An exception of the connection or of its task. -/
def Result.isRaised {ε : Type*} : Result ε → Bool
  | .raised _ => true
  | _ => false

theorem Result.isError_of_isRaised {ε : Type*} {r : Result ε} (h : r.isRaised = true) :
    r.isError = true := by
  cases r with
  | raised | valueError | assertionError | runtimeError => rfl
  | returned | cancelled => exact absurd h (by simp [Result.isRaised])

namespace Serving

variable {κ π ε : Type*}

/-! ## Commands and clients -/

/-- **The steps that are due to a command about a connection or to one of its clients.**  What comes
out of the call of a removed connection is due to the `remove()`, unless it is the error of
`supervise()` about what the policy has answered. -/
inductive About (s : Serving κ π ε) : Label κ π ε → κ → Prop
  | send (x : Command κ π) : About s (.supervisor (.send x)) x.connection
  | receive {x : Command κ π} {xs : List (Command κ π)} (hq : s.supervisor.queue = x :: xs) :
    About s (.supervisor .receive) x.connection
  /-- The first step of the call that an `add()` has spawned. -/
  | start {i : ℕ} {k : Call κ π ε} {b : Bool} (hk : s.supervisor.calls[i]? = some k) :
    About s (.supervisor (.start i b)) k.args.connection
  | cancelled {i : ℕ} {k : Call κ π ε} (hk : s.supervisor.calls[i]? = some k) :
    About s (.supervisor (.event i .cancelled)) k.args.connection
  | breaks {i : ℕ} {k : Call κ π ε} {e : ε} (hk : s.supervisor.calls[i]? = some k) :
    About s (.breaks i e) k.args.connection
  | leave {i : ℕ} {k : Call κ π ε} {r : Result ε} (hk : s.supervisor.calls[i]? = some k)
    (hc : k.cancelled = true) (hst : k.stage = .looping (.done r)) (hr : r.isError = r.isRaised) :
    About s (.supervisor (.leave i)) k.args.connection
  | closed {i : ℕ} {k : Call κ π ε} {r : Result ε} {o : CloseEnd ε}
    (hk : s.supervisor.calls[i]? = some k) (hc : k.cancelled = true) (hst : k.stage = .closing r)
    (hr : (o.after r).isError = (o.after r).isRaised) :
    About s (.supervisor (.closed i o)) k.args.connection
  | accept {i : ℕ} {k : Call κ π ε} (hk : s.supervisor.calls[i]? = some k) :
    About s (.accept i) k.args.connection
  | clientEnds {j : ℕ} {x : Client κ} {e : Option ε} (hx : s.clients[j]? = some x) :
    About s (.clientEnds j e) x.listener

/-- `run()` goes on, and the supervision of the connections other than `c` is as it was. -/
structure Apart (c : κ) (s s' : Supervisor κ π ε) : Prop where
  down : s'.down = s.down
  calls : ∀ (i : ℕ) (k : Call κ π ε), s.calls[i]? = some k → k.args.connection ≠ c →
    s'.calls[i]? = some k
  entries : ∀ d, d ≠ c → s'.entries d = s.entries d

/-- **A step that is due to one connection** neither ends `run()` nor touches the supervision of
another. -/
def Isolated (s : Serving κ π ε) (l : Label κ π ε) (s' : Serving κ π ε) : Prop :=
  ∀ c, About s l c → Apart c s.supervisor s'.supervisor

/-- **Where no exception leaves a task for a command or a client.** -/
def Harmless (S : Surroundings κ π ε) (s : Serving κ π ε) (l : Label κ π ε) : Prop :=
  s.supervisor.down = false →
  match l with
  -- an added connection is not supervised yet, and it has a task if it is a listener
  | .supervisor (.start i _) => ∀ k : Call κ π ε, s.supervisor.calls[i]? = some k →
    s.supervisor.entries k.args.connection = none ∧
      (S.isListener k.args.connection → k.args.hasTask)
  -- nothing that the task or `close()` has raised leaves the call of a removed connection
  | .supervisor (.leave i) => ∀ (k : Call κ π ε) r, s.supervisor.calls[i]? = some k →
    k.cancelled = true → k.stage = .looping (.done r) → k.shouldClose = false → r.isRaised = false
  | .supervisor (.closed i o) => ∀ (k : Call κ π ε) r, s.supervisor.calls[i]? = some k →
    k.cancelled = true → k.stage = .closing r → (o.after r).isRaised = false
  -- the task of a client does not raise
  | .clientEnds _ e => e = none
  | _ => True

/-! ## What an exception does to the nursery -/

section

variable {s s' : Supervisor κ π ε} {c : κ} {i : ℕ} {k : Call κ π ε}

/-- Once the nursery is cancelled, so is each call. -/
def AllCancelled (s : Supervisor κ π ε) : Prop :=
  s.down = true → ∀ k ∈ s.calls, k.cancelled = true

/-- A call of the connection moves on. -/
theorem apart_modify (hk : s.calls[i]? = some k) (hc : k.args.connection = c)
    {f : Call κ π ε → Call κ π ε} (hd : s'.down = s.down) (hcalls : s'.calls = s.calls.modify i f)
    (he : ∀ d, d ≠ c → s'.entries d = s.entries d) : Apart c s s' := by
  refine ⟨hd, fun j k' hj hne => ?_, he⟩
  have hij : i ≠ j := by
    rintro rfl
    exact hne (Option.some.inj (hk.symm.trans hj) ▸ hc)
  simp [hcalls, hij, hj]

theorem apart_setStage (hk : s.calls[i]? = some k) (st : Stage ε) :
    Apart k.args.connection s (s.setStage i st) :=
  apart_modify hk rfl rfl rfl fun _ _ => rfl

/-- To a nursery that is cancelled already, one more exception does nothing. -/
theorem crash_of_down (h : AllCancelled s) (hd : s.down = true) : s.crash = s := by
  have hcalls : s.calls.map Call.cancel = s.calls := by
    refine (List.map_congr_left fun k hk => ?_).trans (List.map_id _)
    obtain ⟨args, stage, cancelled, shouldClose⟩ := k
    have hcanc : cancelled = true := h hd _ hk
    rw [hcanc]
    rfl
  obtain ⟨queue, entries, calls, down, notes⟩ := s
  simp only [Supervisor.crash] at hd hcalls ⊢
  rw [hcalls, hd]

/-- **An exception leaves the others alone exactly where the nursery is cancelled already.** -/
theorem apart_crash_iff (h : AllCancelled s) : Apart c s s.crash ↔ s.down = true := by
  constructor
  · intro ha
    exact ha.down.symm
  · intro hd
    rw [crash_of_down h hd]
    exact ⟨rfl, fun _ _ hk _ => hk, fun _ _ => rfl⟩

/-- **A call ends.** -/
theorem apart_finish_iff (h : AllCancelled s) (hk : s.calls[i]? = some k) (r : Result ε) :
    Apart k.args.connection s (s.finish i r) ↔ (s.down = false → r.isError = false) := by
  have hset := apart_setStage hk (.finished r)
  have hall : AllCancelled (s.setStage i (.finished r)) := fun hd =>
    Supervisor.forall_mem_modify (h hd) fun a ha => h hd a (List.mem_of_getElem? ha)
  unfold Supervisor.finish
  cases hr : r.isError with
  | false => simpa using hset
  | true =>
    rw [if_pos rfl]
    constructor
    · intro ha hd
      exact absurd (ha.down.trans hd) (by simp [Supervisor.crash])
    · intro hd
      have hdown : s.down = true := by
        cases hs : s.down with
        | true => rfl
        | false => exact absurd (hd hs) (by simp)
      rw [crash_of_down hall hdown]
      exact hset

theorem allCancelled_modify (h : AllCancelled s) {f : Call κ π ε → Call κ π ε}
    (hd : s'.down = s.down) (hcalls : s'.calls = s.calls.modify i f)
    (hf : ∀ k, k.cancelled = true → (f k).cancelled = true) : AllCancelled s' := by
  intro hdown
  rw [hcalls]
  have hall := h (hd.symm.trans hdown)
  exact Supervisor.forall_mem_modify hall fun a ha => hf a (hall a (List.mem_of_getElem? ha))

theorem allCancelled_crash (s : Supervisor κ π ε) : AllCancelled s.crash := by
  intro _ k hk
  obtain ⟨k', -, rfl⟩ := List.mem_map.mp hk
  rfl

theorem allCancelled_finish (h : AllCancelled s) (r : Result ε) : AllCancelled (s.finish i r) := by
  unfold Supervisor.finish
  split
  · exact allCancelled_crash _
  · exact allCancelled_modify h rfl rfl fun _ hk => hk

/-- **A command is taken from the queue**: a `remove()` cancels the call of its own connection. -/
theorem apart_process (h : Supervisor.Registered s) (x : Command κ π) (xs : List (Command κ π)) :
    Apart x.connection s ({ s with queue := xs }.process x) := by
  cases x with
  | add x =>
    refine ⟨rfl, fun i k hk _ => ?_, fun _ _ => rfl⟩
    exact (List.getElem?_append_left (List.getElem?_eq_some_iff.mp hk).1).trans hk
  | remove c =>
    simp only [Supervisor.process]
    split
    · next e he =>
      obtain ⟨ph, hview⟩ := h.ofEntry c e he
      obtain ⟨k, hk, hv⟩ := Option.map_eq_some_iff.mp ((List.getElem?_map ..).symm.trans hview)
      exact apart_modify hk (Prod.ext_iff.mp hv).1 rfl rfl fun _ _ => rfl
    · exact ⟨rfl, fun _ _ hk _ => hk, fun _ _ => rfl⟩

variable [DecidableEq κ] {S : Surroundings κ π ε}

/-- The main loop takes a command only while the nursery is not cancelled. -/
theorem allCancelled_step {l : Supervisor.Label κ π ε} (h : AllCancelled s)
    (hs : s.step S l = some s') : AllCancelled s' := by
  cases Supervisor.turn_of_step hs with
  | send x => exact h
  | @receive x xs hq =>
    cases x with
    | add x =>
      simp only [Supervisor.step, hq] at hs
      split_ifs at hs with hdown
      exact fun hd => absurd hd hdown
    | remove c =>
      simp only [Supervisor.process]
      split
      · exact allCancelled_modify h rfl rfl fun _ _ => rfl
      · exact h
  | @start i k b hk hst =>
    unfold Supervisor.start
    split_ifs
    · exact allCancelled_finish h _
    · exact allCancelled_finish h _
    · exact allCancelled_modify h rfl rfl fun _ hc => hc
  | @advance i k ph ph' ev ns hk hst hph =>
    exact allCancelled_modify h rfl rfl fun _ hc => hc
  | @leave i k r hk hst =>
    unfold Supervisor.leave
    dsimp only
    split
    · exact allCancelled_modify h rfl rfl fun _ hc => hc
    · refine allCancelled_finish ?_ _
      exact h
  | closed hk hst => exact allCancelled_finish h _

/-- **The first step of a spawned call.** -/
theorem apart_start_iff (h : AllCancelled s) (hk : s.calls[i]? = some k) (b : Bool) :
    Apart k.args.connection s (s.start S i k b) ↔
      (s.down = false → s.entries k.args.connection = none ∧
        (S.isListener k.args.connection → k.args.hasTask)) := by
  unfold Supervisor.start
  split_ifs with hentry htask
  · rw [apart_finish_iff h hk]
    refine forall_congr' fun _ => iff_of_false (by simp [Result.isError]) ?_
    rintro ⟨hnone, -⟩
    simp [hnone] at hentry
  · rw [apart_finish_iff h hk]
    refine forall_congr' fun _ => iff_of_false (by simp [Result.isError]) ?_
    rintro ⟨-, hl⟩
    rw [Bool.and_eq_true] at htask
    simp [hl htask.1] at htask
  · refine iff_of_true ?_ fun _ => ⟨by simpa using hentry, fun hl => ?_⟩
    · exact apart_modify hk rfl rfl rfl fun d hd => Function.update_of_ne hd ..
    · simpa [hl] using htask

/-- **The clean-up of a call**, up to `connection.close()` or to its end. -/
theorem apart_leave_iff (h : AllCancelled s) (hk : s.calls[i]? = some k) (r : Result ε) :
    Apart k.args.connection s (s.leave i k r) ↔
      (s.down = false → k.shouldClose = false → r.isError = false) := by
  have hent : ∀ d, d ≠ k.args.connection →
      Function.update s.entries k.args.connection none d = s.entries d :=
    fun d hd => Function.update_of_ne hd ..
  unfold Supervisor.leave
  cases hc : k.shouldClose with
  | true =>
    refine iff_of_true ?_ fun _ hf => absurd hf (by simp)
    exact apart_modify hk rfl rfl rfl hent
  | false =>
    have hall : AllCancelled { s with
        entries := Function.update s.entries k.args.connection none } := h
    have hfin := apart_finish_iff hall hk r
    have hsame : Apart k.args.connection s
        (Supervisor.finish i r { s with
          entries := Function.update s.entries k.args.connection none }) ↔
        Apart k.args.connection { s with
          entries := Function.update s.entries k.args.connection none }
        (Supervisor.finish i r { s with
          entries := Function.update s.entries k.args.connection none }) :=
      ⟨fun ha => ⟨ha.down, ha.calls, fun d hd => (ha.entries d hd).trans (hent d hd).symm⟩,
        fun ha => ⟨ha.down, ha.calls, fun d hd => (ha.entries d hd).trans (hent d hd)⟩⟩
    simpa using hsame.trans hfin

end

/-! ## One step -/

section

variable {s s' : Serving κ π ε} {i : ℕ} {k : Call κ π ε}

/-- What is known of every run. -/
structure Sound (s : Serving κ π ε) : Prop where
  allCancelled : AllCancelled s.supervisor
  registered : s.supervisor.Registered

/-- A step about one connection, and about no other. -/
theorem isolated_iff_apart {l : Label κ π ε} {c : κ} (hl : About s l c)
    (huniq : ∀ d, About s l d → d = c) :
    Isolated s l s' ↔ Apart c s.supervisor s'.supervisor :=
  ⟨fun h => h c hl, fun h d hd => huniq d hd ▸ h⟩

/-- **The end of a call**, where what leaves it is not the error about its policy: `stage r` is
where the call is, and `left r` is what it ends with. -/
theorem isolated_iff_of_end {l : Label κ π ε} {stage : Result ε → Stage ε}
    (left : Result ε → Result ε) (hinj : stage.Injective) {r : Result ε}
    (hk : s.supervisor.calls[i]? = some k) (hst : k.stage = stage r) {p : Call κ π ε → Prop}
    (habout : ∀ d, About s l d ↔ ∃ k' r', s.supervisor.calls[i]? = some k' ∧
      k'.cancelled = true ∧ k'.stage = stage r' ∧ (left r').isError = (left r').isRaised ∧
      d = k'.args.connection)
    (happ : Apart k.args.connection s.supervisor s'.supervisor ↔
      (s.supervisor.down = false → p k → (left r).isError = false)) :
    Isolated s l s' ↔ (s.supervisor.down = false → ∀ k' r', s.supervisor.calls[i]? = some k' →
      k'.cancelled = true → k'.stage = stage r' → p k' → (left r').isRaised = false) := by
  have hsame : ∀ k' r', s.supervisor.calls[i]? = some k' → k'.stage = stage r' →
      k' = k ∧ r' = r := by
    intro k' r' hk' hst'
    obtain rfl := Option.some.inj (hk.symm.trans hk')
    exact ⟨rfl, hinj (hst'.symm.trans hst)⟩
  constructor
  · intro h hd k' r' hk' hc hst' hp
    obtain ⟨rfl, rfl⟩ := hsame k' r' hk' hst'
    by_contra hr
    have hr : (left r').isRaised = true := by simpa using hr
    have herr : (left r').isError = true := Result.isError_of_isRaised hr
    have hapart := h _ ((habout _).mpr ⟨k', r', hk, hc, hst, herr.trans hr.symm, rfl⟩)
    exact absurd (happ.mp hapart hd hp) (by simp [herr])
  · intro h d hd
    obtain ⟨k', r', hk', hc, hst', hr, rfl⟩ := (habout d).mp hd
    obtain ⟨rfl, rfl⟩ := hsame k' r' hk' hst'
    exact happ.mpr fun hdown hp => hr.trans (h hdown k' r' hk hc hst hp)

variable [DecidableEq κ] {S : Surroundings κ π ε}

theorem sound_of_step {l : Label κ π ε} (h : Sound s) (hs : s.step S l = some s') : Sound s' := by
  cases l with
  | supervisor l =>
    obtain ⟨x, hx, rfl⟩ := Option.map_eq_some_iff.mp hs
    exact ⟨allCancelled_step h.allCancelled hx, h.registered.turn (Supervisor.turn_of_step hx)⟩
  | breaks i e =>
    simp only [step] at hs
    split at hs
    · next k hk =>
        split at hs
        · next hst =>
            split_ifs at hs
            obtain rfl := Option.some.inj hs
            exact ⟨allCancelled_modify h.allCancelled rfl rfl fun _ hc => hc,
              h.registered.modify_live (hst ▸ Supervisor.views_getElem? hk) rfl
                (Supervisor.views_setStage _ _ _)⟩
        · cases hs
    · cases hs
  | accept i =>
    simp only [step] at hs
    split at hs
    · split at hs
      · split_ifs at hs
        obtain rfl := Option.some.inj hs
        exact ⟨h.allCancelled, h.registered⟩
      · cases hs
    · cases hs
  | clientEnds j e =>
    simp only [step] at hs
    split at hs
    · split_ifs at hs with hrun he
      · obtain rfl := Option.some.inj hs
        exact ⟨allCancelled_crash _, h.registered.congr rfl (Supervisor.views_crash _)⟩
      · obtain rfl := Option.some.inj hs
        exact ⟨h.allCancelled, h.registered⟩
    · cases hs

/-- **A step leaves the others alone exactly where no exception leaves a task for it.** -/
theorem isolated_iff_of_step {l : Label κ π ε} (h : Sound s) (hs : s.step S l = some s') :
    Isolated s l s' ↔ Harmless S s l := by
  cases l with
  | supervisor l =>
    obtain ⟨x, hx, rfl⟩ := Option.map_eq_some_iff.mp hs
    cases Supervisor.turn_of_step hx with
    | send x =>
      refine iff_of_true (fun c hc => ?_) fun _ => trivial
      exact ⟨rfl, fun _ _ hk _ => hk, fun _ _ => rfl⟩
    | @receive x xs hq =>
      refine iff_of_true (fun c hc => ?_) fun _ => trivial
      cases hc with
      | receive hq' =>
        obtain ⟨rfl, rfl⟩ := List.cons.inj (hq.symm.trans hq')
        exact apart_process h.registered _ _
    | @start i k b hk hst =>
      rw [isolated_iff_apart (.start hk), apart_start_iff h.allCancelled hk]
      · refine forall_congr' fun _ => ⟨fun hok k' hk' => ?_, fun hok => hok k hk⟩
        obtain rfl := Option.some.inj (hk.symm.trans hk')
        exact hok
      · intro d hd
        cases hd with
        | start hk' => rw [Option.some.inj (hk.symm.trans hk')]
    | @advance i k ph ph' ev ns hk hst hph =>
      refine iff_of_true (fun c hc => ?_) fun _ => trivial
      cases hc with
      | cancelled hk' =>
        obtain rfl := Option.some.inj (hk.symm.trans hk')
        exact apart_modify hk rfl rfl rfl fun _ _ => rfl
    | @leave i k r hk hst =>
      refine isolated_iff_of_end id (fun r r' hr => by simpa using hr) hk hst (fun d => ?_)
        (apart_leave_iff h.allCancelled hk r)
      constructor
      · intro hd
        cases hd with
        | leave hk' hc hst' hr => exact ⟨_, _, hk', hc, hst', hr, rfl⟩
      · rintro ⟨k', r', hk', hc, hst', hr, rfl⟩
        exact .leave hk' hc hst' hr
    | @closed i k r o hk hst =>
      have happ := apart_finish_iff h.allCancelled hk (o.after r)
      refine (isolated_iff_of_end o.after (fun r r' hr => by simpa using hr) hk hst
        (p := fun _ => True) (fun d => ?_) (by simpa using happ)).trans (by simp [Harmless])
      constructor
      · intro hd
        cases hd with
        | closed hk' hc hst' hr => exact ⟨_, _, hk', hc, hst', hr, rfl⟩
      · rintro ⟨k', r', hk', hc, hst', hr, rfl⟩
        exact .closed hk' hc hst' hr
  | breaks i e =>
    refine iff_of_true (fun c hc => ?_) fun _ => trivial
    cases hc with
    | breaks hk =>
      simp only [step, hk] at hs
      split at hs
      · split_ifs at hs
        obtain rfl := Option.some.inj hs
        exact apart_setStage hk _
      · cases hs
  | accept i =>
    refine iff_of_true (fun c hc => ?_) fun _ => trivial
    cases hc with
    | accept hk =>
      simp only [step, hk] at hs
      split at hs
      · split_ifs at hs
        obtain rfl := Option.some.inj hs
        exact ⟨rfl, fun _ _ hk _ => hk, fun _ _ => rfl⟩
      · cases hs
  | clientEnds j e =>
    simp only [step] at hs
    split at hs
    · next x hx =>
        split_ifs at hs with hrun he
        · obtain rfl := Option.some.inj hs
          rw [isolated_iff_apart (.clientEnds hx), apart_crash_iff h.allCancelled]
          · obtain ⟨e, rfl⟩ := Option.isSome_iff_exists.mp he
            simp [Harmless]
          · intro d hd
            cases hd with
            | clientEnds hx' => rw [Option.some.inj (hx.symm.trans hx')]
        · obtain rfl := Option.some.inj hs
          refine iff_of_true (fun c _ => ?_) fun _ => ?_
          · exact ⟨rfl, fun _ _ hk _ => hk, fun _ _ => rfl⟩
          · simpa using he
    · cases hs

theorem sound_init (S : Surroundings κ π ε) : Sound (init : Serving κ π ε) :=
  ⟨fun hd => absurd hd (by simp [init, Supervisor.init]),
    Supervisor.registered (S := S) (G := Machine.anyStep) Machine.Reach.init⟩

variable (S)

/-- **In a run each command and each client leaves the other connections alone exactly if no
exception leaves a task for one.** -/
theorem isolated_iff_harmless (ls : List (Label κ π ε)) :
    (serving S).Throughout Isolated (serving S).init ls
      ↔ (serving S).Guarded (Harmless S) (serving S).init ls :=
  Machine.throughout_congr (sound_init S) fun _ _ _ h hs =>
    ⟨sound_of_step h hs, isolated_iff_of_step h hs⟩

end

/-- A supervisor without listeners, whose policy is to try again after a second. -/
def patient : Surroundings (Fin 2) Unit Unit := ⟨(), fun _ => false, fun _ _ _ _ => .ok (.number 1)⟩

/-- Two connections are supervised, and the first is added once more: the supervisor ends. -/
theorem added_twice :
    ¬ ∀ ls, (serving patient).Throughout Isolated (serving patient).init ls := by
  intro h
  have hlast := (h ([.supervisor (.send (.add ⟨0, false, none⟩)), .supervisor .receive,
    .supervisor (.start 0 false), .supervisor (.send (.add ⟨1, false, none⟩)), .supervisor .receive,
    .supervisor (.start 1 false), .supervisor (.send (.add ⟨0, false, none⟩)),
    .supervisor .receive] ++ [.supervisor (.start 2 false)])).last rfl rfl
  exact absurd (hlast 0 (.start (k := .spawn ⟨0, false, none⟩) rfl)).down (by decide)

end Serving

end FlockwaveConn.Supervision
