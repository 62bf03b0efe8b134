import FlockwaveConn.Supervision.Commands

/-!
# Supervision/Entries — one live call for each connection

`ConnectionSupervisor.supervise()` is a public method: besides the calls that the main loop spawns
there may be calls of other tasks, which raise to whoever made them and outlive `run()`.  They share
the entries.  Whatever the interleaving, the entries are the calls that are between their
registration and their `finally` clause, one for each connection, so a `remove()` gets hold of the
right one and the assertion at the beginning is tripped by a live call only (`oneLive_of_reach`).
-/

namespace FlockwaveConn.Supervision

variable {κ π ε : Type*}

/-- A supervisor that other tasks call as well. -/
structure SharedSupervisor (κ π ε : Type*) extends Supervisor κ π ε where
  /-- The calls that were not spawned by the main loop. -/
  direct : ℕ → Bool

namespace SharedSupervisor

/-- The steps of the callers, the main loop and the calls of `supervise()`. -/
inductive Label (κ π ε : Type*)
  /-- `add()` or `remove()` puts a command on the queue. -/
  | send (x : Command κ π)
  /-- The main loop takes the next command. -/
  | receive
  /-- A task makes a call of `supervise()`, or schedules one. -/
  | supervise (x : Job κ π)
  /-- A call runs its first step. -/
  | start (i : ℕ) (isConnected : Bool)
  /-- The wait a call is in ends. -/
  | event (i : ℕ) (ev : Event ε)
  /-- `connection.close()` in the `finally` clause ends. -/
  | closed (i : ℕ) (o : CloseEnd ε)
  /-- The task that has made a call is cancelled. -/
  | cancel (i : ℕ)
  /-- `run()` is cancelled. -/
  | stop
  /-- `run()` is called again. -/
  | run

/-- `ConnectionSupervisor.__init__`, and a first call of `run()`. -/
def init : SharedSupervisor κ π ε := ⟨.init, fun _ => false⟩

/-- The nursery of `run()` cancels all it has. -/
def crash (s : SharedSupervisor κ π ε) : SharedSupervisor κ π ε :=
  { s with
    down := true
    calls := s.calls.mapIdx fun i k => if s.direct i then k else k.cancel }

/-- A call is over; an exception goes to the nursery, or to whoever has made the call. -/
def finish (i : ℕ) (r : Result ε) (s : SharedSupervisor κ π ε) : SharedSupervisor κ π ε :=
  let s' := { s with toSupervisor := s.setStage i (.finished r) }
  if r.isError && !s.direct i then s'.crash else s'

variable [DecidableEq κ]

/-- The first step of `supervise()`. -/
def start (S : Surroundings κ π ε) (i : ℕ) (k : Call κ π ε) (isConnected : Bool)
    (s : SharedSupervisor κ π ε) : SharedSupervisor κ π ε :=
  -- `assert connection not in self._entries`
  if (s.entries k.args.connection).isSome then s.finish i .assertionError
  else if S.isListener k.args.connection && !k.args.hasTask then s.finish i .runtimeError
  else
    { s with
      entries := Function.update s.entries k.args.connection
        (some ⟨k.args.policy.getD S.policy, i⟩)
      calls := s.calls.modify i fun k =>
        { k with stage := .looping .opening, shouldClose := !isConnected } }

/-- The `finally` clause, up to the wait in `connection.close()`. -/
def leave (i : ℕ) (k : Call κ π ε) (r : Result ε) (s : SharedSupervisor κ π ε) :
    SharedSupervisor κ π ε :=
  let s := { s with entries := Function.update s.entries k.args.connection none }
  if k.shouldClose then { s with toSupervisor := s.setStage i (.closing r) } else s.finish i r

/-- A call comes to another phase of its loop. -/
def goTo (S : Surroundings κ π ε) (i : ℕ) (k : Call κ π ε) (ph : Phase ε) (ns : List (Note ε))
    (s : SharedSupervisor κ π ε) : SharedSupervisor κ π ε :=
  { s with toSupervisor := { s.setStage i (.looping ph) with
    notes := s.notes ++ ns.map fun n => (i, Supervisor.handedOver S k.args, n) } }

/-- The loop of a call runs up to its next wait, or to its end and into the `finally` clause. -/
def advance (S : Surroundings κ π ε) (i : ℕ) (k : Call κ π ε) (ph : Phase ε) (ev : Event ε)
    (s : SharedSupervisor κ π ε) : Option (SharedSupervisor κ π ε) :=
  (Supervision.step (s.ask S i k.args) ph ev).map fun x =>
    match x.1 with
    | .done r => (s.goTo S i k x.1 x.2).leave i k r
    | _ => s.goTo S i k x.1 x.2

/-- One step. -/
def step (S : Surroundings κ π ε) (s : SharedSupervisor κ π ε) :
    Label κ π ε → Option (SharedSupervisor κ π ε)
  | .send x =>
    if s.queue.length < Supervisor.capacity then some { s with queue := s.queue ++ [x] } else none
  | .receive =>
    match s.queue with
    | x :: xs =>
      if s.down then none
      else some { s with toSupervisor := { s.toSupervisor with queue := xs }.process x }
    | [] => none
  | .supervise x =>
    some { s with
      calls := s.calls ++ [.spawn x]
      direct := Function.update s.direct s.calls.length true }
  | .start i isConnected =>
    match s.calls[i]? with
    | some k => match k.stage with
      | .starting => some (s.start S i k isConnected)
      | _ => none
    | none => none
  | .event i ev =>
    match s.calls[i]? with
    | some k => match k.stage with
      | .looping ph =>
        if ev.isCancelled && !k.cancelled then none else s.advance S i k ph ev
      | _ => none
    | none => none
  | .closed i o =>
    match s.calls[i]? with
    | some k => match k.stage with
      | .closing r =>
        if o matches .cancelled && !k.cancelled then none else some (s.finish i (o.after r))
      | _ => none
    | none => none
  | .cancel i => if s.direct i then some { s with calls := s.calls.modify i Call.cancel } else none
  | .stop => some s.crash
  | .run =>
    -- the nursery of the last call has been left
    if s.down && s.calls.zipIdx.all fun x => s.direct x.2 || x.1.stage matches .finished _ then
      some { s with down := false }
    else none

end SharedSupervisor

/-- **A supervisor, its callers and all calls of `supervise()`.** -/
def sharedSupervisor {κ π ε : Type*} [DecidableEq κ] (S : Surroundings κ π ε) :
    Machine (SharedSupervisor κ π ε) (SharedSupervisor.Label κ π ε) where
  init := .init
  step := SharedSupervisor.step S

namespace SharedSupervisor

open Supervisor (Registered views_getElem? map_view_modify map_view_cancel)

/-- How the wait of a phase can end. -/
def Awaits : Phase ε → Event ε → Prop
  | .opening, .opened | .opening, .failed _ | .attending, .failed _ | .attending, .ended => True
  | .sleeping _, .slept => True
  | .opening, .cancelled | .attending, .cancelled | .sleeping _, .cancelled => True
  | _, _ => False

/-- What may come next: every task goes on from where it is, and is cancelled only if it has been
told to. -/
def Expects (s : SharedSupervisor κ π ε) : Label κ π ε → Prop
  | .send _ => s.queue.length < Supervisor.capacity
  | .receive => s.queue ≠ [] ∧ s.down = false
  | .supervise _ | .stop => True
  | .start i _ => ∃ k, s.calls[i]? = some k ∧ k.stage = .starting
  | .event i ev => ∃ k ph, s.calls[i]? = some k ∧ k.stage = .looping ph ∧
      (ev.isCancelled = true → k.cancelled = true) ∧ Awaits ph ev
  | .closed i o => ∃ k r, s.calls[i]? = some k ∧ k.stage = .closing r ∧
      (o = .cancelled → k.cancelled = true)
  | .cancel i => s.direct i = true
  | .run => s.down = true ∧
      ∀ i k, s.calls[i]? = some k → s.direct i = true ∨ ∃ r, k.stage = .finished r

theorem exists_advance_iff (ask : Ask ε) (ph : Phase ε) (ev : Event ε) :
    (∃ x, Supervision.step ask ph ev = some x) ↔ Awaits ph ev := by
  cases ph <;> cases ev <;> simp [Supervision.step, Awaits]

/-- **No task is held up.** -/
theorem exists_step_iff [DecidableEq κ] {S : Surroundings κ π ε} {s : SharedSupervisor κ π ε}
    {l : Label κ π ε} : (∃ s', s.step S l = some s') ↔ s.Expects l := by
  cases l with
  | send x => simp [step, Expects]
  | receive => cases hq : s.queue <;> simp [step, Expects, hq]
  | supervise x | stop => simp [step, Expects]
  | start i b =>
    cases hk : s.calls[i]? with
    | none => simp [step, Expects, hk]
    | some k => cases hst : k.stage <;> simp [step, Expects, hk, hst]
  | event i ev =>
    cases hk : s.calls[i]? with
    | none => simp [step, Expects, hk]
    | some k =>
      cases hst : k.stage with
      | starting | closing | finished => simp [step, Expects, hk, hst]
      | looping ph =>
        simp [step, Expects, hk, hst, advance, ← exists_advance_iff (s.ask S i k.args) ph ev]
  | closed i o =>
    cases hk : s.calls[i]? with
    | none => simp [step, Expects, hk]
    | some k =>
      cases hst : k.stage with
      | starting | looping | finished => simp [step, Expects, hk, hst]
      | closing r => cases o <;> simp [step, Expects, hk, hst]
  | cancel i => simp [step, Expects]
  | run =>
    have hover :
        (s.calls.zipIdx.all fun x => s.direct x.2 || x.1.stage matches .finished _) = true ↔
          ∀ i k, s.calls[i]? = some k → s.direct i = true ∨ ∃ r, k.stage = .finished r := by
      simp only [List.all_eq_true, Prod.forall, List.mem_zipIdx_iff_getElem?, Bool.or_eq_true]
      constructor
      · intro h i k hk
        refine (h k i hk).imp_right fun hfin => ?_
        cases hst : k.stage with
        | finished r => exact ⟨r, rfl⟩
        | starting | looping | closing => simp [hst] at hfin
      · intro h k i hk
        refine (h i k hk).imp_right fun ⟨r, hr⟩ => ?_
        rw [hr]
    simp [step, Expects, ← hover]

/-- The call waits for something between the registration of its entry and its `finally` clause. -/
def Live (s : SharedSupervisor κ π ε) (c : κ) (i : ℕ) : Prop :=
  ∃ k ph, s.calls[i]? = some k ∧ k.args.connection = c ∧ k.stage = .looping ph ∧ ∀ r, ph ≠ .done r

/-- No call is at the end of its loop, for from there it goes on into its `finally` clause. -/
def Ongoing (s : SharedSupervisor κ π ε) : Prop := ∀ v ∈ s.views, ∀ r, v.2 ≠ .looping (.done r)

variable {s s' : SharedSupervisor κ π ε} {c : κ} {i : ℕ}

theorem live_iff (ho : s.Ongoing) : s.Live c i ↔ ∃ ph, s.views[i]? = some (c, .looping ph) := by
  constructor
  · rintro ⟨k, ph, hk, rfl, hst, -⟩
    exact ⟨ph, hst ▸ views_getElem? hk⟩
  · rintro ⟨ph, hv⟩
    have hph := ho _ (List.mem_of_getElem? hv)
    rw [Supervisor.views, List.getElem?_map] at hv
    obtain ⟨k, hk, hview⟩ := Option.map_eq_some_iff.mp hv
    obtain ⟨hc, hst⟩ := Prod.ext_iff.mp hview
    exact ⟨k, ph, hk, hc, hst, fun r hr => hph r (congrArg Stage.looping hr)⟩

theorem Ongoing.congr (h : s.Ongoing) (hv : s'.views = s.views) : s'.Ongoing := by
  rw [Ongoing, hv]
  exact h

theorem Ongoing.append (h : s.Ongoing) (hv : s'.views = s.views ++ [(c, .starting)]) :
    s'.Ongoing := by
  rw [Ongoing, hv]
  exact List.forall_mem_append.mpr ⟨h, by simp⟩

theorem Ongoing.modify (h : s.Ongoing) {st : Stage ε} (hst : ∀ r, st ≠ .looping (.done r))
    (hv : s'.views = s.views.modify i fun v => (v.1, st)) : s'.Ongoing := by
  intro v hmem r
  obtain ⟨j, hj⟩ := List.mem_iff_getElem?.mp hmem
  rw [hv, List.getElem?_modify] at hj
  obtain ⟨w, hw, rfl⟩ := Option.map_eq_some_iff.mp hj
  split
  · exact hst r
  · exact h w (List.mem_of_getElem? hw) r

/-- **The entries are the live calls.** -/
structure Sound (s : SharedSupervisor κ π ε) : Prop where
  registered : Registered s.toSupervisor
  ongoing : s.Ongoing

/-- The keys of the entries are the connections with a live call. -/
theorem isSome_entries_iff (h : s.Sound) : (s.entries c).isSome ↔ ∃ i, s.Live c i := by
  constructor
  · intro hc
    obtain ⟨e, he⟩ := Option.isSome_iff_exists.mp hc
    exact ⟨e.call, (live_iff h.ongoing).mpr (h.registered.ofEntry c e he)⟩
  · rintro ⟨i, hi⟩
    obtain ⟨ph, hph⟩ := (live_iff h.ongoing).mp hi
    obtain ⟨e, he, -⟩ := h.registered.ofCall i c ph hph
    simp [he]

/-- The entry of a connection is that of its live call. -/
theorem live_iff_call (h : s.Sound) {e : Entry π} (he : s.entries c = some e) :
    s.Live c i ↔ e.call = i := by
  constructor
  · intro hi
    obtain ⟨ph, hph⟩ := (live_iff h.ongoing).mp hi
    obtain ⟨e', he', hcall⟩ := h.registered.ofCall i c ph hph
    obtain rfl := Option.some.inj (he.symm.trans he')
    exact hcall
  · rintro rfl
    exact (live_iff h.ongoing).mpr (h.registered.ofEntry c e he)

/-- A call that is not live has no entry. -/
theorem call_ne_of_not_live (h : s.Sound) {k : Call κ π ε} (hk : s.calls[i]? = some k)
    (hi : ¬ s.Live k.args.connection i) {e : Entry π} (he : s.entries c = some e) : e.call ≠ i := by
  rintro rfl
  have hlive := (live_iff_call h he).mpr rfl
  obtain ⟨k', -, hk', rfl, -⟩ := id hlive
  obtain rfl := Option.some.inj (hk.symm.trans hk')
  exact hi hlive

/-! ## What a stretch does to the entries and the calls -/

theorem views_crash (s : SharedSupervisor κ π ε) : s.crash.views = s.views := by
  refine List.ext_getElem? fun i => ?_
  simp only [Supervisor.views, crash, List.getElem?_map, List.getElem?_mapIdx]
  cases s.calls[i]? with
  | none => rfl
  | some k => cases s.direct i <;> rfl

theorem views_finish (s : SharedSupervisor κ π ε) (i : ℕ) (r : Result ε) :
    (s.finish i r).views = s.views.modify i fun v => (v.1, .finished r) := by
  unfold finish
  dsimp only
  split
  · rw [views_crash]
    exact Supervisor.views_setStage _ _ _
  · exact Supervisor.views_setStage _ _ _

theorem finish_entries (s : SharedSupervisor κ π ε) (i : ℕ) (r : Result ε) :
    (s.finish i r).entries = s.entries := by
  unfold finish
  dsimp only
  split <;> rfl

theorem registered_finish (h : Registered s.toSupervisor) {st : Stage ε}
    (hi : s.views[i]? = some (c, st)) (hst : ∀ ph, st ≠ .looping ph) (r : Result ε) :
    Registered (s.finish i r).toSupervisor :=
  h.modify_idle hi hst (by simp) (finish_entries s i r) (views_finish s i r)

variable {S : Surroundings κ π ε} {k : Call κ π ε}

/-- A call inside its loop comes to another phase of it. -/
theorem views_goTo (s : SharedSupervisor κ π ε) (i : ℕ) (k : Call κ π ε) (ph : Phase ε)
    (ns : List (Note ε)) :
    (s.goTo S i k ph ns).views = s.views.modify i fun v => (v.1, .looping ph) :=
  Supervisor.views_setStage s.toSupervisor i (.looping ph)

theorem registered_goTo (h : Registered s.toSupervisor) {ph : Phase ε}
    (hi : s.views[i]? = some (k.args.connection, .looping ph)) (ph' : Phase ε)
    (ns : List (Note ε)) : Registered (s.goTo S i k ph' ns).toSupervisor :=
  h.modify_live hi rfl (views_goTo s i k ph' ns)

/-- **A `remove()`** cancels the live call of its connection. -/
theorem calls_process_remove (h : s.Sound) (hk : s.calls[i]? = some k)
    (xs : List (Command κ π)) :
    (s.Live c i →
        ({ s.toSupervisor with queue := xs }.process (.remove c)).calls[i]? = some k.cancel) ∧
      (¬ s.Live c i →
        ({ s.toSupervisor with queue := xs }.process (.remove c)).calls[i]? = some k) := by
  simp only [Supervisor.process]
  cases he : s.entries c with
  | none =>
    refine ⟨fun hi => ?_, fun _ => hk⟩
    have hsome := (isSome_entries_iff h).mpr ⟨i, hi⟩
    simp [he] at hsome
  | some e =>
    rw [live_iff_call h he]
    constructor <;> intro hi <;> simp [hk, hi]

variable [DecidableEq κ]

/-- **The first step of a call.** -/
theorem registered_start (h : Registered s.toSupervisor) (hk : s.calls[i]? = some k)
    (hst : k.stage = .starting) (b : Bool) : Registered (s.start S i k b).toSupervisor := by
  have hi : s.views[i]? = some (k.args.connection, .starting) := hst ▸ views_getElem? hk
  unfold start
  split
  · exact registered_finish h hi (by simp) _
  next hnone =>
  split
  · exact registered_finish h hi (by simp) _
  · exact h.enter (e := ⟨k.args.policy.getD S.policy, i⟩) hi (by simpa using hnone) rfl rfl
      (map_view_modify s.calls i fun _ => rfl)

/-- **The `finally` clause.** -/
theorem registered_leave (h : Registered s.toSupervisor) {ph : Phase ε}
    (hi : s.views[i]? = some (k.args.connection, .looping ph)) (r : Result ε) :
    Registered (s.leave i k r).toSupervisor := by
  unfold leave
  dsimp only
  split
  · exact h.leave hi (by simp) rfl (Supervisor.views_setStage _ _ _)
  · exact h.leave hi (by simp) (finish_entries _ _ _) (views_finish _ _ _)

/-- The `finally` clause takes the call out of its loop. -/
theorem views_leave (s : SharedSupervisor κ π ε) (i : ℕ) (k : Call κ π ε) (r : Result ε) :
    ∃ st, (∀ ph, st ≠ .looping ph) ∧
      (s.leave i k r).views = s.views.modify i fun v => (v.1, st) := by
  unfold leave
  dsimp only
  split
  · exact ⟨.closing r, by simp, Supervisor.views_setStage _ _ _⟩
  · exact ⟨.finished r, by simp, views_finish _ _ _⟩

/-- …and its entry out of the entries. -/
theorem leave_entries (s : SharedSupervisor κ π ε) (i : ℕ) (k : Call κ π ε) (r : Result ε) :
    (s.leave i k r).entries = Function.update s.entries k.args.connection none := by
  unfold leave
  dsimp only
  split
  · rfl
  · exact finish_entries _ _ _

theorem views_goTo_leave (s : SharedSupervisor κ π ε) (i : ℕ) (k : Call κ π ε) (ph : Phase ε)
    (ns : List (Note ε)) (r : Result ε) :
    ∃ st, (∀ ph, st ≠ .looping ph) ∧
      ((s.goTo S i k ph ns).leave i k r).views = s.views.modify i fun v => (v.1, st) := by
  obtain ⟨st, hst, hv⟩ := views_leave (s.goTo S i k ph ns) i k r
  refine ⟨st, hst, ?_⟩
  rw [hv, views_goTo, List.modify_modify_eq]
  rfl

theorem ongoing_start (h : s.Ongoing) (b : Bool) : (s.start S i k b).Ongoing := by
  unfold start
  split
  · exact h.modify (by simp) (views_finish _ _ _)
  split
  · exact h.modify (by simp) (views_finish _ _ _)
  · exact h.modify (by simp) (map_view_modify s.calls i fun _ => rfl)

/-! ## One step -/

/-- **Everything a step can do.** -/
inductive Turn (S : Surroundings κ π ε) (s : SharedSupervisor κ π ε) :
    Label κ π ε → SharedSupervisor κ π ε → Prop
  | send (x : Command κ π) : Turn S s (.send x) { s with queue := s.queue ++ [x] }
  | receive {x : Command κ π} {xs : List (Command κ π)} (hq : s.queue = x :: xs) :
      Turn S s .receive
        { s with toSupervisor := { s.toSupervisor with queue := xs }.process x }
  | supervise (x : Job κ π) :
      Turn S s (.supervise x) { s with
        calls := s.calls ++ [.spawn x]
        direct := Function.update s.direct s.calls.length true }
  | start {i : ℕ} {k : Call κ π ε} {b : Bool} (hk : s.calls[i]? = some k)
      (hst : k.stage = .starting) : Turn S s (.start i b) (s.start S i k b)
  /-- The loop comes to its next wait. -/
  | goOn {i : ℕ} {k : Call κ π ε} {ph ph' : Phase ε} {ev : Event ε} {ns : List (Note ε)}
      (hk : s.calls[i]? = some k) (hst : k.stage = .looping ph) (hph : ∀ r, ph' ≠ .done r) :
      Turn S s (.event i ev) (s.goTo S i k ph' ns)
  /-- The loop is over. -/
  | leave {i : ℕ} {k : Call κ π ε} {ph : Phase ε} {ev : Event ε} {ns : List (Note ε)}
      {r : Result ε} (hk : s.calls[i]? = some k) (hst : k.stage = .looping ph) :
      Turn S s (.event i ev) ((s.goTo S i k (.done r) ns).leave i k r)
  | closed {i : ℕ} {k : Call κ π ε} {r r' : Result ε} {o : CloseEnd ε}
      (hk : s.calls[i]? = some k) (hst : k.stage = .closing r) :
      Turn S s (.closed i o) (s.finish i r')
  | cancel (i : ℕ) : Turn S s (.cancel i) { s with calls := s.calls.modify i Call.cancel }
  | stop : Turn S s .stop s.crash
  | run : Turn S s .run { s with down := false }

theorem turn_of_step {l : Label κ π ε} (hs : s.step S l = some s') : Turn S s l s' := by
  cases l with
  | send x =>
    obtain ⟨-, rfl⟩ := Option.ite_none_right_eq_some.mp hs |>.imp_right Option.some.inj
    exact .send x
  | receive =>
    simp only [step] at hs
    split at hs
    · next hq =>
      split_ifs at hs
      obtain rfl := Option.some.inj hs
      exact .receive hq
    · cases hs
  | supervise x =>
    obtain rfl := Option.some.inj hs
    exact .supervise x
  | start i b =>
    simp only [step] at hs
    split at hs
    · next hk =>
      split at hs
      · next hst =>
        obtain rfl := Option.some.inj hs
        exact .start hk hst
      · cases hs
    · cases hs
  | event i ev =>
    simp only [step] at hs
    split at hs
    · next hk =>
      split at hs
      · next hst =>
        split_ifs at hs
        obtain ⟨x, -, rfl⟩ := Option.map_eq_some_iff.mp hs
        split
        · next hdone => exact hdone ▸ .leave hk hst
        · next hdone => exact .goOn hk hst hdone
      · cases hs
    · cases hs
  | closed i o =>
    simp only [step] at hs
    split at hs
    · next hk =>
      split at hs
      · next hst =>
        split_ifs at hs
        obtain rfl := Option.some.inj hs
        exact .closed hk hst
      · cases hs
    · cases hs
  | cancel i =>
    obtain ⟨-, rfl⟩ := Option.ite_none_right_eq_some.mp hs |>.imp_right Option.some.inj
    exact .cancel i
  | stop =>
    obtain rfl := Option.some.inj hs
    exact .stop
  | run =>
    obtain ⟨-, rfl⟩ := Option.ite_none_right_eq_some.mp hs |>.imp_right Option.some.inj
    exact .run

/-- **One step** keeps the entries the live calls. -/
theorem registered_turn {l : Label κ π ε} (h : Registered s.toSupervisor) (ht : Turn S s l s') :
    Registered s'.toSupervisor := by
  cases ht with
  | send | run => exact h.congr rfl rfl
  | receive hq => exact h.turn (S := S) (.receive hq)
  | supervise x =>
    exact h.append (c := x.connection) rfl (by simp [Supervisor.views, Call.view, Call.spawn])
  | start hk hst => exact registered_start h hk hst _
  | goOn hk hst _ => exact registered_goTo h (hst ▸ views_getElem? hk) _ _
  | @leave i k ph ev ns r hk hst =>
    have hi : s.views[i]? = some (k.args.connection, .looping ph) := hst ▸ views_getElem? hk
    have hi' : (s.goTo S i k (.done r) ns).views[i]? =
        some (k.args.connection, .looping (.done r)) :=
      views_goTo (S := S) s i k _ ns ▸ (Registered.modify_iff hi).mpr (.inl ⟨rfl, rfl, rfl⟩)
    exact registered_leave (registered_goTo h hi _ ns) hi' r
  | closed hk hst => exact registered_finish h (hst ▸ views_getElem? hk) (by simp) _
  | cancel i => exact h.congr rfl (map_view_cancel s.calls i)
  | stop => exact h.congr rfl (views_crash s)

/-- **One step** leaves no call at the end of its loop. -/
theorem ongoing_turn {l : Label κ π ε} (h : s.Ongoing) (ht : Turn S s l s') : s'.Ongoing := by
  cases ht with
  | send | run => exact h.congr rfl
  | @receive x xs hq =>
    cases x with
    | add x =>
      exact h.append (c := x.connection)
        (by simp [Supervisor.process, Supervisor.views, Call.view, Call.spawn])
    | remove c => exact h.congr (Supervisor.views_process_remove _ c)
  | supervise x =>
    exact h.append (c := x.connection) (by simp [Supervisor.views, Call.view, Call.spawn])
  | start => exact ongoing_start h _
  | @goOn i k ph ph' ev ns hk hst hph =>
    exact h.modify (by simpa using hph) (views_goTo (S := S) s i k ph' ns)
  | @leave i k ph ev ns r hk hst =>
    obtain ⟨st, hout, hv⟩ := views_goTo_leave (S := S) s i k (.done r) ns r
    exact h.modify (fun r => hout _) hv
  | closed => exact h.modify (by simp) (views_finish _ _ _)
  | cancel i => exact h.congr (map_view_cancel s.calls i)
  | stop => exact h.congr (views_crash s)

/-- **In every run the entries are the live calls.** -/
theorem sound_of_reach (h : (sharedSupervisor S).Reachable s) : s.Sound := by
  have hinit : (init : SharedSupervisor κ π ε).Sound := by
    refine ⟨⟨nofun, fun i c ph hi => ?_⟩, fun v hv => ?_⟩
    · simp [init, Supervisor.init, Supervisor.views] at hi
    · simp [init, Supervisor.init, Supervisor.views] at hv
  exact h.invariant hinit fun _ _ _ hr _ hs =>
    ⟨registered_turn hr.registered (turn_of_step hs), ongoing_turn hr.ongoing (turn_of_step hs)⟩

/-- **What a step does to the entries**: nothing, or it takes one out, or it adds one where there is
none. -/
theorem entries_turn {l : Label κ π ε} (ht : Turn S s l s') :
    s'.entries = s.entries ∨ (∃ c, s'.entries = Function.update s.entries c none) ∨
      ∃ c e, s.entries c = none ∧ s'.entries = Function.update s.entries c (some e) := by
  cases ht with
  | send | supervise | goOn | cancel | stop | run => exact .inl rfl
  | @receive x xs hq =>
    cases x with
    | add x => exact .inl rfl
    | remove c =>
      refine .inl ?_
      simp only [Supervisor.process]
      split <;> rfl
  | @start i k b hk hst =>
    unfold start
    split
    · exact .inl (finish_entries _ _ _)
    next hnone =>
    split
    · exact .inl (finish_entries _ _ _)
    · exact .inr (.inr ⟨_, _, by simpa using hnone, rfl⟩)
  | @leave i k ph ev ns r hk hst =>
    exact .inr (.inl ⟨k.args.connection, leave_entries _ _ _ _⟩)
  | closed => exact .inl (finish_entries _ _ _)

/-! ## One live call for each connection -/

/-- **One live supervision for each connection.** -/
structure OneLive (S : Surroundings κ π ε) (s : SharedSupervisor κ π ε) : Prop where
  /-- The keys of the entries are the connections with a live call… -/
  entries : ∀ c, (s.entries c).isSome ↔ ∃ i, s.Live c i
  /-- …of which there is one only. -/
  alone : ∀ c i j, s.Live c i → s.Live c j → i = j
  /-- A `remove()` cancels the scope of this call, and of no other. -/
  removes : ∀ c s', s.queue.head? = some (.remove c) → s.step S .receive = some s' →
    ∀ i k, s.calls[i]? = some k →
      (s.Live c i → s'.calls[i]? = some k.cancel) ∧ (¬ s.Live c i → s'.calls[i]? = some k)
  /-- Where the loop of a live call comes to its end, by a return, an exception or a cancellation,
  the call leaves it in that step, and its entry is gone. -/
  leaves : ∀ i k ph ev r ns, s.calls[i]? = some k → k.stage = .looping ph →
    Supervision.step (s.ask S i k.args) ph ev = some (.done r, ns) →
    (ev.isCancelled = true → k.cancelled = true) →
      ∃ s' st, s.step S (.event i ev) = some s' ∧ s'.entries k.args.connection = none ∧
        s'.calls[i]?.map Call.stage = some st ∧ ∀ ph, st ≠ .looping ph
  /-- There is no other way for a call to end. -/
  ends : ∀ l s' c i, s.step S l = some s' → s.Live c i → ¬ s'.Live c i → s'.entries c = none
  /-- A call that has ended, or has not begun, has no entry. -/
  gone : ∀ i k, s.calls[i]? = some k → ¬ s.Live k.args.connection i →
    ∀ c e, s.entries c = some e → e.call ≠ i
  /-- The assertion is tripped exactly where there is a live call already. -/
  starts : ∀ i b s' k, s.step S (.start i b) = some s' → s.calls[i]? = some k →
    (s'.calls[i]?.map Call.stage = some (.finished .assertionError) ↔
      ∃ j, s.Live k.args.connection j)
  /-- Commands are taken, and calls go on. -/
  enabled : ∀ l, (∃ s', s.step S l = some s') ↔ s.Expects l

/-- **The step that ends a live call takes its entry away.** -/
theorem entries_of_ends {l : Label κ π ε} (h : s.Sound) (ht : Turn S s l s') (hi : s.Live c i)
    (hi' : ¬ s'.Live c i) : s'.entries c = none := by
  obtain ⟨ph, hph⟩ := (live_iff h.ongoing).mp hi
  obtain ⟨e, he, rfl⟩ := h.registered.ofCall i c ph hph
  have h' : s'.Sound := ⟨registered_turn h.registered ht, ongoing_turn h.ongoing ht⟩
  -- an entry that has stayed would still be that of a live call
  have hchanged : s'.entries c ≠ s.entries c := fun heq =>
    hi' ((live_iff_call h' (heq.trans he)).mpr rfl)
  rcases entries_turn ht with heq | ⟨d, hd⟩ | ⟨d, e', hnone, hd⟩
  · exact absurd (congrFun heq c) hchanged
  · by_cases hcd : c = d
    · rw [hd, hcd, Function.update_self]
    · exact absurd (by rw [hd, Function.update_of_ne hcd]) hchanged
  · have hcd : c ≠ d := by
      rintro rfl
      simp [he] at hnone
    exact absurd (by rw [hd, Function.update_of_ne hcd]) hchanged

/-- **The first step of a call**: where there is a live call for the connection, and only there, the
assertion fails. -/
theorem stage_start (hk : s.calls[i]? = some k) (b : Bool) :
    (s.start S i k b).calls[i]?.map Call.stage = some (.finished .assertionError) ↔
      (s.entries k.args.connection).isSome := by
  have hfinish : ∀ r, (s.finish i r).calls[i]?.map Call.stage = some (.finished r) := by
    intro r
    have hviews := congrArg (·[i]?.map Prod.snd) (views_finish s i r)
    simpa [Supervisor.views, Call.view, hk, Function.comp_def] using hviews
  unfold start
  split
  · next hsome => exact iff_of_true (hfinish _) hsome
  next hnone =>
  refine iff_of_false ?_ hnone
  split
  · rw [hfinish]
    simp
  · simp [hk]

/-- **The end of the loop**: the call leaves it in the same step, together with its entry. -/
theorem leaves_of_done (hk : s.calls[i]? = some k) {ph : Phase ε} (hst : k.stage = .looping ph)
    {ev : Event ε} {r : Result ε} {ns : List (Note ε)}
    (hdone : Supervision.step (s.ask S i k.args) ph ev = some (.done r, ns))
    (hcan : ev.isCancelled = true → k.cancelled = true) :
    ∃ s' st, s.step S (.event i ev) = some s' ∧ s'.entries k.args.connection = none ∧
      s'.calls[i]?.map Call.stage = some st ∧ ∀ ph, st ≠ .looping ph := by
  obtain ⟨st, hout, hv⟩ := views_goTo_leave (S := S) s i k (.done r) ns r
  refine ⟨(s.goTo S i k (.done r) ns).leave i k r, st, ?_, ?_, ?_, hout⟩
  · have hfree : (ev.isCancelled && !k.cancelled) = false := by
      cases hev : ev.isCancelled with
      | false => rfl
      | true => simp [hcan hev]
    simp [step, hk, hst, hfree, advance, hdone]
  · rw [leave_entries, Function.update_self]
  · have hviews := congrArg (·[i]?.map Prod.snd) hv
    simpa [Supervisor.views, Call.view, hk, Function.comp_def] using hviews

/-- **In every run there is one live supervision for each connection.** -/
theorem oneLive_of_reach (S : Surroundings κ π ε) (s : SharedSupervisor κ π ε)
    (h : (sharedSupervisor S).Reachable s) : s.OneLive S := by
  have hr := sound_of_reach h
  refine ⟨fun c => isSome_entries_iff hr, fun c i j hi hj => ?_, fun c s' hq hs i k hk => ?_,
    fun i k ph ev r ns hk hst hdone hcan => leaves_of_done hk hst hdone hcan,
    fun l s' c i hs hi hi' => entries_of_ends hr (turn_of_step hs) hi hi',
    fun i k hk hi c e he => call_ne_of_not_live hr hk hi he, fun i b s' k hs hk => ?_,
    fun _ => exists_step_iff⟩
  · obtain ⟨ph, hph⟩ := (live_iff hr.ongoing).mp hi
    obtain ⟨ph', hph'⟩ := (live_iff hr.ongoing).mp hj
    exact hr.registered.call_unique hph hph'
  · cases turn_of_step hs with
    | receive hx =>
      obtain rfl := Option.some.inj ((congrArg List.head? hx).symm.trans hq)
      exact calls_process_remove hr hk _
  · cases turn_of_step hs with
    | start hk' =>
      obtain rfl := Option.some.inj (hk.symm.trans hk')
      rw [stage_start hk]
      exact isSome_entries_iff hr

/-- A task supervises the connection, and the supervisor is told to add the same connection and to
remove it before that call has run: the call of the task is cancelled, and the other one takes its
place. -/
theorem oneLive_shared :
    ∃ s, (sharedSupervisor Supervisor.calm).Reachable s ∧
      s.calls.map Call.stage = [.finished .cancelled, .looping .opening] ∧
      s.OneLive Supervisor.calm := by
  have hreach := Machine.reachable_of_exec (M := sharedSupervisor Supervisor.calm)
    [.supervise ⟨0, false, none⟩, .start 0 true, .send (.add ⟨0, false, none⟩), .receive,
      .send (.remove 0), .receive, .event 0 .cancelled, .start 1 true] rfl
  exact ⟨_, hreach, rfl, oneLive_of_reach Supervisor.calm _ hreach⟩

end SharedSupervisor

end FlockwaveConn.Supervision
