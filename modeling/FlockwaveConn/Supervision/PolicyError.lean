import FlockwaveConn.Machinery.Transition
import FlockwaveConn.Supervision.Loop

/-!
# Supervision/PolicyError — an exception of the policy itself

`supervise()` is to raise what the policy raises.  It does so where the policy is asked for a
verdict, since no `try` is around these calls.  The `"open"` call stands inside the `try` block, so
its exception goes to the handler, which asks the policy about it like about any other: the
exception is lost if the policy has an answer.  This is the only way to lose one
(`errorsLeave_iff`).
-/

namespace FlockwaveConn.Supervision

variable {ε : Type*}

/-- A call of `supervise()` by itself, with what it has asked and done so far. -/
structure SuperviseCall (ε : Type*) where
  phase : Phase ε
  notes : List (Note ε)

namespace SuperviseCall

/-- The first `await connection.open()`. -/
def init : SuperviseCall ε := ⟨.opening, []⟩

/-- The call goes on, up to its next wait; `policy` answers given all that has been noted. -/
def step (policy : Ask ε) (s : SuperviseCall ε) (ev : Event ε) : Option (SuperviseCall ε) :=
  (Supervision.step (fun notes => policy (s.notes ++ notes)) s.phase ev).map fun x =>
    ⟨x.1, s.notes ++ x.2⟩

end SuperviseCall

/-- **One call of `supervise()`**, with any connection and any task: they are in the events. -/
def superviseCall (policy : Ask ε) : Machine (SuperviseCall ε) (Event ε) where
  init := .init
  step := SuperviseCall.step policy

/-! ## What is asked in one stretch -/

/-- The policy has raised. -/
def Note.failed : Note ε → Bool
  | .asked _ (.error _) => true
  | .asked _ (.ok _) | .acted _ => false

/-- **The outcome of a stretch**: the policy does not raise, or the loop ends with its exception. -/
def Leaves (ph : Phase ε) (ns : List (Note ε)) : Prop :=
  (∀ n ∈ ns, n.failed = false) ∨ ∃ arg x, ns = [.asked arg (.error x)] ∧ ph = .done (.raised x)

/-- A call for a verdict stands outside the `try` block. -/
theorem leaves_verdict (ask : Ask ε) (arg : PolicyArg ε) :
    Leaves (verdict ask [] arg).1 (verdict ask [] arg).2 := by
  unfold verdict
  cases ask [] arg with
  | ok a => exact .inl (by simp [Note.failed])
  | error x => exact .inr ⟨arg, x, rfl, rfl⟩

/-- The `"open"` call that does not raise. -/
theorem leaves_announce {ask : Ask ε} {a : Action} (h : ask [] .opened = .ok a) :
    Leaves (announce ask).1 (announce ask).2 := by
  rw [announce, h]
  exact .inl (by simp [Note.failed])

/-- The `"open"` call that does: its exception is answered. -/
theorem asked_of_announce (ask : Ask ε) {x : ε} (h : ask [] .opened = .error x) :
    ∃ ans ns, (announce ask).2 =
      .asked .opened (.error x) :: .asked (.exn x) ans :: ns := by
  rw [announce, h]
  dsimp only
  rw [verdict]
  split
  · exact ⟨_, _, rfl⟩
  · exact ⟨_, _, rfl⟩

/-- **Each stretch that does not come upon an `"open"` that raises.** -/
theorem leaves_of_step {ask : Ask ε} {ph ph' : Phase ε} {ev : Event ε} {ns : List (Note ε)}
    (h : step ask ph ev = some (ph', ns))
    (hopen : ph = .opening → ev = .opened → ∃ a, ask [] .opened = .ok a) : Leaves ph' ns := by
  have hquiet : ∀ ph : Phase ε, Leaves ph [] := fun _ => .inl nofun
  cases ph with
  | opening =>
    cases ev with
    | opened =>
      obtain ⟨a, ha⟩ := hopen rfl rfl
      obtain ⟨rfl, rfl⟩ := Prod.ext_iff.mp (Option.some.inj h)
      exact leaves_announce ha
    | failed e =>
      obtain ⟨rfl, rfl⟩ := Prod.ext_iff.mp (Option.some.inj h)
      exact leaves_verdict ask _
    | cancelled =>
      obtain ⟨rfl, rfl⟩ := Prod.ext_iff.mp (Option.some.inj h)
      exact hquiet _
    | ended | slept => cases h
  | attending =>
    cases ev with
    | failed e | ended =>
      obtain ⟨rfl, rfl⟩ := Prod.ext_iff.mp (Option.some.inj h)
      exact leaves_verdict ask _
    | cancelled =>
      obtain ⟨rfl, rfl⟩ := Prod.ext_iff.mp (Option.some.inj h)
      exact hquiet _
    | opened | slept => cases h
  | sleeping x =>
    cases ev with
    | slept | cancelled =>
      obtain ⟨rfl, rfl⟩ := Prod.ext_iff.mp (Option.some.inj h)
      exact hquiet _
    | opened | failed e | ended => cases h
  | done r => cases ev <;> cases h

/-! ## In every run -/

namespace SuperviseCall

variable {policy : Ask ε} {s s' : SuperviseCall ε} {ev : Event ε}

/-- **Each exception of the policy leaves `supervise()`**: it ends by raising the exception, and the
policy is not called again. -/
def ErrorsLeave (s : SuperviseCall ε) : Prop :=
  ∀ xs arg x ys, s.notes = xs ++ .asked arg (.error x) :: ys →
    s.phase = .done (.raised x) ∧ ∀ arg' ans, .asked arg' ans ∉ ys

/-- **The policy does not raise when it is told that the connection is open.** -/
def OpenAnswered (policy : Ask ε) (s : SuperviseCall ε) (ev : Event ε) : Prop :=
  s.phase = .opening → ev = .opened → ∃ a, policy s.notes .opened = .ok a

/-- In a call that is going on the policy has not raised yet. -/
theorem ErrorsLeave.not_failed (h : s.ErrorsLeave) (hs : s.step policy ev = some s') :
    ∀ n ∈ s.notes, n.failed = false := by
  intro n hn
  by_contra hfailed
  obtain ⟨xs, ys, hnotes⟩ := List.append_of_mem hn
  cases n with
  | acted a => exact hfailed rfl
  | asked arg ans =>
    cases ans with
    | ok a => exact hfailed rfl
    | error x =>
      have hdone := (h xs arg x ys hnotes).1
      rw [step, hdone] at hs
      cases ev <;> cases hs

theorem errorsLeave_of_leaves (h : ∀ n ∈ s.notes, n.failed = false) {ph : Phase ε}
    {ns : List (Note ε)} (hl : Leaves ph ns) : ErrorsLeave ⟨ph, s.notes ++ ns⟩ := by
  intro xs arg x ys (hnotes : s.notes ++ ns = xs ++ .asked arg (.error x) :: ys)
  have hnot : .asked arg (.error x) ∉ s.notes := fun hn => Bool.noConfusion (h _ hn)
  rcases hl with hquiet | ⟨arg', x', rfl, rfl⟩
  · have hmem : .asked arg (.error x) ∈ s.notes ++ ns := hnotes ▸ List.mem_append_cons_self
    rcases List.mem_append.mp hmem with hn | hn
    · exact absurd hn hnot
    · exact Bool.noConfusion (hquiet _ hn)
  · rcases List.eq_nil_or_concat ys with rfl | ⟨zs, z, rfl⟩
    · have hlast := List.singleton_inj.mp (List.append_inj' hnotes rfl).2
      obtain rfl := Except.error.inj (Note.asked.inj hlast).2
      exact ⟨rfl, fun _ _ => List.not_mem_nil⟩
    · have hconcat : s.notes ++ [.asked arg' (.error x')] =
          (xs ++ .asked arg (.error x) :: zs) ++ [z] := by simpa using hnotes
      have hinit := (List.append_inj' hconcat rfl).1
      exact absurd (hinit ▸ List.mem_append_cons_self) hnot

/-- **One stretch** keeps the promise exactly if it does not come upon an `"open"` that raises. -/
theorem errorsLeave_step (h : s.ErrorsLeave) (hs : s.step policy ev = some s') :
    s'.ErrorsLeave ↔ s.OpenAnswered policy ev := by
  have hnot := h.not_failed hs
  obtain ⟨⟨ph, ns⟩, hstep, rfl⟩ := Option.map_eq_some_iff.mp hs
  constructor
  · intro h' hph hev
    cases hans : policy s.notes .opened with
    | ok a => exact ⟨a, rfl⟩
    | error x =>
      rw [hph, hev] at hstep
      obtain ⟨ans, rest, hrest⟩ :=
        asked_of_announce (fun notes => policy (s.notes ++ notes)) (by simpa using hans)
      obtain rfl : _ = ns := (Prod.ext_iff.mp (Option.some.inj hstep)).2
      have hlast := (h' s.notes .opened x _ (congrArg (s.notes ++ ·) hrest)).2
      exact absurd List.mem_cons_self (hlast _ _)
  · intro hopen
    refine errorsLeave_of_leaves hnot (leaves_of_step hstep fun hph hev => ?_)
    simpa using hopen hph hev

/-- **Each exception of the policy leaves `supervise()` exactly in the runs in which the policy does
not raise when it is told that the connection is open.** -/
theorem errorsLeave_iff (policy : Ask ε) (evs : List (Event ε)) :
    (superviseCall policy).Along ErrorsLeave .init evs ↔
      (superviseCall policy).Guarded (OpenAnswered policy) .init evs := by
  have hinit : (init : SuperviseCall ε).ErrorsLeave := fun xs _ _ _ hnil => by simp [init] at hnil
  exact Machine.along_iff_guarded hinit fun _ _ _ h hs => errorsLeave_step h hs

/-- A policy that raises when it is told that the connection is open, and wants to go on. -/
def raisesAtOpen : Ask String := fun _ arg =>
  match arg with
  | .opened => .error "KeyError"
  | .closed | .exn _ => .ok (.number 1)

/-- **The policy is asked about its own exception**, and its answer puts an end to it. -/
theorem error_answered : ¬ ∀ (policy : Ask String) (evs : List (Event String)),
    (superviseCall policy).Along ErrorsLeave .init evs := by
  intro h
  have hrun := h raisesAtOpen [.opened]
  have hend := (hrun.2 _ rfl).here
  have hphase : (Phase.sleeping 1 : Phase String) = .done (.raised "KeyError") :=
    (hend [] .opened "KeyError" _ rfl).1
  cases hphase

end SuperviseCall

end FlockwaveConn.Supervision
