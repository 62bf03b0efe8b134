import FlockwaveConn.Supervision.Supervisor

/-!
# Supervision/Policy — whose verdict it is

`ConnectionSupervisor.supervise()` works out the policy of a connection (`policy or self._policy`),
stores it in the entry, and then hands `self._policy` to the loop.  So each call asks the policy the
supervisor was created with, and the entry's policy is asked nothing: a policy given to `add()`
decides exactly if it is the supervisor's own (`ownPolicy_iff`).
-/

namespace FlockwaveConn.Supervision

/-! ## What the loop notes -/

/-- A loop acts on what the policy it asked has just returned. -/
theorem asked_of_acted {ε : Type*} {ask : Ask ε} {ph ph' : Phase ε} {ev : Event ε}
    {ns : List (Note ε)} (h : step ask ph ev = some (ph', ns)) {a : Action} (ha : .acted a ∈ ns) :
    ∃ arg, .asked arg (.ok a) ∈ ns := by
  have hv : ∀ (notes : List (Note ε)) (arg : PolicyArg ε), .acted a ∉ notes →
      .acted a ∈ (verdict ask notes arg).2 → .asked arg (.ok a) ∈ (verdict ask notes arg).2 := by
    intro notes arg hnot hin
    unfold verdict at hin ⊢
    split at hin <;> simp_all
  cases ph with
  | opening =>
    cases ev with
    | opened =>
      simp only [step, announce, Option.some.injEq] at h
      split at h
      · obtain rfl := (Prod.ext_iff.mp h).2
        simp at ha
      · obtain rfl := (Prod.ext_iff.mp h).2
        exact ⟨_, hv _ _ (by simp) ha⟩
    | failed e =>
      obtain rfl := (Prod.ext_iff.mp (Option.some.inj h)).2
      exact ⟨_, hv _ _ (by simp) ha⟩
    | cancelled =>
      obtain rfl := (Prod.ext_iff.mp (Option.some.inj h)).2
      cases ha
    | ended | slept => cases h
  | attending =>
    cases ev with
    | failed e | ended =>
      obtain rfl := (Prod.ext_iff.mp (Option.some.inj h)).2
      exact ⟨_, hv _ _ (by simp) ha⟩
    | cancelled =>
      obtain rfl := (Prod.ext_iff.mp (Option.some.inj h)).2
      cases ha
    | opened | slept => cases h
  | sleeping x =>
    cases ev with
    | slept | cancelled =>
      obtain rfl := (Prod.ext_iff.mp (Option.some.inj h)).2
      cases ha
    | opened | failed e | ended => cases h
  | done r => cases ev <;> cases h

/-- Once the connection is open, the policy is told so. -/
theorem asked_of_opened {ε : Type*} (ask : Ask ε) :
    ∃ ans, .asked .opened ans ∈ (announce ask).2 := by
  unfold announce
  split
  · exact ⟨_, List.mem_singleton_self _⟩
  · next e he =>
      refine ⟨.error e, ?_⟩
      unfold verdict
      split <;> exact List.mem_append_left _ (List.mem_singleton_self _)

namespace Supervisor

variable {κ π ε : Type*}

/-- The policy of a connection: the one `add()` was given, or the supervisor's. -/
def ownPolicy (S : Surroundings κ π ε) (x : Job κ π) : π := x.policy.getD S.policy

/-- **The policy of a connection is the one that decides**: whatever a call of `supervise()` asks,
it asks this policy, and each retry or stop is what this policy has returned. -/
structure OwnPolicy (S : Surroundings κ π ε) (s : Supervisor κ π ε) : Prop where
  asked : ∀ (i : ℕ) (k : Call κ π ε) (p : π) (arg : PolicyArg ε) (x : Except ε Action),
    s.calls[i]? = some k → (i, p, .asked arg x) ∈ s.notes → p = ownPolicy S k.args
  acted : ∀ (i : ℕ) (k : Call κ π ε) (p : π) (a : Action),
    s.calls[i]? = some k → (i, p, .acted a) ∈ s.notes →
      ∃ arg, (i, ownPolicy S k.args, .asked arg (.ok a)) ∈ s.notes

/-- `add()` is called without a policy, or with this one. -/
def AddsWith (p : π) (_ : Supervisor κ π ε) : Label κ π ε → Prop
  | .send (.add x) => x.policy = none ∨ x.policy = some p
  | _ => True

/-- A job that was given no policy, or this one. -/
def GivenOnly (p : π) (x : Job κ π) : Prop := x.policy = none ∨ x.policy = some p

/-- The jobs on the queue and in the nursery were given no policy but this one. -/
structure GivenOnly.Everywhere (p : π) (s : Supervisor κ π ε) : Prop where
  queue : ∀ x, .add x ∈ s.queue → GivenOnly p x
  calls : ∀ k ∈ s.calls, GivenOnly p k.args

/-- The notes are all the supervisor's policy's, and each action has its answer. -/
structure Noted (S : Surroundings κ π ε) (s : Supervisor κ π ε) : Prop where
  policy : ∀ x ∈ s.notes, x.2.1 = S.policy
  acted : ∀ i p a, (i, p, .acted a) ∈ s.notes → ∃ arg, (i, p, .asked arg (.ok a)) ∈ s.notes

/-! ## One step -/

section

variable {S : Surroundings κ π ε} {s s' : Supervisor κ π ε} {p : π} {l : Label κ π ε}

theorem finish_notes (s : Supervisor κ π ε) (i : ℕ) (r : Result ε) :
    (s.finish i r).notes = s.notes := by
  unfold finish
  split <;> rfl

theorem finish_queue (s : Supervisor κ π ε) (i : ℕ) (r : Result ε) :
    (s.finish i r).queue = s.queue := by
  unfold finish
  split <;> rfl

/-- The arguments of a call never change. -/
theorem args_of_mem_modify {P : Job κ π → Prop} {cs : List (Call κ π ε)} {i : ℕ}
    {f : Call κ π ε → Call κ π ε} (hf : ∀ k, (f k).args = k.args) (h : ∀ k ∈ cs, P k.args) :
    ∀ k ∈ cs.modify i f, P k.args :=
  forall_mem_modify h fun k hk => by rw [hf]; exact h k (List.mem_of_getElem? hk)

theorem args_of_mem_finish {P : Job κ π → Prop} {i : ℕ} {r : Result ε}
    (h : ∀ k ∈ s.calls, P k.args) : ∀ k ∈ (s.finish i r).calls, P k.args := by
  have hset : ∀ k ∈ (s.setStage i (.finished r)).calls, P k.args :=
    args_of_mem_modify (fun _ => rfl) h
  unfold finish
  split
  · intro k hk
    obtain ⟨k', hk', rfl⟩ := List.mem_map.mp hk
    exact hset k' hk'
  · exact hset

theorem process_queue (s : Supervisor κ π ε) (x : Command κ π) :
    (s.process x).queue = s.queue := by
  cases x with
  | add x => rfl
  | remove c =>
    simp only [process]
    split <;> rfl

theorem process_notes (s : Supervisor κ π ε) (x : Command κ π) :
    (s.process x).notes = s.notes := by
  cases x with
  | add x => rfl
  | remove c =>
    simp only [process]
    split <;> rfl

theorem start_queue_notes [DecidableEq κ] (i : ℕ) (k : Call κ π ε) (b : Bool) :
    (s.start S i k b).queue = s.queue ∧ (s.start S i k b).notes = s.notes := by
  unfold start
  split
  · exact ⟨finish_queue .., finish_notes ..⟩
  split
  · exact ⟨finish_queue .., finish_notes ..⟩
  · exact ⟨rfl, rfl⟩

theorem leave_queue_notes [DecidableEq κ] (i : ℕ) (k : Call κ π ε) (r : Result ε) :
    (s.leave i k r).queue = s.queue ∧ (s.leave i k r).notes = s.notes := by
  unfold leave
  split
  · exact ⟨rfl, rfl⟩
  · exact ⟨finish_queue .., finish_notes ..⟩

theorem Noted.congr (h : Noted S s) (hn : s'.notes = s.notes) : Noted S s' :=
  ⟨hn ▸ h.policy, hn ▸ h.acted⟩

theorem ownPolicy_of_given (hS : S.policy = p) {x : Job κ π} (h : GivenOnly p x) :
    ownPolicy S x = p := by
  rcases h with h | h <;> simp [ownPolicy, h, hS]

variable [DecidableEq κ]

/-- Jobs come in through `add()` only. -/
theorem GivenOnly.Everywhere.turn (h : GivenOnly.Everywhere p s) (hg : AddsWith p s l)
    (ht : Turn S s l s') : GivenOnly.Everywhere p s' := by
  cases ht with
  | send x =>
    refine ⟨fun y hy => ?_, h.calls⟩
    rcases List.mem_append.mp hy with hy | hy
    · exact h.queue y hy
    · obtain rfl := List.mem_singleton.mp hy
      exact hg
  | @receive x xs hq =>
    have hmem : ∀ y, y ∈ xs → y ∈ s.queue := fun y hy => hq ▸ List.mem_cons_of_mem x hy
    refine ⟨fun y hy => h.queue y (hmem _ (by rwa [process_queue] at hy)), ?_⟩
    cases x with
    | add x =>
      intro k hk
      rcases List.mem_append.mp hk with hk | hk
      · exact h.calls k hk
      · obtain rfl := List.mem_singleton.mp hk
        exact h.queue x (hq ▸ List.mem_cons_self)
    | remove c =>
      simp only [process]
      split
      · exact args_of_mem_modify (fun _ => rfl) h.calls
      · exact h.calls
  | @start i k b hk hst =>
    have hq := (start_queue_notes (S := S) (s := s) i k b).1
    refine ⟨fun y hy => h.queue y (hq ▸ hy), ?_⟩
    unfold start
    split
    · exact args_of_mem_finish h.calls
    split
    · exact args_of_mem_finish h.calls
    · exact args_of_mem_modify (fun _ => rfl) h.calls
  | advance => exact ⟨h.queue, args_of_mem_modify (fun _ => rfl) h.calls⟩
  | @leave i k r hk hst =>
    have hq := (leave_queue_notes (s := s) i k r).1
    refine ⟨fun y hy => h.queue y (hq ▸ hy), ?_⟩
    unfold leave
    split
    · exact args_of_mem_modify (fun _ => rfl) h.calls
    · exact args_of_mem_finish h.calls
  | closed hk hst =>
    exact ⟨fun y hy => h.queue y (finish_queue s _ _ ▸ hy), args_of_mem_finish h.calls⟩

/-- **Only a loop makes notes, and it asks the policy it was handed.** -/
theorem Noted.turn (h : Noted S s) (ht : Turn S s l s') : Noted S s' := by
  cases ht with
  | send => exact h.congr rfl
  | receive => exact h.congr (process_notes _ _)
  | start => exact h.congr (start_queue_notes _ _ _).2
  | leave => exact h.congr (leave_queue_notes _ _ _).2
  | closed => exact h.congr (finish_notes s _ _)
  | @advance i k ph ph' ev ns hk hst hph =>
    refine ⟨fun x hx => ?_, fun j q a hin => ?_⟩
    · rcases List.mem_append.mp hx with hx | hx
      · exact h.policy x hx
      · obtain ⟨n, _, rfl⟩ := List.mem_map.mp hx
        rfl
    · rcases List.mem_append.mp hin with hin | hin
      · obtain ⟨arg, harg⟩ := h.acted j q a hin
        exact ⟨arg, List.mem_append_left _ harg⟩
      · obtain ⟨n, hn, heq⟩ := List.mem_map.mp hin
        obtain ⟨rfl, rfl, rfl⟩ : i = j ∧ S.policy = q ∧ n = .acted a := by
          simpa [handedOver] using heq
        obtain ⟨arg, harg⟩ := asked_of_acted hph hn
        exact ⟨arg, List.mem_append_right _ (List.mem_map.mpr ⟨_, harg, rfl⟩)⟩

/-! ## Whole runs -/

theorem ownPolicy_of_reach (hS : S.policy = p) (h : (supervisor S).Reach (AddsWith p) s) :
    OwnPolicy S s := by
  obtain ⟨hgiven, hnoted⟩ : GivenOnly.Everywhere p s ∧ Noted S s := by
    refine h.invariant (I := fun s => GivenOnly.Everywhere p s ∧ Noted S s) ⟨?_, ?_⟩
      fun _ _ _ hI hg hs => ⟨hI.1.turn hg (turn_of_step hs), hI.2.turn (turn_of_step hs)⟩
    · exact ⟨fun x hx => (nomatch hx), fun k hk => (nomatch hk)⟩
    · exact ⟨fun x hx => (nomatch hx), fun i q a hx => (nomatch hx)⟩
  refine ⟨fun i k q arg x hk hn => ?_, fun i k q a hk hn => ?_⟩
  · rw [ownPolicy_of_given hS (hgiven.calls k (List.mem_of_getElem? hk)), ← hS]
    exact hnoted.policy _ hn
  · obtain ⟨arg, harg⟩ := hnoted.acted i q a hn
    obtain rfl : q = S.policy := hnoted.policy _ hn
    rw [ownPolicy_of_given hS (hgiven.calls k (List.mem_of_getElem? hk)), ← hS]
    exact ⟨arg, harg⟩

/-- The `"open"` of a connection that was added with a policy is the supervisor's policy's. -/
theorem asked_of_add (S : Surroundings κ π ε) (c : κ) (p : π) :
    ∃ (s : Supervisor κ π ε) (k : Call κ π ε) (ans : Except ε Action),
      (supervisor S).Reach (AddsWith p) s ∧ s.calls[0]? = some k ∧ k.args = ⟨c, true, some p⟩ ∧
        (0, S.policy, .asked .opened ans) ∈ s.notes := by
  let x : Job κ π := ⟨c, true, some p⟩
  let s₂ : Supervisor κ π ε := { (init : Supervisor κ π ε) with calls := [.spawn x] }
  have h₁ : (supervisor S).Reach (AddsWith p)
      { (init : Supervisor κ π ε) with queue := [.add x] } :=
    Machine.Reach.init.next (l := .send (.add x)) (.inr rfl) rfl
  have h₂ : (supervisor S).Reach (AddsWith p) s₂ := h₁.next (l := .receive) trivial rfl
  let k : Call κ π ε := ⟨x, .looping .opening, false, true⟩
  have hs₃ : s₂.start S 0 (.spawn x) false =
      { s₂ with entries := Function.update s₂.entries c (some ⟨p, 0⟩), calls := [k] } := by
    simp [start, s₂, init, x, k, Call.spawn]
  have h₃ : (supervisor S).Reach (AddsWith p) (s₂.start S 0 (.spawn x) false) :=
    h₂.next (l := .start 0 false) trivial rfl
  rw [hs₃] at h₃
  obtain ⟨ans, hans⟩ := asked_of_opened (ask S 0 x { s₂ with calls := [k] })
  refine ⟨_, k.setStage _, ans, h₃.next (l := .event 0 .opened) trivial rfl, rfl, rfl, ?_⟩
  exact List.mem_map.mpr ⟨_, hans, rfl⟩

/-- **Given to `add()`, a policy decides exactly if it is the supervisor's own.** -/
theorem ownPolicy_iff (S : Surroundings κ π ε) (c : κ) (p : π) :
    (∀ s, (supervisor S).Reach (AddsWith p) s → OwnPolicy S s) ↔ p = S.policy := by
  constructor
  · intro h
    obtain ⟨s, k, ans, hs, hk, hargs, hn⟩ := asked_of_add S c p
    have hown := (h s hs).asked 0 k _ _ _ hk hn
    simpa [ownPolicy, hargs] using hown.symm
  · rintro rfl s hs
    exact ownPolicy_of_reach rfl hs

end

/-- The supervisor's own policy retries at once, the one that is given stops. -/
def impatient : Surroundings (Fin 1) Bool Unit where
  policy := true
  isListener := fun _ => false
  answer := fun p _ _ _ => .ok (if p then .number 0 else .bool false)

/-- A connection is added with a policy that stops, the opening fails, and it is tried again. -/
theorem stop_overruled :
    ¬ ∀ s, (supervisor impatient).Reach (AddsWith false) s → OwnPolicy impatient s := by
  intro h
  have h₁ : (supervisor impatient).Reach (AddsWith false) _ :=
    .tail .refl ⟨.send (.add ⟨0, true, some false⟩), Or.inr rfl, rfl⟩
  have h₂ : (supervisor impatient).Reach (AddsWith false) _ :=
    .tail (.tail h₁ ⟨.receive, trivial, rfl⟩) ⟨.start 0 false, trivial, rfl⟩
  have h₃ : (supervisor impatient).Reach (AddsWith false) _ :=
    .tail h₂ ⟨.event 0 (.failed ()), trivial, rfl⟩
  have hown : true = false := (h _ h₃).asked 0 _ true (.exn ()) (.ok (.number 0)) rfl (.head _)
  cases hown

end Supervisor

end FlockwaveConn.Supervision
