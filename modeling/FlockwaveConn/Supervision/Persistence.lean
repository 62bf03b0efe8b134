import FlockwaveConn.Supervision.Isolation

/-!
# Supervision/Persistence — policies that do not give up

`constant_delay_policy()` and `no_reconnection_policy` answer the same whatever happens.  A
supervisor that has such a policy keeps a connection under supervision until the connection is
removed or an exception ends `run()`, exactly if the answer is a delay that is not negative
(`persistent_iff`).
-/

namespace FlockwaveConn.Supervision

variable {κ π ε : Type*}

/-- `_constant(x)`. -/
def constant (x : Action) : κ → PolicyArg ε → Except ε Action := fun _ _ => .ok x

/-- `constant_delay_policy(seconds)`. -/
def constantDelayPolicy (seconds : ℚ) : κ → PolicyArg ε → Except ε Action :=
  constant (.number seconds)

/-- `default_policy`. -/
def defaultPolicy : κ → PolicyArg ε → Except ε Action := constantDelayPolicy 1

/-- `no_reconnection_policy`. -/
def noReconnectionPolicy : κ → PolicyArg ε → Except ε Action := constant (.bool false)

/-- The supervisor's policy looks at nothing but its arguments. -/
def Surroundings.Asks (S : Surroundings κ π ε) (f : κ → PolicyArg ε → Except ε Action) : Prop :=
  ∀ notes, S.answer S.policy notes = f

/-- The loop sleeps on this answer, and goes on. -/
def Action.Retries (a : Action) : Prop := ∃ x, a.verdict = .sleep x ∧ 0 ≤ x

theorem Action.retries_number {x : ℚ} : (Action.number x).Retries ↔ 0 ≤ x := by
  simp [Retries, verdict]

theorem Action.not_retries_false : ¬ (Action.bool false).Retries := by
  simp [Retries, verdict]

/-- The loop is at a wait. -/
def Phase.Waits (ph : Phase ε) : Prop := ∀ r, ph ≠ .done r

/-! ## The loop -/

theorem afterAction_waits_iff {a : Action} : (afterAction a : Phase ε).Waits ↔ a.Retries := by
  unfold afterAction Action.Retries
  cases a.verdict with
  | stop | invalid => simp [Phase.Waits]
  | sleep x =>
    by_cases hx : x < 0
    · simp [Phase.Waits, hx, hx.not_ge]
    · simp [Phase.Waits, hx, not_lt.mp hx]

/-- **A loop whose policy always retries** comes to another wait, unless it is cancelled. -/
theorem waits_of_step {ask : Ask ε} (hask : ∀ notes arg, ∃ a, ask notes arg = .ok a ∧ a.Retries)
    {ph ph' : Phase ε} {ev : Event ε} {ns : List (Note ε)} (hev : ev.isCancelled = false)
    (h : step ask ph ev = some (ph', ns)) : ph'.Waits := by
  have hverdict : ∀ notes arg, (verdict ask notes arg).1.Waits := by
    intro notes arg
    obtain ⟨a, ha, hretries⟩ := hask notes arg
    rw [verdict, ha]
    exact afterAction_waits_iff.mpr hretries
  cases ph with
  | opening =>
    cases ev with
    | opened =>
      obtain ⟨a, ha, -⟩ := hask [] .opened
      obtain rfl : Phase.attending = ph' := by
        simpa [step, announce, ha] using congrArg (Option.map Prod.fst) h
      simp [Phase.Waits]
    | failed e =>
      obtain rfl : (verdict ask [] (.exn e)).1 = ph' := congrArg Prod.fst (Option.some.inj h)
      exact hverdict _ _
    | cancelled => cases hev
    | ended | slept => cases h
  | attending =>
    cases ev with
    | failed e =>
      obtain rfl : (verdict ask [] (.exn e)).1 = ph' := congrArg Prod.fst (Option.some.inj h)
      exact hverdict _ _
    | ended =>
      obtain rfl : (verdict ask [] .closed).1 = ph' := congrArg Prod.fst (Option.some.inj h)
      exact hverdict _ _
    | cancelled => cases hev
    | opened | slept => cases h
  | sleeping x =>
    cases ev with
    | slept =>
      obtain rfl : Phase.opening = ph' := congrArg Prod.fst (Option.some.inj h)
      simp [Phase.Waits]
    | cancelled => cases hev
    | opened | failed e | ended => cases h
  | done r => cases ev <;> cases h

/-! ## The supervisor -/

namespace Supervisor

/-- The connection has an entry, and its call is at a wait of the loop and not cancelled. -/
def Attended (c : κ) (s : Supervisor κ π ε) : Prop :=
  ∃ e k ph, s.entries c = some e ∧ s.calls[e.call]? = some k ∧ k.args.connection = c ∧
    k.cancelled = false ∧ k.stage = .looping ph ∧ ph.Waits

variable {s s' : Supervisor κ π ε} {c : κ} {i : ℕ} {k : Call κ π ε}

/-- Another call moves on. -/
theorem Attended.frame (h : s.Attended c) (he : s'.entries c = s.entries c)
    (hcalls : ∀ e k', s.entries c = some e → s.calls[e.call]? = some k' →
      (∃ ph, k'.stage = .looping ph ∧ ph.Waits) → k'.cancelled = false →
      s'.calls[e.call]? = some k') : s'.Attended c := by
  obtain ⟨e, k', ph, hentry, hk', hconn, hcanc, hstage, hwaits⟩ := h
  exact ⟨e, k', ph, he.trans hentry, hcalls e k' hentry hk' ⟨ph, hstage, hwaits⟩ hcanc, hconn,
    hcanc, hstage, hwaits⟩

/-- A call that is not at a wait, or is cancelled, moves on. -/
theorem Attended.modify (h : s.Attended c) (hk : s.calls[i]? = some k)
    (hnot : (∀ ph, k.stage = .looping ph → ¬ ph.Waits) ∨ k.cancelled = true)
    {f : Call κ π ε → Call κ π ε} (he : s'.entries c = s.entries c)
    (hcalls : s'.calls = s.calls.modify i f) : s'.Attended c := by
  refine h.frame he fun e k' _ hk' ⟨ph, hstage, hwaits⟩ hcanc => ?_
  have hne : i ≠ e.call := by
    rintro rfl
    obtain rfl := Option.some.inj (hk.symm.trans hk')
    rcases hnot with hnot | hnot
    · exact hnot ph hstage hwaits
    · exact absurd (hnot.symm.trans hcanc) (by simp)
  rw [hcalls, List.getElem?_modify_ne _ _ hne]
  exact hk'

/-- …and ends. -/
theorem Attended.finish (h : s.Attended c) (hk : s.calls[i]? = some k)
    (hnot : ∀ ph, k.stage = .looping ph → ¬ ph.Waits) (r : Result ε) :
    (s.finish i r).Attended c ∨ (s.finish i r).down = true := by
  unfold Supervisor.finish
  split
  · exact .inr rfl
  · exact .inl (h.modify hk (.inl hnot) rfl rfl)

variable [DecidableEq κ] {S : Surroundings κ π ε} {l : Label κ π ε}

/-- Whatever the supervisor's policy is asked, it answers that there is to be another attempt. -/
def AlwaysRetries (S : Surroundings κ π ε) : Prop :=
  ∀ notes c arg, ∃ a, S.answer S.policy notes c arg = .ok a ∧ a.Retries

/-- **One step** that is not the `remove()` of the connection. -/
theorem Attended.step (hS : AlwaysRetries S) (hr : s.Registered) (h : s.Attended c)
    (hs : s.step S l = some s') (hl : l = .receive → s.queue.head? ≠ some (.remove c)) :
    s'.Attended c ∨ s'.down = true := by
  cases turn_of_step hs with
  | send x => exact .inl h
  | @receive x xs hq =>
    refine .inl ?_
    cases x with
    | add x =>
      refine h.frame rfl fun e k' _ hk' _ _ => ?_
      exact (List.getElem?_append_left (List.getElem?_eq_some_iff.mp hk').1).trans hk'
    | remove d =>
      have hd : d ≠ c := fun hd => hl rfl (by rw [hq, hd]; rfl)
      simp only [process]
      split
      · next e' he' =>
        refine h.frame rfl fun e k' he hk' _ _ => ?_
        obtain ⟨ph, hview⟩ := hr.ofEntry c e he
        obtain ⟨ph', hview'⟩ := hr.ofEntry d e' he'
        have hne : e'.call ≠ e.call := fun heq => by
          rw [← heq, hview', Option.some.injEq, Prod.mk.injEq] at hview
          exact hd hview.1
        exact (List.getElem?_modify_ne _ _ hne).trans hk'
      · exact h
  | @start i k b hk hst =>
    have hnot : ∀ ph, k.stage = .looping ph → ¬ ph.Waits := fun ph hph => by simp [hst] at hph
    unfold Supervisor.start
    split_ifs with hentry
    · exact h.finish hk hnot _
    · exact h.finish hk hnot _
    · refine .inl (h.modify hk (.inl hnot) ?_ rfl)
      refine Function.update_of_ne (fun hc => hentry ?_) ..
      obtain ⟨e, -, -, he, -⟩ := h
      rw [← hc, he]
      rfl
  | @advance i k ph ph' ev ns hk hst hph =>
    refine .inl ?_
    cases hcanc : k.cancelled with
    | true => exact h.modify hk (.inr hcanc) rfl rfl
    | false =>
      have hev : ev.isCancelled = false := by
        by_contra hev
        simp [Supervisor.step, hk, hst, hcanc, hev] at hs
      have hwaits := waits_of_step (fun notes arg => hS _ _ arg) hev hph
      obtain ⟨e, k', ph₀, hentry, hk', hconn, hcanc', hstage, hwaits₀⟩ := h
      by_cases hi : i = e.call
      · subst hi
        obtain rfl := Option.some.inj (hk.symm.trans hk')
        exact ⟨e, k.setStage (.looping ph'), ph', hentry, by simp [setStage, hk], hconn, hcanc, rfl,
          hwaits⟩
      · exact ⟨e, k', ph₀, hentry, (List.getElem?_modify_ne _ _ hi).trans hk', hconn, hcanc',
          hstage, hwaits₀⟩
  | @leave i k r hk hst =>
    have hnot : ∀ ph, k.stage = .looping ph → ¬ ph.Waits := by
      rintro ph hph hwaits
      obtain rfl : Phase.done r = ph := Stage.looping.inj (hst.symm.trans hph)
      exact hwaits r rfl
    -- the entry that goes is that of another connection
    have hne : c ≠ k.args.connection := by
      rintro rfl
      obtain ⟨e, k', ph, he, hk', -, -, hstage, hwaits⟩ := h
      obtain ⟨e', he', hcall⟩ := hr.ofCall i _ _ (hst ▸ views_getElem? hk)
      obtain rfl := Option.some.inj (he.symm.trans he')
      rw [hcall, hk, Option.some.injEq] at hk'
      exact hnot ph (hk' ▸ hstage) hwaits
    unfold Supervisor.leave
    dsimp only
    split
    · exact .inl (h.modify hk (.inl hnot) (Function.update_of_ne hne ..) rfl)
    · have h' : Attended c { s with entries := Function.update s.entries k.args.connection none } :=
        h.frame (Function.update_of_ne hne ..) fun _ _ _ hk' _ _ => hk'
      exact h'.finish hk hnot r
  | @closed i k r o hk hst =>
    exact h.finish hk (fun ph hph => by simp [hst] at hph) _

end Supervisor

/-! ## Runs -/

namespace Serving

/-- **A supervised connection stays so**, unless it is removed, or an exception ends `run()`. -/
def Persistent (s : Serving κ π ε) (l : Label κ π ε) (s' : Serving κ π ε) : Prop :=
  ∀ c, s.supervisor.Attended c → s'.supervisor.Attended c ∨ s'.supervisor.down = true ∨
    l = .supervisor .receive ∧ s.supervisor.queue.head? = some (.remove c)

variable [DecidableEq κ] {S : Surroundings κ π ε} {s s' : Serving κ π ε} {l : Label κ π ε}

theorem persistent_step (hS : Supervisor.AlwaysRetries S) (h : Sound s)
    (hs : s.step S l = some s') : Persistent s l s' := by
  intro c hc
  cases l with
  | supervisor l =>
    obtain ⟨x, hx, rfl⟩ := Option.map_eq_some_iff.mp hs
    by_cases hl : l = .receive → s.supervisor.queue.head? ≠ some (.remove c)
    · exact (hc.step hS h.registered hx hl).imp_right .inl
    · push Not at hl
      exact .inr (.inr ⟨congrArg _ hl.1, hl.2⟩)
  | breaks i e =>
    simp only [step] at hs
    split at hs
    · next k hk =>
      split at hs
      · split_ifs at hs with hcanc
        obtain rfl := Option.some.inj hs
        exact .inl (hc.modify hk (.inr (by simp_all)) rfl rfl)
      · cases hs
    · cases hs
  | accept i =>
    simp only [step] at hs
    split at hs
    · split at hs
      · split_ifs at hs
        obtain rfl := Option.some.inj hs
        exact .inl hc
      · cases hs
    · cases hs
  | clientEnds j e =>
    simp only [step] at hs
    split at hs
    · split_ifs at hs
      · obtain rfl := Option.some.inj hs
        exact .inr (.inl rfl)
      · obtain rfl := Option.some.inj hs
        exact .inl hc
    · cases hs

/-- The loop has opened its connection, and nothing else has happened. -/
def attending (S : Surroundings κ π ε) (a : Action) (c : κ) : Serving κ π ε where
  supervisor :=
    { queue := []
      entries := Function.update (fun _ => none) c (some ⟨S.policy, 0⟩)
      calls := [⟨⟨c, true, none⟩, .looping .attending, false, true⟩]
      down := false
      notes := [(0, S.policy, .asked .opened (.ok a))] }
  clients := []

theorem exec_attending {a : Action} (hS : S.Asks (constant a)) (c : κ) :
    (serving S).exec .init [.supervisor (.send (.add ⟨c, true, none⟩)), .supervisor .receive,
      .supervisor (.start 0 false), .supervisor (.event 0 .opened)] = some (attending S a c) := by
  have hask : ∀ s notes arg, Supervisor.ask S 0 ⟨c, true, none⟩ s notes arg = .ok a :=
    fun s notes arg => congrFun (congrFun (hS _) c) arg
  simp [Machine.exec, serving, step, Supervisor.step, init, Supervisor.init, Supervisor.capacity,
    Supervisor.process, Supervisor.start, Supervisor.advance, Supervision.step, announce, hask,
    Event.isCancelled, Call.spawn, attending, Supervisor.setStage, Call.setStage,
    Supervisor.handedOver]

theorem step_attending {a : Action} (hS : S.Asks (constant a)) (c : κ) :
    ∃ s', (serving S).step (attending S a c) (.supervisor (.event 0 .ended)) = some s' ∧
      s'.supervisor.down = false ∧
      s'.supervisor.calls = [⟨⟨c, true, none⟩, .looping (afterAction a), false, true⟩] := by
  have hask : ∀ s notes arg, Supervisor.ask S 0 ⟨c, true, none⟩ s notes arg = .ok a :=
    fun s notes arg => congrFun (congrFun (hS _) c) arg
  simp [serving, step, Supervisor.step, Supervisor.advance, Supervision.step, verdict, hask,
    Event.isCancelled, attending, Supervisor.setStage, Call.setStage]

/-- **A supervisor whose policy always answers the same keeps each connection under supervision**,
in every run, exactly if the answer makes the loop go on. -/
theorem persistent_iff {a : Action} (hS : S.Asks (constant a)) (c : κ) :
    (∀ ls, (serving S).Throughout Persistent .init ls) ↔ a.Retries := by
  constructor
  · intro h
    obtain ⟨s', hs', hdown, hcalls⟩ := step_attending hS c
    have hbefore : (attending S a c).supervisor.Attended c :=
      ⟨⟨S.policy, 0⟩, _, .attending, by simp [attending], rfl, rfl, rfl, rfl, by simp [Phase.Waits]⟩
    have hlast := (h ([.supervisor (.send (.add ⟨c, true, none⟩)), .supervisor .receive,
      .supervisor (.start 0 false), .supervisor (.event 0 .opened)] ++
        [.supervisor (.event 0 .ended)])).last (exec_attending hS c) hs' c hbefore
    rcases hlast with ⟨e, k, ph, -, hk, -, -, hstage, hwaits⟩ | hlast | ⟨hlast, -⟩
    · rw [hcalls] at hk
      obtain rfl := List.mem_singleton.mp (List.mem_of_getElem? hk)
      exact afterAction_waits_iff.mp (Stage.looping.inj hstage ▸ hwaits)
    · exact absurd (hdown.symm.trans hlast) (by simp)
    · simp at hlast
  · intro ha ls
    have hretries : Supervisor.AlwaysRetries S := fun notes c arg => ⟨a, by rw [hS]; rfl, ha⟩
    exact (Machine.guarded_anyStep _ _).throughout (sound_init S) fun _ _ _ hs _ hst =>
      ⟨sound_of_step hs hst, persistent_step hretries hs hst⟩

/-- A supervisor with one of the policies of the module. -/
def servingWith (f : Bool → PolicyArg Unit → Except Unit Action) :
    Machine (Serving Bool Unit Unit) (Label Bool Unit Unit) :=
  serving ⟨(), fun _ => false, fun _ _ => f⟩

/-- The default policy keeps a connection under supervision, and the other one does not. -/
theorem persistent_default :
    (∀ ls, (servingWith defaultPolicy).Throughout Persistent .init ls) ∧
      ¬ ∀ ls, (servingWith noReconnectionPolicy).Throughout Persistent .init ls :=
  ⟨(persistent_iff (fun _ => rfl) true).mpr (Action.retries_number.mpr (by norm_num)),
    fun h => Action.not_retries_false ((persistent_iff (fun _ => rfl) true).mp h)⟩

end Serving

end FlockwaveConn.Supervision
