import FlockwaveConn.Supervision.Supervisor

/-!
# Supervision/Commands — when a `remove()` takes effect

The entries of a supervisor are the calls of `supervise()` that are inside their loop, each under
its own connection (`Registered`).  A call that has been spawned but not scheduled has no entry yet,
so a `remove()` that is processed before it finds nothing to cancel, and the call supervises the
connection from then on.

A `remove()` that finds each earlier call for its connection past its first step is not lost: the
calls that are left are doomed, and stay so while no new one is spawned (`Doomed`).
-/

namespace FlockwaveConn.Supervision.Supervisor

variable {κ π ε : Type*}

/-! ## The entries are the live calls -/

/-- The calls, as the entries see them. -/
def views (s : Supervisor κ π ε) : List (κ × Stage ε) := s.calls.map Call.view

theorem views_getElem? {s : Supervisor κ π ε} {i : ℕ} {k : Call κ π ε} (h : s.calls[i]? = some k) :
    s.views[i]? = some (k.args.connection, k.stage) := by
  rw [views, List.getElem?_map, h]
  rfl

theorem map_view_modify (l : List (Call κ π ε)) (i : ℕ) {f : Call κ π ε → Call κ π ε}
    {g : κ × Stage ε → κ × Stage ε} (h : ∀ k, (f k).view = g k.view) :
    (l.modify i f).map Call.view = (l.map Call.view).modify i g := by
  refine List.ext_getElem? fun j => ?_
  simp only [List.getElem?_map, List.getElem?_modify]
  cases l[j]? with
  | none => rfl
  | some k => by_cases hij : i = j <;> simp [hij, h]

/-- The entries do not see that a scope is cancelled. -/
theorem map_view_cancel (l : List (Call κ π ε)) (i : ℕ) :
    (l.modify i Call.cancel).map Call.view = l.map Call.view := by
  calc (l.modify i Call.cancel).map Call.view
      = (l.map Call.view).modify i id := map_view_modify _ _ fun _ => rfl
    _ = l.map Call.view := List.modify_id ..

theorem views_process_remove (s : Supervisor κ π ε) (c : κ) :
    (s.process (.remove c)).views = s.views := by
  simp only [process]
  split
  · exact map_view_cancel s.calls _
  · rfl

theorem views_setStage (s : Supervisor κ π ε) (i : ℕ) (st : Stage ε) :
    (s.setStage i st).views = s.views.modify i fun v => (v.1, st) :=
  map_view_modify s.calls i fun _ => rfl

theorem views_crash (s : Supervisor κ π ε) : s.crash.views = s.views := by
  simp only [views, crash, List.map_map]
  rfl

theorem views_finish (s : Supervisor κ π ε) (i : ℕ) (r : Result ε) :
    (s.finish i r).views = s.views.modify i fun v => (v.1, .finished r) := by
  unfold finish
  split
  · rw [views_crash, views_setStage]
  · rw [views_setStage]

theorem finish_entries (s : Supervisor κ π ε) (i : ℕ) (r : Result ε) :
    (s.finish i r).entries = s.entries := by
  unfold finish
  split <;> rfl

/-- **The entries are the calls that are inside their loop.** -/
structure Registered (s : Supervisor κ π ε) : Prop where
  ofEntry : ∀ c e, s.entries c = some e → ∃ ph, s.views[e.call]? = some (c, .looping ph)
  ofCall : ∀ i c ph, s.views[i]? = some (c, .looping ph) → ∃ e, s.entries c = some e ∧ e.call = i

namespace Registered

variable {s s' : Supervisor κ π ε}

theorem congr (h : Registered s) (he : s'.entries = s.entries) (hv : s'.views = s.views) :
    Registered s' := by
  refine ⟨fun c e hc => ?_, fun i c ph hi => ?_⟩
  · rw [hv]
    exact h.ofEntry c e (he ▸ hc)
  · rw [he]
    exact h.ofCall i c ph (hv ▸ hi)

/-- The entry of a connection is the only live call for it. -/
theorem call_unique (h : Registered s) {i j : ℕ} {c : κ} {ph ph' : Phase ε}
    (hi : s.views[i]? = some (c, .looping ph)) (hj : s.views[j]? = some (c, .looping ph')) :
    i = j := by
  obtain ⟨e, he, rfl⟩ := h.ofCall i c ph hi
  obtain ⟨e', he', rfl⟩ := h.ofCall j c ph' hj
  rw [Option.some.inj (he.symm.trans he')]

/-- What there is to see once a call has moved on. -/
theorem modify_iff {l : List (κ × Stage ε)} {i j : ℕ} {c d : κ} {st st' st'' : Stage ε}
    (hi : l[i]? = some (c, st)) :
    (l.modify i fun v => (v.1, st'))[j]? = some (d, st'')
      ↔ i = j ∧ c = d ∧ st' = st'' ∨ i ≠ j ∧ l[j]? = some (d, st'') := by
  rw [List.getElem?_modify]
  by_cases hij : i = j
  · subst hij
    simp [hi]
  · simp [hij]

/-- The call of an entry is not one that is outside its loop. -/
theorem call_ne (h : Registered s) {i : ℕ} {c d : κ} {st : Stage ε} {e : Entry π}
    (hi : s.views[i]? = some (c, st)) (hst : ∀ ph, st ≠ .looping ph) (hd : s.entries d = some e) :
    i ≠ e.call := by
  rintro rfl
  obtain ⟨ph, hph⟩ := h.ofEntry d e hd
  rw [hi] at hph
  exact hst ph (Prod.ext_iff.mp (Option.some.inj hph)).2

/-- A call outside its loop may move on outside it. -/
theorem modify_idle (h : Registered s) {i : ℕ} {c : κ} {st st' : Stage ε}
    (hi : s.views[i]? = some (c, st)) (hst : ∀ ph, st ≠ .looping ph)
    (hst' : ∀ ph, st' ≠ .looping ph) (he : s'.entries = s.entries)
    (hv : s'.views = s.views.modify i fun v => (v.1, st')) : Registered s' := by
  refine ⟨fun d e hd => ?_, fun j d ph hj => ?_⟩
  · rw [he] at hd
    obtain ⟨ph, hph⟩ := h.ofEntry d e hd
    exact ⟨ph, by rw [hv, modify_iff hi]; exact .inr ⟨h.call_ne hi hst hd, hph⟩⟩
  · rw [he]
    rw [hv, modify_iff hi] at hj
    rcases hj with ⟨_, _, hph⟩ | ⟨_, hj⟩
    · exact absurd hph (hst' ph)
    · exact h.ofCall j d ph hj

/-- A call inside its loop may move on inside it. -/
theorem modify_live (h : Registered s) {i : ℕ} {c : κ} {ph₀ ph₁ : Phase ε}
    (hi : s.views[i]? = some (c, .looping ph₀)) (he : s'.entries = s.entries)
    (hv : s'.views = s.views.modify i fun v => (v.1, .looping ph₁)) : Registered s' := by
  refine ⟨fun d e hd => ?_, fun j d ph hj => ?_⟩
  · obtain ⟨ph, hph⟩ := h.ofEntry d e (he ▸ hd)
    by_cases hie : i = e.call
    · obtain rfl : c = d := by
        rw [← hie, hi] at hph
        exact (Prod.ext_iff.mp (Option.some.inj hph)).1
      exact ⟨ph₁, by rw [hv, modify_iff hi]; exact .inl ⟨hie, rfl, rfl⟩⟩
    · exact ⟨ph, by rw [hv, modify_iff hi]; exact .inr ⟨hie, hph⟩⟩
  · rw [he]
    rw [hv, modify_iff hi] at hj
    rcases hj with ⟨rfl, rfl, _⟩ | ⟨_, hj⟩
    · exact h.ofCall i c ph₀ hi
    · exact h.ofCall j d ph hj

/-- A new call has no entry. -/
theorem append (h : Registered s) {c : κ} (he : s'.entries = s.entries)
    (hv : s'.views = s.views ++ [(c, .starting)]) : Registered s' := by
  refine ⟨fun d e hd => ?_, fun j d ph hj => ?_⟩
  · obtain ⟨ph, hph⟩ := h.ofEntry d e (he ▸ hd)
    exact ⟨ph, by rw [hv, List.getElem?_append_left (List.getElem?_eq_some_iff.mp hph).1, hph]⟩
  · rw [he]
    refine h.ofCall j d ph ?_
    rw [hv, List.getElem?_append] at hj
    split at hj
    · exact hj
    · cases hn : j - s.views.length <;> simp [hn] at hj

variable [DecidableEq κ]

/-- The first step of a call creates its entry. -/
theorem enter (h : Registered s) {i : ℕ} {e : Entry π} {c : κ} {ph₁ : Phase ε}
    (hi : s.views[i]? = some (c, .starting)) (hnone : s.entries c = none) (hcall : e.call = i)
    (he : s'.entries = Function.update s.entries c (some e))
    (hv : s'.views = s.views.modify i fun v => (v.1, .looping ph₁)) : Registered s' := by
  refine ⟨fun d e' hd => ?_, fun j d ph hj => ?_⟩
  · rw [he, Function.update_apply] at hd
    split at hd
    · next hdc =>
      obtain rfl := Option.some.inj hd
      exact ⟨ph₁, by rw [hv, modify_iff hi]; exact .inl ⟨hcall.symm, hdc.symm, rfl⟩⟩
    · obtain ⟨ph, hph⟩ := h.ofEntry d e' hd
      exact ⟨ph, by rw [hv, modify_iff hi]; exact .inr ⟨h.call_ne hi (by simp) hd, hph⟩⟩
  · rw [hv, modify_iff hi] at hj
    rw [he]
    rcases hj with ⟨rfl, rfl, _⟩ | ⟨_, hj⟩
    · exact ⟨e, Function.update_self .., hcall⟩
    · obtain ⟨e', he', hj'⟩ := h.ofCall j d ph hj
      have hdc : d ≠ c := by
        rintro rfl
        simp [hnone] at he'
      exact ⟨e', by rw [Function.update_of_ne hdc, he'], hj'⟩

/-- The clean-up of a call takes its entry away. -/
theorem leave (h : Registered s) {i : ℕ} {c : κ} {ph₀ : Phase ε} {st' : Stage ε}
    (hi : s.views[i]? = some (c, .looping ph₀)) (hst' : ∀ ph, st' ≠ .looping ph)
    (he : s'.entries = Function.update s.entries c none)
    (hv : s'.views = s.views.modify i fun v => (v.1, st')) : Registered s' := by
  refine ⟨fun d e hd => ?_, fun j d ph hj => ?_⟩
  · rw [he, Function.update_apply] at hd
    split at hd
    · cases hd
    next hdc =>
    obtain ⟨ph, hph⟩ := h.ofEntry d e hd
    have hne : i ≠ e.call := by
      rintro rfl
      rw [hi] at hph
      exact hdc (Prod.ext_iff.mp (Option.some.inj hph)).1.symm
    exact ⟨ph, by rw [hv, modify_iff hi]; exact .inr ⟨hne, hph⟩⟩
  · rw [hv, modify_iff hi] at hj
    rcases hj with ⟨_, _, hph⟩ | ⟨hij, hj⟩
    · exact absurd hph (hst' ph)
    · obtain ⟨e, he', hcall⟩ := h.ofCall j d ph hj
      have hdc : d ≠ c := by
        rintro rfl
        exact hij (h.call_unique hi hj)
      exact ⟨e, by rw [he, Function.update_of_ne hdc, he'], hcall⟩

end Registered

section

variable [DecidableEq κ] {S : Surroundings κ π ε} {s s' : Supervisor κ π ε} {l : Label κ π ε}

theorem views_start_ok {i : ℕ} {k : Call κ π ε} {b : Bool}
    (hnone : (s.entries k.args.connection).isSome = false)
    (htask : (S.isListener k.args.connection && !k.args.hasTask) = false) :
    (s.start S i k b).views = s.views.modify i fun v => (v.1, .looping .opening) := by
  rw [start, if_neg (by simp [hnone]), if_neg (by simp [htask])]
  exact map_view_modify s.calls i fun _ => rfl

/-- **One step** keeps the entries the live calls. -/
theorem Registered.turn (h : Registered s) (ht : Turn S s l s') : Registered s' := by
  cases ht with
  | send => exact h.congr rfl rfl
  | @receive x xs hq =>
    cases x with
    | add x =>
      exact h.append (c := x.connection) rfl (by simp [process, views, Call.view, Call.spawn])
    | remove c =>
      refine h.congr ?_ (views_process_remove _ c)
      simp only [process]
      split <;> rfl
  | @start i k b hk hst =>
    have hi : s.views[i]? = some (k.args.connection, .starting) := hst ▸ views_getElem? hk
    have hfin : ∀ r : Result ε, Registered (s.finish i r) := fun r =>
      h.modify_idle hi (by simp) (by simp) (finish_entries s i r) (views_finish s i r)
    cases hnone : (s.entries k.args.connection).isSome with
    | true =>
      rw [Supervisor.start, if_pos hnone]
      exact hfin _
    | false =>
      cases htask : S.isListener k.args.connection && !k.args.hasTask with
      | true =>
        rw [Supervisor.start, if_neg (by simp [hnone]), if_pos htask]
        exact hfin _
      | false =>
        refine h.enter (e := ⟨k.args.policy.getD S.policy, i⟩) hi (by simpa using hnone) rfl ?_
          (views_start_ok hnone htask)
        rw [Supervisor.start, if_neg (by simp [hnone]), if_neg (by simp [htask])]
  | advance hk hst => exact h.modify_live (hst ▸ views_getElem? hk) rfl (views_setStage s _ _)
  | @leave i k r hk hst =>
    have hi : s.views[i]? = some (k.args.connection, .looping (.done r)) := hst ▸ views_getElem? hk
    unfold Supervisor.leave
    cases k.shouldClose with
    | true => exact h.leave hi (by simp) rfl (views_setStage _ _ _)
    | false => exact h.leave hi (by simp) (finish_entries _ _ _) (views_finish _ _ _)
  | closed hk hst =>
    exact h.modify_idle (hst ▸ views_getElem? hk) (by simp) (by simp) (finish_entries s _ _)
      (views_finish s _ _)

/-- **In every run the entries are the live calls.** -/
theorem registered {G : Supervisor κ π ε → Label κ π ε → Prop} (h : (supervisor S).Reach G s) :
    Registered s := by
  refine h.invariant ⟨fun c e hc => ?_, fun i c ph hi => ?_⟩ fun _ _ _ hr _ hs =>
    hr.turn (turn_of_step hs)
  · cases hc
  · simp [supervisor, init, views] at hi

end

/-! ## No lost remove -/

/-- All runnable tasks have run. -/
structure Settled (s : Supervisor κ π ε) : Prop where
  commands : s.queue = [] ∨ s.down = true
  calls : ∀ k ∈ s.calls, k.isRunnable = false

/-- A connection is being supervised: it has an entry, or a call is in its loop. -/
def Supervised (c : κ) (s : Supervisor κ π ε) : Prop :=
  (s.entries c).isSome = true ∨
    ∃ k ∈ s.calls, k.args.connection = c ∧ ∃ ph, k.stage = .looping ph

/-- Each call spawned for the connection has run its first step. -/
def Started (c : κ) (s : Supervisor κ π ε) : Prop :=
  ∀ k ∈ s.calls, k.args.connection = c → k.stage ≠ .starting

/-- The step is not the processing of an `add()` of the connection. -/
def NoAdd (c : κ) (s : Supervisor κ π ε) : Label κ π ε → Prop
  | .receive => ∀ x, s.queue.head? = some (.add x) → x.connection ≠ c
  | _ => True

/-- A call for the connection is past its first step, and cancelled if it is in its loop. -/
def Doomed (c : κ) (k : Call κ π ε) : Prop :=
  k.args.connection = c → k.stage ≠ .starting ∧ ∀ ph, k.stage = .looping ph → k.cancelled = true

theorem Doomed.cancel {c : κ} {k : Call κ π ε} (h : Doomed c k) : Doomed c k.cancel :=
  fun hc => ⟨(h hc).1, fun _ _ => rfl⟩

/-- A doomed call stays so wherever it moves, if it does not come into its loop. -/
theorem Doomed.setStage {c : κ} {k : Call κ π ε} {st : Stage ε} (h : Doomed c k)
    (hst : st ≠ .starting) (hloop : (∃ ph, st = .looping ph) → ∃ ph, k.stage = .looping ph) :
    Doomed c (k.setStage st) := by
  refine fun hc => ⟨hst, fun ph hph => ?_⟩
  obtain ⟨ph', hph'⟩ := hloop ⟨ph, hph⟩
  exact (h hc).2 ph' hph'

section

variable {s : Supervisor κ π ε} {c : κ}

theorem doomed_crash (h : ∀ k ∈ s.calls, Doomed c k) : ∀ k ∈ s.crash.calls, Doomed c k := by
  intro k hk
  obtain ⟨k', hk', rfl⟩ := List.mem_map.mp hk
  exact (h k' hk').cancel

theorem doomed_setStage {i : ℕ} {st : Stage ε} (h : ∀ k ∈ s.calls, Doomed c k)
    (hst : st ≠ .starting)
    (hloop : ∀ k, s.calls[i]? = some k → (∃ ph, st = .looping ph) → ∃ ph, k.stage = .looping ph) :
    ∀ k ∈ (s.setStage i st).calls, Doomed c k :=
  forall_mem_modify h fun k hk => (h k (List.mem_of_getElem? hk)).setStage hst (hloop k hk)

theorem doomed_finish {i : ℕ} {r : Result ε} (h : ∀ k ∈ s.calls, Doomed c k) :
    ∀ k ∈ (s.finish i r).calls, Doomed c k := by
  have hset : ∀ k ∈ (s.setStage i (.finished r)).calls, Doomed c k :=
    doomed_setStage h (by simp) (by simp)
  unfold finish
  split
  · exact doomed_crash hset
  · exact hset

/-- Where all runnable tasks have run, a connection with only doomed calls is not supervised. -/
theorem not_supervised_of_doomed (hr : Registered s) (h : ∀ k ∈ s.calls, Doomed c k)
    (hs : s.Settled) : ¬ s.Supervised c := by
  have hnone : ∀ k ∈ s.calls, k.args.connection = c → ∀ ph, k.stage ≠ .looping ph := by
    intro k hk hc ph hph
    have hrun := hs.calls k hk
    have hcan := (h k hk hc).2 ph hph
    cases ph <;> simp [Call.isRunnable, hph, hcan] at hrun
  rintro (he | ⟨k, hk, hc, ph, hph⟩)
  · obtain ⟨e, he⟩ := Option.isSome_iff_exists.mp he
    obtain ⟨ph, hph⟩ := hr.ofEntry c e he
    rw [views, List.getElem?_map] at hph
    obtain ⟨k, hk, hv⟩ := Option.map_eq_some_iff.mp hph
    obtain ⟨hc, hst⟩ := Prod.ext_iff.mp hv
    exact hnone k (List.mem_of_getElem? hk) hc ph hst
  · exact hnone k hk hc ph hph

/-- A `remove()` that is processed when each call for the connection has started dooms them all. -/
theorem doomed_of_remove {xs : List (Command κ π)} (hr : Registered s) (hst : Started c s) :
    ∀ k ∈ ({ s with queue := xs }.process (.remove c)).calls, Doomed c k := by
  simp only [process]
  cases he : s.entries c with
  | none =>
    intro k hk hc
    refine ⟨hst k hk hc, fun ph hph => ?_⟩
    obtain ⟨i, hi⟩ := List.getElem?_of_mem hk
    obtain ⟨e, he', _⟩ := hr.ofCall i c ph (hc ▸ hph ▸ views_getElem? hi)
    simp [he] at he'
  | some e =>
    intro k hk hc
    obtain ⟨j, hj⟩ := List.getElem?_of_mem hk
    rw [List.getElem?_modify] at hj
    obtain ⟨k', hk', rfl⟩ := Option.map_eq_some_iff.mp hj
    by_cases hej : e.call = j
    · simp only [hej, if_true] at hc ⊢
      exact ⟨hst k' (List.mem_of_getElem? hk') hc, fun _ _ => rfl⟩
    · simp only [hej, if_false] at hc ⊢
      refine ⟨hst k' (List.mem_of_getElem? hk') hc, fun ph hph => ?_⟩
      obtain ⟨e', he', hcall⟩ := hr.ofCall j c ph (hc ▸ hph ▸ views_getElem? hk')
      obtain rfl := Option.some.inj (he.symm.trans he')
      exact absurd hcall hej

variable [DecidableEq κ] {S : Surroundings κ π ε} {s' : Supervisor κ π ε} {l : Label κ π ε}

/-- **One step**: where no new call comes, the doomed stay doomed. -/
theorem doomed_turn (h : ∀ k ∈ s.calls, Doomed c k) (hg : NoAdd c s l) (ht : Turn S s l s') :
    ∀ k ∈ s'.calls, Doomed c k := by
  cases ht with
  | send => exact h
  | @receive x xs hq =>
    cases x with
    | add x =>
      have hne : x.connection ≠ c := hg x (by simp [hq])
      intro k hk
      rcases List.mem_append.mp hk with hk | hk
      · exact h k hk
      · obtain rfl := List.mem_singleton.mp hk
        exact fun hc => absurd hc hne
    | remove d =>
      simp only [process]
      split
      · exact forall_mem_modify h fun k hk => (h k (List.mem_of_getElem? hk)).cancel
      · exact h
  | @start i k b hk hst =>
    have hne : k.args.connection ≠ c := fun hc => (h k (List.mem_of_getElem? hk) hc).1 hst
    unfold start
    split
    · exact doomed_finish h
    split
    · exact doomed_finish h
    · refine forall_mem_modify h fun k' hk' => ?_
      obtain rfl := Option.some.inj (hk.symm.trans hk')
      exact fun hc => absurd hc hne
  | @advance i k ph _ _ _ hk hst =>
    refine doomed_setStage h (by simp) fun k' hk' _ => ?_
    obtain rfl := Option.some.inj (hk.symm.trans hk')
    exact ⟨ph, hst⟩
  | @leave i k r hk hst =>
    unfold leave
    split
    · exact doomed_setStage h (by simp) (by simp)
    · exact doomed_finish h
  | closed => exact doomed_finish h

/-- **A `remove()` that is processed when each earlier call for its connection has started is not
lost**: as long as no further `add()` of the connection is processed, it is not supervised in any
later state in which all runnable tasks have run. -/
theorem not_supervised_of_remove {s₀ s₁ s₂ : Supervisor κ π ε}
    (h₀ : (supervisor S).Reachable s₀) (hq : s₀.queue.head? = some (.remove c))
    (hst : Started c s₀) (h₁ : (supervisor S).step s₀ .receive = some s₁)
    (h₂ : (supervisor S).Steps (NoAdd c) s₁ s₂) (hs : s₂.Settled) : ¬ s₂.Supervised c := by
  have hr₀ := registered h₀
  have ht : Turn S s₀ .receive s₁ := turn_of_step h₁
  have hr₁ : Registered s₁ := hr₀.turn ht
  have h₁d : ∀ k ∈ s₁.calls, Doomed c k := by
    cases ht with
    | receive hx =>
      obtain rfl := Option.some.inj ((congrArg List.head? hx).symm.trans hq)
      exact doomed_of_remove hr₀ hst
  obtain ⟨hr₂, h₂d⟩ := h₂.preserves (I := fun s => Registered s ∧ ∀ k ∈ s.calls, Doomed c k)
    ⟨hr₁, h₁d⟩ fun s l s' hI hg hs =>
      ⟨hI.1.turn (turn_of_step hs), doomed_turn hI.2 hg (turn_of_step hs)⟩
  exact not_supervised_of_doomed hr₂ h₂d hs

end

/-- One connection, and a policy that never retries. -/
def calm : Surroundings (Fin 1) Unit Unit where
  policy := ()
  isListener := fun _ => false
  answer := fun _ _ _ _ => .ok .none

/-- The `remove()` is processed after the first step of the call, which is cancelled. -/
theorem not_supervised_of_remove_calm :
    ∃ s, (supervisor calm).Reachable s ∧ ¬ Supervised 0 s := by
  have h₀ := Machine.reachable_of_exec (M := supervisor calm)
    [.send (.add ⟨0, false, none⟩), .receive, .start 0 true, .send (.remove 0)] rfl
  have h₁ := h₀.next (l := .receive) rfl
  have h₂ := h₁.next (l := .event 0 .cancelled) rfl
  have h₃ := h₂.next (l := .leave 0) rfl
  refine ⟨_, h₃, not_supervised_of_remove h₀ rfl (by unfold Started; decide) rfl ?_ ⟨.inl rfl, ?_⟩⟩
  · exact .tail (.tail .refl ⟨.event 0 .cancelled, trivial, rfl⟩) ⟨.leave 0, trivial, rfl⟩
  · decide

/-- Both commands are processed before the call has run its first step. -/
theorem remove_lost :
    ¬ ∀ (c : Fin 1) (s₀ s₁ s₂ : Supervisor (Fin 1) Unit Unit), (supervisor calm).Reachable s₀ →
      s₀.queue.head? = some (.remove c) → (supervisor calm).step s₀ .receive = some s₁ →
      (supervisor calm).Steps (NoAdd c) s₁ s₂ → s₂.Settled → ¬ s₂.Supervised c := by
  intro h
  have h₀ := Machine.reachable_of_exec (M := supervisor calm)
    [.send (.add ⟨0, false, none⟩), .send (.remove 0), .receive] rfl
  refine h 0 _ _ _ h₀ rfl rfl (.tail (.tail .refl ⟨.start 0 false, trivial, rfl⟩)
    ⟨.event 0 .opened, trivial, rfl⟩) ⟨.inl rfl, ?_⟩ (.inl rfl)
  decide

end FlockwaveConn.Supervision.Supervisor
