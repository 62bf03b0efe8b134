import FlockwaveConn.Channels.Rpc.Pending

/-!
# Channels/Rpc/Matching — which response goes to which call

The future of a call is registered under `str(request.unique_id)`, and looked up under the
`unique_id` of the response as it is.  The two agree where the identifiers are strings; an integer
is never found, so the response to such a call is stale, and the call ends without it.

So responses are matched in every run exactly if the identifiers of the two-way requests are
strings (`matching_iff`), whichever way `new()` registers.
-/

namespace FlockwaveConn.Rpc

namespace Setting

variable {Call : Type*} (S : Setting Call)

/-- The two-way requests have different identifiers. -/
def UniqueIds : Prop :=
  ∀ c d, S.needsResponse c → S.needsResponse d → S.uniqueId c = S.uniqueId d → c = d

/-- The identifiers of the two-way requests are strings. -/
def Textual : Prop := ∀ c, S.needsResponse c → ∃ text, S.uniqueId c = .str text

variable {S}

/-- A string is its own key. -/
theorem Textual.key_eq (h : S.Textual) {c : Call} (hn : S.needsResponse c) :
    S.key c = S.uniqueId c := by
  obtain ⟨text, ht⟩ := h c hn
  simp [key, ht, Id.toStr]

theorem Textual.uniqueKeys (h : S.Textual) (hS : S.UniqueIds) : S.UniqueKeys := by
  intro c d hc hd hk
  rw [h.key_eq hc, h.key_eq hd] at hk
  exact hS c d hc hd hk

end Setting

namespace Peer

variable {Call ρ ε : Type*} {S : Setting Call} {s s' : Peer Call ρ ε}

/-- What the futures and the ended calls hold has come in with the right identifier. -/
structure Sourced (S : Setting Call) (s : Peer Call ρ ε) : Prop where
  value : ∀ c x, s.pending.value c = some x →
    ∃ r ∈ s.responses, r.uniqueId = S.uniqueId c ∧ r.payload.content = x
  got : ∀ c x, s.call c = .ended (.got x) → s.pending.value c = some x

theorem sourced_init : Sourced S (init : Peer Call ρ ε) :=
  ⟨fun _ _ h => (nomatch h), fun _ _ h => (nomatch h)⟩

/-- A step that sets no future and ends no call with one. -/
theorem Sourced.congr (h : Sourced S s) (hv : s'.pending.value = s.pending.value)
    (hr : s'.responses = s.responses)
    (hc : ∀ c x, s'.call c = .ended (.got x) → s.call c = .ended (.got x)) : Sourced S s' := by
  refine ⟨fun c x hx => ?_, fun c x hx => ?_⟩
  · rw [hr]
    exact h.value c x (hv ▸ hx)
  · rw [hv]
    exact h.got c x (hc c x hx)

/-- Only strings are keys. -/
theorem get_of_not_str (hf : Filed S s) {x : Id} (hx : ∀ text, x ≠ .str text) :
    s.pending.get x = none := by
  by_contra hne
  obtain ⟨c, hc⟩ := Option.ne_none_iff_exists'.mp hne
  exact hx _ (hf.own x c hc).1

variable [DecidableEq Call] {l : Label Call ρ ε}

/-- **A step matches responses with calls.** -/
structure Matching (S : Setting Call) (s : Peer Call ρ ε) (l : Label Call ρ ε)
    (s' : Peer Call ρ ε) : Prop where
  /-- The first response with its identifier that comes in while a call holds its future is for this
  call. -/
  answered : ∀ r c, l = .receive (.response r) → S.Holds c (s.call c) → s.pending.value c = none →
    r.uniqueId = S.uniqueId c → s'.pending.value c = some r.payload.content
  /-- A call that waits can then end with it, and cannot end in another way. -/
  woken : ∀ c x, s.call c = .waiting → s.pending.value c = some x →
    s.step S (.finish c) = some (s.leave S c (.got x)) ∧
      (s'.call c = .waiting ∧ s'.pending.value c = some x ∨ s'.call c = .ended (.got x))
  /-- What a call ends with has come in with its identifier. -/
  own : ∀ c x, s'.call c = .ended (.got x) →
    ∃ r ∈ s'.responses, r.uniqueId = S.uniqueId c ∧ r.payload.content = x
  /-- A response changes nothing where its call has one already, or is not in the map. -/
  duplicate : ∀ r, l = .receive (.response r) →
    (∀ c, r.uniqueId = S.uniqueId c → s.pending.get (S.key c) = some c →
      s.pending.value c ≠ none) → s'.pending = s.pending ∧ s'.call = s.call

/-! ## Identifiers that are strings -/

/-- **`handle_single_inbound_message`**, where a string is its own key. -/
theorem Sourced.handle (hT : S.Textual) (hf : Filed S s) (h : Sourced S s) (m : Message ρ ε) :
    Sourced S (s.handle m) := by
  cases m with
  | request | unknown => exact h.congr rfl rfl fun _ _ hx => hx
  | response r =>
    refine ⟨fun c x hx => ?_, fun c x hx => FutureMap.resolve_value_of_some (h.got c x hx)⟩
    rcases FutureMap.get_of_resolve_value hx with hold | ⟨hget, rfl⟩
    · obtain ⟨r', hr', hid⟩ := h.value c x hold
      exact ⟨r', List.mem_append_left _ hr', hid⟩
    · obtain ⟨hkey, hn, -⟩ := hf.own _ c hget
      exact ⟨r, List.mem_append_right _ (List.mem_singleton_self r),
        hkey.trans (hT.key_eq hn), rfl⟩

/-- A call that moves to a place where it has not got anything. -/
theorem not_got_of_put {c d : Call} {p : CallPlace ρ ε} {x : Content ρ ε}
    (hp : ∀ x, p ≠ .ended (.got x)) (h : (s.put c p).call d = .ended (.got x)) :
    s.call d = .ended (.got x) := by
  rw [put_call] at h
  split at h
  · exact absurd h (hp x)
  · exact h

theorem enter_call_self_ne (c : Call) (x : Content ρ ε) :
    (s.enter S c).call c ≠ .ended (.got x) := by
  unfold enter
  split
  · simp
  · dsimp only
    rw [put_call_self]
    exact CallPlace.wait_ne_ended _ _

/-- **One step.** -/
theorem Sourced.turn (hT : S.Textual) (hf : Filed S s) (h : Sourced S s) (ht : Turn S s l s') :
    Sourced S s' := by
  cases ht with
  | @call c hc =>
    refine h.congr (begin_value c s) ?_ fun d x hx => ?_
    · unfold begin_
      split <;> rfl
    · unfold begin_ at hx
      split at hx <;> exact not_got_of_put (by simp) hx
  | @enter c hc =>
    refine h.congr (enter_value c s) ?_ fun d x hx => ?_
    · unfold Peer.enter
      split
      · rfl
      · dsimp only
        split <;> rfl
    · by_cases hdc : d = c
      · exact absurd (hdc ▸ hx) (enter_call_self_ne c x)
      · rwa [(Turn.enter (S := S) hc).call_of_ne fun hcd => hdc (Option.some.inj hcd).symm] at hx
  | @finish c x hc hx =>
    refine ⟨h.value, fun d y hy => ?_⟩
    rw [Peer.leave, put_call] at hy
    split at hy
    · next hdc =>
        obtain rfl : x = y := by simpa using hy
        exact hdc ▸ hx
    · exact h.got d y hy
  | take => exact h.congr rfl rfl fun d x hx => not_got_of_put (by simp) hx
  | timeout | cancelWait | cancelSend | closed =>
    exact h.congr rfl rfl fun d x hx => not_got_of_put (by simp) hx
  | receive => exact h.handle hT hf _
  | @handled q r =>
    exact h.congr (by simp) (by cases r <;> rfl) fun d x hx => answer_call q r s ▸ hx
  | takeResponse | sent | endInbound | endOutbound => exact h.congr rfl rfl fun _ _ hx => hx

/-- A call that waits and has its response wakes up with it, and does nothing else. -/
theorem woken_of_turn (ht : Turn S s l s') {c : Call} {x : Content ρ ε}
    (hc : s.call c = .waiting) (hx : s.pending.value c = some x) :
    s'.call c = .waiting ∧ s'.pending.value c = some x ∨ s'.call c = .ended (.got x) := by
  by_cases hl : l.mover = some c
  · right
    cases ht with
    | call hc' | take hc' | enter hc' | cancelSend hc' | closed hc' =>
      obtain rfl := Option.some.inj hl
      simp [hc] at hc'
    | finish _ hx' =>
      obtain rfl := Option.some.inj hl
      obtain rfl := Option.some.inj (hx.symm.trans hx')
      exact leave_call_self ..
    | timeout hc' | cancelWait hc' =>
      obtain rfl := Option.some.inj hl
      simp [hc, hx] at hc'
    | receive | handled | takeResponse | sent | endInbound | endOutbound => cases hl
  · exact .inl ⟨(ht.call_of_ne hl).trans hc, ht.value_of_some hx⟩

/-- **One step** matches, where strings are the keys. -/
theorem matching_of_turn (hT : S.Textual) (hf : Filed S s) (hh : Held S s) (hs' : Sourced S s')
    (ht : Turn S s l s') : Matching S s l s' := by
  refine ⟨?_, fun c x hc hx => ⟨by simp [step, hc, hx], woken_of_turn ht hc hx⟩, fun c x hx =>
    hs'.value c x (hs'.got c x hx), ?_⟩
  · rintro r c rfl hc hv hid
    cases ht with
    | receive =>
      have hget := hh c hc
      rw [hT.key_eq (needsResponse_of_holds hc), ← hid] at hget
      exact FutureMap.resolve_value_self _ hget hv
  · rintro r rfl hdone
    cases ht with
    | receive =>
      refine ⟨?_, handle_call _ _⟩
      cases hget : s.pending.get r.uniqueId with
      | none => exact FutureMap.resolve_of_get_eq_none _ hget
      | some c =>
        obtain ⟨hkey, hn, -⟩ := hf.own _ c hget
        exact FutureMap.resolve_of_done _ hget
          (hdone c (hkey.trans (hT.key_eq hn)) (hkey ▸ hget))

/-! ## Identifiers that are no strings -/

variable (ρ ε) in
/-- A two-way call can come to wait for its response. -/
theorem exec_waiting {c : Call} (hn : S.needsResponse c) :
    ∃ s, (peer ρ ε S).exec (peer ρ ε S).init [.call c, .take c, .enter c] = some s ∧
      s.call c = .waiting ∧ s.pending.value c = none ∧ s.inbound = .receiving := by
  let s₁ : Peer Call ρ ε := (init : Peer Call ρ ε).begin_ S c
  let s₂ := { s₁ with outbound := .sending (.request (S.createRequest c)) }.put c .handed
  have hp : s₁.call c = .sending ∧ s₁.outbound = .receiving ∧ s₁.inbound = .receiving := by
    simp only [s₁, begin_, put_call_self, true_and]
    split <;> exact ⟨rfl, rfl⟩
  have hv : s₂.pending.value c = none := congrFun (begin_value c init) c
  have h₁ : (init : Peer Call ρ ε).step S (.call c) = some s₁ := rfl
  have h₂ : s₁.step S (.take c) = some s₂ := by simp [step, hp.1, hp.2.1, hp.2.2, s₂]
  have h₃ : s₂.step S (.enter c) = some (s₂.enter S c) := by simp [step, s₂]
  refine ⟨s₂.enter S c, by simp [Machine.exec, peer, h₁, h₂, h₃], ?_⟩
  have hin : s₂.inbound = .receiving := hp.2.2
  by_cases hreg : S.registration = .atEnter <;>
    simp [enter, hn, hreg, hv, hin, register, put, CallPlace.wait]

/-- The response to such a call is not found. -/
theorem not_matching_of_not_str {c : Call} (hn : S.needsResponse c)
    (hc : ∀ text, S.uniqueId c ≠ .str text) :
    ∃ ls, ¬ (peer ρ ε S).Throughout (Matching S) (peer ρ ε S).init ls := by
  obtain ⟨s, hex, hwait, hv, hin⟩ := exec_waiting ρ ε hn
  let r : Response ρ ε := ⟨S.uniqueId c, .errorResponse (.other "")⟩
  refine ⟨[.call c, .take c, .enter c] ++ [.receive (.response r)], fun h => ?_⟩
  have hs : s.step S (.receive (.response r)) = some (s.handle (.response r)) := by
    simp [step, hin]
  have hget := get_of_not_str (filed_of_reach (Machine.reachable_of_exec _ hex)) hc
  have hsame : (s.handle (.response r)).pending = s.pending :=
    FutureMap.resolve_of_get_eq_none _ hget
  have hans := (h.last hex hs).answered r c rfl (hwait ▸ hn) hv rfl
  rw [hsame, hv] at hans
  cases hans

variable (ρ ε) in
/-- **Responses are matched with calls in every run exactly if the identifiers of the two-way
requests are strings.** -/
theorem matching_iff (hS : S.UniqueIds) :
    (∀ ls, (peer ρ ε S).Throughout (Matching S) (peer ρ ε S).init ls) ↔ S.Textual := by
  constructor
  · intro h c hn
    by_contra hc
    obtain ⟨ls, hls⟩ := not_matching_of_not_str (ρ := ρ) (ε := ε) hn fun text ht => hc ⟨text, ht⟩
    exact hls (h ls)
  · intro hT ls
    have hK := hT.uniqueKeys hS
    refine (Machine.guarded_anyStep _ ls).throughout
      (I := fun s => Filed S s ∧ Held S s ∧ Sourced S s) ⟨filed_init, held_init, sourced_init⟩ ?_
    rintro s l s' ⟨hf, hh, hs⟩ - hstep
    have ht := turn_of_step hstep
    have hs' := hs.turn hT hf ht
    exact ⟨⟨hf.turn ht, hh.turn hK hf ht, hs'⟩, matching_of_turn hT hf hh hs' ht⟩

/-- A call whose identifier is a string gets its response, and the second one changes nothing. -/
theorem matching_text :
    (peer Unit Unit (single .atEnter (.str "a"))).Throughout (Matching (single .atEnter (.str "a")))
      .init [.call 0, .take 0, .sent, .enter 0, .receive (.response ⟨.str "a", .result ()⟩),
        .receive (.response ⟨.str "a", .errorResponse (.other "late")⟩), .finish 0] :=
  (matching_iff Unit Unit fun c d _ _ _ => Subsingleton.elim c d).mpr (fun _ _ => ⟨"a", rfl⟩) _

/-- A call whose identifier is an integer does not, under either reading of `new()`. -/
theorem integer_stale :
    ¬ ∃ registration, ∀ ls, (peer Unit Unit (single registration (.int 1))).Throughout
      (Matching (single registration (.int 1))) .init ls := by
  rintro ⟨registration, h⟩
  obtain ⟨ls, hls⟩ := not_matching_of_not_str (ρ := Unit) (ε := Unit)
    (S := single registration (.int 1)) (c := 0) rfl nofun
  exact hls (h ls)

end Peer

end FlockwaveConn.Rpc
