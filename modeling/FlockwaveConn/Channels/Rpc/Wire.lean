import FlockwaveConn.Channels.Rpc.Peer

/-!
# Channels/Rpc/Wire — what one side puts on the wire

Two kinds of tasks feed the outbound task: the calls of `send_request()`, each with one request, and
the inbound task, with the responses of the handler.  The queue between them holds nothing, so
nothing is kept in it, doubled or reordered: the wire is an interleaving of the requests, in the
order in which the calls got past the queue, and of the responses, in the order in which their
requests came in (`wireLaw`).

The peer is run together with a record of what has gone by, in which it never looks.
-/

namespace FlockwaveConn.Rpc

/-- One side of the connection, and what has gone by. -/
structure Tapped (Call ρ ε : Type*) where
  peer : Peer Call ρ ε
  /-- What the outbound task has taken from the queue, oldest first, and from whom: the request of a
  call, or a response of the inbound task. -/
  taken : List (Call ⊕ Response ρ ε)
  /-- What `channel.send()` was given, oldest first. -/
  wire : List (Message ρ ε)
  /-- The calls that have gone on after `await out_queue_tx.send(request)`. -/
  entered : List Call
  /-- What has come out of the channel, oldest first. -/
  arrived : List (Message ρ ε)
  /-- The requests the handler has returned for, and what it returned; `none` is anything falsy. -/
  handled : List (Request × Option (Response ρ ε))

/-- What `channel.send()` is called with in a step that takes the outbound task from `old` to
`new`. -/
def Outbound.begun {ρ ε : Type*} (new old : Outbound ρ ε) : List (Message ρ ε) :=
  match new, old with
  | .sending m, .receiving => [m]
  | _, _ => []

@[simp] theorem Outbound.begun_self {ρ ε : Type*} (o : Outbound ρ ε) : o.begun o = [] := by
  cases o <;> rfl

@[simp] theorem Outbound.begun_receiving {ρ ε : Type*} (o : Outbound ρ ε) :
    (receiving : Outbound ρ ε).begun o = [] := rfl

@[simp] theorem Outbound.begun_ended {ρ ε : Type*} (o : Outbound ρ ε) :
    (ended : Outbound ρ ε).begun o = [] := rfl

/-- What may come next: each call, and each of the two tasks, goes on from where it is. -/
def Peer.Ready {Call ρ ε : Type*} (s : Peer Call ρ ε) : Peer.Label Call ρ ε → Prop
  | .call c => s.call c = .idle
  | .take c => s.call c = .sending ∧ s.outbound = .receiving ∧ s.inbound ≠ .ended
  | .enter c => s.call c = .handed
  | .finish c => (s.call c = .waiting ∨ s.call c = .ready) ∧ s.pending.value c ≠ none
  | .timeout c => s.call c = .waiting ∧ s.pending.value c = none ∨ s.call c = .ready
  | .cancel c =>
    s.call c = .sending ∨ s.call c = .waiting ∧ s.pending.value c = none ∨ s.call c = .ready
  | .closed c => s.call c = .sending ∧ (s.inbound = .ended ∨ s.outbound = .ended)
  | .receive _ => s.inbound = .receiving
  | .handled _ => ∃ q, s.inbound = .handling q
  | .takeResponse => (∃ r, s.inbound = .posting r) ∧ s.outbound = .receiving
  | .sent => ∃ m, s.outbound = .sending m
  | .endInbound => s.inbound ≠ .ended
  | .endOutbound => s.outbound ≠ .ended

theorem Peer.exists_step_iff {Call ρ ε : Type*} [DecidableEq Call] {S : Setting Call}
    {s : Peer Call ρ ε} {l : Peer.Label Call ρ ε} : (∃ s', s.step S l = some s') ↔ s.Ready l := by
  cases l with
  | call c | enter c => cases hc : s.call c <;> simp [step, Ready, hc]
  | take c =>
    cases hc : s.call c <;> cases ho : s.outbound <;> cases hi : s.inbound <;>
      simp [step, Ready, hc, ho, hi]
  | finish c | timeout c | cancel c =>
    cases hc : s.call c <;> cases hv : s.pending.value c <;> simp [step, Ready, hc, hv]
  | closed c =>
    cases hc : s.call c <;> cases ho : s.outbound <;> cases hi : s.inbound <;>
      simp [step, Ready, hc, ho, hi]
  | receive m | handled r | endInbound => cases hi : s.inbound <;> simp [step, Ready, hi]
  | takeResponse =>
    cases hi : s.inbound <;> cases ho : s.outbound <;> simp [step, Ready, hi, ho]
  | sent | endOutbound => cases ho : s.outbound <;> simp [step, Ready, ho]

namespace Tapped

variable {Call ρ ε : Type*}

/-- The message behind what has been taken from the queue. -/
def message (S : Setting Call) : Call ⊕ Response ρ ε → Message ρ ε
  | .inl c => .request (S.createRequest c)
  | .inr r => .response r

/-- The calls whose requests have been taken. -/
def callsSent (s : Tapped Call ρ ε) : List Call := s.taken.filterMap Sum.getLeft?

/-- The responses that have been taken. -/
def responsesSent (s : Tapped Call ρ ε) : List (Response ρ ε) := s.taken.filterMap Sum.getRight?

/-- The requests among the messages. -/
def requests (ms : List (Message ρ ε)) : List Request :=
  ms.filterMap fun
    | .request q => some q
    | _ => none

/-- **The non-empty responses the handler returned for the two-way requests.** -/
def answers (xs : List (Request × Option (Response ρ ε))) : List (Response ρ ε) :=
  xs.filterMap fun x => if x.1.oneWay then none else x.2

/-- The call got past the outbound queue. -/
def Passed (s : Tapped Call ρ ε) (c : Call) : Prop := s.peer.call c = .handed ∨ c ∈ s.entered

def init : Tapped Call ρ ε := ⟨.init, [], [], [], [], []⟩

/-- The record of a step that leads to `p`. -/
def note (s : Tapped Call ρ ε) (p : Peer Call ρ ε) (l : Peer.Label Call ρ ε) : Tapped Call ρ ε :=
  let s' := { s with peer := p, wire := s.wire ++ p.outbound.begun s.peer.outbound }
  match l with
  | .take c => { s' with taken := s.taken ++ [.inl c] }
  | .takeResponse =>
    match s.peer.inbound with
    | .posting r => { s' with taken := s.taken ++ [.inr r] }
    | _ => s'
  | .enter c => { s' with entered := s.entered ++ [c] }
  | .receive m => { s' with arrived := s.arrived ++ [m] }
  | .handled r =>
    match s.peer.inbound with
    | .handling q => { s' with handled := s.handled ++ [(q, r)] }
    | _ => s'
  | _ => s'

variable [DecidableEq Call]

/-- One stretch. -/
def step (S : Setting Call) (s : Tapped Call ρ ε) (l : Peer.Label Call ρ ε) :
    Option (Tapped Call ρ ε) := (s.peer.step S l).map fun p => s.note p l

end Tapped

/-- One side of the connection, with a record of what goes by. -/
def tapped {Call : Type*} (ρ ε : Type*) [DecidableEq Call] (S : Setting Call) :
    Machine (Tapped Call ρ ε) (Peer.Label Call ρ ε) where
  init := .init
  step := Tapped.step S

namespace Tapped

variable {Call ρ ε : Type*} {S : Setting Call} {s s' : Tapped Call ρ ε}

/-! ## The law of the wire -/

/-- **What is on the wire.** -/
structure WireLaw [DecidableEq Call] (S : Setting Call) (s : Tapped Call ρ ε) : Prop where
  /-- It is what has been taken from the queue, each message once and in this order… -/
  wire : s.wire = s.taken.map (message S)
  /-- …and the last one is what the outbound task has in hand, if anything. -/
  inHand : ∀ m, s.peer.outbound = .sending m → ∃ ws, s.wire = ws ++ [m]
  /-- The requests are handled in the order in which they came in, none skipped or repeated. -/
  inOrder : s.handled.map Prod.fst <+: requests s.arrived
  /-- The responses on the wire are a prefix of those of the handler… -/
  responses : s.responsesSent <+: answers s.handled
  /-- …and all of them once the two tasks are idle. -/
  complete : s.peer.inbound = .receiving → s.peer.outbound = .receiving →
    s.handled.map Prod.fst = requests s.arrived ∧ s.responsesSent = answers s.handled
  /-- The request of a call is sent at most once, … -/
  atMostOnce : s.callsSent.Nodup
  /-- …of no call that did not get past the queue, … -/
  passed : ∀ c ∈ s.callsSent, s.Passed c
  /-- …and of each one that did, once the outbound task is idle. -/
  sent : s.peer.outbound = .receiving → ∀ c, s.Passed c → c ∈ s.callsSent
  /-- Every task goes on: an idle outbound task takes what is at the queue, an idle inbound task
  what comes in. -/
  ready : ∀ l, (∃ s', s.step S l = some s') ↔ s.peer.Ready l

/-- How far the responses are, by what the inbound task is at: the requests it has handled and those
that have come in, the responses on the wire and those of the handler. -/
def Flow (handled arrived : List Request) (sent answers : List (Response ρ ε)) :
    Inbound ρ ε → Prop
  | .receiving => handled = arrived ∧ sent = answers
  | .handling q => handled ++ [q] = arrived ∧ sent = answers
  | .posting r => handled = arrived ∧ sent ++ [r] = answers
  | .ended => handled <+: arrived ∧ sent <+: answers

/-- **The invariant of the record.** -/
structure Tied (S : Setting Call) (s : Tapped Call ρ ε) : Prop where
  inHand : ∀ m, s.peer.outbound = .sending m → ∃ ws x, s.taken = ws ++ [x] ∧ message S x = m
  flow : Flow (s.handled.map Prod.fst) (requests s.arrived) s.responsesSent (answers s.handled)
    s.peer.inbound
  once : s.callsSent.Nodup
  sent : ∀ c, c ∈ s.callsSent ↔ s.Passed c
  /-- A call that has gone on does not come back to the queue. -/
  gone : ∀ c ∈ s.entered, s.peer.call c ≠ .idle ∧ s.peer.call c ≠ .sending

/-- Whatever the inbound task is at, both are prefixes. -/
theorem Flow.isPrefix {hs qs : List Request} {rs xs : List (Response ρ ε)} {i : Inbound ρ ε}
    (h : Flow hs qs rs xs i) : hs <+: qs ∧ rs <+: xs := by
  cases i with
  | receiving => exact ⟨h.1 ▸ List.prefix_rfl, h.2 ▸ List.prefix_rfl⟩
  | handling q => exact ⟨h.1 ▸ List.prefix_append _ _, h.2 ▸ List.prefix_rfl⟩
  | posting r => exact ⟨h.1 ▸ List.prefix_rfl, h.2 ▸ List.prefix_append _ _⟩
  | ended => exact h

theorem exists_step_iff [DecidableEq Call] {l : Peer.Label Call ρ ε} :
    (∃ s', s.step S l = some s') ↔ s.peer.Ready l := by
  rw [← Peer.exists_step_iff (S := S)]
  simp [step]

/-- **The law of the wire**, from where the messages have been taken. -/
theorem Tied.law [DecidableEq Call] (h : Tied S s) (hw : s.wire = s.taken.map (message S)) :
    WireLaw S s where
  wire := hw
  inHand m hm := by
    obtain ⟨ws, x, htaken, rfl⟩ := h.inHand m hm
    exact ⟨ws.map (message S), by rw [hw, htaken, List.map_append, List.map_singleton]⟩
  inOrder := h.flow.isPrefix.1
  responses := h.flow.isPrefix.2
  complete hi _ := by
    have hflow := h.flow
    rwa [hi] at hflow
  atMostOnce := h.once
  passed c := (h.sent c).mp
  sent _ c := (h.sent c).mpr
  ready _ := exists_step_iff

theorem tied_init : Tied S (init : Tapped Call ρ ε) where
  inHand := by simp [init, Peer.init]
  flow := ⟨rfl, rfl⟩
  once := List.nodup_nil
  sent := by simp [callsSent, Passed, init, Peer.init]
  gone := by simp [init]

/-! ## One step -/

variable {w : List (Message ρ ε)}

/-- A step in which nothing is taken from the queue, and after which the same calls are past the
queue. -/
theorem Tied.frame (h : Tied S s) {p : Peer Call ρ ε} {entered : List Call}
    {arrived : List (Message ρ ε)} {handled : List (Request × Option (Response ρ ε))}
    (ho : p.outbound = s.peer.outbound ∨ p.outbound = .receiving ∨ p.outbound = .ended)
    (hf : Flow (handled.map Prod.fst) (requests arrived) s.responsesSent (answers handled)
      p.inbound)
    (hs : ∀ c, p.call c = .handed ∨ c ∈ entered ↔ s.Passed c)
    (hg : ∀ c ∈ entered, p.call c ≠ .idle ∧ p.call c ≠ .sending) :
    Tied S ⟨p, s.taken, w, entered, arrived, handled⟩ where
  inHand m hm := by
    rcases ho with ho | ho | ho
    · exact h.inHand m (ho ▸ hm)
    · simp [ho] at hm
    · simp [ho] at hm
  flow := hf
  once := h.once
  sent c := (h.sent c).trans (hs c).symm
  gone := hg

/-- …where the calls stay as they are. -/
theorem Tied.frame_call (h : Tied S s) {p : Peer Call ρ ε} {arrived : List (Message ρ ε)}
    {handled : List (Request × Option (Response ρ ε))}
    (ho : p.outbound = s.peer.outbound ∨ p.outbound = .receiving ∨ p.outbound = .ended)
    (hc : p.call = s.peer.call)
    (hf : Flow (handled.map Prod.fst) (requests arrived) s.responsesSent (answers handled)
      p.inbound) : Tied S ⟨p, s.taken, w, s.entered, arrived, handled⟩ :=
  h.frame ho hf (fun c => by rw [hc]; rfl) (hc ▸ h.gone)

/-- …where one call moves that is not past the queue just then, neither before nor after. -/
theorem Tied.move (h : Tied S s) {p : Peer Call ρ ε} {c : Call}
    (ho : p.outbound = s.peer.outbound) (hi : p.inbound = s.peer.inbound)
    (hne : ∀ d, d ≠ c → p.call d = s.peer.call d) (hc : s.peer.call c ≠ .handed)
    (hc' : p.call c ≠ .handed) (hg : c ∈ s.entered → p.call c ≠ .idle ∧ p.call c ≠ .sending) :
    Tied S { s with peer := p, wire := w } := by
  refine h.frame (.inl ho) (hi ▸ h.flow) (fun d => ?_) (fun d hd => ?_)
  · by_cases hd : d = c
    · simp [Passed, hd, hc, hc']
    · simp [Passed, hne d hd]
  · by_cases hdc : d = c
    · exact hdc ▸ hg (hdc ▸ hd)
    · exact hne d hdc ▸ h.gone d hd

/-- `if response and not message.one_way: await out_queue_tx.send(response)`. -/
theorem Tied.handled (h : Tied S s) {q : Request} {r : Option (Response ρ ε)}
    (hi : s.peer.inbound = .handling q) :
    Tied S { s with peer := s.peer.answer q r, wire := w, handled := s.handled ++ [(q, r)] } := by
  have hflow := h.flow
  rw [hi] at hflow
  obtain ⟨hqs, hrs⟩ := hflow
  have hans : answers (s.handled ++ [(q, r)]) = answers s.handled ++ answers [(q, r)] :=
    List.filterMap_append
  have hmap : (s.handled ++ [(q, r)]).map Prod.fst = requests s.arrived := by
    rw [List.map_append]
    exact hqs
  refine h.frame_call ?_ (Peer.answer_call ..) ?_
  · cases r <;> exact .inl rfl
  rw [hmap, hans, hrs]
  cases r with
  | none => exact ⟨rfl, by simp [answers]⟩
  | some r =>
    cases hq : q.oneWay with
    | true => simp [Peer.answer, hq, Flow, answers]
    | false => simp [Peer.answer, hq, Flow, answers]

/-- The outbound task takes the response of the inbound task. -/
theorem Tied.takeResponse (h : Tied S s) {r : Response ρ ε} (hi : s.peer.inbound = .posting r) :
    Tied S { s with
      peer := { s.peer with inbound := .receiving, outbound := .sending (.response r) }
      taken := s.taken ++ [.inr r]
      wire := w } where
  inHand m hm := ⟨s.taken, .inr r, rfl, by simpa [message] using hm⟩
  flow := by
    have hflow := h.flow
    rw [hi] at hflow
    refine ⟨hflow.1, ?_⟩
    rw [responsesSent, List.filterMap_append]
    exact hflow.2
  once := by
    rw [callsSent, List.filterMap_append]
    exact (List.append_nil _).symm ▸ h.once
  sent c := by
    rw [callsSent, List.filterMap_append]
    exact (List.append_nil _).symm ▸ h.sent c
  gone := h.gone

/-- What is on the wire stays there. -/
theorem wire_note (p : Peer Call ρ ε) (l : Peer.Label Call ρ ε) :
    (s.note p l).wire = s.wire ++ p.outbound.begun s.peer.outbound := by
  cases l with
  | takeResponse | handled =>
    simp only [note]
    split <;> rfl
  | _ => rfl

variable [DecidableEq Call]

/-- The outbound task takes the request of a call. -/
theorem Tied.take (h : Tied S s) {c : Call} (hc : s.peer.call c = .sending) :
    Tied S { s with
      peer := { s.peer with outbound := .sending (.request (S.createRequest c)) }.put c .handed
      taken := s.taken ++ [.inl c]
      wire := w } where
  inHand m hm := ⟨s.taken, .inl c, rfl, by simpa [message, Peer.put] using hm⟩
  flow := by
    have hsame : (s.taken ++ [Sum.inl c]).filterMap Sum.getRight? = s.responsesSent := by
      rw [List.filterMap_append]
      exact List.append_nil _
    dsimp only [responsesSent]
    rw [hsame]
    exact h.flow
  once := by
    have hnew : c ∉ s.callsSent := by
      intro hmem
      rcases (h.sent c).mp hmem with hp | hp
      · simp [hc] at hp
      · exact (h.gone c hp).2 hc
    have happ : (s.callsSent ++ [c]).Nodup :=
      List.nodup_append.mpr ⟨h.once, List.nodup_singleton c, fun a ha b hb hab =>
        hnew (List.mem_singleton.mp hb ▸ hab ▸ ha)⟩
    simpa [callsSent] using happ
  sent d := by
    have hmem : d ∈ s.callsSent ↔ s.Passed d := h.sent d
    by_cases hd : d = c
    · simp [callsSent, Passed, hd]
    · simp only [callsSent, Passed] at hmem
      simp [callsSent, Passed, hd, Peer.put_call, hmem]
  gone d hd := by
    rw [Peer.put_call]
    split
    · simp
    · exact h.gone d hd

/-- `await out_queue_tx.send(request)` has returned. -/
theorem Tied.enter (h : Tied S s) {c : Call} (hc : s.peer.call c = .handed) :
    Tied S { s with peer := s.peer.enter S c, wire := w, entered := s.entered ++ [c] } := by
  have hturn : Peer.Turn S s.peer (.enter c) (s.peer.enter S c) := .enter hc
  have hne : ∀ d, d ≠ c → (s.peer.enter S c).call d = s.peer.call d := fun d hd =>
    hturn.call_of_ne fun hcd => hd (Option.some.inj hcd).symm
  have hself : (s.peer.enter S c).call c = .ended .noResponse ∨
      ∃ done, (s.peer.enter S c).call c = .wait done := by
    unfold Peer.enter
    split
    · exact .inl (Peer.put_call_self ..)
    · exact .inr ⟨_, Peer.put_call_self ..⟩
  have hplace : (s.peer.enter S c).call c ≠ .idle ∧ (s.peer.enter S c).call c ≠ .sending ∧
      (s.peer.enter S c).call c ≠ .handed := by
    rcases hself with hs | ⟨done, hs⟩
    · simp [hs]
    · cases done <;> simp [hs, CallPlace.wait]
  have hends : (s.peer.enter S c).outbound = s.peer.outbound ∧
      (s.peer.enter S c).inbound = s.peer.inbound := by
    unfold Peer.enter
    split
    · exact ⟨rfl, rfl⟩
    · dsimp only [Peer.put]
      split <;> exact ⟨rfl, rfl⟩
  refine h.frame (.inl hends.1) (hends.2 ▸ h.flow) (fun d => ?_) (fun d hd => ?_)
  · by_cases hd : d = c
    · simp [Passed, hd, hc]
    · simp [Passed, hne d hd, hd]
  · by_cases hdc : d = c
    · subst hdc
      exact ⟨hplace.1, hplace.2.1⟩
    · refine hne d hdc ▸ h.gone d ?_
      simpa [hdc] using hd

/-- A call ends: it does so from a wait, or from the queue. -/
theorem Tied.ends (h : Tied S s) {p : Peer Call ρ ε} {c : Call} {x : Ending ρ ε}
    (ho : p.outbound = s.peer.outbound) (hi : p.inbound = s.peer.inbound)
    (hp : p.call = Function.update s.peer.call c (.ended x)) (hc : s.peer.call c ≠ .handed) :
    Tied S { s with peer := p, wire := w } := by
  have hself : p.call c = .ended x := by rw [hp, Function.update_self]
  refine h.move ho hi (fun d hd => ?_) hc (by simp [hself]) fun _ => by simp [hself]
  rw [hp, Function.update_of_ne hd]

/-- `handle_single_inbound_message`, up to the handler. -/
theorem Tied.receive (h : Tied S s) {m : Message ρ ε} (hi : s.peer.inbound = .receiving) :
    Tied S { s with peer := s.peer.handle m, wire := w, arrived := s.arrived ++ [m] } := by
  have hflow := h.flow
  rw [hi] at hflow
  obtain ⟨hqs, hrs⟩ := hflow
  have hreq : requests (s.arrived ++ [m]) = requests s.arrived ++ requests [m] :=
    List.filterMap_append
  cases m with
  | request q =>
    refine h.frame_call (.inl rfl) rfl ⟨?_, hrs⟩
    rw [hqs, hreq]
    rfl
  | response r =>
    refine h.frame_call (.inl rfl) rfl ?_
    rw [hreq]
    exact hi ▸ ⟨hqs.trans (List.append_nil _).symm, hrs⟩
  | unknown =>
    refine h.frame_call (.inl rfl) rfl ?_
    rw [hreq]
    exact hi ▸ ⟨hqs.trans (List.append_nil _).symm, hrs⟩

/-- **One step.** -/
theorem Tied.turn (h : Tied S s) {l : Peer.Label Call ρ ε} {p : Peer Call ρ ε}
    (ht : Peer.Turn S s.peer l p) : Tied S (s.note p l) := by
  cases ht with
  | @call c hc =>
    have hends : (s.peer.begin_ S c).outbound = s.peer.outbound ∧
        (s.peer.begin_ S c).inbound = s.peer.inbound := by
      unfold Peer.begin_
      split <;> exact ⟨rfl, rfl⟩
    have hself : (s.peer.begin_ S c).call c = .sending := Peer.put_call_self ..
    have hturn : Peer.Turn S s.peer (.call c) (s.peer.begin_ S c) := .call hc
    exact h.move hends.1 hends.2
      (fun d hd => hturn.call_of_ne fun hcd => hd (Option.some.inj hcd).symm)
      (by simp [hc]) (by simp [hself]) fun hmem => absurd hc (h.gone c hmem).1
  | take hc ho => exact h.take hc
  | enter hc => exact h.enter hc
  | finish hc hx => exact h.ends rfl rfl rfl fun hh => by simp [hh] at hc
  | timeout hc | cancelWait hc => exact h.ends rfl rfl rfl fun hh => by simp [hh] at hc
  | cancelSend hc | closed hc => exact h.ends rfl rfl rfl fun hh => by simp [hh] at hc
  | receive hi => exact h.receive hi
  | handled hi =>
    rw [note, hi]
    exact h.handled hi
  | takeResponse hi ho =>
    rw [note, hi]
    exact h.takeResponse hi
  | sent ho => exact h.frame_call (.inr (.inl rfl)) rfl h.flow
  | endInbound => exact h.frame_call (.inl rfl) rfl h.flow.isPrefix
  | endOutbound => exact h.frame_call (.inr (.inr rfl)) rfl h.flow

/-- **What a step takes from the queue**: nothing, and then what the outbound task has in hand stays
as it is unless the task goes on or ends, or the message that the idle task has in hand from then
on. -/
theorem taken_turn {l : Peer.Label Call ρ ε} {p : Peer Call ρ ε} (ht : Peer.Turn S s.peer l p) :
    (s.note p l).taken = s.taken ∧
        (p.outbound = s.peer.outbound ∨ l = .sent ∧ p.outbound = .receiving ∨
          p.outbound = .ended) ∨
      ∃ x, (s.note p l).taken = s.taken ++ [x] ∧ s.peer.outbound = .receiving ∧
        p.outbound = .sending (message S x) := by
  cases ht with
  | call =>
    refine .inl ⟨rfl, .inl ?_⟩
    unfold Peer.begin_
    split <;> rfl
  | enter =>
    refine .inl ⟨rfl, .inl ?_⟩
    unfold Peer.enter
    split
    · rfl
    · dsimp only
      split <;> rfl
  | @take c hc ho => exact .inr ⟨.inl c, rfl, ho, rfl⟩
  | @takeResponse r hi ho => exact .inr ⟨.inr r, by simp only [note, hi], ho, rfl⟩
  | @receive m => exact .inl ⟨rfl, .inl (by cases m <;> rfl)⟩
  | @handled q r hi => exact .inl ⟨by simp only [note, hi], .inl (by cases r <;> rfl)⟩
  | sent => exact .inl ⟨rfl, .inr (.inl ⟨rfl, rfl⟩)⟩
  | endOutbound => exact .inl ⟨rfl, .inr (.inr rfl)⟩
  | finish | timeout | cancelWait | cancelSend | closed | endInbound => exact .inl ⟨rfl, .inl rfl⟩

/-- **What `channel.send()` is called with** is what has just been taken. -/
theorem wire_turn (h : s.wire = s.taken.map (message S)) {l : Peer.Label Call ρ ε}
    {p : Peer Call ρ ε} (ht : Peer.Turn S s.peer l p) :
    (s.note p l).wire = (s.note p l).taken.map (message S) := by
  rw [wire_note, h]
  rcases taken_turn ht with ⟨htaken, hp⟩ | ⟨x, htaken, ho, hp⟩
  · have hnone : p.outbound.begun s.peer.outbound = [] := by
      rcases hp with hp | ⟨-, hp⟩ | hp <;> simp [hp]
    rw [htaken, hnone, List.append_nil]
  · have hone : p.outbound.begun s.peer.outbound = [message S x] := by rw [hp, ho, Outbound.begun]
    rw [htaken, hone, List.map_append, List.map_singleton]

variable (ρ ε S)

/-- **The law of the wire holds at every moment of every run, and the wire only grows.** -/
theorem wireLaw (ls : List (Peer.Label Call ρ ε)) :
    (tapped ρ ε S).Along (WireLaw S) (tapped ρ ε S).init ls ∧
      (tapped ρ ε S).Throughout (fun s _ s' => s.wire <+: s'.wire) (tapped ρ ε S).init ls := by
  have hstep : ∀ (s : Tapped Call ρ ε) l s', Tied S s ∧ s.wire = s.taken.map (message S) →
      (tapped ρ ε S).step s l = some s' →
        (Tied S s' ∧ s'.wire = s'.taken.map (message S)) ∧ s.wire <+: s'.wire := by
    rintro s l s' ⟨htied, hwire⟩ hst
    obtain ⟨p, hp, rfl⟩ := Option.map_eq_some_iff.mp hst
    have ht := Peer.turn_of_step hp
    exact ⟨⟨htied.turn ht, wire_turn hwire ht⟩, wire_note p l ▸ List.prefix_append _ _⟩
  have hany := Machine.guarded_anyStep (M := tapped ρ ε S) (tapped ρ ε S).init ls
  constructor
  · exact (hany.along ⟨tied_init, rfl⟩ fun s l s' hs _ hst => (hstep s l s' hs hst).1).mono
      fun s hs => hs.1.law hs.2
  · exact hany.throughout ⟨tied_init, rfl⟩ fun s l s' hs _ hst => hstep s l s' hs hst

/-- Two calls and a two-way request: the first call is cancelled in the queue, and the response goes
out before the request of the second. -/
example : ((tapped String Unit (⟨.atNew, fun _ => true, fun _ => ⟨.none, true⟩⟩ :
      Setting (Fin 2))).exec .init
      [.receive (.request ⟨.str "x", false⟩), .call 0, .call 1, .cancel 0,
        .handled (some ⟨.str "x", .result "ok"⟩), .takeResponse, .sent, .take 1]).map Tapped.wire =
    some [.response ⟨.str "x", .result "ok"⟩, .request ⟨.none, true⟩] := rfl

end Tapped

end FlockwaveConn.Rpc
