import FlockwaveConn.Machinery.Transport
import FlockwaveConn.Channels.Rpc.Matching
import FlockwaveConn.Channels.Rpc.Network
import FlockwaveConn.Channels.Rpc.Wire

/-!
# Channels/Rpc/Session — remote calls from one end to the other

Two sides that run `serve_rpc_requests()` on the ends of a transport.  What a handler is called with
and what a call of `send_request()` returns are two sides apart, with four tasks and two directions
of the transport in between; calls may run out of time and tasks may end at any moment.
-/

namespace FlockwaveConn.Rpc

/-- The two sides, each with a record of what has gone by. -/
structure Session (Call ρ ε : Type*) where
  side : Side → Tapped Call ρ ε
  /-- What a side has sent and the other one not yet received. -/
  channel : Side → List (Message ρ ε)
  /-- What `channel.send()` has returned for, oldest first. -/
  posted : Side → List (Message ρ ε)

namespace Session

/-- The steps of the two sides and of the transport. -/
inductive Label (Call ρ ε : Type*)
  /-- A step inside one side. -/
  | task (i : Side) (l : Peer.Label Call ρ ε)
  /-- `channel.send()` returns. -/
  | send (i : Side)
  /-- The next message comes out of the channel. -/
  | receive (i : Side)
  /-- The messages on their way turn into others. -/
  | disturb (i : Side) (ms : List (Message ρ ε))

/-- A step that has nothing to do with the transport. -/
def isInside {Call ρ ε : Type*} : Peer.Label Call ρ ε → Bool
  | .receive _ | .sent => false
  | _ => true

variable {Call ρ ε : Type*}

def init : Session Call ρ ε := ⟨fun _ => .init, fun _ => [], fun _ => []⟩

/-- One of the sides has taken a step. -/
def setSide (i : Side) (s : Session Call ρ ε) (t : Tapped Call ρ ε) : Session Call ρ ε :=
  { s with side := Function.update s.side i t }

/-- The messages on their way from one side have changed. -/
def setChannel (i : Side) (ms : List (Message ρ ε)) (s : Session Call ρ ε) : Session Call ρ ε :=
  { s with channel := Function.update s.channel i ms }

/-- One more message has been sent. -/
def post (i : Side) (m : Message ρ ε) (s : Session Call ρ ε) : Session Call ρ ε :=
  { s.setChannel i (s.channel i ++ [m]) with
    posted := Function.update s.posted i (s.posted i ++ [m]) }

variable [DecidableEq Call] (K : Side → Setting Call)

/-- One step. -/
def step (s : Session Call ρ ε) : Label Call ρ ε → Option (Session Call ρ ε)
  | .task i l => if isInside l then ((s.side i).step (K i) l).map (s.setSide i) else none
  | .send i =>
    match (s.side i).peer.outbound with
    | .sending m => ((s.side i).step (K i) .sent).map fun t => (s.setSide i t).post i m
    | _ => none
  | .receive i =>
    match s.channel i.other with
    | m :: ms =>
      ((s.side i).step (K i) (.receive m)).map fun t => (s.setSide i t).setChannel i.other ms
    | [] => none
  | .disturb i ms => some (s.setChannel i ms)

end Session

/-- **Two sides and what is between them.** -/
def session {Call : Type*} (ρ ε : Type*) [DecidableEq Call] (K : Side → Setting Call) :
    Machine (Session Call ρ ε) (Session.Label Call ρ ε) where
  init := .init
  step := Session.step K

namespace Session

variable {Call ρ ε : Type*} {K : Side → Setting Call} {s s' : Session Call ρ ε}

/-! ## What a step does -/

@[simp] theorem setSide_side_self (i : Side) (t : Tapped Call ρ ε) : (s.setSide i t).side i = t :=
  Function.update_self ..

theorem setSide_side_of_ne {i j : Side} (t : Tapped Call ρ ε) (h : j ≠ i) :
    (s.setSide i t).side j = s.side j := Function.update_of_ne h ..

@[simp] theorem setSide_channel (i : Side) (t : Tapped Call ρ ε) :
    (s.setSide i t).channel = s.channel := rfl

@[simp] theorem setSide_posted (i : Side) (t : Tapped Call ρ ε) :
    (s.setSide i t).posted = s.posted := rfl

@[simp] theorem setChannel_side (i : Side) (ms : List (Message ρ ε)) :
    (s.setChannel i ms).side = s.side := rfl

@[simp] theorem setChannel_posted (i : Side) (ms : List (Message ρ ε)) :
    (s.setChannel i ms).posted = s.posted := rfl

@[simp] theorem setChannel_channel_self (i : Side) (ms : List (Message ρ ε)) :
    (s.setChannel i ms).channel i = ms := Function.update_self ..

theorem setChannel_channel_of_ne {i j : Side} (ms : List (Message ρ ε)) (h : j ≠ i) :
    (s.setChannel i ms).channel j = s.channel j := Function.update_of_ne h ..

@[simp] theorem post_side (i : Side) (m : Message ρ ε) : (s.post i m).side = s.side := rfl

theorem post_channel (i : Side) (m : Message ρ ε) :
    (s.post i m).channel = (s.setChannel i (s.channel i ++ [m])).channel := rfl

@[simp] theorem post_posted_self (i : Side) (m : Message ρ ε) :
    (s.post i m).posted i = s.posted i ++ [m] := Function.update_self ..

theorem post_posted_of_ne {i j : Side} (m : Message ρ ε) (h : j ≠ i) :
    (s.post i m).posted j = s.posted j := Function.update_of_ne h ..

variable [DecidableEq Call]

/-- **Everything a step can do**, in terms of the sides' own steps. -/
inductive Turn (K : Side → Setting Call) (s : Session Call ρ ε) :
    Label Call ρ ε → Session Call ρ ε → Prop
  | task {i : Side} {l : Peer.Label Call ρ ε} {t : Tapped Call ρ ε} (hl : isInside l)
      (ht : (s.side i).step (K i) l = some t) : Turn K s (.task i l) (s.setSide i t)
  | send {i : Side} {m : Message ρ ε} {t : Tapped Call ρ ε}
      (hm : (s.side i).peer.outbound = .sending m) (ht : (s.side i).step (K i) .sent = some t) :
      Turn K s (.send i) ((s.setSide i t).post i m)
  | receive {i : Side} {m : Message ρ ε} {ms : List (Message ρ ε)} {t : Tapped Call ρ ε}
      (hms : s.channel i.other = m :: ms) (ht : (s.side i).step (K i) (.receive m) = some t) :
      Turn K s (.receive i) ((s.setSide i t).setChannel i.other ms)
  | disturb (i : Side) (ms : List (Message ρ ε)) : Turn K s (.disturb i ms) (s.setChannel i ms)

theorem turn_of_step {l : Label Call ρ ε} (h : s.step K l = some s') : Turn K s l s' := by
  cases l with
  | task i l =>
    simp only [step] at h
    split_ifs at h with hl
    obtain ⟨t, ht, rfl⟩ := Option.map_eq_some_iff.mp h
    exact .task hl ht
  | send i =>
    simp only [step] at h
    split at h
    · next m hm =>
        obtain ⟨t, ht, rfl⟩ := Option.map_eq_some_iff.mp h
        exact .send hm ht
    · cases h
  | receive i =>
    simp only [step] at h
    split at h
    · next m ms hms =>
        obtain ⟨t, ht, rfl⟩ := Option.map_eq_some_iff.mp h
        exact .receive hms ht
    · cases h
  | disturb i ms =>
    obtain rfl := Option.some.inj h
    exact .disturb i ms

/-- **What each side keeps by its own steps, the session keeps.** -/
theorem Turn.sides {I : Side → Tapped Call ρ ε → Prop} {l : Label Call ρ ε}
    (hI : ∀ i t l t', I i t → Tapped.step (K i) t l = some t' → I i t')
    (h : ∀ i, I i (s.side i)) (ht : Turn K s l s') : ∀ i, I i (s'.side i) := by
  have hset : ∀ {i : Side} {l : Peer.Label Call ρ ε} {t : Tapped Call ρ ε},
      (s.side i).step (K i) l = some t → ∀ j, I j ((s.setSide i t).side j) := by
    intro i l t ht j
    by_cases hji : j = i
    · subst hji
      rw [setSide_side_self]
      exact hI j _ l t (h j) ht
    · rw [setSide_side_of_ne t hji]
      exact h j
  cases ht with
  | task hl ht | send hm ht | receive hms ht => exact hset ht
  | disturb => exact h

end Session

/-! ## One side -/

namespace Tapped

variable {Call ρ ε : Type*} {S : Setting Call} {t t' : Tapped Call ρ ε}

/-- The responses among the messages. -/
def incoming (ms : List (Message ρ ε)) : List (Response ρ ε) :=
  ms.filterMap fun
    | .response r => some r
    | _ => none

/-- What the outbound task has in hand. -/
def inHand (t : Tapped Call ρ ε) : List (Message ρ ε) :=
  match t.peer.outbound with
  | .sending m => [m]
  | _ => []

/-- **What one side keeps**, whatever comes in. -/
structure Sound (S : Setting Call) (t : Tapped Call ρ ε) : Prop where
  tied : Tied S t
  filed : Peer.Filed S t.peer
  held : Peer.Held S t.peer
  sourced : Peer.Sourced S t.peer
  recorded : t.peer.responses = incoming t.arrived
  twoWay : ∀ c x, t.peer.pending.value c = some x → S.needsResponse c
  /-- A call that waits has got past the queue. -/
  entered : ∀ c, t.peer.call c = .waiting ∨ t.peer.call c = .ready → c ∈ t.entered

theorem sound_init : Sound S (init : Tapped Call ρ ε) :=
  ⟨tied_init, Peer.filed_init, Peer.held_init, Peer.sourced_init, rfl, nofun, nofun⟩

@[simp] theorem note_peer (p : Peer Call ρ ε) (l : Peer.Label Call ρ ε) :
    (t.note p l).peer = p := by
  cases l with
  | takeResponse | handled =>
    simp only [note]
    split <;> rfl
  | _ => rfl

/-- What a step takes out of the channel. -/
def received : Peer.Label Call ρ ε → List (Message ρ ε)
  | .receive m => [m]
  | _ => []

@[simp] theorem received_of_isInside {l : Peer.Label Call ρ ε} (hl : Session.isInside l) :
    received l = [] := by
  cases l with
  | receive => cases hl
  | _ => rfl

/-- Only what comes out of the channel arrives. -/
theorem note_arrived (p : Peer Call ρ ε) (l : Peer.Label Call ρ ε) :
    (t.note p l).arrived = t.arrived ++ received l := by
  cases l with
  | takeResponse | handled =>
    simp only [note]
    split <;> exact (List.append_nil _).symm
  | receive => rfl
  | _ => exact (List.append_nil _).symm

variable [DecidableEq Call] {l : Peer.Label Call ρ ε}

theorem responses_of_turn {p p' : Peer Call ρ ε} (ht : Peer.Turn S p l p') :
    p'.responses = p.responses ++ incoming (received l) := by
  cases ht with
  | call =>
    unfold Peer.begin_
    split <;> exact (List.append_nil _).symm
  | enter =>
    unfold Peer.enter
    split
    · exact (List.append_nil _).symm
    · dsimp only
      split <;> exact (List.append_nil _).symm
  | @receive m =>
    cases m with
    | response => rfl
    | request | unknown => exact (List.append_nil _).symm
  | @handled q r => cases r <;> exact (List.append_nil _).symm
  | _ => exact (List.append_nil _).symm

/-- Only a response sets a future, and only that of the call which is in the map. -/
theorem value_of_turn {p p' : Peer Call ρ ε} (ht : Peer.Turn S p l p') {c : Call}
    {x : Content ρ ε} (hx : p'.pending.value c = some x) :
    p.pending.value c = some x ∨ ∃ k, p.pending.get k = some c := by
  cases ht with
  | call => exact .inl (by rwa [Peer.begin_value] at hx)
  | enter => exact .inl (by rwa [Peer.enter_value] at hx)
  | @receive m =>
    cases m with
    | request | unknown => exact .inl hx
    | response r => exact (FutureMap.get_of_resolve_value hx).imp id fun h => ⟨_, h.1⟩
  | handled => exact .inl (by rwa [Peer.answer_pending] at hx)
  | _ => exact .inl hx

/-- A call comes to wait when it goes on from the queue. -/
theorem entered_of_turn {p' : Peer Call ρ ε} (ht : Peer.Turn S t.peer l p')
    (h : ∀ c, t.peer.call c = .waiting ∨ t.peer.call c = .ready → c ∈ t.entered) {c : Call}
    (hc : p'.call c = .waiting ∨ p'.call c = .ready) : c ∈ (t.note p' l).entered := by
  by_cases hl : l.mover = some c
  · cases ht with
    | enter =>
      obtain rfl := Option.some.inj hl
      exact List.mem_append_right _ (List.mem_singleton_self _)
    | call | take | cancelSend | closed | finish | timeout | cancelWait =>
      obtain rfl := Option.some.inj hl
      simp [Peer.begin_, Peer.leave] at hc
    | receive | handled | takeResponse | sent | endInbound | endOutbound => cases hl
  · have hmem := h c (ht.call_of_ne hl ▸ hc)
    cases l with
    | enter d => exact List.mem_append_left _ hmem
    | takeResponse | handled =>
      simp only [note]
      split <;> exact hmem
    | _ => exact hmem

/-- **One step.** -/
theorem Sound.step (hU : S.UniqueIds) (hT : S.Textual) (h : Sound S t)
    (hst : t.step S l = some t') : Sound S t' := by
  obtain ⟨p, hp, rfl⟩ := Option.map_eq_some_iff.mp hst
  have ht := Peer.turn_of_step hp
  have hrec : p.responses = incoming (t.note p l).arrived := by
    rw [responses_of_turn ht, h.recorded, note_arrived]
    exact List.filterMap_append.symm
  refine ⟨h.tied.turn ht, ?_, ?_, ?_, ?_, ?_, ?_⟩ <;> rw [note_peer]
  · exact h.filed.turn ht
  · exact h.held.turn (hT.uniqueKeys hU) h.filed ht
  · exact h.sourced.turn hT h.filed ht
  · exact hrec
  · intro c x hx
    rcases value_of_turn ht hx with hold | ⟨k, hk⟩
    · exact h.twoWay c x hold
    · exact (h.filed.own k c hk).2.1
  · exact fun c hc => entered_of_turn ht h.entered hc

/-- **What a step inside one side takes from the queue**: nothing, and then what the outbound task
has in hand stays as it is unless the task ends, or a message. -/
theorem taken_of_step (hl : Session.isInside l) (hst : t.step S l = some t') :
    t'.taken = t.taken ∧ (t'.peer.outbound = t.peer.outbound ∨ t'.peer.outbound = .ended) ∨
      ∃ x, t'.taken = t.taken ++ [x] ∧ t.peer.outbound = .receiving ∧
        t'.peer.outbound = .sending (message S x) := by
  obtain ⟨p, hp, rfl⟩ := Option.map_eq_some_iff.mp hst
  rw [note_peer]
  refine (taken_turn (Peer.turn_of_step hp)).imp_left fun ⟨htaken, ho⟩ => ⟨htaken, ?_⟩
  rcases ho with ho | ⟨rfl, -⟩ | ho
  · exact .inl ho
  · cases hl
  · exact .inr ho

/-- A call that holds its future has held it before, unless it is new. -/
theorem holds_of_turn (hnew : S.registration = .atNew) {p p' : Peer Call ρ ε}
    (ht : Peer.Turn S p l p') {c : Call} (h : S.Holds c (p'.call c)) :
    S.Holds c (p.call c) ∨ p.call c = .idle := by
  have hn := Peer.needsResponse_of_holds h
  by_cases hl : l.mover = some c
  · cases ht with
    | call hc =>
      obtain rfl := Option.some.inj hl
      exact .inr hc
    | take hc | enter hc =>
      obtain rfl := Option.some.inj hl
      exact .inl (hc ▸ ⟨hn, hnew⟩)
    | cancelSend | closed | finish | timeout | cancelWait =>
      obtain rfl := Option.some.inj hl
      simp [Peer.leave, Setting.Holds] at h
    | receive | handled | takeResponse | sent | endInbound | endOutbound => cases hl
  · exact .inl (ht.call_of_ne hl ▸ h)

/-- **A response sets the future of its call**, or it is set already. -/
theorem value_of_response (hnew : S.registration = .atNew) (hT : S.Textual)
    {p p' : Peer Call ρ ε} (hheld : Peer.Held S p) (ht : Peer.Turn S p l p') {c : Call}
    {r : Response ρ ε} (hid : r.uniqueId = S.uniqueId c)
    (hidle : p.call c = .idle → r ∉ p.responses)
    (hold : S.Holds c (p.call c) → r ∈ p.responses → p.pending.value c ≠ none)
    (hc : S.Holds c (p'.call c)) (hr : r ∈ p'.responses) : p'.pending.value c ≠ none := by
  rw [responses_of_turn ht, List.mem_append] at hr
  rcases hr with hr | hr
  · have hbefore := (holds_of_turn hnew ht hc).resolve_right fun h => hidle h hr
    obtain ⟨x, hx⟩ := Option.ne_none_iff_exists'.mp (hold hbefore hr)
    rw [ht.value_of_some hx]
    exact Option.some_ne_none x
  · cases ht with
    | @receive m =>
      cases m with
      | request | unknown => cases hr
      | response r' =>
        obtain rfl : r = r' := List.mem_singleton.mp hr
        rw [Peer.handle_call] at hc
        have hget := hheld c hc
        rw [hT.key_eq (Peer.needsResponse_of_holds hc), ← hid] at hget
        cases hv : p.pending.value c with
        | none =>
          have hset := FutureMap.resolve_value_self r.payload.content hget hv
          exact fun h => Option.some_ne_none _ (hset.symm.trans h)
        | some x =>
          have hset := FutureMap.resolve_value_of_some (k := r.uniqueId)
            (x := r.payload.content) hv
          exact fun h => Option.some_ne_none _ (hset.symm.trans h)
    | _ => cases hr

/-- **Only the end of a handler is recorded as handled.** -/
theorem handled_of_step (hst : t.step S l = some t') :
    t'.handled = t.handled ∨ ∃ q r, l = .handled r ∧ t.peer.inbound = .handling q ∧
      t'.handled = t.handled ++ [(q, r)] := by
  obtain ⟨p, hp, rfl⟩ := Option.map_eq_some_iff.mp hst
  cases Peer.turn_of_step hp with
  | @handled q r hi => exact .inr ⟨q, r, rfl, hi, by rw [note, hi]⟩
  | @takeResponse r hi ho => exact .inl (by rw [note, hi])
  | _ => exact .inl rfl

/-- What the other side got is not on this one's wire. -/
theorem step_receive {m : Message ρ ε} (hi : t.peer.inbound = .receiving) :
    t.step S (.receive m) =
      some { t with peer := t.peer.handle m, arrived := t.arrived ++ [m] } := by
  cases m <;> simp [step, Peer.step, hi, note, Peer.handle]

theorem step_sent {m : Message ρ ε} (ho : t.peer.outbound = .sending m) :
    t.step S .sent = some { t with peer := { t.peer with outbound := .receiving } } := by
  simp [step, Peer.step, ho, note]

theorem of_step_receive {m : Message ρ ε} (hst : t.step S (.receive m) = some t') :
    t' = { t with peer := t.peer.handle m, arrived := t.arrived ++ [m] } := by
  obtain ⟨p, hp, -⟩ := Option.map_eq_some_iff.mp hst
  cases Peer.turn_of_step hp with
  | receive hi => exact Option.some.inj (hst.symm.trans (step_receive hi))

theorem of_step_sent (hst : t.step S .sent = some t') :
    t' = { t with peer := { t.peer with outbound := .receiving } } := by
  obtain ⟨p, hp, -⟩ := Option.map_eq_some_iff.mp hst
  cases Peer.turn_of_step hp with
  | sent ho => exact Option.some.inj (hst.symm.trans (step_sent ho))

end Tapped

namespace Session

open Tapped (message incoming requests)

variable {Call ρ ε : Type*} {K : Side → Setting Call} {s s' : Session Call ρ ε}
  {T : Transport (Message ρ ε)}

/-! ## Both sides -/

/-- How far the outbound task is: what has been sent, and what is on the wire. -/
def Fed (posted wire : List (Message ρ ε)) : Outbound ρ ε → Prop
  | .receiving => posted = wire
  | .sending m => posted ++ [m] = wire
  | .ended => posted <+: wire

theorem Fed.isPrefix {posted wire : List (Message ρ ε)} {o : Outbound ρ ε}
    (h : Fed posted wire o) : posted <+: wire := by
  cases o with
  | receiving => exact h ▸ List.prefix_rfl
  | sending m => exact h ▸ List.prefix_append _ _
  | ended => exact h

/-- **The two sides and the transport between them.** -/
structure Linked (T : Transport (Message ρ ε)) (K : Side → Setting Call) (s : Session Call ρ ε) :
    Prop where
  sound : ∀ i, (s.side i).Sound (K i)
  fed : ∀ i, Fed (s.posted i) ((s.side i).taken.map (message (K i))) (s.side i).peer.outbound
  carried : ∀ i, T.carries ((s.side i.other).arrived ++ s.channel i) (s.posted i)
  /-- The handlers answer under the identifier of the request. -/
  echoes : ∀ i q r, (q, some r) ∈ (s.side i).handled → q.oneWay = false →
    r.uniqueId = q.uniqueId

theorem linked_init : Linked T K (init : Session Call ρ ε) where
  sound _ := Tapped.sound_init
  fed _ := rfl
  carried _ := T.nil
  echoes _ _ _ h := by cases h

/-- **What the transport and the handlers may do**: messages on their way turn into others as the
transport has it, and a two-way request is answered under its own identifier. -/
def Proper (T : Transport (Message ρ ε)) (s : Session Call ρ ε) : Label Call ρ ε → Prop
  | .disturb i ms => T.disturbs (s.channel i) ms
  | .task i (.handled (some r)) =>
    ∀ q, (s.side i).peer.inbound = .handling q → q.oneWay = false → r.uniqueId = q.uniqueId
  | _ => True

section

variable [DecidableEq Call] {l : Label Call ρ ε}

/-- The outbound task, by one step. -/
theorem Linked.fed_turn (h : Linked T K s) (ht : Turn K s l s') (i : Side) :
    Fed (s'.posted i) ((s'.side i).taken.map (message (K i))) (s'.side i).peer.outbound := by
  have hfed := h.fed i
  cases ht with
  | @task j l t hl ht =>
    by_cases hij : i = j
    · subst hij
      rw [setSide_side_self, setSide_posted]
      rcases Tapped.taken_of_step hl ht with ⟨hw, ho | ho⟩ | ⟨x, hw, ho, ho'⟩
      · rwa [hw, ho]
      · rw [hw, ho]
        exact hfed.isPrefix
      · rw [ho] at hfed
        rw [hw, ho', List.map_append, ← hfed]
        rfl
    · rwa [setSide_side_of_ne t hij]
  | @send j m t hm ht =>
    obtain rfl := Tapped.of_step_sent ht
    by_cases hij : i = j
    · subst hij
      rw [hm] at hfed
      rw [post_side, setSide_side_self, post_posted_self]
      exact hfed
    · rwa [post_side, setSide_side_of_ne _ hij, post_posted_of_ne _ hij]
  | @receive j m ms t hms ht =>
    obtain rfl := Tapped.of_step_receive ht
    by_cases hij : i = j
    · subst hij
      rw [setChannel_side, setSide_side_self]
      cases m <;> exact hfed
    · rwa [setChannel_side, setSide_side_of_ne _ hij]
  | disturb => exact hfed

/-- The transport, by one step. -/
theorem Linked.carried_turn (h : Linked T K s) (hP : Proper T s l) (ht : Turn K s l s')
    (i : Side) : T.carries ((s'.side i.other).arrived ++ s'.channel i) (s'.posted i) := by
  have hcar := h.carried i
  cases ht with
  | @task j l t hl ht =>
    have harr : ((s.setSide j t).side i.other).arrived = (s.side i.other).arrived := by
      by_cases hij : i.other = j
      · subst hij
        obtain ⟨p, hp, rfl⟩ := Option.map_eq_some_iff.mp ht
        rw [setSide_side_self, Tapped.note_arrived, Tapped.received_of_isInside hl,
          List.append_nil]
      · rw [setSide_side_of_ne t hij]
    rwa [harr]
  | @send j m t hm ht =>
    obtain rfl := Tapped.of_step_sent ht
    have harr : ((s.setSide j { s.side j with
        peer := { (s.side j).peer with outbound := .receiving } }).side i.other).arrived =
        (s.side i.other).arrived := by
      by_cases hij : i.other = j
      · subst hij
        rw [setSide_side_self]
      · rw [setSide_side_of_ne _ hij]
    rw [post_side, harr, post_channel]
    by_cases hij : i = j
    · subst hij
      rw [setChannel_channel_self, post_posted_self, ← List.append_assoc]
      exact T.concat m hcar
    · rwa [setChannel_channel_of_ne _ hij, post_posted_of_ne _ hij]
  | @receive j m ms t hms ht =>
    obtain rfl := Tapped.of_step_receive ht
    by_cases hij : i = j.other
    · subst hij
      rw [Side.other_other] at hcar ⊢
      rw [setChannel_side, setSide_side_self, setChannel_channel_self, List.append_assoc]
      rwa [hms] at hcar
    · have hne : i.other ≠ j := fun h => hij (by rw [← h, Side.other_other])
      rwa [setChannel_side, setSide_side_of_ne _ hne, setChannel_channel_of_ne _ hij]
  | disturb j ms =>
    by_cases hij : i = j
    · subst hij
      rw [setChannel_channel_self]
      exact T.disturb hcar hP
    · rwa [setChannel_channel_of_ne _ hij]

/-- The handlers, by one step. -/
theorem Linked.echoes_turn (h : Linked T K s) (hP : Proper T s l) (ht : Turn K s l s') (i : Side) :
    ∀ q r, (q, some r) ∈ (s'.side i).handled → q.oneWay = false → r.uniqueId = q.uniqueId := by
  have hold := h.echoes i
  cases ht with
  | @task j l t hl ht =>
    by_cases hij : i = j
    · subst hij
      rw [setSide_side_self]
      rcases Tapped.handled_of_step ht with hsame | ⟨q, r, rfl, hi, happ⟩
      · rwa [hsame]
      · rw [happ]
        intro q' r' hmem
        rcases List.mem_append.mp hmem with hmem | hmem
        · exact hold q' r' hmem
        · obtain ⟨rfl, rfl⟩ := Prod.mk.inj (List.mem_singleton.mp hmem)
          exact hP _ hi
    · rwa [setSide_side_of_ne t hij]
  | @send j m t hm ht =>
    obtain rfl := Tapped.of_step_sent ht
    by_cases hij : i = j
    · subst hij
      rwa [post_side, setSide_side_self]
    · rwa [post_side, setSide_side_of_ne _ hij]
  | @receive j m ms t hms ht =>
    obtain rfl := Tapped.of_step_receive ht
    by_cases hij : i = j
    · subst hij
      rwa [setChannel_side, setSide_side_self]
    · rwa [setChannel_side, setSide_side_of_ne _ hij]
  | disturb => exact hold

/-- **One step.** -/
theorem Linked.turn (hU : ∀ i, (K i).UniqueIds) (hT : ∀ i, (K i).Textual) (h : Linked T K s)
    (hP : Proper T s l) (ht : Turn K s l s') : Linked T K s' where
  sound := ht.sides (I := fun i t => t.Sound (K i)) (fun i _ _ _ ht => ht.step (hU i) (hT i))
    h.sound
  fed := h.fed_turn ht
  carried := h.carried_turn hP ht
  echoes := h.echoes_turn hP ht

theorem linked_of_reach (hU : ∀ i, (K i).UniqueIds) (hT : ∀ i, (K i).Textual)
    (h : (session ρ ε K).Reach (Proper T) s) : Linked T K s :=
  h.invariant linked_init fun _ _ _ hs hP hst => hs.turn hU hT hP (turn_of_step hst)

theorem Linked.along (hU : ∀ i, (K i).UniqueIds) (hT : ∀ i, (K i).Textual)
    {ls : List (Label Call ρ ε)} (h : (session ρ ε K).Guarded (Proper T) .init ls) :
    (session ρ ε K).Along (Linked T K) .init ls :=
  h.along linked_init fun _ _ _ hs hP hst => hs.turn hU hT hP (turn_of_step hst)

end

end Session

end FlockwaveConn.Rpc
