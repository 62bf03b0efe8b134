import FlockwaveConn.Channels.Framing
import FlockwaveConn.Channels.Rpc.Ledger

/-!
# Channels/Rpc/Duplex — remote calls over two streams of bytes

`serve_rpc_requests()` at both ends of a connection.  The outbound task of a side encodes its
messages, and the bytes go into a stream piece by piece; the inbound task of the other side reads
pieces that are cut somewhere else, and takes from the channel what the parser makes of them.

Of a message that the outbound task has begun to send, the sides do not know where it is.  Read as
if it had been sent at once, the streams are a reliable transport for messages (`refines_along`),
as long as the parser reads back what the encoder writes.  So every request is executed at most
once, what a call returns is what the handler returned for it, and nothing is lost but by the end of
a task (`executed_along`).
-/

namespace FlockwaveConn.Rpc

/-- The two sides, and the streams between them. -/
structure Duplex (Call σ β ρ ε δ : Type*) where
  side : Side → Tapped Call ρ ε
  /-- What side `i` sends into and the other one receives from. -/
  line : Side → Conveyor Unit σ β (Message ρ ε) δ

namespace Duplex

/-- The steps of the two sides and of the streams. -/
inductive Label (Call ρ ε : Type*)
  /-- A step inside one side, of a task that goes on. -/
  | task (i : Side) (l : Peer.Label Call ρ ε)
  /-- The outbound task calls `channel.send()`. -/
  | send (i : Side)
  /-- Some bytes go into the stream. -/
  | transmit (i : Side) (n : ℕ)
  /-- `channel.send()` returns. -/
  | sent (i : Side)
  /-- The sending end is closed. -/
  | close (i : Side)
  /-- The inbound task calls `channel.receive()`. -/
  | receive (i : Side)
  /-- The read of the inbound task returns some bytes. -/
  | read (i : Side) (n : ℕ)
  /-- The read of the inbound task returns nothing, at the end of the stream. -/
  | eof (i : Side)
  /-- The inbound task ends, by an exception or a cancellation. -/
  | endInbound (i : Side)
  /-- The outbound task ends, by an exception or a cancellation. -/
  | endOutbound (i : Side)

/-- What a step of an inbound task is at the receiving end of its stream. -/
def Label.listens {Call ρ ε : Type*} :
    Label Call ρ ε → Option (Side × Conveyor.Label Unit (Message ρ ε))
  | .receive i => some (i, .receive ())
  | .read i n => some (i, .read () n)
  | .eof i => some (i, .eof ())
  | .endInbound i => some (i, .interrupt ())
  | _ => none

/-- A step inside one side that ends neither of its two tasks. -/
def goesOn {Call ρ ε : Type*} : Peer.Label Call ρ ε → Bool
  | .endInbound | .endOutbound => false
  | l => Session.isInside l

/-- What the end of a call of `receive()` is to the inbound task. -/
def arrival {Call ρ ε δ : Type*} : Received (Message ρ ε) δ → Peer.Label Call ρ ε
  | .message m => .receive m
  | .ended | .failed _ | .interrupted => .endInbound

variable {Call σ β ρ ε δ : Type*}

def init (q : σ) : Duplex Call σ β ρ ε δ := ⟨fun _ => .init, fun _ => .init q⟩

/-- One of the sides has taken a step. -/
def setSide (i : Side) (s : Duplex Call σ β ρ ε δ) (t : Tapped Call ρ ε) : Duplex Call σ β ρ ε δ :=
  { s with side := Function.update s.side i t }

/-- One of the streams has changed. -/
def setLine (i : Side) (s : Duplex Call σ β ρ ε δ) (c : Conveyor Unit σ β (Message ρ ε) δ) :
    Duplex Call σ β ρ ε δ :=
  { s with line := Function.update s.line i c }

variable [DecidableEq Call] (P : Parser σ (List β) (Message ρ ε) δ)
  (encode : Message ρ ε → List β) (K : Side → Setting Call)

/-- The inbound task goes on in `channel.receive()`, and with what the call returns if it ends. -/
def listen (i : Side) (s : Duplex Call σ β ρ ε δ) (l : Conveyor.Label Unit (Message ρ ε)) :
    Option (Duplex Call σ β ρ ε δ) :=
  ((s.line i.other).step P encode l).bind fun c =>
    match c.consumers.results.drop (s.line i.other).consumers.results.length with
    | [] => some (s.setLine i.other c)
    | (_, r) :: _ => ((s.side i).step (K i) (arrival r)).map ((s.setLine i.other c).setSide i)

/-- One step. -/
def step (s : Duplex Call σ β ρ ε δ) : Label Call ρ ε → Option (Duplex Call σ β ρ ε δ)
  | .task i l => if goesOn l then ((s.side i).step (K i) l).map (s.setSide i) else none
  | .send i =>
    match (s.side i).peer.outbound with
    | .sending m => ((s.line i).step P encode (.send m)).map (s.setLine i)
    | _ => none
  | .transmit i n => ((s.line i).step P encode (.transmit n)).map (s.setLine i)
  | .sent i => ((s.line i).step P encode .sent).bind fun c =>
      ((s.side i).step (K i) .sent).map ((s.setLine i c).setSide i)
  | .close i => ((s.line i).step P encode .close).map (s.setLine i)
  | .receive i =>
    match (s.side i).peer.inbound with
    | .receiving => s.listen P encode K i (.receive ())
    | _ => none
  | .read i n => s.listen P encode K i (.read () n)
  | .eof i => s.listen P encode K i (.eof ())
  | .endInbound i =>
    if (s.line i.other).consumers.reading () then s.listen P encode K i (.interrupt ())
    else ((s.side i).step (K i) .endInbound).map (s.setSide i)
  | .endOutbound i =>
    match (s.line i).outgoing with
    | some _ => ((s.line i).step P encode .tear).bind fun c =>
        ((s.side i).step (K i) .endOutbound).map ((s.setLine i c).setSide i)
    | none => ((s.side i).step (K i) .endOutbound).map (s.setSide i)

end Duplex

/-- **Two sides and the streams of bytes between them.** -/
def duplex {Call σ β ρ ε δ : Type*} [DecidableEq Call] (P : Parser σ (List β) (Message ρ ε) δ)
    (encode : Message ρ ε → List β) (q : σ) (K : Side → Setting Call) :
    Machine (Duplex Call σ β ρ ε δ) (Duplex.Label Call ρ ε) where
  init := .init q
  step := Duplex.step P encode K

namespace Duplex

variable {Call σ β ρ ε δ : Type*} {P : Parser σ (List β) (Message ρ ε) δ}
  {encode : Message ρ ε → List β} {q : σ} {K : Side → Setting Call} {s s' : Duplex Call σ β ρ ε δ}

/-! ## What a step does -/

@[simp] theorem setSide_side_self (i : Side) (t : Tapped Call ρ ε) : (s.setSide i t).side i = t :=
  Function.update_self ..

theorem setSide_side_of_ne {i j : Side} (t : Tapped Call ρ ε) (h : j ≠ i) :
    (s.setSide i t).side j = s.side j := Function.update_of_ne h ..

@[simp] theorem setSide_line (i : Side) (t : Tapped Call ρ ε) : (s.setSide i t).line = s.line := rfl

@[simp] theorem setLine_side (i : Side) (c : Conveyor Unit σ β (Message ρ ε) δ) :
    (s.setLine i c).side = s.side := rfl

@[simp] theorem setLine_line_self (i : Side) (c : Conveyor Unit σ β (Message ρ ε) δ) :
    (s.setLine i c).line i = c := Function.update_self ..

theorem setLine_line_of_ne {i j : Side} (c : Conveyor Unit σ β (Message ρ ε) δ) (h : j ≠ i) :
    (s.setLine i c).line j = s.line j := Function.update_of_ne h ..

variable [DecidableEq Call]

/-- **Everything a step can do**, in terms of the steps of the sides and of the streams. -/
inductive Turn (P : Parser σ (List β) (Message ρ ε) δ) (encode : Message ρ ε → List β)
    (K : Side → Setting Call) (s : Duplex Call σ β ρ ε δ) :
    Label Call ρ ε → Duplex Call σ β ρ ε δ → Prop
  | task {i : Side} {l : Peer.Label Call ρ ε} {t : Tapped Call ρ ε} (hl : goesOn l)
      (ht : (s.side i).step (K i) l = some t) : Turn P encode K s (.task i l) (s.setSide i t)
  | send {i : Side} {m : Message ρ ε} {c : Conveyor Unit σ β (Message ρ ε) δ}
      (hm : (s.side i).peer.outbound = .sending m)
      (hc : (s.line i).step P encode (.send m) = some c) :
      Turn P encode K s (.send i) (s.setLine i c)
  | transmit {i : Side} {n : ℕ} {c : Conveyor Unit σ β (Message ρ ε) δ}
      (hc : (s.line i).step P encode (.transmit n) = some c) :
      Turn P encode K s (.transmit i n) (s.setLine i c)
  | sent {i : Side} {c : Conveyor Unit σ β (Message ρ ε) δ} {t : Tapped Call ρ ε}
      (hc : (s.line i).step P encode .sent = some c)
      (ht : (s.side i).step (K i) .sent = some t) :
      Turn P encode K s (.sent i) ((s.setLine i c).setSide i t)
  | close {i : Side} {c : Conveyor Unit σ β (Message ρ ε) δ}
      (hc : (s.line i).step P encode .close = some c) :
      Turn P encode K s (.close i) (s.setLine i c)
  /-- The inbound task stays in `receive()`. -/
  | waits {i : Side} {l : Label Call ρ ε} {lc : Conveyor.Label Unit (Message ρ ε)}
      {c : Conveyor Unit σ β (Message ρ ε) δ} (hl : l.listens = some (i, lc))
      (hc : (s.line i.other).step P encode lc = some c)
      (hr : c.consumers.results = (s.line i.other).consumers.results) :
      Turn P encode K s l (s.setLine i.other c)
  /-- The inbound task comes back from `receive()`. -/
  | gets {i : Side} {l : Label Call ρ ε} {lc : Conveyor.Label Unit (Message ρ ε)}
      {c : Conveyor Unit σ β (Message ρ ε) δ} {r : Received (Message ρ ε) δ} {t : Tapped Call ρ ε}
      (hl : l.listens = some (i, lc)) (hc : (s.line i.other).step P encode lc = some c)
      (hr : c.consumers.results = (s.line i.other).consumers.results ++ [((), r)])
      (ht : (s.side i).step (K i) (arrival r) = some t) :
      Turn P encode K s l ((s.setLine i.other c).setSide i t)
  | endInbound {i : Side} {t : Tapped Call ρ ε}
      (ht : (s.side i).step (K i) .endInbound = some t) :
      Turn P encode K s (.endInbound i) (s.setSide i t)
  | endOutbound {i : Side} {t : Tapped Call ρ ε} (hout : (s.line i).outgoing = none)
      (ht : (s.side i).step (K i) .endOutbound = some t) :
      Turn P encode K s (.endOutbound i) (s.setSide i t)
  | tear {i : Side} {c : Conveyor Unit σ β (Message ρ ε) δ} {t : Tapped Call ρ ε}
      (hc : (s.line i).step P encode .tear = some c)
      (ht : (s.side i).step (K i) .endOutbound = some t) :
      Turn P encode K s (.endOutbound i) ((s.setLine i c).setSide i t)

omit [DecidableEq Call] in
theorem isReceiving_of_listens {i : Side} {l : Label Call ρ ε}
    {lc : Conveyor.Label Unit (Message ρ ε)} (hl : l.listens = some (i, lc)) : lc.isReceiving := by
  cases l with
  | receive | read | eof | endInbound =>
    obtain ⟨-, rfl⟩ := Prod.mk.inj (Option.some.inj hl)
    rfl
  | _ => cases hl

theorem turn_of_listen {i : Side} {l : Label Call ρ ε} {lc : Conveyor.Label Unit (Message ρ ε)}
    (hl : l.listens = some (i, lc)) (h : s.listen P encode K i lc = some s') :
    Turn P encode K s l s' := by
  obtain ⟨c, hc, h⟩ := Option.bind_eq_some_iff.mp h
  rcases Conveyor.results_of_isReceiving (isReceiving_of_listens hl) hc with hr | ⟨_, r, hr⟩
  · have hdrop : c.consumers.results.drop (s.line i.other).consumers.results.length = [] := by
      rw [hr, List.drop_length]
    rw [hdrop] at h
    obtain rfl := Option.some.inj h
    exact .waits hl hc hr
  · have hdrop : c.consumers.results.drop (s.line i.other).consumers.results.length =
        [((), r)] := by
      rw [hr, List.drop_left]
    rw [hdrop] at h
    obtain ⟨t, ht, rfl⟩ := Option.map_eq_some_iff.mp h
    exact .gets hl hc hr ht

theorem turn_of_step {l : Label Call ρ ε} (h : s.step P encode K l = some s') :
    Turn P encode K s l s' := by
  cases l with
  | task i l =>
    simp only [step] at h
    split_ifs at h with hl
    obtain ⟨t, ht, rfl⟩ := Option.map_eq_some_iff.mp h
    exact .task hl ht
  | send i =>
    simp only [step] at h
    split at h
    · next m hm =>
      obtain ⟨c, hc, rfl⟩ := Option.map_eq_some_iff.mp h
      exact .send hm hc
    · cases h
  | transmit i n =>
    obtain ⟨c, hc, rfl⟩ := Option.map_eq_some_iff.mp h
    exact .transmit hc
  | sent i =>
    obtain ⟨c, hc, h⟩ := Option.bind_eq_some_iff.mp h
    obtain ⟨t, ht, rfl⟩ := Option.map_eq_some_iff.mp h
    exact .sent hc ht
  | close i =>
    obtain ⟨c, hc, rfl⟩ := Option.map_eq_some_iff.mp h
    exact .close hc
  | receive i =>
    simp only [step] at h
    split at h
    · exact turn_of_listen rfl h
    · cases h
  | read i n | eof i => exact turn_of_listen rfl h
  | endInbound i =>
    simp only [step] at h
    split_ifs at h
    · exact turn_of_listen rfl h
    · obtain ⟨t, ht, rfl⟩ := Option.map_eq_some_iff.mp h
      exact .endInbound ht
  | endOutbound i =>
    simp only [step] at h
    split at h
    · obtain ⟨c, hc, h⟩ := Option.bind_eq_some_iff.mp h
      obtain ⟨t, ht, rfl⟩ := Option.map_eq_some_iff.mp h
      exact .tear hc ht
    · next hout =>
      obtain ⟨t, ht, rfl⟩ := Option.map_eq_some_iff.mp h
      exact .endOutbound hout ht

end Duplex

/-! ## What the outbound task has in hand -/

namespace Peer

variable {Call ρ ε : Type*} {S : Setting Call} {p p' : Peer Call ρ ε}

/-- The peer as if the outbound task had sent what it has in hand. -/
def released (p : Peer Call ρ ε) : Peer Call ρ ε := { p with outbound := .receiving }

@[simp] theorem released_call : p.released.call = p.call := rfl

@[simp] theorem released_pending : p.released.pending = p.pending := rfl

@[simp] theorem released_inbound : p.released.inbound = p.inbound := rfl

@[simp] theorem released_outbound : p.released.outbound = .receiving := rfl

variable [DecidableEq Call]

/-- **Only the outbound task itself cares whether it has sent what it has in hand.** -/
theorem released_of_step {l : Label Call ρ ε} {m : Message ρ ε} (hs : l ≠ .sent)
    (he : l ≠ .endOutbound) (ho : p.outbound = .sending m) (hp : p.step S l = some p') :
    p.released.step S l = some p'.released ∧ p'.outbound = .sending m := by
  cases l with
  | call c =>
    simp only [step, released_call] at hp ⊢
    split at hp
    · next hc =>
      obtain rfl := Option.some.inj hp
      unfold begin_
      split <;> exact ⟨rfl, ho⟩
    · cases hp
  | enter c =>
    simp only [step, released_call] at hp ⊢
    split at hp
    · next hc =>
      obtain rfl := Option.some.inj hp
      unfold enter
      split
      · exact ⟨rfl, ho⟩
      · split <;> exact ⟨rfl, ho⟩
    · cases hp
  | finish c | timeout c | cancel c =>
    simp only [step, released_call, released_pending] at hp ⊢
    split at hp <;> cases hp <;> exact ⟨rfl, ho⟩
  | closed c =>
    simp only [step] at hp
    split at hp
    · next hc =>
      split_ifs at hp with hi
      cases hp
      have hin : p.released.inbound = .ended := by
        cases hin : p.inbound <;> simp_all
      rw [step, released_call, hc]
      exact ⟨if_pos (by rw [hin]; rfl), ho⟩
    · cases hp
  | receive m' =>
    simp only [step, released_inbound] at hp ⊢
    split at hp
    · next hi =>
      obtain rfl := Option.some.inj hp
      cases m' <;> exact ⟨rfl, ho⟩
    · cases hp
  | handled r =>
    simp only [step, released_inbound] at hp ⊢
    split at hp
    · next hi =>
      obtain rfl := Option.some.inj hp
      cases r <;> exact ⟨rfl, ho⟩
    · cases hp
  | take c | takeResponse =>
    simp only [step, ho] at hp
    split at hp <;> simp_all
  | endInbound =>
    simp only [step, released_inbound] at hp ⊢
    split at hp
    · cases hp
    · next hi =>
      obtain rfl := Option.some.inj hp
      exact ⟨rfl, ho⟩
  | sent => exact absurd rfl hs
  | endOutbound => exact absurd rfl he

end Peer

namespace Tapped

variable {Call ρ ε : Type*} {S : Setting Call} {t t' : Tapped Call ρ ε}

/-- The side as if the outbound task had sent what it has in hand. -/
def released (t : Tapped Call ρ ε) : Tapped Call ρ ε := { t with peer := t.peer.released }

variable [DecidableEq Call]

theorem released_of_step {l : Peer.Label Call ρ ε} {m : Message ρ ε} (hs : l ≠ .sent)
    (he : l ≠ .endOutbound) (ho : t.peer.outbound = .sending m) (ht : t.step S l = some t') :
    t.released.step S l = some t'.released ∧ t'.peer.outbound = .sending m := by
  obtain ⟨p, hp, rfl⟩ := Option.map_eq_some_iff.mp ht
  obtain ⟨hp', ho'⟩ := Peer.released_of_step hs he ho hp
  refine ⟨?_, by rwa [note_peer]⟩
  -- in neither of the two does the outbound task begin to send
  have hbegun : p.released.outbound.begun t.released.peer.outbound =
      p.outbound.begun t.peer.outbound := by
    rw [ho, ho', Outbound.begun_self, Peer.released_outbound, Outbound.begun_receiving]
  have hnote : t.released.note p.released l = (t.note p l).released := by
    unfold note
    dsimp only
    rw [hbegun]
    cases l with
    | takeResponse | handled =>
      simp only [released, Peer.released_inbound]
      split <;> rfl
    | _ => rfl
  rw [step, released, hp', Option.map_some, ← hnote]
  rfl

/-- The outbound task does not come back. -/
theorem outbound_ended {l : Peer.Label Call ρ ε} (h : t.peer.outbound = .ended)
    (ht : t.step S l = some t') : t'.peer.outbound = .ended := by
  obtain ⟨p, hp, rfl⟩ := Option.map_eq_some_iff.mp ht
  rw [note_peer]
  cases Peer.turn_of_step hp with
  | call =>
    unfold Peer.begin_
    split <;> exact h
  | enter =>
    unfold Peer.enter
    split
    · exact h
    · dsimp only
      split <;> exact h
  | @receive m => cases m <;> exact h
  | @handled q r => cases r <;> exact h
  | take hc ho | takeResponse hi ho | sent ho =>
    rw [h] at ho
    cases ho
  | endOutbound => rfl
  | finish | timeout | cancelWait | cancelSend | closed | endInbound => exact h

theorem released_endOutbound (ht : t.step S .endOutbound = some t') :
    t.released.step S .endOutbound = some t' := by
  obtain ⟨p, hp, rfl⟩ := Option.map_eq_some_iff.mp ht
  cases Peer.turn_of_step hp with
  | endOutbound => rfl

theorem outbound_of_endOutbound (ht : t.step S .endOutbound = some t') :
    t'.peer.outbound = .ended := by
  obtain ⟨p, hp, rfl⟩ := Option.map_eq_some_iff.mp ht
  cases Peer.turn_of_step hp with
  | endOutbound => rfl

end Tapped

namespace Duplex

variable {Call σ β ρ ε δ : Type*} {P : Parser σ (List β) (Message ρ ε) δ}
  {encode : Message ρ ε → List β} {q : σ} {K : Side → Setting Call} {s s' : Duplex Call σ β ρ ε δ}
  {t t' : Tapped Call ρ ε} {c c' : Conveyor Unit σ β (Message ρ ε) δ}

open Conveyor (Conserved)

/-! ## A side and the stream it sends into -/

/-- **The outbound task and its stream.**  Once the task has ended there may be less to come than
belongs to the last message. -/
structure Paired (P : Parser σ (List β) (Message ρ ε) δ) (encode : Message ρ ε → List β) (q : σ)
    (t : Tapped Call ρ ε) (c : Conveyor Unit σ β (Message ρ ε) δ) : Prop where
  sending : c.outgoing ≠ none → ∃ m, t.peer.outbound = .sending m
  conserved : ∃ o, Conserved P encode q { c with outgoing := o } ∧
    (t.peer.outbound ≠ .ended → o = c.outgoing)

theorem Paired.conveyed (hP : P.Decodes q encode) (h : Paired P encode q t c) :
    c.returned <+: c.sent := by
  obtain ⟨o, hcons, -⟩ := h.conserved
  exact (List.prefix_append _ _).trans (hcons.conveyed hP).inOrder

/-- While its task goes on, nothing is torn off a stream. -/
theorem Paired.whole (h : Paired P encode q t c) (ho : t.peer.outbound ≠ .ended) :
    Conserved P encode q c := by
  obtain ⟨o, hcons, hout⟩ := h.conserved
  obtain rfl := hout ho
  exact hcons

theorem Paired.of_whole (hs : c.outgoing ≠ none → ∃ m, t.peer.outbound = .sending m)
    (h : Conserved P encode q c) : Paired P encode q t c := ⟨hs, c.outgoing, h, fun _ => rfl⟩

theorem Paired.ne_ended (h : Paired P encode q t c) (hout : c.outgoing ≠ none) :
    t.peer.outbound ≠ .ended := by
  obtain ⟨m, hm⟩ := h.sending hout
  rw [hm]
  nofun

/-- The receiving end takes a step. -/
theorem Paired.receiving {l : Conveyor.Label Unit (Message ρ ε)} (h : Paired P encode q t c)
    (hl : l.isReceiving) (hc : c.step P encode l = some c') : Paired P encode q t c' := by
  obtain ⟨o, hcons, hout⟩ := h.conserved
  have hsame := (Conveyor.sent_of_isReceiving hl hc).2
  have hst : Conveyor.step P encode { c with outgoing := o } l =
      some { c' with outgoing := o } := by rw [Conveyor.step_outgoing hl, hc]; rfl
  have hw : Conveyor.Whole { c with outgoing := o } l := by
    cases l with
    | tear => cases hl
    | _ => trivial
  exact ⟨fun hne => h.sending (hsame ▸ hne), o, hcons.step hw hst, fun hne => (hout hne).trans
    hsame.symm⟩

/-- The sending end takes a step of the outbound task. -/
theorem Paired.send {m : Message ρ ε} (h : Paired P encode q t c)
    (hm : t.peer.outbound = .sending m) (hc : c.step P encode (.send m) = some c') :
    Paired P encode q t c' := by
  have hne : t.peer.outbound ≠ .ended := by simp [hm]
  exact .of_whole (fun _ => ⟨m, hm⟩) ((h.whole hne).step (l := .send m) trivial hc)

theorem Paired.transmit {n : ℕ} (h : Paired P encode q t c)
    (hc : c.step P encode (.transmit n) = some c') : Paired P encode q t c' := by
  obtain ⟨xs, hxs, -⟩ := Option.map_eq_some_iff.mp hc
  have hout : c.outgoing ≠ none := by simp [hxs]
  exact .of_whole (fun _ => h.sending hout) ((h.whole (h.ne_ended hout)).step (l := .transmit n)
    trivial hc)

theorem Paired.sent (h : Paired P encode q t c) (hc : c.step P encode .sent = some c') :
    Paired P encode q t' c' := by
  obtain ⟨hout, rfl⟩ := Conveyor.of_step_sent hc
  have hne : c.outgoing ≠ none := by simp [hout]
  exact .of_whole (absurd rfl) ((h.whole (h.ne_ended hne)).step (l := .sent) trivial hc)

theorem Paired.close (h : Paired P encode q t c) (hc : c.step P encode .close = some c') :
    Paired P encode q t c' := by
  obtain rfl := Conveyor.of_step_close hc
  obtain ⟨o, hcons, hout⟩ := h.conserved
  exact ⟨h.sending, o, ⟨hcons.inOrder, hcons.bytes⟩, hout⟩

/-- The outbound task ends, and leaves the stream as it is or with a message torn. -/
theorem Paired.end_ (h : Paired P encode q t c) (ht : t'.peer.outbound = .ended) :
    Paired P encode q t' { c with outgoing := none } := by
  obtain ⟨o, hcons, -⟩ := h.conserved
  exact ⟨absurd rfl, o, hcons, absurd ht⟩

/-! ## Both sides -/

/-- **The sides and the streams they send into.** -/
def Joined (P : Parser σ (List β) (Message ρ ε) δ) (encode : Message ρ ε → List β) (q : σ)
    (s : Duplex Call σ β ρ ε δ) : Prop := ∀ i, Paired P encode q (s.side i) (s.line i)

theorem joined_init : Joined P encode q (init q : Duplex Call σ β ρ ε δ) :=
  fun _ => .of_whole (absurd rfl) Conveyor.conserved_init

/-- One side and its stream have changed. -/
theorem Joined.set (h : Joined P encode q s) {i : Side} (hi : Paired P encode q t c) :
    Joined P encode q ((s.setLine i c).setSide i t) := by
  intro j
  by_cases hji : j = i
  · subst hji
    rwa [setSide_side_self, setSide_line, setLine_line_self]
  · rw [setSide_side_of_ne t hji, setSide_line, setLine_line_of_ne c hji]
    exact h j

theorem Joined.setSide (h : Joined P encode q s) {i : Side}
    (hi : Paired P encode q t (s.line i)) : Joined P encode q (s.setSide i t) := by
  have hset := h.set (i := i) hi
  rwa [Duplex.setLine, Function.update_eq_self] at hset

theorem Joined.setLine (h : Joined P encode q s) {i : Side}
    (hi : Paired P encode q (s.side i) c) : Joined P encode q (s.setLine i c) := by
  have hset := h.set (i := i) hi
  rwa [Duplex.setSide, setLine_side, Function.update_eq_self] at hset

/-! ## The messages in the streams -/

/-- A message that the outbound task has begun to send counts as sent. -/
def view (t : Tapped Call ρ ε) (c : Conveyor Unit σ β (Message ρ ε) δ) : Tapped Call ρ ε :=
  match c.outgoing with
  | some _ => t.released
  | none => t

/-- **The streams, as a transport for messages.** -/
def session (s : Duplex Call σ β ρ ε δ) : Session Call ρ ε where
  side i := view (s.side i) (s.line i)
  channel i := (s.line i).sent.drop (s.line i).returned.length
  posted i := (s.line i).sent

@[simp] theorem session_side (i : Side) : s.session.side i = view (s.side i) (s.line i) := rfl

theorem view_of_none (h : c.outgoing = none) : view t c = t := by rw [view, h]

theorem view_of_ne_none (h : c.outgoing ≠ none) : view t c = t.released := by
  obtain ⟨xs, hxs⟩ := Option.ne_none_iff_exists'.mp h
  rw [view, hxs]

theorem view_inbound (t : Tapped Call ρ ε) (c : Conveyor Unit σ β (Message ρ ε) δ) :
    (view t c).peer.inbound = t.peer.inbound := by
  rw [view]
  split <;> rfl

theorem view_congr (h : c'.outgoing = c.outgoing) : view t c' = view t c := by
  rw [view, h, view]

theorem session_setSide (i : Side) (t : Tapped Call ρ ε) :
    (s.setSide i t).session = s.session.setSide i (view t (s.line i)) := by
  have hside : (s.setSide i t).session.side =
      Function.update s.session.side i (view t (s.line i)) :=
    funext fun j => Function.apply_update (fun j t => view t (s.line j)) s.side i t j
  rw [Session.setSide, ← hside]
  rfl

theorem session_setLine (i : Side) (c : Conveyor Unit σ β (Message ρ ε) δ) :
    (s.setLine i c).session =
      ⟨Function.update s.session.side i (view (s.side i) c),
        Function.update s.session.channel i (c.sent.drop c.returned.length),
        Function.update s.session.posted i c.sent⟩ := by
  have hside : (s.setLine i c).session.side =
      Function.update s.session.side i (view (s.side i) c) :=
    funext fun j => Function.apply_update (fun j c => view (s.side j) c) s.line i c j
  have hchannel : (s.setLine i c).session.channel =
      Function.update s.session.channel i (c.sent.drop c.returned.length) :=
    funext fun j => Function.apply_update
      (fun _ (c : Conveyor Unit σ β (Message ρ ε) δ) => c.sent.drop c.returned.length) s.line i c j
  have hposted : (s.setLine i c).session.posted =
      Function.update s.session.posted i c.sent :=
    funext fun j => Function.apply_update
      (fun _ (c : Conveyor Unit σ β (Message ρ ε) δ) => c.sent) s.line i c j
  rw [← hside, ← hchannel, ← hposted]

/-- A stream into which no message has gone. -/
theorem session_receiving (i : Side) (hout : c.outgoing = (s.line i).outgoing)
    (hsent : c.sent = (s.line i).sent) :
    (s.setLine i c).session =
      s.session.setChannel i ((s.line i).sent.drop c.returned.length) := by
  have hside : view (s.side i) c = s.session.side i := view_congr hout
  have hposted : c.sent = s.session.posted i := hsent
  rw [session_setLine, hside, hposted, Function.update_eq_self, Function.update_eq_self]
  rfl

/-- …and from which none has come. -/
theorem session_frame (i : Side) (hview : view (s.side i) c = view (s.side i) (s.line i))
    (hsent : c.sent = (s.line i).sent) (hret : c.returned = (s.line i).returned) :
    (s.setLine i c).session = s.session := by
  have hside : view (s.side i) c = s.session.side i := hview
  have hposted : c.sent = s.session.posted i := hsent
  have hchannel : c.sent.drop c.returned.length = s.session.channel i := by
    rw [hsent, hret]
    rfl
  rw [session_setLine, hside, hchannel, hposted, Function.update_eq_self, Function.update_eq_self,
    Function.update_eq_self]

/-- A side that changes along with its stream. -/
theorem session_set (i : Side) (t : Tapped Call ρ ε) (hsent : c.sent = (s.line i).sent)
    (hret : c.returned = (s.line i).returned) :
    ((s.setLine i c).setSide i t).session = s.session.setSide i (view t c) := by
  have hposted : c.sent = s.session.posted i := hsent
  have hchannel : c.sent.drop c.returned.length = s.session.channel i := by
    rw [hsent, hret]
    rfl
  rw [session_setSide, setLine_line_self, session_setLine, hchannel, hposted,
    Function.update_eq_self, Function.update_eq_self, Session.setSide, Function.update_idem]
  rfl

/-- A side that changes along with the stream it receives from. -/
theorem session_arrives (i : Side) (t : Tapped Call ρ ε)
    (hout : c.outgoing = (s.line i.other).outgoing) (hsent : c.sent = (s.line i.other).sent) :
    ((s.setLine i.other c).setSide i t).session =
      (s.session.setSide i (view t (s.line i))).setChannel i.other
        ((s.line i.other).sent.drop c.returned.length) := by
  rw [session_setSide, session_receiving i.other hout hsent,
    setLine_line_of_ne c (Side.ne_other i)]
  rfl

/-- **The message that comes out of a stream next.** -/
theorem session_channel_eq_cons {i : Side} {m : Message ρ ε}
    (hret : c.returned = (s.line i).returned ++ [m]) (hpre : c.returned <+: (s.line i).sent) :
    s.session.channel i = m :: (s.line i).sent.drop c.returned.length := by
  obtain ⟨rest, hrest⟩ := hpre
  change (s.line i).sent.drop _ = _
  rw [← hrest, List.drop_left, hret, List.append_assoc, List.drop_left]
  rfl

/-- The streams are empty, nothing is pending, and the tasks wait for something to do. -/
def Quiet (s : Duplex Call σ β ρ ε δ) : Prop :=
  ∀ i, (s.line i).buffer = [] ∧ (s.line i).consumers.channel.pending = [] ∧
    (s.side i).peer.inbound = .receiving ∧ (s.side i).peer.outbound = .receiving

theorem Joined.quiet (hP : P.Decodes q encode) (h : Joined P encode q s) (hq : s.Quiet) :
    s.session.Quiet := by
  intro i
  obtain ⟨hbuf, hpend, hin, hout⟩ := hq i
  have hnone : (s.line i).outgoing = none := by
    by_contra hne
    obtain ⟨m, hm⟩ := (h i).sending hne
    rw [hout] at hm
    cases hm
  have hne : (s.side i).peer.outbound ≠ .ended := by simp [hout]
  have hall := (((h i).whole hne).conveyed hP).complete hbuf (by rw [hnone]; rfl)
  have hret : (s.line i).returned = (s.line i).sent := by
    rw [Conveyor.delivered, hpend, List.append_nil] at hall
    exact hall
  refine ⟨?_, ?_, ?_⟩
  · change (s.line i).sent.drop (s.line i).returned.length = []
    rw [hret, List.drop_length]
  · rwa [session_side, view_of_none hnone]
  · rwa [session_side, view_of_none hnone]

/-- The handlers answer under the identifier of the request. -/
def Echoing (s : Duplex Call σ β ρ ε δ) : Label Call ρ ε → Prop
  | .task i (.handled (some r)) =>
    ∀ q, (s.side i).peer.inbound = .handling q → q.oneWay = false → r.uniqueId = q.uniqueId
  | _ => True

/-- **Remote calls over streams of bytes.** -/
structure Executed (K : Side → Setting Call) (s : Duplex Call σ β ρ ε δ) : Prop where
  /-- The handler has run at most once for each call, in order, and a call that has got something
  has got what the handler returned. -/
  ledger : ∀ i, ∃ xs, Session.Ledger K s.session i xs
  /-- When nothing is under way, it has run for each request that has been sent, and a call that
  waits has what it returned. -/
  complete : s.Quiet → ∀ i, ∃ xs, Session.Complete K s.session i xs

/-! ## What the sides do -/

variable (Call) in
/-- A call of `receive()` leaves the outbound task alone. -/
theorem arrival_ne (r : Received (Message ρ ε) δ) :
    (arrival r : Peer.Label Call ρ ε) ≠ .sent ∧
      (arrival r : Peer.Label Call ρ ε) ≠ .endOutbound := by
  cases r <;> exact ⟨nofun, nofun⟩

theorem isInside_of_goesOn {l : Peer.Label Call ρ ε} (hl : goesOn l) : Session.isInside l := by
  cases l with
  | receive | sent | endInbound | endOutbound => cases hl
  | _ => rfl

theorem ne_of_goesOn {l : Peer.Label Call ρ ε} (hl : goesOn l) : l ≠ .sent ∧ l ≠ .endOutbound := by
  constructor <;> rintro rfl <;> cases hl

variable [DecidableEq Call] {S : Setting Call}

/-- The side takes a step in which the outbound task does not get on with what it has in hand. -/
theorem Paired.side {l : Peer.Label Call ρ ε} (h : Paired P encode q t c) (hs : l ≠ .sent)
    (he : l ≠ .endOutbound) (ht : t.step S l = some t') : Paired P encode q t' c := by
  refine ⟨fun hne => ?_, ?_⟩
  · obtain ⟨m, hm⟩ := h.sending hne
    exact ⟨m, (Tapped.released_of_step hs he hm ht).2⟩
  · obtain ⟨o, hcons, hout⟩ := h.conserved
    refine ⟨o, hcons, fun hne => hout fun hended => hne ?_⟩
    exact Tapped.outbound_ended hended ht

/-- A step that does not get on with what the outbound task has in hand. -/
theorem Paired.view_step {l : Peer.Label Call ρ ε} (h : Paired P encode q t c) (hs : l ≠ .sent)
    (he : l ≠ .endOutbound) (ht : t.step S l = some t') :
    (view t c).step S l = some (view t' c) := by
  by_cases hout : c.outgoing = none
  · rwa [view_of_none hout, view_of_none hout]
  · obtain ⟨m, hm⟩ := h.sending hout
    rw [view_of_ne_none hout, view_of_ne_none hout]
    exact (Tapped.released_of_step hs he hm ht).1

/-- **One step.** -/
theorem Joined.turn {l : Label Call ρ ε} (h : Joined P encode q s) (ht : Turn P encode K s l s') :
    Joined P encode q s' := by
  cases ht with
  | @task i l t hl ht =>
    obtain ⟨hs, he⟩ := ne_of_goesOn hl
    exact h.setSide ((h i).side hs he ht)
  | @send i m c hm hc => exact h.setLine ((h i).send hm hc)
  | @transmit i n c hc => exact h.setLine ((h i).transmit hc)
  | @sent i c t hc ht => exact h.set ((h i).sent hc)
  | @close i c hc => exact h.setLine ((h i).close hc)
  | @waits i l lc c hl hc hr =>
    exact h.setLine ((h i.other).receiving (isReceiving_of_listens hl) hc)
  | @gets i l lc c r t hl hc hr ht =>
    obtain ⟨hs, he⟩ := arrival_ne Call r
    have hline := h.setLine ((h i.other).receiving (isReceiving_of_listens hl) hc)
    exact hline.setSide ((hline i).side hs he ht)
  | @endInbound i t ht => exact h.setSide ((h i).side (l := .endInbound) nofun nofun ht)
  | @endOutbound i t hout ht =>
    have hend := (h i).end_ (Tapped.outbound_of_endOutbound ht)
    rw [← hout] at hend
    exact h.setSide hend
  | @tear i c t hc ht =>
    obtain ⟨-, rfl⟩ := Conveyor.of_step_tear hc
    exact h.set ((h i).end_ (Tapped.outbound_of_endOutbound ht))

/-! ## One step of a session, or none -/

/-- **A step is one of a session over a reliable transport, or none.** -/
def Refines (K : Side → Setting Call) (s s' : Duplex Call σ β ρ ε δ) : Prop :=
  s'.session = s.session ∨
    (Rpc.session ρ ε K).Step (Session.Proper .reliable) s.session s'.session

/-- A step inside one side. -/
theorem refines_task {i : Side} {l : Peer.Label Call ρ ε} (hl : Session.isInside l)
    (hP : Session.Proper .reliable s.session (.task i l))
    (ht : (s.session.side i).step (K i) l = some t) (hs' : s'.session = s.session.setSide i t) :
    Refines K s s' := by
  have hst : s.session.step K (.task i l) = some s'.session := by
    rw [Session.step, if_pos hl, ht, hs']
    rfl
  exact .inr ⟨.task i l, hP, hst⟩

theorem Joined.refines_send {i : Side} {m : Message ρ ε} (hP : P.Decodes q encode)
    (h : Joined P encode q s) (hm : (s.side i).peer.outbound = .sending m)
    (hc : (s.line i).step P encode (.send m) = some c) :
    Refines K s (s.setLine i c) := by
  obtain ⟨hnone, rfl⟩ := Conveyor.of_step_send hc
  have hside : s.session.side i = s.side i := view_of_none hnone
  have hst : (s.session.side i).step (K i) .sent = some (s.side i).released := by
    rw [hside, Tapped.step_sent hm]
    rfl
  have hout : (s.session.side i).peer.outbound = .sending m := by rw [hside, hm]
  refine .inr ⟨.send i, trivial, ?_⟩
  change s.session.step K (.send i) = _
  rw [Session.step, hout]
  simp only [hst, Option.map_some]
  have hdrop : ((s.line i).sent ++ [m]).drop (s.line i).returned.length =
      s.session.channel i ++ [m] :=
    List.drop_append_of_le_length ((h i).conveyed hP).length_le
  rw [session_setLine]
  change _ = some (Session.mk _ (Function.update _ i (((s.line i).sent ++ [m]).drop
    (s.line i).returned.length)) _)
  rw [hdrop]
  rfl

/-- What the outbound task had in hand has been sent all the time. -/
theorem refines_sent {i : Side} (hc : (s.line i).step P encode .sent = some c)
    (ht : (s.side i).step (K i) .sent = some t) :
    Refines K s ((s.setLine i c).setSide i t) := by
  obtain ⟨hout, hc'⟩ := Conveyor.of_step_sent hc
  have hview : view t c = s.session.side i := by
    rw [view_of_none (by rw [hc']), Tapped.of_step_sent ht, session_side,
      view_of_ne_none (by simp [hout])]
    rfl
  refine .inl ?_
  rw [session_set i t (by rw [hc']) (by rw [hc']; rfl), hview, Session.setSide,
    Function.update_eq_self]

/-- The outbound task ends in the middle of a message. -/
theorem refines_tear {i : Side} (hc : (s.line i).step P encode .tear = some c)
    (ht : (s.side i).step (K i) .endOutbound = some t) :
    Refines K s ((s.setLine i c).setSide i t) := by
  obtain ⟨hout, hc'⟩ := Conveyor.of_step_tear hc
  have hst : (s.session.side i).step (K i) .endOutbound = some (view t c) := by
    rw [session_side, view_of_ne_none hout, view_of_none (by rw [hc'])]
    exact Tapped.released_endOutbound ht
  exact refines_task (l := .endOutbound) rfl trivial hst
    (session_set i t (by rw [hc']) (by rw [hc']; rfl))

/-- A message that comes out of a stream is the next one in it. -/
theorem Joined.refines_gets {i : Side} {lc : Conveyor.Label Unit (Message ρ ε)}
    {r : Received (Message ρ ε) δ} (hP : P.Decodes q encode) (h : Joined P encode q s)
    (hlc : lc.isReceiving) (hc : (s.line i.other).step P encode lc = some c)
    (hr : c.consumers.results = (s.line i.other).consumers.results ++ [((), r)])
    (ht : (s.side i).step (K i) (arrival r) = some t) :
    Refines K s ((s.setLine i.other c).setSide i t) := by
  obtain ⟨hsent, hout⟩ := Conveyor.sent_of_isReceiving hlc hc
  obtain ⟨hs, he⟩ := arrival_ne Call r
  have hst := (h i).view_step hs he ht
  have hsession := session_arrives i t hout hsent
  have hret : c.returned = (s.line i.other).returned ++ Consumer.messages [r] := by
    simp [Conveyor.returned, hr]
  by_cases hmsg : ∃ m, r = .message m
  · obtain ⟨m, rfl⟩ := hmsg
    have hpre : c.returned <+: (s.line i.other).sent :=
      hsent ▸ (((h i.other).receiving hlc hc).conveyed hP)
    have hst' : (s.session.side i).step (K i) (.receive m) = some (view t (s.line i)) := hst
    refine .inr ⟨.receive i, trivial, ?_⟩
    change s.session.step K (.receive i) = _
    rw [Session.step, session_channel_eq_cons hret hpre]
    simp only [hst', Option.map_some]
    rw [hsession]
  · -- the call has ended without a message, and so does the task
    have hend : (arrival r : Peer.Label Call ρ ε) = .endInbound ∧ Consumer.messages [r] = [] := by
      cases r with
      | message m => exact absurd ⟨m, rfl⟩ hmsg
      | _ => exact ⟨rfl, rfl⟩
    rw [hend.1] at hst
    rw [hend.2, List.append_nil] at hret
    refine refines_task (l := .endInbound) rfl trivial hst (hsession.trans ?_)
    rw [hret]
    exact congrArg (Session.mk _ · _) (Function.update_eq_self ..)

/-- **One step.** -/
theorem Joined.refines {l : Label Call ρ ε} (hP : P.Decodes q encode) (h : Joined P encode q s)
    (hE : Echoing s l) (ht : Turn P encode K s l s') : Refines K s s' := by
  cases ht with
  | @task i l t hl ht =>
    obtain ⟨hs, he⟩ := ne_of_goesOn hl
    refine refines_task (isInside_of_goesOn hl) ?_ ((h i).view_step hs he ht)
      (session_setSide i t)
    cases l with
    | handled r =>
      cases r with
      | none => trivial
      | some r => exact fun q hq => hE q (by rwa [session_side, view_inbound] at hq)
    | _ => trivial
  | @send i m c hm hc => exact h.refines_send hP hm hc
  | @transmit i n c hc =>
    obtain ⟨xs, hxs, rfl⟩ := Option.map_eq_some_iff.mp hc
    refine .inl (session_frame i ?_ rfl rfl)
    rw [view_of_ne_none (Option.some_ne_none _), view_of_ne_none (by simp [hxs])]
  | @sent i c t hc ht => exact refines_sent hc ht
  | @close i c hc =>
    obtain rfl := Conveyor.of_step_close hc
    exact .inl (session_frame i rfl rfl rfl)
  | @waits i l lc c hl hc hr =>
    obtain ⟨hsent, hout⟩ := Conveyor.sent_of_isReceiving (isReceiving_of_listens hl) hc
    refine .inl (session_frame i.other (view_congr hout) hsent ?_)
    rw [Conveyor.returned, hr, Conveyor.returned]
  | @gets i l lc c r t hl hc hr ht =>
    exact h.refines_gets hP (isReceiving_of_listens hl) hc hr ht
  | @endInbound i t ht =>
    exact refines_task (l := .endInbound) rfl trivial
      ((h i).view_step (l := .endInbound) nofun nofun ht) (session_setSide i t)
  | @endOutbound i t hout ht =>
    refine refines_task (l := .endOutbound) rfl trivial ?_ (session_setSide i t)
    rwa [session_side, view_of_none hout, view_of_none hout]
  | @tear i c t hc ht => exact refines_tear hc ht

/-! ## An encoding of messages -/

/-- A message, and the end of its line. -/
def terminated {Msg : Type*} (m : Msg) : List (Option Msg) := [some m, none]

/-- The parser yields a message at the end of its line. -/
def collect {Msg δ : Type*} : Parser (Option Msg) (List (Option Msg)) Msg δ :=
  .ofStep fun last x =>
    match x with
    | some m => (some m, [])
    | none => (none, last.toList)

theorem collect_decodes {Msg δ : Type*} : (collect : Parser _ _ Msg δ).Decodes none terminated where
  toIncremental := Parser.incremental_ofStep _
  frame _ := ⟨rfl, rfl⟩

/-- A call; its request is cut into two reads, and it is there before `send()` has returned. -/
def oneCall {Call : Type*} (c : Call) : List (Label Call Unit Unit) :=
  [.task .left (.call c), .task .left (.take c), .receive .right, .send .left,
    .transmit .left 1, .read .right 1, .transmit .left 1, .read .right 1,
    .task .left (.enter c), .task .right (.handled (some ⟨.str "a", .result ()⟩)),
    .task .right .takeResponse, .send .right, .transmit .right 2, .sent .right, .sent .left,
    .receive .left, .read .left 2, .task .left (.finish c)]

/-- The handler answers under the identifier of the request. -/
theorem oneCall_echoing : (duplex (collect : Parser _ _ (Message Unit Unit) Unit) terminated none
    Session.singles).Guarded Echoing (init none) (oneCall 0) := by
  refine .cons rfl trivial <| .cons rfl trivial <| .cons rfl trivial <| .cons rfl trivial <|
    .cons rfl trivial <| .cons rfl trivial <| .cons rfl trivial <| .cons rfl trivial <|
    .cons rfl trivial <| .cons rfl ?_ <| .cons rfl trivial <| .cons rfl trivial <|
    .cons rfl trivial <| .cons rfl trivial <| .cons rfl trivial <| .cons rfl trivial <|
    .cons rfl trivial <| .cons rfl trivial trivial
  intro q hq _
  cases hq
  rfl

/-! ## Whole runs -/

theorem joined_along {ls : List (Label Call ρ ε)} :
    (duplex P encode q K).Along (Joined P encode q) (init q) ls :=
  (Machine.guarded_anyStep _ _).along joined_init fun _ _ _ h _ hst => h.turn (turn_of_step hst)

theorem Joined.step {l : Label Call ρ ε} (hP : P.Decodes q encode) (h : Joined P encode q s)
    (hE : Echoing s l) (hst : s.step P encode K l = some s') :
    Joined P encode q s' ∧
      Machine.ReadAs (Rpc.session ρ ε K) (Session.Proper .reliable) session s l s' :=
  ⟨h.turn (turn_of_step hst), h.refines hP hE (turn_of_step hst)⟩

/-- **The streams are a reliable transport for messages**: in every run, read with the messages that
are in the streams, each step is one of a session over such a transport, or none. -/
theorem refines_along (hP : P.Decodes q encode) {ls : List (Label Call ρ ε)}
    (h : (duplex P encode q K).Guarded Echoing (init q) ls) :
    (duplex P encode q K).Throughout
      (Machine.ReadAs (Rpc.session ρ ε K) (Session.Proper .reliable) session) (init q) ls :=
  h.throughout joined_init fun _ _ _ hs hE hst => hs.step hP hE hst

theorem refines_cut : (duplex (collect : Parser _ _ (Message Unit Unit) Unit) terminated none
    Session.singles).Throughout (Machine.ReadAs (Rpc.session Unit Unit Session.singles)
      (Session.Proper .reliable) session) (init none) (oneCall 0) :=
  refines_along collect_decodes oneCall_echoing

/-- **Each request is executed at most once, and exactly once if nothing is under way any more**, in
every run: however the bytes are cut, and whenever tasks end and calls run out of time. -/
theorem executed_along (hP : P.Decodes q encode) (hnew : ∀ i, (K i).registration = .atNew)
    (hU : ∀ i, (K i).UniqueIds) (hT : ∀ i, (K i).Textual)
    (hO : ∀ i c, ((K i).createRequest c).oneWay = (K i).oneWay c) {ls : List (Label Call ρ ε)}
    (h : (duplex P encode q K).Guarded Echoing (init q) ls) :
    (duplex P encode q K).Along (Executed K) (init q) ls := by
  have hreads : (duplex P encode q K).Throughout
      (Machine.ReadAs (Rpc.session ρ ε K) (Session.Proper .reliable) session) (init q) ls :=
    h.throughout joined_init fun _ _ _ hs hE hst => hs.step hP hE hst
  refine (joined_along.and (hreads.reach Machine.Reach.init)).mono fun s hs => ?_
  refine ⟨fun i => ?_, fun hq i => ?_⟩
  · have hlinked := Session.linked_of_reach hU hT hs.2
    exact (hlinked.mono fun as bs hab => hab ▸ List.Sublist.refl as).ledger hU hO i
  · exact Session.complete_of_reach hnew hU hT hO hs.2 (hs.1.quiet hP hq) i

theorem executed_cut : (duplex (collect : Parser _ _ (Message Unit Unit) Unit) terminated none
    Session.singles).Along (Executed Session.singles) (init none) (oneCall 0) :=
  executed_along collect_decodes (fun _ => rfl) (fun _ c d _ _ _ => Subsingleton.elim c d)
    (fun _ _ _ => ⟨"a", rfl⟩) (fun _ _ => rfl) oneCall_echoing

end Duplex

end FlockwaveConn.Rpc
