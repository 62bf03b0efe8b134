import FlockwaveConn.Channels.Rpc.Peer

/-!
# Channels/Rpc/Network — two peers and the channels between them

Each side sends into a FIFO channel of finite capacity, and the other side reads from it.  A message
that meets an empty channel and a waiting inbound task goes to it directly; that is the only way
through a channel of capacity zero.

The tasks keep running, and the handlers always return a response.
-/

namespace FlockwaveConn.Rpc

/-- The two sides. -/
inductive Side
  | left
  | right
  deriving DecidableEq, Repr

namespace Side

instance : Fintype Side := ⟨{left, right}, fun i => by cases i <;> decide⟩

/-- The other side. -/
def other : Side → Side
  | left => right
  | right => left

@[simp] theorem other_other (i : Side) : i.other.other = i := by cases i <;> rfl

@[simp] theorem other_ne (i : Side) : i.other ≠ i := by cases i <;> decide

@[simp] theorem ne_other (i : Side) : i ≠ i.other := by cases i <;> decide

theorem eq_or_eq_other (i j : Side) : j = i ∨ j = i.other := by cases i <;> cases j <;> decide

end Side

/-- The two sides, and the capacity of the channel each of them sends into. -/
structure Link (Call : Type*) where
  side : Side → Setting Call
  capacity : Side → ℕ

/-- Two peers; `channel i` is what side `i` has sent and the other one not yet received. -/
structure Network (Call ρ ε : Type*) where
  peer : Side → Peer Call ρ ε
  channel : Side → List (Message ρ ε)

/-- A step that has nothing to do with the channels, of a peer whose tasks keep running. -/
def Peer.Label.isLocal {Call ρ ε : Type*} : Peer.Label Call ρ ε → Bool
  | .call _ | .take _ | .enter _ | .finish _ | .timeout _ | .cancel _ => true
  | .handled (some _) | .takeResponse => true
  | .handled none | .closed _ | .receive _ | .sent | .endInbound | .endOutbound => false

namespace Network

/-- The steps of the two peers. -/
inductive Label (Call ρ ε : Type*)
  /-- A step inside one peer. -/
  | task (i : Side) (l : Peer.Label Call ρ ε)
  /-- The outbound task puts its message into the channel. -/
  | send (i : Side)
  /-- The inbound task takes the next message out of the channel. -/
  | receive (i : Side)
  /-- The outbound task hands its message to the inbound task of the other side. -/
  | pass (i : Side)

/-- Nothing but a new call of `send_request()`. -/
def Label.isNewCall {Call ρ ε : Type*} : Label Call ρ ε → Bool
  | .task _ (.call _) => true
  | _ => false

/-- A step of an inbound or an outbound task. -/
def Label.advances {Call ρ ε : Type*} : Label Call ρ ε → Bool
  | .task _ (.take _) | .task _ (.handled _) | .task _ .takeResponse => true
  | .send _ | .receive _ | .pass _ => true
  | .task _ _ => false

variable {Call ρ ε : Type*}

/-- Two peers that have just been set up. -/
def init : Network Call ρ ε := ⟨fun _ => .init, fun _ => []⟩

/-- One of the peers has taken a step. -/
def setPeer (i : Side) (s : Network Call ρ ε) (p : Peer Call ρ ε) : Network Call ρ ε :=
  { s with peer := Function.update s.peer i p }

/-- One of the channels has changed. -/
def setChannel (i : Side) (ms : List (Message ρ ε)) (s : Network Call ρ ε) : Network Call ρ ε :=
  { s with channel := Function.update s.channel i ms }

variable [DecidableEq Call] (K : Link Call)

/-- One step. -/
def step (s : Network Call ρ ε) : Label Call ρ ε → Option (Network Call ρ ε)
  | .task i l => if l.isLocal then ((s.peer i).step (K.side i) l).map (s.setPeer i) else none
  | .send i =>
    match (s.peer i).outbound with
    | .sending m =>
      if (s.channel i).length < K.capacity i then
        ((s.peer i).step (K.side i) .sent).map fun p =>
          (s.setPeer i p).setChannel i (s.channel i ++ [m])
      else none
    | _ => none
  | .receive i =>
    match s.channel i.other with
    | m :: ms => ((s.peer i).step (K.side i) (.receive m)).map fun p =>
        (s.setPeer i p).setChannel i.other ms
    | [] => none
  | .pass i =>
    match (s.peer i).outbound, s.channel i with
    | .sending m, [] =>
      ((s.peer i).step (K.side i) .sent).bind fun p =>
        ((s.peer i.other).step (K.side i.other) (.receive m)).map fun q =>
          (s.setPeer i p).setPeer i.other q
    | _, _ => none

end Network

/-- **Two peers that serve each other's requests.** -/
def network {Call : Type*} (ρ ε : Type*) [DecidableEq Call] (K : Link Call) :
    Machine (Network Call ρ ε) (Network.Label Call ρ ε) where
  init := .init
  step := Network.step K

namespace Network

variable {Call ρ ε : Type*} {K : Link Call} {s s' : Network Call ρ ε}

/-! ## What a step does -/

@[simp] theorem setPeer_peer_self (i : Side) (p : Peer Call ρ ε) : (s.setPeer i p).peer i = p :=
  Function.update_self ..

theorem setPeer_peer_of_ne {i j : Side} (p : Peer Call ρ ε) (h : j ≠ i) :
    (s.setPeer i p).peer j = s.peer j := Function.update_of_ne h ..

@[simp] theorem setPeer_channel (i : Side) (p : Peer Call ρ ε) :
    (s.setPeer i p).channel = s.channel := rfl

@[simp] theorem setChannel_peer (i : Side) (ms : List (Message ρ ε)) :
    (s.setChannel i ms).peer = s.peer := rfl

@[simp] theorem setChannel_channel_self (i : Side) (ms : List (Message ρ ε)) :
    (s.setChannel i ms).channel i = ms := Function.update_self ..

theorem setChannel_channel_of_ne {i j : Side} (ms : List (Message ρ ε)) (h : j ≠ i) :
    (s.setChannel i ms).channel j = s.channel j := Function.update_of_ne h ..

theorem eq_call_of_isNewCall {l : Label Call ρ ε} (hl : l.isNewCall = true) :
    ∃ i c, l = .task i (.call c) := by
  cases l with
  | task i l =>
    cases l with
    | call c => exact ⟨i, c, rfl⟩
    | _ => cases hl
  | send | receive | pass => cases hl

/-- What holds of all peers holds of them after one has changed, if it holds of the new one. -/
theorem forall_setPeer {P : Peer Call ρ ε → Prop} (h : ∀ j, P (s.peer j)) {i : Side}
    {p : Peer Call ρ ε} (hp : P p) : ∀ j, P ((s.setPeer i p).peer j) := by
  intro j
  by_cases hji : j = i
  · subst hji
    rwa [setPeer_peer_self]
  · rw [setPeer_peer_of_ne p hji]
    exact h j

variable [DecidableEq Call]

/-- **Everything a step can do**, in terms of the peers' own steps. -/
inductive Turn (K : Link Call) (s : Network Call ρ ε) : Label Call ρ ε → Network Call ρ ε → Prop
  | task {i : Side} {l : Peer.Label Call ρ ε} {p : Peer Call ρ ε} (hl : l.isLocal)
      (hp : (s.peer i).step (K.side i) l = some p) : Turn K s (.task i l) (s.setPeer i p)
  | send {i : Side} {m : Message ρ ε} (hm : (s.peer i).outbound = .sending m) :
      Turn K s (.send i)
        ((s.setPeer i { s.peer i with outbound := .receiving }).setChannel i (s.channel i ++ [m]))
  | receive {i : Side} {m : Message ρ ε} {ms : List (Message ρ ε)}
      (hms : s.channel i.other = m :: ms) (hi : (s.peer i).inbound = .receiving) :
      Turn K s (.receive i) ((s.setPeer i ((s.peer i).handle m)).setChannel i.other ms)
  | pass {i : Side} {m : Message ρ ε} (hm : (s.peer i).outbound = .sending m)
      (hms : s.channel i = []) (hi : (s.peer i.other).inbound = .receiving) :
      Turn K s (.pass i)
        ((s.setPeer i { s.peer i with outbound := .receiving }).setPeer i.other
          ((s.peer i.other).handle m))

theorem turn_of_step {l : Label Call ρ ε} (h : s.step K l = some s') : Turn K s l s' := by
  cases l with
  | task i l =>
    simp only [step] at h
    split_ifs at h with hl
    obtain ⟨p, hp, rfl⟩ := Option.map_eq_some_iff.mp h
    exact .task hl hp
  | send i =>
    simp only [step] at h
    split at h
    · next m hm =>
        split_ifs at h
        obtain ⟨p, hp, rfl⟩ := Option.map_eq_some_iff.mp h
        cases Peer.turn_of_step hp with
        | sent => exact .send hm
    · cases h
  | receive i =>
    simp only [step] at h
    split at h
    · next m ms hms =>
        obtain ⟨p, hp, rfl⟩ := Option.map_eq_some_iff.mp h
        cases Peer.turn_of_step hp with
        | receive hi => exact .receive hms hi
    · cases h
  | pass i =>
    simp only [step] at h
    split at h
    · next m hm hms =>
        obtain ⟨p, hp, h⟩ := Option.bind_eq_some_iff.mp h
        obtain ⟨q, hq, rfl⟩ := Option.map_eq_some_iff.mp h
        cases Peer.turn_of_step hp with
        | sent =>
          cases Peer.turn_of_step hq with
          | receive hi => exact .pass hm hms hi
    · cases h

end Network

/-! ## The tasks keep running -/

namespace Peer

variable {Call ρ ε : Type*} {S : Setting Call} {s s' : Peer Call ρ ε}

/-- Neither of the two tasks has ended. -/
structure Running (s : Peer Call ρ ε) : Prop where
  inbound : s.inbound ≠ .ended
  outbound : s.outbound ≠ .ended

/-- A stretch that is local ends no task. -/
theorem ne_end_of_isLocal {l : Label Call ρ ε} (hl : l.isLocal) :
    l ≠ .endInbound ∧ l ≠ .endOutbound := by
  constructor <;> rintro rfl <;> cases hl

variable [DecidableEq Call] {l : Label Call ρ ε}

theorem Turn.running (ht : Turn S s l s') (h : Running s) (hi : l ≠ .endInbound)
    (ho : l ≠ .endOutbound) : Running s' := by
  cases ht with
  | call =>
    unfold begin_
    split <;> exact ⟨h.inbound, h.outbound⟩
  | enter =>
    unfold Peer.enter
    split
    · exact ⟨h.inbound, h.outbound⟩
    · dsimp only
      split <;> exact ⟨h.inbound, h.outbound⟩
  | finish | timeout | cancelWait | cancelSend | closed => exact ⟨h.inbound, h.outbound⟩
  | take => exact ⟨h.inbound, nofun⟩
  | @receive m =>
    cases m with
    | request => exact ⟨nofun, h.outbound⟩
    | response | unknown => exact ⟨h.inbound, h.outbound⟩
  | @handled q r =>
    cases r with
    | none => exact ⟨nofun, h.outbound⟩
    | some r =>
      refine ⟨?_, h.outbound⟩
      unfold answer
      dsimp only
      split <;> nofun
  | takeResponse => exact ⟨nofun, nofun⟩
  | sent => exact ⟨h.inbound, nofun⟩
  | endInbound => exact absurd rfl hi
  | endOutbound => exact absurd rfl ho

end Peer

namespace Network

variable {Call ρ ε : Type*} [DecidableEq Call] {K : Link Call} {s s' : Network Call ρ ε}

theorem running_turn {l : Label Call ρ ε} (h : ∀ i, (s.peer i).Running) (ht : Turn K s l s') :
    ∀ i, (s'.peer i).Running := by
  have hsent : ∀ i, ({ s.peer i with outbound := .receiving } : Peer Call ρ ε).Running :=
    fun i => ⟨(h i).inbound, nofun⟩
  have hrec : ∀ (i : Side) (m : Message ρ ε), (s.peer i).inbound = .receiving →
      ((s.peer i).handle m).Running :=
    fun i m hi => (Peer.Turn.receive (S := K.side i) hi).running (h i) nofun nofun
  cases ht with
  | @task i l p hl hp =>
    obtain ⟨hi, ho⟩ := Peer.ne_end_of_isLocal hl
    exact forall_setPeer h ((Peer.turn_of_step hp).running (h i) hi ho)
  | @send i m hm => exact forall_setPeer h (hsent i)
  | @receive i m ms hms hi => exact forall_setPeer h (hrec i m hi)
  | @pass i m hm hms hi =>
    exact forall_setPeer (forall_setPeer h (hsent i)) (hrec i.other m hi)

end Network

end FlockwaveConn.Rpc
