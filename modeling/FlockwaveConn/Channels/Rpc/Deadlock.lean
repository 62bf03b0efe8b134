import FlockwaveConn.Channels.Rpc.Network

/-!
# Channels/Rpc/Deadlock — when two peers wait for each other

The inbound task posts its responses on the queue that the outbound task empties, and the outbound
task writes into a channel that the inbound task of the other side empties.  So two peers are stuck
when on both sides the inbound task has a response to post and the outbound task another message for
a full channel (`jammed_of_stuck`).

That takes enough messages, in the right directions.  A `Weight` counts the messages under way in a
way that no step but a new call increases; where the counts stay small the peers never get stuck
(`live_of_roomy`).
-/

namespace FlockwaveConn.Rpc

/-! ## Weights -/

/-- **What a message counts** on its way: sent by a side and not yet received by the other one, with
the handler of a side, and as a response that a side is to post.  On none of its ways it becomes
more. -/
structure Weight (ρ ε : Type*) where
  message : Side → Message ρ ε → ℕ
  handling : Side → Request → ℕ
  posting : Side → ℕ
  received : ∀ i q, handling i.other q ≤ message i (.request q)
  handled : ∀ i q, q.oneWay = false → posting i ≤ handling i q
  taken : ∀ i r, message i (.response r) ≤ posting i

namespace Weight

variable {Call ρ ε : Type*} (w : Weight ρ ε) (i : Side)

/-- What the place of a call counts. -/
def ofCall (S : Setting Call) (c : Call) : CallPlace ρ ε → ℕ
  | .sending => w.message i (.request (S.createRequest c))
  | _ => 0

@[simp] theorem ofCall_wait (S : Setting Call) (c : Call) (done : Bool) :
    w.ofCall i S c (.wait done) = 0 := by cases done <;> rfl

/-- What the place of the inbound task counts. -/
def ofInbound : Inbound ρ ε → ℕ
  | .handling q => w.handling i q
  | .posting _ => w.posting i
  | .receiving | .ended => 0

/-- What the place of the outbound task counts. -/
def ofOutbound : Outbound ρ ε → ℕ
  | .sending m => w.message i m
  | .receiving | .ended => 0

variable [Fintype Call] (S : Setting Call)

/-- What all the tasks of a side count. -/
def ofPeer (s : Peer Call ρ ε) : ℕ :=
  ∑ c, w.ofCall i S c (s.call c) + w.ofOutbound i s.outbound + w.ofInbound i s.inbound

/-- What a side counts, with what it has sent. -/
def ofSide (K : Link Call) (s : Network Call ρ ε) : ℕ :=
  w.ofPeer i (K.side i) (s.peer i) + ((s.channel i).map (w.message i)).sum

/-- What both sides count. -/
def total (K : Link Call) (s : Network Call ρ ε) : ℕ := w.ofSide .left K s + w.ofSide .right K s

variable {w i S} {K : Link Call}

theorem total_eq (i : Side) (n : Network Call ρ ε) :
    w.total K n = w.ofSide i K n + w.ofSide i.other K n := by
  cases i with
  | left => rfl
  | right => exact Nat.add_comm ..

variable {n : Network Call ρ ε}

theorem ofSide_setPeer_self (p : Peer Call ρ ε) :
    w.ofSide i K (n.setPeer i p) =
      w.ofPeer i (K.side i) p + ((n.channel i).map (w.message i)).sum := by
  simp [ofSide]

theorem ofSide_setPeer_of_ne {j : Side} (p : Peer Call ρ ε) (h : j ≠ i) :
    w.ofSide j K (n.setPeer i p) = w.ofSide j K n := by
  simp [ofSide, Network.setPeer_peer_of_ne p h]

theorem ofSide_setChannel_self (ms : List (Message ρ ε)) :
    w.ofSide i K (n.setChannel i ms) =
      w.ofPeer i (K.side i) (n.peer i) + (ms.map (w.message i)).sum := by
  simp [ofSide]

theorem ofSide_setChannel_of_ne {j : Side} (ms : List (Message ρ ε)) (h : j ≠ i) :
    w.ofSide j K (n.setChannel i ms) = w.ofSide j K n := by
  simp [ofSide, Network.setChannel_channel_of_ne ms h]

/-! ## …of one side -/

theorem ofPeer_congr {s s' : Peer Call ρ ε} (hc : s'.call = s.call) (ho : s'.outbound = s.outbound)
    (hi : s'.inbound = s.inbound) : w.ofPeer i S s' = w.ofPeer i S s := by
  simp only [ofPeer, hc, ho, hi]

/-- A message that is sent. -/
theorem ofPeer_sent {s : Peer Call ρ ε} {m : Message ρ ε} (hm : s.outbound = .sending m) :
    w.ofPeer i S { s with outbound := .receiving } + w.message i m = w.ofPeer i S s := by
  simp only [ofPeer, ofOutbound, hm]
  omega

variable [DecidableEq Call] {s s' : Peer Call ρ ε}

/-- A call that moves takes its count with it. -/
theorem ofPeer_put (c : Call) (p : CallPlace ρ ε) :
    w.ofPeer i S (s.put c p) + w.ofCall i S c (s.call c) =
      w.ofPeer i S s + w.ofCall i S c p := by
  have hsum : ∑ d, w.ofCall i S d ((s.put c p).call d) + w.ofCall i S c (s.call c) =
      ∑ d, w.ofCall i S d (s.call d) + w.ofCall i S c p := by
    rw [← Finset.add_sum_erase _ _ (Finset.mem_univ c),
      ← Finset.add_sum_erase _ (fun d => w.ofCall i S d (s.call d)) (Finset.mem_univ c)]
    have hrest : ∑ d ∈ Finset.univ.erase c, w.ofCall i S d ((s.put c p).call d) =
        ∑ d ∈ Finset.univ.erase c, w.ofCall i S d (s.call d) := by
      refine Finset.sum_congr rfl fun d hd => ?_
      rw [Peer.put_call_of_ne _ _ (Finset.ne_of_mem_erase hd)]
    rw [hrest, Peer.put_call_self]
    omega
  have ho : (s.put c p).outbound = s.outbound := rfl
  have hi : (s.put c p).inbound = s.inbound := rfl
  simp only [ofPeer, ho, hi]
  omega

/-- A message that is received. -/
theorem ofPeer_handle (m : Message ρ ε) (hi : s.inbound = .receiving) :
    w.ofPeer i S (s.handle m) ≤ w.ofPeer i S s + w.message i.other m := by
  cases m with
  | request q =>
    have hq := w.received i.other q
    rw [Side.other_other] at hq
    simp only [Peer.handle, ofPeer, ofInbound, hi]
    omega
  | response r => exact Nat.le_add_right_of_le (ofPeer_congr rfl rfl rfl).le
  | unknown => exact Nat.le_add_right _ _

/-- **A stretch of a peer** that is no new call. -/
theorem ofPeer_le_of_turn {l : Peer.Label Call ρ ε} (hl : l.isLocal) (hc : ∀ c, l ≠ .call c)
    (ht : Peer.Turn S s l s') : w.ofPeer i S s' ≤ w.ofPeer i S s := by
  have hput : ∀ (c : Call) (p : CallPlace ρ ε) (s₁ : Peer Call ρ ε),
      w.ofPeer i S s₁ = w.ofPeer i S s → w.ofCall i S c p = 0 →
      w.ofPeer i S (s₁.put c p) ≤ w.ofPeer i S s := by
    intro c p s₁ hs₁ hp
    have := ofPeer_put (w := w) (i := i) (S := S) (s := s₁) c p
    omega
  cases ht with
  | @call c => exact absurd rfl (hc c)
  | @take c hcall ho =>
    have h := ofPeer_put (w := w) (i := i) (S := S)
      (s := { s with outbound := .sending (.request (S.createRequest c)) }) c .handed
    rw [hcall] at h
    simp only [ofPeer, ofCall, ofOutbound, ho] at h ⊢
    omega
  | enter =>
    unfold Peer.enter
    split
    · exact hput _ _ _ rfl rfl
    · exact hput _ _ _ (by split <;> exact ofPeer_congr rfl rfl rfl) (ofCall_wait ..)
  | finish | timeout | cancelWait | cancelSend =>
    exact hput _ _ _ (ofPeer_congr rfl rfl rfl) rfl
  | @handled q r hi =>
    cases r with
    | none => cases hl
    | some r =>
      have hq := w.handled i q
      simp only [Peer.answer, ofPeer, hi]
      split
      · simp [ofInbound]
      · next hone =>
          have := hq (by simpa using hone)
          simp only [ofInbound]
          omega
  | @takeResponse r hi ho =>
    have hr := w.taken i r
    simp only [ofPeer, ofInbound, ofOutbound, hi, ho]
    omega
  | closed | receive | sent | endInbound | endOutbound => cases hl

/-! ## …and of both -/

variable {n' : Network Call ρ ε}

/-- **No step but a new call makes a weight greater.** -/
theorem total_le_of_turn {l : Network.Label Call ρ ε} (hl : l.isNewCall = false)
    (ht : Network.Turn K n l n') : w.total K n' ≤ w.total K n := by
  cases ht with
  | @task i l p hloc hp =>
    have hc : ∀ c, l ≠ .call c := by
      rintro c rfl
      cases hl
    have hle := ofPeer_le_of_turn (w := w) (i := i) hloc hc (Peer.turn_of_step hp)
    rw [total_eq i, total_eq i, ofSide_setPeer_self, ofSide_setPeer_of_ne p (Side.other_ne i)]
    unfold ofSide
    omega
  | @send i m hm =>
    have hsent := ofPeer_sent (w := w) (i := i) (S := K.side i) hm
    rw [total_eq i, total_eq i, ofSide_setChannel_self, Network.setPeer_peer_self,
      ofSide_setChannel_of_ne _ (Side.other_ne i), ofSide_setPeer_of_ne _ (Side.other_ne i)]
    simp only [ofSide, List.map_append, List.map_cons, List.map_nil, List.sum_append,
      List.sum_cons, List.sum_nil]
    omega
  | @receive i m ms hms hi =>
    have hrec := ofPeer_handle (w := w) (i := i) (S := K.side i) m hi
    rw [total_eq i, total_eq i, ofSide_setChannel_of_ne _ (Side.ne_other i), ofSide_setPeer_self,
      ofSide_setChannel_self, Network.setPeer_peer_of_ne _ (Side.other_ne i)]
    simp only [ofSide, hms, List.map_cons, List.sum_cons]
    omega
  | @pass i m hm hms hi =>
    have hsent := ofPeer_sent (w := w) (i := i) (S := K.side i) hm
    have hrec := ofPeer_handle (w := w) (i := i.other) (S := K.side i.other) m hi
    rw [Side.other_other] at hrec
    rw [total_eq i, total_eq i, ofSide_setPeer_of_ne _ (Side.ne_other i), ofSide_setPeer_self,
      ofSide_setPeer_self]
    simp only [ofSide, Network.setPeer_channel]
    omega

end Weight

/-! ## Three counts -/

/-- A request that asks for a response. -/
def Request.asks (q : Request) : ℕ := if q.oneWay then 0 else 1

/-- A message that asks for a response. -/
def Message.asks {ρ ε : Type*} : Message ρ ε → ℕ
  | .request q => q.asks
  | .response _ | .unknown => 0

namespace Weight

variable {ρ ε : Type*}

/-- All that is not delivered yet. -/
def load : Weight ρ ε where
  message _ _ := 1
  handling _ _ := 1
  posting _ := 1
  received _ _ := le_rfl
  handled _ _ _ := le_rfl
  taken _ _ := le_rfl

theorem asks_of_twoWay {q : Request} (h : q.oneWay = false) : 1 ≤ q.asks := by
  simp [Request.asks, h]

theorem asks_le_one (q : Request) : q.asks ≤ 1 := by
  unfold Request.asks
  split <;> omega

/-- What a side sends or may come to send, and the two-way requests of its own. -/
def along (i : Side) : Weight ρ ε where
  message j m := if j = i then 1 else m.asks
  handling _ q := q.asks
  posting _ := 1
  received j q := by
    split
    · exact asks_le_one q
    · exact le_rfl
  handled _ _ h := asks_of_twoWay h
  taken j r := by
    split
    · exact le_rfl
    · exact Nat.zero_le _

/-- The two-way requests of a side that the other side has not answered. -/
def asked (i : Side) : Weight ρ ε where
  message j m := if j = i then m.asks else 0
  handling j q := if j = i then 0 else q.asks
  posting j := if j = i then 0 else 1
  received j q := by
    by_cases hj : j = i
    · have hne : j.other ≠ i := hj ▸ Side.other_ne j
      simp [hj, Message.asks]
    · have hi : i = j.other := (Side.eq_or_eq_other j i).resolve_left (Ne.symm hj)
      simp [hi]
  handled j q h := by
    split
    · exact Nat.zero_le _
    · exact asks_of_twoWay h
  taken j r := by
    split <;> exact Nat.zero_le _

end Weight

namespace Network

section

variable {Call ρ ε : Type*} [DecidableEq Call] {K : Link Call} {s s' : Network Call ρ ε}

/-! ## Who waits for whom -/

/-- Some request or response is not delivered. -/
def Undelivered (s : Network Call ρ ε) : Prop :=
  ∃ i, (∃ c, (s.peer i).call c = .sending) ∨ (∃ m, (s.peer i).outbound = .sending m) ∨
    s.channel i ≠ [] ∨ (∃ q, (s.peer i).inbound = .handling q) ∨
    ∃ r, (s.peer i).inbound = .posting r

/-- **The peers do not wait for each other**: while something is not delivered, an inbound or an
outbound task can take a step. -/
def Live (K : Link Call) (s : Network Call ρ ε) : Prop :=
  Undelivered s → ∃ l s', l.advances ∧ s.step K l = some s'

/-- The four tasks in a circle. -/
structure Jammed (K : Link Call) (s : Network Call ρ ε) : Prop where
  inbound : ∀ i, ∃ r, (s.peer i).inbound = .posting r
  outbound : ∀ i, ∃ m, (s.peer i).outbound = .sending m
  full : ∀ i, K.capacity i ≤ (s.channel i).length

/-- No inbound and no outbound task can take a step. -/
def Stuck (K : Link Call) (s : Network Call ρ ε) : Prop :=
  ∀ l, l.advances → s.step K l = none

namespace Stuck

variable {i : Side}

theorem not_handling (h : Stuck K s) (q : Request) : (s.peer i).inbound ≠ .handling q := by
  intro hq
  have := h (.task i (.handled (some ⟨q.uniqueId, .errorResponse (.other "")⟩))) rfl
  simp [step, Peer.Label.isLocal, Peer.step, hq] at this

theorem not_posting (h : Stuck K s) (ho : (s.peer i).outbound = .receiving) (r : Response ρ ε) :
    (s.peer i).inbound ≠ .posting r := by
  intro hr
  have := h (.task i .takeResponse) rfl
  simp [step, Peer.Label.isLocal, Peer.step, hr, ho] at this

theorem not_sending (h : Stuck K s) (hi : (s.peer i).inbound ≠ .ended)
    (ho : (s.peer i).outbound = .receiving) (c : Call) : (s.peer i).call c ≠ .sending := by
  intro hc
  have := h (.task i (.take c)) rfl
  simp [step, Peer.Label.isLocal, Peer.step, hc, ho] at this

theorem channel_eq_nil (h : Stuck K s) (hi : (s.peer i).inbound = .receiving) :
    s.channel i.other = [] := by
  cases hms : s.channel i.other with
  | nil => rfl
  | cons m ms =>
    have := h (.receive i) rfl
    simp [step, Peer.step, hms, hi] at this

theorem not_outbound (h : Stuck K s) (hi : (s.peer i).inbound = .receiving) (m : Message ρ ε) :
    (s.peer i.other).outbound ≠ .sending m := by
  intro hm
  have := h (.pass i.other) rfl
  simp [step, Peer.step, h.channel_eq_nil hi, hm, hi] at this

theorem full (h : Stuck K s) {m : Message ρ ε} (hm : (s.peer i).outbound = .sending m) :
    K.capacity i ≤ (s.channel i).length := by
  by_contra hlt
  have := h (.send i) rfl
  simp [step, Peer.step, hm, not_le.mp hlt] at this

/-- **Who is stuck is stuck in the circle.** -/
theorem jammed (h : Stuck K s) (hr : ∀ i, (s.peer i).Running) (hu : Undelivered s) :
    Jammed K s := by
  have hin : ∀ i, (s.peer i).outbound = .receiving → (s.peer i).inbound = .receiving := by
    intro i ho
    cases hi : (s.peer i).inbound with
    | receiving => rfl
    | handling q => exact absurd hi (h.not_handling q)
    | posting r => exact absurd hi (h.not_posting ho r)
    | ended => exact absurd hi (hr i).inbound
  have hout : ∀ i, (s.peer i).inbound = .receiving → (s.peer i.other).outbound = .receiving := by
    intro i hi
    cases ho : (s.peer i.other).outbound with
    | receiving => rfl
    | sending m => exact absurd ho (h.not_outbound hi m)
    | ended => exact absurd ho (hr i.other).outbound
  -- one inbound task that waits for a message makes all four wait for one
  have hbusy : ∀ i, (s.peer i).inbound ≠ .receiving := by
    intro i hi
    have hboth : ∀ j, (s.peer j).inbound = .receiving := by
      intro j
      rcases Side.eq_or_eq_other i j with rfl | rfl
      · exact hi
      · exact hin _ (hout i hi)
    have hidle : ∀ j, (s.peer j).outbound = .receiving := fun j =>
      Side.other_other j ▸ hout j.other (hboth j.other)
    obtain ⟨j, ⟨c, hc⟩ | ⟨m, hm⟩ | hne | ⟨q, hq⟩ | ⟨r, hr⟩⟩ := hu
    · exact h.not_sending (by simp [hboth j]) (hidle j) c hc
    · simp [hidle j] at hm
    · exact hne (Side.other_other j ▸ h.channel_eq_nil (hboth j.other))
    · simp [hboth j] at hq
    · simp [hboth j] at hr
  have hpost : ∀ i, ∃ r, (s.peer i).inbound = .posting r := by
    intro i
    cases hi : (s.peer i).inbound with
    | receiving => exact absurd hi (hbusy i)
    | handling q => exact absurd hi (h.not_handling q)
    | posting r => exact ⟨r, rfl⟩
    | ended => exact absurd hi (hr i).inbound
  have hsend : ∀ i, ∃ m, (s.peer i).outbound = .sending m := by
    intro i
    cases ho : (s.peer i).outbound with
    | receiving => exact absurd (hin i ho) (hbusy i)
    | sending m => exact ⟨m, rfl⟩
    | ended => exact absurd ho (hr i).outbound
  exact ⟨hpost, hsend, fun i => (hsend i).elim fun m hm => h.full hm⟩

end Stuck

/-- **Where each call has ended, a jam is the end of the run**, new calls apart. -/
theorem Jammed.step_eq_none (h : Jammed K s) (hc : ∀ i c, ∃ x, (s.peer i).call c = .ended x)
    (l : Label Call ρ ε) : s.step K l = none := by
  have hin := h.inbound
  have hout := h.outbound
  cases l with
  | task i l =>
    obtain ⟨r, hr⟩ := hin i
    obtain ⟨m, hm⟩ := hout i
    cases l with
    | call c | take c | enter c | finish c | timeout c | cancel c | closed c =>
      obtain ⟨x, hx⟩ := hc i c
      simp [step, Peer.step, hx]
    | receive | handled | takeResponse | sent | endInbound | endOutbound =>
      simp [step, Peer.Label.isLocal, Peer.step, hr, hm]
  | send i =>
    obtain ⟨m, hm⟩ := hout i
    simp [step, hm, h.full i]
  | receive i =>
    obtain ⟨r, hr⟩ := hin i
    cases hms : s.channel i.other <;> simp [step, Peer.step, hr, hms]
  | pass i =>
    obtain ⟨r, hr⟩ := hin i.other
    obtain ⟨m, hm⟩ := hout i
    cases hms : s.channel i <;> simp [step, Peer.step, hr, hm, hms]

end

/-! ## Room enough -/

section

variable {Call ρ ε : Type*} [Fintype Call] {K : Link Call} {s s' : Network Call ρ ε}

/-- **There is room**: one message less than the jam takes, in all, along one of the two ways, or of
the requests one side is to answer. -/
def Fits (K : Link Call) (s : Network Call ρ ε) : Prop :=
  Weight.load.total K s ≤ K.capacity .left + K.capacity .right + 3 ∨
    ∃ i, (Weight.along i).total K s ≤ K.capacity i + 2 ∨ (Weight.asked i).total K s = 0

theorem Jammed.not_fits (h : Jammed K s) : ¬ Fits K s := by
  have hside : ∀ (w : Weight ρ ε) (i : Side), ∃ m, (s.peer i).outbound = .sending m ∧
      w.message i m + w.posting i + ((s.channel i).map (w.message i)).sum ≤ w.ofSide i K s := by
    intro w i
    obtain ⟨r, hr⟩ := h.inbound i
    obtain ⟨m, hm⟩ := h.outbound i
    refine ⟨m, hm, ?_⟩
    simp only [Weight.ofSide, Weight.ofPeer, hr, hm, Weight.ofInbound, Weight.ofOutbound]
    omega
  rintro (hload | ⟨i, halong | hasked⟩)
  · obtain ⟨m, -, hl⟩ := hside Weight.load .left
    obtain ⟨m', -, hr⟩ := hside Weight.load .right
    have hfl := h.full .left
    have hfr := h.full .right
    simp only [Weight.load, List.map_const', List.sum_replicate, smul_eq_mul, mul_one]
      at hl hr hload
    unfold Weight.total at hload
    omega
  · obtain ⟨m, -, hi⟩ := hside (Weight.along i) i
    obtain ⟨m', -, ho⟩ := hside (Weight.along i) i.other
    have hf := h.full i
    rw [Weight.total_eq i] at halong
    simp only [Weight.along, if_true, List.map_const', List.sum_replicate, smul_eq_mul, mul_one]
      at hi ho halong
    omega
  · obtain ⟨m, -, ho⟩ := hside (Weight.asked i) i.other
    rw [Weight.total_eq i] at hasked
    simp only [Weight.asked, Side.other_ne, if_false] at ho hasked
    omega

variable [DecidableEq Call]

/-- A call is made only where there is still room after it. -/
def Roomy (K : Link Call) (s : Network Call ρ ε) : Label Call ρ ε → Prop
  | .task i (.call c) => Fits K (s.setPeer i ((s.peer i).begin_ (K.side i) c))
  | _ => True

/-- **One step** keeps the room. -/
theorem fits_turn {l : Label Call ρ ε} (h : Fits K s) (hg : Roomy K s l) (ht : Turn K s l s') :
    Fits K s' := by
  cases hl : l.isNewCall with
  | true =>
    obtain ⟨i, c, rfl⟩ := eq_call_of_isNewCall hl
    cases ht with
    | task _ hp =>
      cases Peer.turn_of_step hp
      exact hg
  | false =>
    refine h.imp (fun hload => (Weight.total_le_of_turn hl ht).trans hload) ?_
    rintro ⟨i, halong | hasked⟩
    · exact ⟨i, .inl ((Weight.total_le_of_turn hl ht).trans halong)⟩
    · exact ⟨i, .inr (Nat.le_zero.mp (hasked ▸ Weight.total_le_of_turn hl ht))⟩

/-- **In a run whose calls all find room, the peers never wait for each other.** -/
theorem live_of_roomy {s : Network Call ρ ε} (h : (network ρ ε K).Reach (Roomy K) s) :
    Live K s := by
  obtain ⟨hr, hf⟩ : (∀ i, (s.peer i).Running) ∧ Fits K s := by
    refine h.invariant (I := fun s => (∀ i, (s.peer i).Running) ∧ Fits K s) ⟨?_, ?_⟩
      fun s l s' hI hg hs =>
        ⟨running_turn hI.1 (turn_of_step hs), fits_turn hI.2 hg (turn_of_step hs)⟩
    · exact fun i => ⟨nofun, nofun⟩
    · exact .inl (by simp [Weight.total, Weight.ofSide, Weight.ofPeer, network, init, Peer.init,
        Weight.ofCall, Weight.ofInbound, Weight.ofOutbound])
  intro hu
  by_contra hnone
  refine Jammed.not_fits (Stuck.jammed (fun l hl => ?_) hr hu) hf
  by_contra hne
  obtain ⟨s', hs'⟩ := Option.ne_none_iff_exists'.mp hne
  exact hnone ⟨l, s', hl, hs'⟩

end

/-! ## Two requests from each side -/

/-- Two-way requests only, and channels of capacity zero. -/
def tight : Link (Fin 2) where
  side _ :=
    { registration := .atEnter
      oneWay := fun _ => false
      createRequest := fun c => ⟨.str (toString c), false⟩ }
  capacity _ := 0

/-- A request of each side is on its way, and the peers go on. -/
theorem live_of_two_calls :
    ∃ s : Network (Fin 2) Unit Unit, (network Unit Unit tight).Reachable s ∧ Undelivered s ∧
      Live tight s := by
  have h₁ : (network Unit Unit tight).Reach (Roomy tight) _ :=
    .tail .refl ⟨.task .left (.call 0), .inl (by decide), rfl⟩
  have h₂ : (network Unit Unit tight).Reach (Roomy tight) _ :=
    .tail h₁ ⟨.task .right (.call 1), .inl (by decide), rfl⟩
  exact ⟨_, h₂.reachable, ⟨.left, .inl ⟨0, rfl⟩⟩, live_of_roomy h₂⟩

/-- A call that comes to wait for its response. -/
def callAndWait (i : Side) (c : Fin 2) : List (Label (Fin 2) Unit Unit) :=
  [.task i (.call c), .task i (.take c), .task i (.enter c)]

/-- A response of the handler. -/
def handled (i : Side) : Label (Fin 2) Unit Unit :=
  .task i (.handled (some ⟨.str "0", .result ()⟩))

/-- One request from each side reaches the handler; then each outbound task takes another request,
and each inbound task has a response to post; then the calls time out. -/
def jammingRun : List (Label (Fin 2) Unit Unit) :=
  callAndWait .left 0 ++ callAndWait .right 0 ++ [.pass .left, .pass .right] ++
    callAndWait .left 1 ++ callAndWait .right 1 ++ [handled .left, handled .right] ++
    [.task .left (.timeout 0), .task .left (.timeout 1), .task .right (.timeout 0),
      .task .right (.timeout 1)]

/-- Two requests are on their way and two responses are to be posted, and no task of the two peers
can take a step, not even by a timeout or by being cancelled. -/
theorem peers_deadlock :
    ¬ ∀ s, (network Unit Unit tight).Reachable s → Undelivered s →
      ∃ l s', l.isNewCall = false ∧ s.step tight l = some s' := by
  intro h
  have hr := Machine.reachable_of_exec (M := network Unit Unit tight) jammingRun rfl
  obtain ⟨l, s', -, hs⟩ := h _ hr ⟨.left, .inr (.inl ⟨_, rfl⟩)⟩
  rw [Jammed.step_eq_none ⟨?_, ?_, fun _ => Nat.zero_le _⟩ ?_ l] at hs
  · cases hs
  · rintro (_ | _) <;> exact ⟨_, rfl⟩
  · rintro (_ | _) <;> exact ⟨_, rfl⟩
  · rintro (_ | _) c <;> fin_cases c <;> exact ⟨_, rfl⟩

end Network

end FlockwaveConn.Rpc
