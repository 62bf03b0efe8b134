import FlockwaveConn.Channels.Rpc.Session

/-!
# Channels/Rpc/Ledger — which handler ran for which call

Three things can be said of the calls of one side and the runs of the handler on the other one, and
the better the transport, the more.

* What a call returns is what the handler returned for its request, even if messages are lost,
  repeated or reordered (`served_along`).
* If they are only lost, the handler runs at most once for each call, in order (`ledger_along`).
* If they are not, it runs exactly once, and nothing that it returned is missing when nothing is
  under way (`complete_along`).

Two peers on channels of finite capacity are such a pair of sides, so a call does not wait in vain
there (`waiting_done`).
-/

namespace FlockwaveConn.Rpc

namespace Session

open Tapped (message incoming requests)

variable {Call ρ ε : Type*} {K : Side → Setting Call} {s s' : Session Call ρ ε}
  {T : Transport (Message ρ ε)}

/-! ## The requests of one side and the handler of the other -/

theorem requests_map_message (S : Setting Call) (ws : List (Call ⊕ Response ρ ε)) :
    requests (ws.map (message S)) = (ws.filterMap Sum.getLeft?).map S.createRequest := by
  induction ws with
  | nil => rfl
  | cons x ws ih =>
    cases x with
    | inl c => exact congrArg (S.createRequest c :: ·) ih
    | inr r => exact ih

theorem incoming_map_message (S : Setting Call) (ws : List (Call ⊕ Response ρ ε)) :
    incoming (ws.map (message S)) = ws.filterMap Sum.getRight? := by
  induction ws with
  | nil => rfl
  | cons x ws ih =>
    cases x with
    | inl c => exact ih
    | inr r => exact congrArg (r :: ·) ih

/-- What holds of the arrivals under one transport holds under a worse one. -/
theorem Linked.mono {U : Transport (Message ρ ε)} (h : Linked T K s)
    (hTU : ∀ as bs, T.carries as bs → U.carries as bs) : Linked U K s :=
  ⟨h.sound, h.fed, fun i => hTU _ _ (h.carried i), h.echoes⟩

/-- Nothing is made up. -/
theorem Linked.arrived_subset (h : Linked .unordered K s) (i : Side) :
    (s.side i.other).arrived ⊆ (s.side i).taken.map (message (K i)) :=
  fun _ hm => (h.fed i).isPrefix.subset (h.carried i (List.mem_append_left _ hm))

/-- **The request behind an answer** has been sent by a call. -/
theorem Linked.exists_call (h : Linked .unordered K s) {i : Side} {q : Request}
    (hq : q ∈ (s.side i.other).handled.map Prod.fst) :
    ∃ c ∈ (s.side i).callsSent, (K i).createRequest c = q := by
  have harr : q ∈ requests (s.side i.other).arrived :=
    (h.sound i.other).tied.flow.isPrefix.1.subset hq
  have hmem := List.filterMap_subset _ (h.arrived_subset i) harr
  rw [← requests, requests_map_message] at hmem
  obtain ⟨c, hc, hcq⟩ := List.mem_map.mp hmem
  exact ⟨c, hc, hcq⟩

/-- **A response that has come in is what the handler of the other side returned for the request of
the call whose identifier it has**, even if messages are lost, repeated or reordered. -/
theorem Linked.answer_mem (hU : ∀ i, (K i).UniqueIds)
    (hO : ∀ i c, ((K i).createRequest c).oneWay = (K i).oneWay c) (h : Linked .unordered K s)
    {i : Side} {c : Call} {r : Response ρ ε} (hc : (K i).needsResponse c)
    (hr : r ∈ (s.side i).peer.responses) (hid : r.uniqueId = (K i).uniqueId c) :
    c ∈ (s.side i).callsSent ∧ ((K i).createRequest c, some r) ∈ (s.side i.other).handled := by
  have hwire := h.arrived_subset i.other
  rw [Side.other_other] at hwire
  have hans : r ∈ Tapped.answers (s.side i.other).handled := by
    rw [(h.sound i).recorded] at hr
    have hmem := List.filterMap_subset _ hwire hr
    rw [← incoming, incoming_map_message] at hmem
    exact (h.sound i.other).tied.flow.isPrefix.2.subset hmem
  obtain ⟨⟨q, y⟩, hmem, hy⟩ := List.mem_filterMap.mp hans
  have hone : q.oneWay = false := by
    by_contra hne
    simp [hne] at hy
  obtain rfl : y = some r := by simpa [hone] using hy
  obtain ⟨d, hd, rfl⟩ := h.exists_call (List.mem_map_of_mem hmem)
  have hsame : (K i).uniqueId d = (K i).uniqueId c :=
    (h.echoes i.other _ r hmem hone).symm.trans hid
  have hdn : (K i).needsResponse d := by
    simp only [Setting.needsResponse, Bool.and_eq_true, Bool.not_eq_true', decide_eq_true_eq]
      at hc ⊢
    exact ⟨(hO i d).symm.trans hone, hsame ▸ hc.2⟩
  obtain rfl := hU i d c hdn hc hsame
  exact ⟨hd, hmem⟩

/-- **A call that has got something**: the handler of the other side has run for its request, and
this is what it returned. -/
def Served (K : Side → Setting Call) (s : Session Call ρ ε) : Prop :=
  ∀ i c x, (s.side i).peer.call c = .ended (.got x) →
    ∃ r, ((K i).createRequest c, some r) ∈ (s.side i.other).handled ∧ r.payload.content = x

theorem Linked.served (hU : ∀ i, (K i).UniqueIds)
    (hO : ∀ i c, ((K i).createRequest c).oneWay = (K i).oneWay c) (h : Linked .unordered K s) :
    Served K s := by
  intro i c x hx
  have hval := (h.sound i).sourced.got c x hx
  obtain ⟨r, hr, hid, hcont⟩ := (h.sound i).sourced.value c x hval
  exact ⟨r, (h.answer_mem hU hO ((h.sound i).twoWay c x hval) hr hid).2, hcont⟩

/-- **What a call returns is what the other side's handler returned for it**, in every run, whatever
the transport does to the messages short of making them up. -/
theorem served_along [DecidableEq Call] (hU : ∀ i, (K i).UniqueIds) (hT : ∀ i, (K i).Textual)
    (hO : ∀ i c, ((K i).createRequest c).oneWay = (K i).oneWay c)
    {ls : List (Label Call ρ ε)} (h : (session ρ ε K).Guarded (Proper .unordered) .init ls) :
    (session ρ ε K).Along (Served K) .init ls :=
  (Linked.along hU hT h).mono fun _ hs => hs.served hU hO

/-- Either side makes one call. -/
def singles : Side → Setting (Fin 1) := fun _ => Peer.single .atNew (.str "a")

/-- A call whose request comes out twice. -/
theorem served_repeated :
    (session Unit Unit singles).Along (Served singles) .init
      [.task .left (.call 0), .task .left (.take 0), .send .left, .task .left (.enter 0),
        .disturb .left [.request ⟨.str "a", false⟩, .request ⟨.str "a", false⟩], .receive .right,
        .task .right (.handled (some ⟨.str "a", .result ()⟩)), .task .right .takeResponse,
        .send .right, .receive .left, .task .left (.finish 0)] := by
  refine served_along (fun _ c d _ _ _ => Subsingleton.elim c d) (fun _ _ _ => ⟨"a", rfl⟩)
    (fun _ _ => rfl) ?_
  refine .cons rfl trivial <| .cons rfl trivial <| .cons rfl trivial <| .cons rfl trivial <|
    .cons rfl ?_ <| .cons rfl trivial <| .cons rfl ?_ <| .cons rfl trivial <| .cons rfl trivial <|
    .cons rfl trivial <| .cons rfl trivial trivial
  · have htwice : ∀ m : Message Unit Unit, [m, m] ⊆ [m] := by simp
    exact htwice _
  · intro q hq _
    cases hq
    rfl

/-! ## Requests that are not repeated -/

/-- **The calls of a side that the handler of the other side has run for**, each with what it
returned. -/
structure Ledger (K : Side → Setting Call) (s : Session Call ρ ε) (i : Side)
    (xs : List (Call × Option (Response ρ ε))) : Prop where
  /-- The handler has run for the requests of these calls, … -/
  handled : (s.side i.other).handled = xs.map fun x => ((K i).createRequest x.1, x.2)
  /-- …in the order in which they were sent, … -/
  sent : (xs.map Prod.fst).Sublist (s.side i).callsSent
  /-- …once each, … -/
  once : (xs.map Prod.fst).Nodup
  /-- …and a call that has got something has got what the handler returned. -/
  got : ∀ c x, (s.side i).peer.call c = .ended (.got x) →
    ∃ r, (c, some r) ∈ xs ∧ r.payload.content = x

/-- A run of the handler that is in the ledger is there under its call. -/
theorem mem_of_handled (hU : ∀ i, (K i).UniqueIds)
    (hO : ∀ i c, ((K i).createRequest c).oneWay = (K i).oneWay c) {i : Side}
    {xs : List (Call × Option (Response ρ ε))} {c : Call} {y : Option (Response ρ ε)}
    (hc : (K i).needsResponse c)
    (h : ((K i).createRequest c, y) ∈ xs.map fun x => ((K i).createRequest x.1, x.2)) :
    (c, y) ∈ xs := by
  obtain ⟨⟨d, z⟩, hmem, heq⟩ := List.mem_map.mp h
  obtain ⟨hreq, rfl⟩ := Prod.mk.inj heq
  have hid : (K i).uniqueId d = (K i).uniqueId c := congrArg Request.uniqueId hreq
  have hone : (K i).oneWay d = (K i).oneWay c := by
    rw [← hO i d, ← hO i c, hreq]
  have hd : (K i).needsResponse d := by
    simp only [Setting.needsResponse, Bool.and_eq_true, Bool.not_eq_true', decide_eq_true_eq]
      at hc ⊢
    exact ⟨hone.trans hc.1, hid ▸ hc.2⟩
  exact hU i d c hd hc hid ▸ hmem

/-- The runs of the handler go with calls that were sent, as soon as the requests do. -/
theorem Linked.exists_ledger (hU : ∀ i, (K i).UniqueIds)
    (hO : ∀ i c, ((K i).createRequest c).oneWay = (K i).oneWay c) (h : Linked .unordered K s)
    {i : Side} {cs : List Call} (hcs : cs.Sublist (s.side i).callsSent)
    (hreq : (s.side i.other).handled.map Prod.fst = cs.map (K i).createRequest) :
    ∃ xs, Ledger K s i xs ∧ xs.map Prod.fst = cs := by
  let hs := (s.side i.other).handled
  have hlen : cs.length = (hs.map Prod.snd).length := by
    simpa [hs] using (congrArg List.length hreq).symm
  have hfst : (cs.zip (hs.map Prod.snd)).map Prod.fst = cs := List.map_fst_zip hlen.le
  have hhandled : hs = (cs.zip (hs.map Prod.snd)).map
      fun x => ((K i).createRequest x.1, x.2) := by
    calc hs = (hs.map Prod.fst).zip (hs.map Prod.snd) := List.zip_of_prod rfl rfl
      _ = (cs.map (K i).createRequest).zip (hs.map Prod.snd) := by rw [hreq]
      _ = _ := by rw [List.zip_map_left]; rfl
  refine ⟨cs.zip (hs.map Prod.snd), ⟨hhandled, hfst.symm ▸ hcs, ?_, fun c x hx => ?_⟩, hfst⟩
  · rw [hfst]
    exact hcs.nodup (h.sound i).tied.once
  · obtain ⟨r, hmem, hcont⟩ := h.served hU hO i c x hx
    have hval := (h.sound i).sourced.got c x hx
    exact ⟨r, mem_of_handled hU hO ((h.sound i).twoWay c x hval) (hhandled ▸ hmem), hcont⟩

theorem Linked.ledger (hU : ∀ i, (K i).UniqueIds)
    (hO : ∀ i c, ((K i).createRequest c).oneWay = (K i).oneWay c) (h : Linked .lossy K s)
    (i : Side) : ∃ xs, Ledger K s i xs := by
  have harr : (s.side i.other).arrived.Sublist ((s.side i).taken.map (message (K i))) :=
    ((List.sublist_append_left _ _).trans (h.carried i)).trans (h.fed i).isPrefix.sublist
  have hreq : ((s.side i.other).handled.map Prod.fst).Sublist
      ((s.side i).callsSent.map (K i).createRequest) := by
    have hsub := (h.sound i.other).tied.flow.isPrefix.1.sublist.trans (harr.filterMap _)
    rwa [← requests, requests_map_message] at hsub
  obtain ⟨cs, hcs, heq⟩ := List.sublist_map_iff.mp hreq
  obtain ⟨xs, hxs, -⟩ := (h.mono fun _ _ h => h.subset).exists_ledger hU hO hcs heq
  exact ⟨xs, hxs⟩

/-- **Each request is executed at most once, and in order**, in every run over a transport that does
not repeat or reorder messages, whatever it loses. -/
theorem ledger_along [DecidableEq Call] (hU : ∀ i, (K i).UniqueIds) (hT : ∀ i, (K i).Textual)
    (hO : ∀ i c, ((K i).createRequest c).oneWay = (K i).oneWay c)
    {ls : List (Label Call ρ ε)} (h : (session ρ ε K).Guarded (Proper .lossy) .init ls) :
    (session ρ ε K).Along (fun s => ∀ i, ∃ xs, Ledger K s i xs) .init ls :=
  (Linked.along hU hT h).mono fun _ hs => hs.ledger hU hO

/-- A call whose request is lost: it runs out of time, and the handler has not run. -/
theorem ledger_lost :
    (session Unit Unit singles).Along (fun s => ∀ i, ∃ xs, Ledger singles s i xs) .init
      [.task .left (.call 0), .task .left (.take 0), .send .left, .task .left (.enter 0),
        .disturb .left [], .task .left (.timeout 0)] :=
  ledger_along (fun _ c d _ _ _ => Subsingleton.elim c d) (fun _ _ _ => ⟨"a", rfl⟩)
    (fun _ _ => rfl) <| .cons rfl trivial <| .cons rfl trivial <| .cons rfl trivial <|
      .cons rfl trivial <| .cons rfl (List.nil_sublist _) <| .cons rfl trivial trivial

/-! ## Nothing is lost -/

/-- The response to a call that holds its future has set it. -/
def Answered (K : Side → Setting Call) (s : Session Call ρ ε) : Prop :=
  ∀ i c r, (K i).Holds c ((s.side i).peer.call c) → r ∈ (s.side i).peer.responses →
    r.uniqueId = (K i).uniqueId c → (s.side i).peer.pending.value c ≠ none

theorem Answered.turn [DecidableEq Call] {l : Label Call ρ ε}
    (hnew : ∀ i, (K i).registration = .atNew) (hU : ∀ i, (K i).UniqueIds)
    (hT : ∀ i, (K i).Textual) (hO : ∀ i c, ((K i).createRequest c).oneWay = (K i).oneWay c)
    (hL : Linked .unordered K s) (h : Answered K s) (ht : Turn K s l s') : Answered K s' := by
  have hset : ∀ {j : Side} {l : Peer.Label Call ρ ε} {t : Tapped Call ρ ε},
      (s.side j).step (K j) l = some t → ∀ i c r,
      (K i).Holds c (((s.setSide j t).side i).peer.call c) →
      r ∈ ((s.setSide j t).side i).peer.responses → r.uniqueId = (K i).uniqueId c →
      ((s.setSide j t).side i).peer.pending.value c ≠ none := by
    intro j l t ht i c r hc hr hid
    by_cases hij : i = j
    · subst hij
      obtain ⟨p, hp, rfl⟩ := Option.map_eq_some_iff.mp ht
      rw [setSide_side_self, Tapped.note_peer] at hc hr ⊢
      have hn := Peer.needsResponse_of_holds hc
      refine Tapped.value_of_response (hnew i) (hT i) (hL.sound i).held (Peer.turn_of_step hp) hid
        (fun hidle hold => ?_) (fun hheld hold => h i c r hheld hold hid) hc hr
      -- nothing comes in for a call that has not been made
      have hsent := (hL.answer_mem hU hO hn hold hid).1
      rcases ((hL.sound i).tied.sent c).mp hsent with hp | hp
      · rw [hidle] at hp
        cases hp
      · exact ((hL.sound i).tied.gone c hp).1 hidle
    · rw [setSide_side_of_ne t hij] at hc hr ⊢
      exact h i c r hc hr hid
  cases ht with
  | task hl ht | send hm ht | receive hms ht => exact hset ht
  | disturb => exact h

/-- The channels are empty, and the tasks wait for something to do. -/
def Quiet (s : Session Call ρ ε) : Prop :=
  ∀ i, s.channel i = [] ∧ (s.side i).peer.inbound = .receiving ∧
    (s.side i).peer.outbound = .receiving

/-- **Nothing has been lost.** -/
structure Complete (K : Side → Setting Call) (s : Session Call ρ ε) (i : Side)
    (xs : List (Call × Option (Response ρ ε))) : Prop extends Ledger K s i xs where
  /-- The handler has run for each call that got past the queue… -/
  all : ∀ c, (s.side i).Passed c ↔ c ∈ xs.map Prod.fst
  /-- …in the order in which the requests were sent… -/
  inOrder : xs.map Prod.fst = (s.side i).callsSent
  /-- …and a call that waits has what the handler returned for it. -/
  waiting : ∀ c, (s.side i).peer.call c = .waiting →
    ∃ y, (c, y) ∈ xs ∧ (s.side i).peer.pending.value c = y.map fun r => r.payload.content

theorem Linked.complete (hU : ∀ i, (K i).UniqueIds)
    (hO : ∀ i c, ((K i).createRequest c).oneWay = (K i).oneWay c) (h : Linked .reliable K s)
    (ha : Answered K s) (hq : Quiet s) (i : Side) : ∃ xs, Complete K s i xs := by
  have hL : Linked .unordered K s := h.mono fun as bs hab => hab ▸ List.Subset.refl as
  -- all that is on the wire has arrived
  have harr : ∀ i : Side, (s.side i.other).arrived = (s.side i).taken.map (message (K i)) := by
    intro i
    have hcar := h.carried i
    have hfed := h.fed i
    rw [(hq i).2.2] at hfed
    rw [(hq i).1, List.append_nil] at hcar
    exact hcar.trans hfed
  have hreq : (s.side i.other).handled.map Prod.fst =
      (s.side i).callsSent.map (K i).createRequest := by
    have hflow := (h.sound i.other).tied.flow
    rw [(hq i.other).2.1, harr i, requests_map_message] at hflow
    exact hflow.1
  obtain ⟨xs, hxs, hfst⟩ := hL.exists_ledger hU hO (List.Sublist.refl _) hreq
  refine ⟨xs, hxs, fun c => ?_, hfst, fun c hc => ?_⟩
  · rw [hfst]
    exact ((h.sound i).tied.sent c).symm
  · have hn := (h.sound i).filed.twoWay c (.inl hc)
    have hpassed : (s.side i).Passed c := .inr ((h.sound i).entered c (.inl hc))
    have hmem : c ∈ xs.map Prod.fst := hfst ▸ ((h.sound i).tied.sent c).mpr hpassed
    obtain ⟨⟨d, y⟩, hy, rfl⟩ := List.mem_map.mp hmem
    have hone : ((K i).createRequest d).oneWay = false := by
      simp only [Setting.needsResponse, Bool.and_eq_true, Bool.not_eq_true'] at hn
      exact (hO i d).trans hn.1
    -- what its future is set to is what the handler returned
    have hval : ∀ x, (s.side i).peer.pending.value d = some x →
        ∃ r, y = some r ∧ r.payload.content = x := by
      intro x hx
      obtain ⟨r, hr, hid, hcont⟩ := (h.sound i).sourced.value d x hx
      have hhandled := (hL.answer_mem hU hO hn hr hid).2
      rw [hxs.handled] at hhandled
      have hsame := List.inj_on_of_nodup_map hxs.once hy (mem_of_handled hU hO hn hhandled) rfl
      exact ⟨r, congrArg Prod.snd hsame, hcont⟩
    refine ⟨y, hy, ?_⟩
    cases hv : (s.side i).peer.pending.value d with
    | some x =>
      obtain ⟨r, rfl, rfl⟩ := hval x hv
      rfl
    | none =>
      cases y with
      | none => rfl
      | some r =>
        have hhandled : ((K i).createRequest d, some r) ∈ (s.side i.other).handled :=
          hxs.handled ▸ List.mem_map_of_mem hy
        have hresp : r ∈ (s.side i).peer.responses := by
          have hflow := (h.sound i.other).tied.flow
          have harr' := harr i.other
          rw [Side.other_other] at harr'
          rw [(hq i.other).2.1] at hflow
          rw [(h.sound i).recorded, harr', incoming_map_message, ← Tapped.responsesSent, hflow.2]
          exact List.mem_filterMap.mpr ⟨_, hhandled, by simp [hone]⟩
        have hid := h.echoes i.other _ r hhandled hone
        exact absurd hv (ha i d r (hc ▸ hn) hresp hid)

/-- **One step** over a reliable transport. -/
theorem Linked.answered_step [DecidableEq Call] {l : Label Call ρ ε}
    (hnew : ∀ i, (K i).registration = .atNew) (hU : ∀ i, (K i).UniqueIds)
    (hT : ∀ i, (K i).Textual) (hO : ∀ i c, ((K i).createRequest c).oneWay = (K i).oneWay c)
    (h : Linked .reliable K s ∧ Answered K s) (hP : Proper .reliable s l)
    (hst : s.step K l = some s') : Linked .reliable K s' ∧ Answered K s' := by
  have hL : Linked .unordered K s := h.1.mono fun as bs hab => hab ▸ List.Subset.refl as
  have ht := turn_of_step hst
  exact ⟨h.1.turn hU hT hP ht, h.2.turn hnew hU hT hO hL ht⟩

theorem answered_init : Answered K (init : Session Call ρ ε) := fun _ _ _ hc => hc.elim

/-- …in a state that a run leads to. -/
theorem complete_of_reach [DecidableEq Call] (hnew : ∀ i, (K i).registration = .atNew)
    (hU : ∀ i, (K i).UniqueIds) (hT : ∀ i, (K i).Textual)
    (hO : ∀ i c, ((K i).createRequest c).oneWay = (K i).oneWay c)
    (h : (session ρ ε K).Reach (Proper .reliable) s) (hq : Quiet s) (i : Side) :
    ∃ xs, Complete K s i xs := by
  have hs : Linked .reliable K s ∧ Answered K s :=
    h.invariant (I := fun s => Linked .reliable K s ∧ Answered K s) ⟨linked_init, answered_init⟩
      fun _ _ _ hs hP hst => Linked.answered_step hnew hU hT hO hs hP hst
  exact hs.1.complete hU hO hs.2 hq i

/-- **Over a reliable transport nothing is lost**: whenever nothing is under way, the handler has
run exactly once for each request, and each call that waits has been set to what it returned. -/
theorem complete_along [DecidableEq Call] (hnew : ∀ i, (K i).registration = .atNew)
    (hU : ∀ i, (K i).UniqueIds) (hT : ∀ i, (K i).Textual)
    (hO : ∀ i c, ((K i).createRequest c).oneWay = (K i).oneWay c)
    {ls : List (Label Call ρ ε)} (h : (session ρ ε K).Guarded (Proper .reliable) .init ls) :
    (session ρ ε K).Along (fun s => Quiet s → ∀ i, ∃ xs, Complete K s i xs) .init ls := by
  have hboth : (session ρ ε K).Along (fun s => Linked .reliable K s ∧ Answered K s) .init ls :=
    h.along ⟨linked_init, answered_init⟩
      fun _ _ _ hs hP hst => Linked.answered_step hnew hU hT hO hs hP hst
  exact hboth.mono fun s hs hq => hs.1.complete hU hO hs.2 hq

/-- A call that is answered. -/
theorem complete_answered :
    (session Unit Unit singles).Along (fun s => Quiet s → ∀ i, ∃ xs, Complete singles s i xs) .init
      [.task .left (.call 0), .task .left (.take 0), .send .left, .task .left (.enter 0),
        .receive .right, .task .right (.handled (some ⟨.str "a", .result ()⟩)),
        .task .right .takeResponse, .send .right, .receive .left, .task .left (.finish 0)] := by
  refine complete_along (fun _ => rfl) (fun _ c d _ _ _ => Subsingleton.elim c d)
    (fun _ _ _ => ⟨"a", rfl⟩) (fun _ _ => rfl) ?_
  refine .cons rfl trivial <| .cons rfl trivial <| .cons rfl trivial <| .cons rfl trivial <|
    .cons rfl trivial <| .cons rfl ?_ <| .cons rfl trivial <| .cons rfl trivial <|
    .cons rfl trivial <| .cons rfl trivial trivial
  intro q hq _
  cases hq
  rfl

end Session

/-! ## Channels of finite capacity -/

namespace Network

variable {Call ρ ε : Type*} {K : Link Call} {s s' : Network Call ρ ε}

/-- The handlers answer under the identifier of the request. -/
def Echoing (s : Network Call ρ ε) : Label Call ρ ε → Prop
  | .task i (.handled (some r)) =>
    ∀ q, (s.peer i).inbound = .handling q → q.oneWay = false → r.uniqueId = q.uniqueId
  | _ => True

/-- A session goes through the same states, with a record of what has gone by. -/
structure Recorded (s : Network Call ρ ε) (t : Session Call ρ ε) : Prop where
  peer : ∀ i, (t.side i).peer = s.peer i
  channel : ∀ i, t.channel i = s.channel i
  /-- The handlers have always returned a response. -/
  handled : ∀ i, ∀ x ∈ (t.side i).handled, x.2 ≠ none

theorem isInside_of_isLocal {l : Peer.Label Call ρ ε} (hl : l.isLocal) : Session.isInside l := by
  cases l with
  | receive | sent => cases hl
  | _ => rfl

theorem recorded_init : Recorded (init : Network Call ρ ε) .init :=
  ⟨fun _ => rfl, fun _ => rfl, nofun⟩

theorem Recorded.congr {t : Session Call ρ ε} (h : Recorded s t)
    (hp : ∀ i, s'.peer i = s.peer i) (hc : ∀ i, s'.channel i = s.channel i) : Recorded s' t :=
  ⟨fun i => (h.peer i).trans (hp i).symm, fun i => (h.channel i).trans (hc i).symm, h.handled⟩

/-- One of the sides has taken a step. -/
theorem Recorded.setSide {t : Session Call ρ ε} (h : Recorded s t) (i : Side)
    {u : Tapped Call ρ ε} (hu : ∀ x ∈ u.handled, x.2 ≠ none) :
    Recorded (s.setPeer i u.peer) (t.setSide i u) := by
  refine ⟨fun j => ?_, h.channel, fun j => ?_⟩
  · by_cases hji : j = i
    · subst hji
      rw [Session.setSide_side_self, setPeer_peer_self]
    · rw [Session.setSide_side_of_ne _ hji, setPeer_peer_of_ne _ hji]
      exact h.peer j
  · by_cases hji : j = i
    · subst hji
      rwa [Session.setSide_side_self]
    · rw [Session.setSide_side_of_ne _ hji]
      exact h.handled j

/-- The messages on their way from one side have changed. -/
theorem Recorded.setChannel {t : Session Call ρ ε} (h : Recorded s t) (i : Side)
    (ms : List (Message ρ ε)) : Recorded (s.setChannel i ms) (t.setChannel i ms) := by
  refine ⟨h.peer, fun j => ?_, h.handled⟩
  by_cases hji : j = i
  · subst hji
    rw [Session.setChannel_channel_self, setChannel_channel_self]
  · rw [Session.setChannel_channel_of_ne ms hji, setChannel_channel_of_ne ms hji]
    exact h.channel j

theorem Recorded.post {t : Session Call ρ ε} (h : Recorded s t) (i : Side) (m : Message ρ ε) :
    Recorded (s.setChannel i (s.channel i ++ [m])) (t.post i m) := by
  have hset := h.setChannel i (s.channel i ++ [m])
  refine ⟨h.peer, fun j => ?_, h.handled⟩
  rw [Session.post_channel, h.channel i]
  exact hset.channel j

variable [DecidableEq Call]

/-- A step inside one side. -/
theorem Recorded.task {t : Session Call ρ ε} (h : Recorded s t) {i : Side}
    {l : Peer.Label Call ρ ε} {p : Peer Call ρ ε} (hl : l.isLocal)
    (hp : (s.peer i).step (K.side i) l = some p) :
    ∃ t', t.step K.side (.task i l) = some t' ∧ Recorded (s.setPeer i p) t' := by
  have hst : (t.side i).step (K.side i) l = some ((t.side i).note p l) := by
    rw [Tapped.step, h.peer i, hp]
    rfl
  refine ⟨t.setSide i ((t.side i).note p l), ?_, ?_⟩
  · rw [Session.step, if_pos (isInside_of_isLocal hl), hst]
    rfl
  · have hset := h.setSide i (u := (t.side i).note p l) ?_
    · rwa [Tapped.note_peer] at hset
    · rcases Tapped.handled_of_step hst with hsame | ⟨q, r, rfl, -, happ⟩
      · rw [hsame]
        exact h.handled i
      · rw [happ]
        intro x hx
        rcases List.mem_append.mp hx with hx | hx
        · exact h.handled i x hx
        · obtain rfl := List.mem_singleton.mp hx
          cases r with
          | none => cases hl
          | some r => exact Option.some_ne_none r

/-- A message goes into a channel. -/
theorem Recorded.send {t : Session Call ρ ε} (h : Recorded s t) {i : Side} {m : Message ρ ε}
    (hm : (s.peer i).outbound = .sending m) :
    ∃ t', t.step K.side (.send i) = some t' ∧
      Recorded ((s.setPeer i { s.peer i with outbound := .receiving }).setChannel i
        (s.channel i ++ [m])) t' := by
  have hm' : (t.side i).peer.outbound = .sending m := by rw [h.peer i, hm]
  have hst : (t.side i).step (K.side i) .sent =
      some { t.side i with peer := { s.peer i with outbound := .receiving } } := by
    rw [Tapped.step_sent hm', h.peer i]
  refine ⟨_, by rw [Session.step, hm']; simp only [hst, Option.map_some]; rfl, ?_⟩
  exact (h.setSide i (u := { t.side i with peer := { s.peer i with outbound := .receiving } })
    (h.handled i)).post i m

/-- A message comes out of a channel. -/
theorem Recorded.receive {t : Session Call ρ ε} (h : Recorded s t) {i : Side} {m : Message ρ ε}
    {ms : List (Message ρ ε)} (hms : s.channel i.other = m :: ms)
    (hi : (s.peer i).inbound = .receiving) :
    ∃ t', t.step K.side (.receive i) = some t' ∧
      Recorded ((s.setPeer i ((s.peer i).handle m)).setChannel i.other ms) t' := by
  have hms' : t.channel i.other = m :: ms := by rw [h.channel, hms]
  have hi' : (t.side i).peer.inbound = .receiving := by rw [h.peer i, hi]
  have hst : (t.side i).step (K.side i) (.receive m) =
      some { t.side i with
        peer := (s.peer i).handle m, arrived := (t.side i).arrived ++ [m] } := by
    rw [Tapped.step_receive hi', h.peer i]
  refine ⟨_, by rw [Session.step, hms']; simp only [hst, Option.map_some]; rfl, ?_⟩
  exact (h.setSide i (u := { t.side i with
    peer := (s.peer i).handle m, arrived := (t.side i).arrived ++ [m] })
    (h.handled i)).setChannel i.other ms

/-- **A step of two peers is one of a session**, or two where a message is passed from task to
task. -/
theorem Recorded.turn {t : Session Call ρ ε} {l : Label Call ρ ε} (h : Recorded s t)
    (hE : Echoing s l) (ht : Turn K s l s')
    (hr : (session ρ ε K.side).Reach (Session.Proper .reliable) t) :
    ∃ t', (session ρ ε K.side).Reach (Session.Proper .reliable) t' ∧ Recorded s' t' := by
  cases ht with
  | @task i l p hl hp =>
    obtain ⟨t', hst, hrec⟩ := h.task hl hp
    refine ⟨t', hr.next (l := .task i l) ?_ hst, hrec⟩
    cases l with
    | handled r =>
      cases r with
      | none => trivial
      | some r =>
        intro q hq
        rw [h.peer i] at hq
        exact hE q hq
    | _ => trivial
  | @send i m hm =>
    obtain ⟨t', hst, hrec⟩ := h.send hm
    exact ⟨t', hr.next (l := .send i) trivial hst, hrec⟩
  | @receive i m ms hms hi =>
    obtain ⟨t', hst, hrec⟩ := h.receive hms hi
    exact ⟨t', hr.next (l := .receive i) trivial hst, hrec⟩
  | @pass i m hm hms hi =>
    obtain ⟨t₁, hst₁, hrec₁⟩ := h.send (K := K) hm
    set p : Peer Call ρ ε := { s.peer i with outbound := .receiving }
    have hnext : ((s.setPeer i p).setChannel i (s.channel i ++ [m])).channel i.other.other =
        [m] := by
      rw [Side.other_other, setChannel_channel_self, hms]
      rfl
    have hother : ((s.setPeer i p).setChannel i (s.channel i ++ [m])).peer i.other =
        s.peer i.other := by
      rw [setChannel_peer, setPeer_peer_of_ne _ (Side.other_ne i)]
    obtain ⟨t₂, hst₂, hrec₂⟩ := hrec₁.receive (K := K) hnext (hother.symm ▸ hi)
    have hr₁ := hr.next (l := Session.Label.send i) trivial hst₁
    refine ⟨t₂, hr₁.next (l := .receive i.other) trivial hst₂, hrec₂.congr (fun j => ?_)
      fun j => ?_⟩
    · rw [setChannel_peer, hother]
      rfl
    · rw [Side.other_other]
      by_cases hji : j = i
      · subst hji
        rw [setChannel_channel_self]
        exact hms
      · simp only [setPeer_channel, setChannel_channel_of_ne _ hji]

/-- **Two peers on channels of finite capacity are two sides of a session** over a reliable
transport. -/
theorem recorded_of_reach (h : (network ρ ε K).Reach Echoing s) :
    ∃ t, (session ρ ε K.side).Reach (Session.Proper .reliable) t ∧ Recorded s t := by
  refine h.invariant (I := fun s => ∃ t, (session ρ ε K.side).Reach (Session.Proper .reliable) t ∧
    Recorded s t) ⟨_, Machine.Reach.init, recorded_init⟩ ?_
  rintro s l s' ⟨t, hr, hrec⟩ hE hst
  exact hrec.turn hE (turn_of_step hst) hr

/-- The channels are empty, and the tasks wait for something to do. -/
def Quiet (s : Network Call ρ ε) : Prop :=
  ∀ i, s.channel i = [] ∧ (s.peer i).inbound = .receiving ∧ (s.peer i).outbound = .receiving

/-- **No call waits in vain**: when nothing is under way, each call that waits has got its
response. -/
theorem waiting_done (hnew : ∀ i, (K.side i).registration = .atNew)
    (hU : ∀ i, (K.side i).UniqueIds) (hT : ∀ i, (K.side i).Textual)
    (hO : ∀ i c, ((K.side i).createRequest c).oneWay = (K.side i).oneWay c)
    (h : (network ρ ε K).Reach Echoing s) (hq : s.Quiet) (i : Side) (c : Call)
    (hc : (s.peer i).call c = .waiting) : ∃ x, (s.peer i).pending.value c = some x := by
  obtain ⟨t, hr, hrec⟩ := recorded_of_reach h
  have hquiet : t.Quiet := fun j => by
    rw [hrec.channel j, hrec.peer j]
    exact hq j
  obtain ⟨xs, hxs⟩ := Session.complete_of_reach hnew hU hT hO hr hquiet i
  rw [← hrec.peer i] at hc ⊢
  obtain ⟨y, hy, hval⟩ := hxs.waiting c hc
  have hmem : ((K.side i).createRequest c, y) ∈ (t.side i.other).handled :=
    hxs.handled ▸ List.mem_map_of_mem hy
  obtain ⟨r, rfl⟩ := Option.ne_none_iff_exists'.mp (hrec.handled i.other _ hmem)
  exact ⟨_, hval⟩

/-- A call over channels of capacity zero, in which its messages are passed from task to task. -/
theorem waiting_passed : ∃ s : Network (Fin 1) Unit Unit,
    (network Unit Unit ⟨Session.singles, fun _ => 0⟩).Reach Echoing s ∧
      (s.peer .left).call 0 = .waiting ∧ ∃ x, (s.peer .left).pending.value 0 = some x := by
  have h₀ : (network Unit Unit ⟨Session.singles, fun _ => 0⟩).Reach Echoing .init :=
    Machine.Reach.init
  have h₁ := h₀.next (l := Label.task .left (.call 0)) trivial rfl
  have h₂ := h₁.next (l := Label.task .left (.take 0)) trivial rfl
  have h₃ := h₂.next (l := Label.task .left (.enter 0)) trivial rfl
  have h₄ := h₃.next (l := Label.pass .left) trivial rfl
  have h₅ := h₄.next (l := Label.task .right (.handled (some ⟨.str "a", .result ()⟩)))
    (fun q hq _ => by cases hq; rfl) rfl
  have h₆ := h₅.next (l := Label.task .right .takeResponse) trivial rfl
  have h₇ := h₆.next (l := Label.pass .right) trivial rfl
  refine ⟨_, h₇, rfl, waiting_done (fun _ => rfl) (fun _ c d _ _ _ => Subsingleton.elim c d)
    (fun _ _ _ => ⟨"a", rfl⟩) (fun _ _ => rfl) h₇ (fun i => ?_) .left 0 rfl⟩
  cases i <;> exact ⟨rfl, rfl, rfl⟩

end Network

end FlockwaveConn.Rpc
