import FlockwaveConn.Channels.Rpc.Peer

/-!
# Channels/Rpc/Pending — the life of a pending call

`send_request()` creates the context of its future before it hands the request to the outbound
queue, and enters it after that.  Either `new()` registers the future: then it is there in time, but
a call that ends in between has no context to leave, and its identifier stays in the map.  Or
entering the context does: then it comes too late, for the request may be on its way already.

So a run is in order exactly if no two-way call is torn from the queue under the first reading, and
exactly if there are no two-way calls at all under the second (`life_iff_kept`).
-/

namespace FlockwaveConn.Rpc

namespace Setting

variable {Call ρ ε : Type*} (S : Setting Call)

/-- The two-way calls have different keys, as a `unique_id` is to be unique. -/
def UniqueKeys : Prop := ∀ c d, S.needsResponse c → S.needsResponse d → S.key c = S.key d → c = d

/-- The places of a call at which its future is registered. -/
def Holds (c : Call) : CallPlace ρ ε → Prop
  | .waiting | .ready => S.needsResponse c
  | .sending | .handed => S.needsResponse c ∧ S.registration = .atNew
  | .idle | .ended _ => False

end Setting

namespace Peer

variable {Call ρ ε : Type*} {S : Setting Call} {s s' : Peer Call ρ ε}

/-! ## What is in the map -/

/-- **The map and the calls agree.** -/
structure Filed (S : Setting Call) (s : Peer Call ρ ε) : Prop where
  own : ∀ k c, s.pending.get k = some c → k = S.key c ∧ S.needsResponse c ∧ s.call c ≠ .idle
  /-- Only two-way calls wait. -/
  twoWay : ∀ c, s.call c = .waiting ∨ s.call c = .ready → S.needsResponse c

/-- Each call that holds its future has it in the map. -/
def Held (S : Setting Call) (s : Peer Call ρ ε) : Prop :=
  ∀ c, S.Holds c (s.call c) → s.pending.get (S.key c) = some c

theorem Filed.congr (h : Filed S s) (hg : s'.pending.get = s.pending.get)
    (hc : s'.call = s.call) : Filed S s' := by
  refine ⟨fun k c hk => ?_, fun c => ?_⟩
  · rw [hc]
    exact h.own k c (hg ▸ hk)
  · rw [hc]
    exact h.twoWay c

theorem Held.congr (h : Held S s) (hg : s'.pending.get = s.pending.get)
    (hc : s'.call = s.call) : Held S s' := by
  intro c
  rw [hc, hg]
  exact h c

theorem needsResponse_of_holds {c : Call} {p : CallPlace ρ ε} (h : S.Holds c p) :
    S.needsResponse c := by
  cases p with
  | waiting | ready => exact h
  | sending | handed => exact h.1
  | idle | ended => exact h.elim

theorem filed_init : Filed S (init : Peer Call ρ ε) :=
  ⟨fun k c h => by simp [init, FutureMap.empty] at h, fun c h => by simp [init] at h⟩

theorem held_init : Held S (init : Peer Call ρ ε) := fun _ h => h.elim

theorem Filed.register {c : Call} (h : Filed S s) (hn : S.needsResponse c) (hc : s.call c ≠ .idle) :
    Filed S (s.register S c) := by
  refine ⟨fun k d hk => ?_, h.twoWay⟩
  by_cases hkc : k = S.key c
  · subst hkc
    obtain rfl : c = d := by simpa using hk
    exact ⟨rfl, hn, hc⟩
  · rw [register_pending, FutureMap.register_get_of_ne _ _ hkc] at hk
    exact h.own k d hk

/-- Each two-way call that has ended is gone from the map. -/
def Gone (S : Setting Call) (s : Peer Call ρ ε) : Prop :=
  ∀ c x, S.needsResponse c → s.call c = .ended x → s.pending.get (S.key c) = none

theorem Gone.congr (h : Gone S s) (hg : s'.pending.get = s.pending.get)
    (hc : s'.call = s.call) : Gone S s' := by
  intro c x
  rw [hc, hg]
  exact h c x

theorem Gone.register {c : Call} (hS : S.UniqueKeys) (h : Gone S s) (hn : S.needsResponse c)
    (hc : ∀ x, s.call c ≠ .ended x) : Gone S (s.register S c) := by
  intro d x hd hx
  have hdc : d ≠ c := by
    rintro rfl
    exact hc x hx
  have hk : S.key d ≠ S.key c := fun hk => hdc (hS d c hd hn hk)
  rw [register_pending, FutureMap.register_get_of_ne _ _ hk]
  exact h d x hd hx

variable [DecidableEq Call] {l : Label Call ρ ε} {c : Call}

theorem Filed.put {p : CallPlace ρ ε} (h : Filed S s) (hp : p ≠ .idle)
    (hw : p = .waiting ∨ p = .ready → S.needsResponse c) : Filed S (s.put c p) := by
  refine ⟨fun k d hk => ?_, fun d hd => ?_⟩
  · obtain ⟨hkey, hn, hidle⟩ := h.own k d hk
    refine ⟨hkey, hn, ?_⟩
    rw [put_call]
    split
    · exact hp
    · exact hidle
  · rw [put_call] at hd
    split at hd
    · next hdc => exact hdc ▸ hw hd
    · exact h.twoWay d hd

theorem Filed.leave (h : Filed S s) (x : Ending ρ ε) : Filed S (s.leave S c x) := by
  have hun : Filed S { s with pending := s.pending.unregister (S.key c) } :=
    ⟨fun k d hk => h.own k d (FutureMap.get_of_unregister hk).2, h.twoWay⟩
  exact hun.put (by simp) (by simp)

/-- **One step.** -/
theorem Filed.turn (h : Filed S s) (ht : Turn S s l s') : Filed S s' := by
  cases ht with
  | @call c hc =>
    have hput : Filed S (s.put c .sending) := h.put (by simp) (by simp)
    unfold begin_
    split
    · next hn => exact hput.register (by simp_all) (by simp)
    · exact hput
  | @take c hc =>
    have hout : Filed S { s with outbound := .sending (.request (S.createRequest c)) } :=
      h.congr rfl rfl
    exact hout.put (by simp) (by simp)
  | @enter c hc =>
    unfold Peer.enter
    split
    · exact h.put (by simp) (by simp)
    · next hn =>
        have hn : S.needsResponse c = true := by simpa using hn
        have hreg : Filed S (if S.registration = .atEnter then s.register S c else s) := by
          split
          · exact h.register hn (by simp [hc])
          · exact h
        exact hreg.put (CallPlace.wait_ne_idle _) fun _ => hn
  | finish | timeout | cancelWait => exact h.leave _
  | cancelSend | closed => exact h.put (by simp) (by simp)
  | receive => exact h.congr (handle_get _ _) (handle_call _ _)
  | handled => exact h.congr (by simp) (by simp)
  | takeResponse | sent | endInbound | endOutbound => exact h.congr rfl rfl

theorem filed_of_reach (h : (peer ρ ε S).Reachable s) : Filed S s :=
  h.invariant filed_init fun _ _ _ hI _ hs => hI.turn (turn_of_step hs)

theorem Held.put {p : CallPlace ρ ε} (h : Held S s)
    (hp : S.Holds c p → s.pending.get (S.key c) = some c) : Held S (s.put c p) := by
  intro d hd
  rw [put_call] at hd
  split at hd
  · next hdc => exact hdc ▸ hp (hdc ▸ hd)
  · exact h d hd

theorem Held.register (hS : S.UniqueKeys) (h : Held S s) (hn : S.needsResponse c) :
    Held S (s.register S c) := by
  intro d hd
  by_cases hdc : d = c
  · subst hdc
    simp
  · have hk : S.key d ≠ S.key c := fun hk => hdc (hS d c (needsResponse_of_holds hd) hn hk)
    rw [register_pending, FutureMap.register_get_of_ne _ _ hk]
    exact h d hd

theorem Held.leave (hS : S.UniqueKeys) (h : Held S s) (hn : S.needsResponse c) (x : Ending ρ ε) :
    Held S (s.leave S c x) := by
  intro d hd
  by_cases hdc : d = c
  · subst hdc
    simp [Setting.Holds] at hd
  · rw [Peer.leave, put_call_of_ne _ _ hdc] at hd
    have hk : S.key d ≠ S.key c := fun hk => hdc (hS d c (needsResponse_of_holds hd) hn hk)
    rw [leave_pending, FutureMap.unregister_get_of_ne _ hk]
    exact h d hd

/-- **One step**, where the keys are unique. -/
theorem Held.turn (hS : S.UniqueKeys) (hf : Filed S s) (h : Held S s) (ht : Turn S s l s') :
    Held S s' := by
  cases ht with
  | @call c hc =>
    unfold begin_
    split
    · next hn => exact (h.register hS (by simp_all)).put (by simp)
    · next hn =>
        exact h.put fun hh => absurd hh (by simpa [Setting.Holds] using hn)
  | @take c hc =>
    have hout : Held S { s with outbound := .sending (.request (S.createRequest c)) } :=
      h.congr rfl rfl
    refine hout.put fun hh => h c ?_
    rw [hc]
    exact hh
  | @enter c hc =>
    unfold Peer.enter
    split
    · exact h.put fun hh => hh.elim
    · next hn =>
        have hn : S.needsResponse c = true := by simpa using hn
        by_cases hr : S.registration = .atEnter
        · rw [if_pos hr]
          exact (h.register hS hn).put (by simp)
        · rw [if_neg hr]
          have hnew : S.registration = .atNew := by
            cases hreg : S.registration with
            | atNew => rfl
            | atEnter => exact absurd hreg hr
          exact h.put fun _ => h c (hc ▸ ⟨hn, hnew⟩)
  | finish hc => exact h.leave hS (hf.twoWay _ hc) _
  | timeout hc | cancelWait hc => exact h.leave hS (hf.twoWay _ (hc.imp_left And.left)) _
  | cancelSend | closed => exact h.put fun hh => hh.elim
  | receive => exact h.congr (handle_get _ _) (handle_call _ _)
  | handled => exact h.congr (by simp) (by simp)
  | takeResponse | sent | endInbound | endOutbound => exact h.congr rfl rfl

/-! ## The two halves -/

/-- **The life of the two-way calls is in order**: while a call offers its request to the outbound
task its future is registered, and when it has ended its identifier is gone. -/
structure Life (S : Setting Call) (s : Peer Call ρ ε) : Prop where
  inTime : ∀ c, S.needsResponse c → s.call c = .sending → s.pending.get (S.key c) = some c
  gone : ∀ c x, S.needsResponse c → s.call c = .ended x → s.pending.get (S.key c) = none

/-- Where `new()` registers, no two-way call ends while it still hands over its request; where
entering the context does, no two-way call is made. -/
def Kept (S : Setting Call) (s : Peer Call ρ ε) : Label Call ρ ε → Prop
  | .call c => S.registration = .atEnter → S.needsResponse c = false
  | .cancel c | .closed c =>
    S.registration = .atNew → s.call c = .sending → S.needsResponse c = false
  | _ => True

theorem Gone.put {p : CallPlace ρ ε} (h : Gone S s)
    (hp : S.needsResponse c → ∀ x, p = .ended x → s.pending.get (S.key c) = none) :
    Gone S (s.put c p) := by
  intro d x hn hd
  rw [put_call] at hd
  split at hd
  · next hdc => exact hdc ▸ hp (hdc ▸ hn) x hd
  · exact h d x hn hd

theorem Gone.leave (h : Gone S s) (x : Ending ρ ε) : Gone S (s.leave S c x) := by
  have hun : Gone S { s with pending := s.pending.unregister (S.key c) } := by
    intro d y hd hy
    by_cases hk : S.key d = S.key c
    · exact hk ▸ FutureMap.unregister_get_self ..
    · exact (FutureMap.unregister_get_of_ne _ hk).trans (h d y hd hy)
  exact hun.put fun _ _ _ => FutureMap.unregister_get_self ..

/-- **One step**, where the keys are unique and no call is torn from the queue. -/
theorem Gone.turn (hS : S.UniqueKeys) (hnew : S.registration = .atNew) (h : Gone S s)
    (hg : Kept S s l) (ht : Turn S s l s') : Gone S s' := by
  cases ht with
  | @call c hc =>
    unfold begin_
    split
    · next hn => exact (h.register hS (by simp_all) (by simp [hc])).put (by simp)
    · exact h.put (by simp)
  | @take c hc =>
    have hout : Gone S { s with outbound := .sending (.request (S.createRequest c)) } :=
      h.congr rfl rfl
    exact hout.put (by simp)
  | @enter c hc =>
    unfold Peer.enter
    split
    · next hn => exact h.put fun hn' => by simp [hn'] at hn
    · simp only [hnew, reduceCtorEq, if_false]
      exact h.put fun _ x hx => absurd hx (CallPlace.wait_ne_ended _ x)
  | finish | timeout | cancelWait => exact h.leave _
  | cancelSend hc | closed hc => exact h.put fun hn => by simp [hg hnew hc] at hn
  | receive => exact h.congr (handle_get _ _) (handle_call _ _)
  | handled => exact h.congr (by simp) (by simp)
  | takeResponse | sent | endInbound | endOutbound => exact h.congr rfl rfl

/-- A step between two states in order keeps the condition. -/
theorem kept_of_life (h : Life S s) (hf : Filed S s) (ht : Turn S s l s') (h' : Life S s') :
    Kept S s l := by
  cases ht with
  | @call c hc =>
    intro henter
    by_contra hn
    have hn : S.needsResponse c = true := by simpa using hn
    have hget := h'.inTime c hn (by simp [begin_])
    simp only [begin_, henter, reduceCtorEq, decide_false, Bool.and_false, Bool.false_eq_true,
      if_false, put_pending] at hget
    exact (hf.own _ c hget).2.2 hc
  | @cancelSend c | @closed c =>
    intro _ hc
    by_contra hn
    have hn : S.needsResponse c = true := by simpa using hn
    have hget := h.inTime c hn hc
    have hnone := h'.gone c _ hn (put_call_self ..)
    rw [put_pending, hget] at hnone
    cases hnone
  | @cancelWait c hc =>
    intro _ hs
    simp [hs] at hc
  | take | enter | finish | timeout | receive | handled | takeResponse | sent | endInbound
  | endOutbound => trivial

/-- Where no two-way call may be made, none is. -/
theorem idle_of_turn (henter : S.registration = .atEnter)
    (h : ∀ c, S.needsResponse c → s.call c = .idle) (hg : Kept S s l) (ht : Turn S s l s') :
    ∀ c, S.needsResponse c → s'.call c = .idle := by
  intro d hd
  have hidle := h d hd
  have hmover : l.mover ≠ some d := by
    intro hl
    cases ht with
    | call =>
      obtain rfl := Option.some.inj hl
      simp [hg henter] at hd
    | take hc | enter hc | cancelSend hc | closed hc | finish hc | timeout hc | cancelWait hc =>
      obtain rfl := Option.some.inj hl
      simp [hidle] at hc
    | receive | handled | takeResponse | sent | endInbound | endOutbound => cases hl
  rw [ht.call_of_ne hmover, hidle]

variable (ρ ε S)

/-- **The life of the two-way calls is in order exactly in the runs that keep the condition.** -/
theorem life_iff_kept (hS : S.UniqueKeys) (ls : List (Label Call ρ ε)) :
    (peer ρ ε S).Along (Life S) (peer ρ ε S).init ls
      ↔ (peer ρ ε S).Guarded (Kept S) (peer ρ ε S).init ls := by
  have hfiled : (peer ρ ε S).Along (fun s => Filed S s ∧ Held S s) (peer ρ ε S).init ls :=
    (Machine.guarded_anyStep _ _).along ⟨filed_init, held_init⟩ fun s l s' h _ hs =>
      ⟨h.1.turn (turn_of_step hs), h.2.turn hS h.1 (turn_of_step hs)⟩
  constructor
  · intro h
    refine (h.and hfiled).guarded fun s l s' hI hs hI' => ?_
    exact kept_of_life hI.1 hI.2.1 (turn_of_step hs) hI'.1
  · intro h
    cases hreg : S.registration with
    | atNew =>
      have hgone : (peer ρ ε S).Along (Gone S) (peer ρ ε S).init ls :=
        h.along (fun c x _ hx => by cases hx) fun s l s' hI hg hs =>
          hI.turn hS hreg hg (turn_of_step hs)
      refine (hgone.and hfiled).mono fun s hI => ⟨fun c hn hc => ?_, hI.1⟩
      exact hI.2.2 c (hc ▸ ⟨hn, hreg⟩)
    | atEnter =>
      have hidle := h.along (I := fun s => ∀ c, S.needsResponse c → s.call c = .idle)
        (fun c _ => rfl) fun s l s' hI hg hs => idle_of_turn hreg hI hg (turn_of_step hs)
      refine hidle.mono fun s hI => ⟨fun c hn hc => ?_, fun c x hn hc => ?_⟩ <;>
        simp [hI c hn] at hc

/-- One two-way call. -/
def single (registration : Registration) (uniqueId : Id) : Setting (Fin 1) where
  registration := registration
  oneWay := fun _ => false
  createRequest := fun _ => ⟨uniqueId, false⟩

/-- A call that gets its response. -/
theorem life_of_answered :
    (peer Unit Unit (single .atNew (.str "a"))).Along (Life (single .atNew (.str "a"))) .init
      [.call 0, .take 0, .sent, .enter 0, .receive (.response ⟨.str "a", .result ()⟩), .finish 0] :=
  (life_iff_kept _ _ _ (fun c d _ _ _ => Subsingleton.elim c d) _).mpr <|
    .cons rfl nofun <| .cons rfl trivial <| .cons rfl trivial <| .cons rfl trivial <|
      .cons rfl trivial <| .cons rfl trivial trivial

/-- A call that is cancelled before its request is taken: under either reading of `new()` its life
is not in order. -/
theorem call_torn :
    ¬ ∃ registration, ∀ ls, (peer Unit Unit (single registration (.str "a"))).Along
      (Life (single registration (.str "a"))) .init ls := by
  rintro ⟨registration, h⟩
  have hrun := h [.call 0, .cancel 0]
  cases registration with
  | atNew =>
    have hget := ((hrun.2 _ rfl).2 _ rfl).gone 0 _ rfl rfl
    exact absurd hget (by decide)
  | atEnter =>
    have hget := (hrun.2 _ rfl).1.inTime 0 rfl rfl
    cases hget

end Peer

end FlockwaveConn.Rpc
