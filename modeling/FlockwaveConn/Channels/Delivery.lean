import FlockwaveConn.Channels.Message
import FlockwaveConn.Machinery.Transition

/-!
# Channels/Delivery — one consumer of a channel gets every message once

A task calls `receive()` again and again, on a reader that has some chunks to give and then gives
the empty value.  The pending queue outlives the calls: a chunk may yield many messages or none, the
parser may raise after it has yielded some of them, and a call may be cancelled at the read.

What has been returned and what is pending are together what the parser has yielded (`Delivered`),
in every state of every run; and from every one of them the consumer gets the rest, if it goes on
(`drains`).
-/

namespace FlockwaveConn

/-- How a call to `receive()` ends. -/
inductive Received (Msg ε : Type*)
  | message (m : Msg)
  /-- The channel raises `EndOfChannel`. -/
  | ended
  /-- The parser raises. -/
  | failed (x : Exn ε)
  /-- The read is left by an exception, a cancellation above all. -/
  | interrupted

/-- A channel with its reader and its consumer. -/
structure Consumer (σ Raw Msg ε : Type*) where
  channel : MessageChannel σ Msg
  /-- The chunks the reader has not returned yet. -/
  source : List Raw
  /-- The consumer is in `receive()`, at the read. -/
  waiting : Bool
  /-- What the parser has been given, oldest first. -/
  fed : List Raw
  /-- How the calls so far have ended, oldest first. -/
  results : List (Received Msg ε)

namespace Consumer

variable {σ Raw Msg ε : Type*} [Truthy Raw]

/-- The steps of the consumer. -/
inductive Label
  /-- It calls `receive()`. -/
  | receive
  /-- The reader returns its next chunk, or the empty value where there is none. -/
  | read
  /-- The read is cancelled, and takes nothing from the reader. -/
  | interrupt
  deriving DecidableEq

/-- The call ends. -/
def finish (r : Received Msg ε) (s : Consumer σ Raw Msg ε) : Consumer σ Raw Msg ε :=
  { s with waiting := false, results := s.results ++ [r] }

/-- `while not self._pending: await self._read()`, and `return self._pending.popleft()`. -/
def loop (s : Consumer σ Raw Msg ε) : Consumer σ Raw Msg ε :=
  match s.channel.pending with
  | m :: ms => { s with channel := { s.channel with pending := ms } }.finish (.message m)
  | [] => { s with waiting := true }

/-- The item is there: the rest of `_read()`, and back to the test of the loop. -/
def absorb (P : Parser σ Raw Msg ε) (data : Raw) (s : Consumer σ Raw Msg ε) :
    Consumer σ Raw Msg ε :=
  let s' := { s with fed := if truthy data then s.fed ++ [data] else s.fed }
  match s.channel.read P data with
  | (c, none) => { s' with channel := c }.loop
  | (c, some x) => { s' with channel := c }.finish (if truthy data then .failed x else .ended)

/-- One step, with a reader that returns `empty` after its last chunk. -/
def step (P : Parser σ Raw Msg ε) (empty : Raw) (s : Consumer σ Raw Msg ε) :
    Label → Option (Consumer σ Raw Msg ε)
  | .receive => if s.waiting then none else some s.loop
  | .read =>
    if s.waiting then
      match s.source with
      | data :: rest => some ({ s with source := rest }.absorb P data)
      | [] => some (s.absorb P empty)
    else none
  | .interrupt => if s.waiting then some (s.finish .interrupted) else none

end Consumer

/-- **One consumer of a channel**, on a reader with some chunks. -/
def consumer {σ Raw Msg ε : Type*} [Truthy Raw] (P : Parser σ Raw Msg ε) (q : σ)
    (chunks : List Raw) (empty : Raw) : Machine (Consumer σ Raw Msg ε) Consumer.Label where
  init := ⟨⟨q, []⟩, chunks, false, [], []⟩
  step := Consumer.step P empty

namespace Consumer

variable {σ Raw Msg ε : Type*}

/-- The messages among the results. -/
def messages (rs : List (Received Msg ε)) : List Msg :=
  rs.filterMap fun
    | .message m => some m
    | _ => none

@[simp] theorem messages_append (rs rs' : List (Received Msg ε)) :
    messages (rs ++ rs') = messages rs ++ messages rs' := List.filterMap_append

/-- An `EndOfChannel` among the results is the last one or one of those before. -/
theorem ended_concat {rs pre post : List (Received Msg ε)} {r : Received Msg ε}
    (h : rs ++ [r] = pre ++ .ended :: post) :
    r = .ended ∧ rs = pre ∨ ∃ post', rs = pre ++ .ended :: post' := by
  rcases List.eq_nil_or_concat post with rfl | ⟨post', r', rfl⟩
  · obtain ⟨hrs, hr⟩ := List.append_inj' h rfl
    exact .inl ⟨by simpa using hr, hrs⟩
  · refine .inr ⟨post', ?_⟩
    have h' : rs ++ [r] = (pre ++ .ended :: post') ++ [r'] := by simpa using h
    exact (List.append_inj' h' rfl).1

/-! ### What a turn does -/

section

variable {P : Parser σ Raw Msg ε} {data : Raw} {s : Consumer σ Raw Msg ε}

theorem loop_of_nil (h : s.channel.pending = []) : s.loop = { s with waiting := true } := by
  rw [loop, h]

theorem loop_of_cons {m : Msg} {ms : List Msg} (h : s.channel.pending = m :: ms) :
    s.loop = { s with channel := { s.channel with pending := ms } }.finish (.message m) := by
  rw [loop, h]

@[simp] theorem loop_source (s : Consumer σ Raw Msg ε) : s.loop.source = s.source := by
  unfold loop
  split <;> rfl

@[simp] theorem loop_fed (s : Consumer σ Raw Msg ε) : s.loop.fed = s.fed := by
  unfold loop
  split <;> rfl

/-- A turn of the loop ends one call at most. -/
theorem loop_results (s : Consumer σ Raw Msg ε) :
    s.loop.results = s.results ∨ ∃ r, s.loop.results = s.results ++ [r] := by
  unfold loop
  split
  · next m _ _ => exact .inr ⟨.message m, rfl⟩
  · exact .inl rfl

variable [Truthy Raw]

/-- The empty value ends the channel, and nothing else happens. -/
theorem absorb_of_falsy (h : truthy data = false) (s : Consumer σ Raw Msg ε) :
    s.absorb P data = s.finish .ended := by
  simp [absorb, MessageChannel.read_of_falsy h, h]

/-- The consumer once the parser has got an item. -/
def feed (P : Parser σ Raw Msg ε) (data : Raw) (s : Consumer σ Raw Msg ε) : Consumer σ Raw Msg ε :=
  { s with
    channel := ⟨(P s.channel.parser data).state,
      s.channel.pending ++ (P s.channel.parser data).messages⟩
    fed := s.fed ++ [data] }

theorem absorb_of_truthy (h : truthy data = true) (s : Consumer σ Raw Msg ε) :
    s.absorb P data =
      match (P s.channel.parser data).error with
      | none => (s.feed P data).loop
      | some x => (s.feed P data).finish (.failed x) := by
  simp only [absorb, MessageChannel.read_of_truthy h, h, if_true]
  cases (P s.channel.parser data).error <;> rfl

theorem absorb_fed (P : Parser σ Raw Msg ε) (data : Raw) (s : Consumer σ Raw Msg ε) :
    (s.absorb P data).fed = s.fed ++ if truthy data then [data] else [] := by
  cases hdata : truthy data with
  | false =>
    rw [absorb_of_falsy hdata]
    simp [finish]
  | true =>
    rw [absorb_of_truthy hdata]
    cases (P s.channel.parser data).error with
    | none => exact loop_fed _
    | some x => rfl

/-- An item ends one call at most. -/
theorem absorb_results (P : Parser σ Raw Msg ε) (data : Raw) (s : Consumer σ Raw Msg ε) :
    (s.absorb P data).results = s.results ∨
      ∃ r, (s.absorb P data).results = s.results ++ [r] := by
  cases hdata : truthy data with
  | false =>
    rw [absorb_of_falsy hdata]
    exact .inr ⟨.ended, rfl⟩
  | true =>
    rw [absorb_of_truthy hdata]
    cases (P s.channel.parser data).error with
    | none => exact loop_results (s.feed P data)
    | some x => exact .inr ⟨.failed x, rfl⟩

end

/-! ### Once, and in order -/

/-- **What the parser has yielded has been returned, or it is pending.**  `earlier` is what has been
returned before. -/
structure InOrder (P : Parser σ Raw Msg ε) (q : σ) (earlier : List Msg)
    (s : Consumer σ Raw Msg ε) : Prop where
  parser : s.channel.parser = P.after q s.fed
  returned : earlier ++ messages s.results ++ s.channel.pending = P.yielded q s.fed

namespace InOrder

variable {P : Parser σ Raw Msg ε} {q : σ} {earlier : List Msg} {s : Consumer σ Raw Msg ε}

/-- A call that ends without a message. -/
theorem finish {r : Received Msg ε} (h : InOrder P q earlier s) (hr : messages [r] = []) :
    InOrder P q earlier (s.finish r) := by
  refine ⟨h.parser, ?_⟩
  simpa [Consumer.finish, hr] using h.returned

/-- A turn of the loop takes the first pending message, or reads. -/
theorem loop (h : InOrder P q earlier s) : InOrder P q earlier s.loop := by
  cases hp : s.channel.pending with
  | nil =>
    rw [loop_of_nil hp]
    exact ⟨h.parser, h.returned⟩
  | cons m ms =>
    rw [loop_of_cons hp]
    refine ⟨h.parser, ?_⟩
    have hret := h.returned
    rw [hp] at hret
    simpa [Consumer.finish, messages] using hret

/-- **An item goes to the parser**, and what it yields is pending. -/
theorem feed (h : InOrder P q earlier s) (data : Raw) : InOrder P q earlier (s.feed P data) := by
  refine ⟨?_, ?_⟩
  · rw [Consumer.feed, P.after_concat, ← h.parser]
  · rw [Consumer.feed, P.yielded_concat, ← h.parser, ← h.returned]
    exact (List.append_assoc _ _ _).symm

theorem absorb [Truthy Raw] (h : InOrder P q earlier s) (data : Raw) :
    InOrder P q earlier (s.absorb P data) := by
  cases hdata : truthy data with
  | false =>
    rw [absorb_of_falsy hdata]
    exact h.finish rfl
  | true =>
    rw [absorb_of_truthy hdata]
    cases (P s.channel.parser data).error with
    | none => exact (h.feed data).loop
    | some x => exact (h.feed data).finish rfl

end InOrder

/-- **Nothing is lost, repeated or put in another order.** -/
structure Delivered (P : Parser σ Raw Msg ε) (q : σ) (chunks : List Raw)
    (s : Consumer σ Raw Msg ε) : Prop where
  /-- The parser gets each chunk once. -/
  fed : s.fed ++ s.source = chunks
  parser : s.channel.parser = P.after q s.fed
  /-- What the parser has yielded has been returned, or it is pending. -/
  returned : messages s.results ++ s.channel.pending = P.yielded q s.fed
  /-- `EndOfChannel` is raised after the last chunk, when all messages have been returned. -/
  ended : ∀ pre post, s.results = pre ++ .ended :: post →
    s.source = [] ∧ messages pre = P.yielded q chunks

/-- The consumer is at the read only while nothing is pending. -/
def Starved (s : Consumer σ Raw Msg ε) : Prop := s.waiting = true → s.channel.pending = []

@[simp] theorem starved_finish (r : Received Msg ε) (s : Consumer σ Raw Msg ε) :
    (s.finish r).Starved := fun h => by simp [finish] at h

theorem starved_loop (s : Consumer σ Raw Msg ε) : s.loop.Starved := by
  unfold loop
  split
  · exact starved_finish _ _
  · next hp => exact fun _ => hp

theorem starved_absorb [Truthy Raw] (P : Parser σ Raw Msg ε) (data : Raw)
    (s : Consumer σ Raw Msg ε) : (s.absorb P data).Starved := by
  unfold absorb
  dsimp only
  split
  · exact starved_loop _
  · exact starved_finish _ _

namespace Delivered

variable {P : Parser σ Raw Msg ε} {q : σ} {chunks : List Raw} {s : Consumer σ Raw Msg ε}

theorem inOrder (h : Delivered P q chunks s) : InOrder P q [] s := ⟨h.parser, h.returned⟩

/-- A call that ends without a message. -/
theorem finish {r : Received Msg ε} (h : Delivered P q chunks s) (hr : messages [r] = [])
    (hend : r = .ended → s.source = [] ∧ s.channel.pending = []) :
    Delivered P q chunks (s.finish r) where
  fed := h.fed
  parser := h.parser
  returned := (h.inOrder.finish hr).returned
  ended pre post hrs := by
    rcases ended_concat hrs with ⟨hr', hpre⟩ | ⟨post', hrs'⟩
    · obtain ⟨hsrc, hpend⟩ := hend hr'
      have hfed : s.fed = chunks := by simpa [hsrc] using h.fed
      refine ⟨hsrc, ?_⟩
      calc messages pre = messages s.results ++ s.channel.pending := by simp [hpend, hpre]
        _ = P.yielded q chunks := by rw [h.returned, hfed]
    · exact h.ended pre post' hrs'

/-- A turn of the loop. -/
theorem loop (h : Delivered P q chunks s) : Delivered P q chunks s.loop where
  fed := by simpa using h.fed
  parser := h.inOrder.loop.parser
  returned := h.inOrder.loop.returned
  ended pre post hrs := by
    rw [loop_source]
    cases hp : s.channel.pending with
    | nil =>
      rw [loop_of_nil hp] at hrs
      exact h.ended pre post hrs
    | cons m ms =>
      rw [loop_of_cons hp] at hrs
      rcases ended_concat hrs with ⟨hr, -⟩ | ⟨post', hrs'⟩
      · cases hr
      · exact h.ended pre post' hrs'

section

variable [Truthy Raw] {rest : List Raw} {data empty : Raw}

/-- **A chunk goes to the parser.** -/
theorem absorb (h : Delivered P q chunks s) (hsrc : s.source = data :: rest)
    (hdata : truthy data = true) :
    Delivered P q chunks ({ s with source := rest }.absorb P data) := by
  have hfeed : Delivered P q chunks ({ s with source := rest }.feed P data) := by
    refine ⟨?_, (h.inOrder.feed data).parser, (h.inOrder.feed data).returned, ?_⟩
    · simpa [feed, hsrc] using h.fed
    · exact fun pre post hrs => absurd (h.ended pre post hrs).1 (by simp [hsrc])
  rw [absorb_of_truthy hdata]
  cases (P s.channel.parser data).error with
  | none => exact hfeed.loop
  | some x => exact hfeed.finish rfl nofun

theorem step {s' : Consumer σ Raw Msg ε} {l : Label} (hchunks : ∀ x ∈ chunks, truthy x = true)
    (he : truthy empty = false) (h : Delivered P q chunks s) (hw : s.Starved)
    (hs : s.step P empty l = some s') : Delivered P q chunks s' ∧ s'.Starved := by
  cases l with
  | receive =>
    obtain ⟨-, rfl⟩ : s.waiting = false ∧ s.loop = s' := by simpa [Consumer.step] using hs
    exact ⟨h.loop, starved_loop s⟩
  | read =>
    cases hwait : s.waiting with
    | false => simp [Consumer.step, hwait] at hs
    | true =>
      cases hsrc : s.source with
      | nil =>
        obtain rfl : s.absorb P empty = s' := by simpa [Consumer.step, hwait, hsrc] using hs
        rw [absorb_of_falsy he]
        exact ⟨h.finish rfl fun _ => ⟨hsrc, hw hwait⟩, starved_finish _ _⟩
      | cons data rest =>
        obtain rfl : { s with source := rest }.absorb P data = s' := by
          simpa [Consumer.step, hwait, hsrc] using hs
        have hdata : truthy data = true := hchunks _ (by simp [← h.fed, hsrc])
        exact ⟨h.absorb hsrc hdata, starved_absorb P data _⟩
  | interrupt =>
    obtain ⟨-, rfl⟩ : s.waiting = true ∧ s.finish .interrupted = s' := by
      simpa [Consumer.step] using hs
    exact ⟨h.finish rfl nofun, starved_finish _ _⟩

end

end Delivered

/-! ## The consumer gets the rest -/

section

variable [Truthy Raw] {P : Parser σ Raw Msg ε} {q : σ} {chunks : List Raw} {empty : Raw}
  {s s' : Consumer σ Raw Msg ε}

/-- From here the consumer comes to the end of the channel, without an interruption. -/
def Drains (P : Parser σ Raw Msg ε) (q : σ) (chunks : List Raw) (empty : Raw)
    (s : Consumer σ Raw Msg ε) : Prop :=
  ∃ ls s', .interrupt ∉ ls ∧ (consumer P q chunks empty).exec s ls = some s' ∧ .ended ∈ s'.results

theorem Drains.next {l : Label} (h : Drains P q chunks empty s') (hl : l ≠ .interrupt)
    (hs : s.step P empty l = some s') : Drains P q chunks empty s := by
  obtain ⟨ls, s'', hls, hexec, hend⟩ := h
  refine ⟨l :: ls, s'', ?_, ?_, hend⟩
  · simpa using ⟨hl.symm, hls⟩
  · exact Option.bind_eq_some_iff.mpr ⟨s', hs, hexec⟩

@[simp] theorem absorb_source (data : Raw) (s : Consumer σ Raw Msg ε) :
    (s.absorb P data).source = s.source := by
  unfold absorb
  dsimp only
  split
  · exact loop_source _
  · rfl

/-- A consumer that is not at the read takes what is pending, and then comes to the read. -/
theorem drains_of_pending (pending : List Msg)
    (hread : ∀ s' : Consumer σ Raw Msg ε, s'.source = s.source → s'.waiting = true →
      Drains P q chunks empty s') (hw : s.waiting = false) (hp : s.channel.pending = pending) :
    Drains P q chunks empty s := by
  have hs : s.step P empty .receive = some s.loop := by simp [step, hw]
  induction pending generalizing s with
  | nil =>
    refine .next (hread s.loop (loop_source s) ?_) (by decide) hs
    simp [loop, hp]
  | cons m ms ih =>
    have hloop : s.loop.waiting = false ∧ s.loop.channel.pending = ms := by
      simp [loop, hp, finish]
    refine .next (ih (fun s' hsrc => hread s' (by simpa using hsrc)) hloop.1 hloop.2 ?_)
      (by decide) hs
    simp [step, hloop.1]

/-- **Each read leaves less to be read**, so the consumer gets to the end. -/
theorem drains (he : truthy empty = false) (source : List Raw) (hsrc : s.source = source) :
    Drains P q chunks empty s := by
  induction source generalizing s with
  | nil =>
    have hread : ∀ s' : Consumer σ Raw Msg ε, s'.source = s.source → s'.waiting = true →
        Drains P q chunks empty s' := by
      intro s' hsrc' hw
      refine ⟨[.read], s'.finish .ended, by decide, ?_, by simp [finish]⟩
      simp [Machine.exec, consumer, step, hw, hsrc', hsrc, absorb_of_falsy he]
    cases hw : s.waiting with
    | true => exact hread s rfl hw
    | false => exact drains_of_pending _ hread hw rfl
  | cons data rest ih =>
    have hread : ∀ s' : Consumer σ Raw Msg ε, s'.source = s.source → s'.waiting = true →
        Drains P q chunks empty s' := by
      intro s' hsrc' hw
      have h' : Drains P q chunks empty ({ s' with source := rest }.absorb P data) := ih (by simp)
      exact h'.next (l := .read) (by decide) (by simp [step, hw, hsrc', hsrc])
    cases hw : s.waiting with
    | true => exact hread s rfl hw
    | false => exact drains_of_pending _ hread hw rfl

/-- **A channel neither loses nor repeats nor reorders messages**: in every state of every run what
the parser has yielded has been returned in this order or is pending, the parser has been given each
chunk once, `EndOfChannel` is raised after the last message only, and it is where the consumer gets
if it goes on. -/
theorem delivered (hchunks : ∀ x ∈ chunks, truthy x = true) (he : truthy empty = false)
    (ls : List Label) :
    (consumer P q chunks empty).Along
      (fun s => Delivered P q chunks s ∧ Drains P q chunks empty s)
      (consumer P q chunks empty).init ls := by
  have hany : (consumer P q chunks empty).Guarded Machine.anyStep
      (consumer P q chunks empty).init ls := Machine.guarded_anyStep _ _
  have hinit : Delivered P q chunks (consumer P q chunks empty).init :=
    ⟨rfl, rfl, rfl, fun pre post hrs => by simp [consumer] at hrs⟩
  refine (hany.along (I := fun s => Delivered P q chunks s ∧ s.Starved) ⟨hinit, nofun⟩ ?_).mono
    fun s hs => ⟨hs.1, drains he _ rfl⟩
  intro s l s' hs _ hst
  exact hs.1.step hchunks he hs.2 hst

/-- A parser of digits that raises at a zero, after it has yielded what stands before it: the call
that fails loses nothing. -/
def digits : Parser Unit (List ℕ) ℕ String := fun _ data =>
  ⟨(), data.takeWhile (· ≠ 0), if 0 ∈ data then some (.other "zero") else none⟩

theorem delivered_digits :
    (consumer digits () [[1, 2, 0], [0], [3]] []).Along
      (fun s => Delivered digits () [[1, 2, 0], [0], [3]] s ∧
        Drains digits () [[1, 2, 0], [0], [3]] [] s)
      (consumer digits () [[1, 2, 0], [0], [3]] []).init
      [.receive, .read, .receive, .receive, .receive, .interrupt, .receive, .read, .receive, .read,
        .receive, .read] :=
  delivered (by decide) rfl _

end

end Consumer

end FlockwaveConn
