import FlockwaveConn.Channels.Consumers

/-!
# Channels/Framing — messages over a stream of bytes

What `send()` writes goes into the stream piece by piece, and what a read returns is cut somewhere
else.  If the parser does not care where its items are cut, and reads back what the encoder writes,
the messages come out as they went in: no matter how many tasks receive, and how often they are
cancelled (`conveyed_along`).  What has to stay in one piece is a call of `send()`.
-/

namespace FlockwaveConn

namespace Parser

variable {σ β Msg ε : Type*}

/-! ## Parsers of a stream -/

/-- **A parser of a stream**: it makes no difference where an item is cut. -/
structure Incremental (P : Parser σ (List β) Msg ε) : Prop where
  nil : ∀ q, (P q []).state = q ∧ (P q []).messages = []
  state : ∀ q x y, (P q (x ++ y)).state = (P (P q x).state y).state
  messages : ∀ q x y, (P q (x ++ y)).messages = (P q x).messages ++ (P (P q x).state y).messages

variable {P : Parser σ (List β) Msg ε}

/-- **What comes out of a stream depends on its bytes alone.** -/
theorem Incremental.yielded_eq (h : P.Incremental) (q : σ) (xs : List (List β)) :
    P.yielded q xs = (P q xs.flatten).messages := by
  induction xs generalizing q with
  | nil => exact (h.nil q).2.symm
  | cons x xs ih => rw [yielded, ih, List.flatten_cons, h.messages]

/-- A parser that takes one byte after the other. -/
def ofStep (f : σ → β → σ × List Msg) : Parser σ (List β) Msg ε := fun q xs =>
  let r := xs.foldl (fun r x => ((f r.1 x).1, r.2 ++ (f r.1 x).2)) (q, [])
  ⟨r.1, r.2, none⟩

theorem foldl_ofStep (f : σ → β → σ × List Msg) (xs : List β) (q : σ) (ms : List Msg) :
    xs.foldl (fun r x => ((f r.1 x).1, r.2 ++ (f r.1 x).2)) (q, ms) =
      (((ofStep f : Parser σ (List β) Msg ε) q xs).state,
        ms ++ ((ofStep f : Parser σ (List β) Msg ε) q xs).messages) := by
  induction xs generalizing q ms with
  | nil => simp [ofStep]
  | cons x xs ih =>
    have hhead := ih (f q x).1 ((f q x).2)
    rw [List.foldl_cons, ih]
    simp only [ofStep, List.foldl_cons, List.nil_append] at hhead ⊢
    rw [hhead]
    simp

/-- …does not care where its items are cut. -/
theorem incremental_ofStep (f : σ → β → σ × List Msg) :
    (ofStep f : Parser σ (List β) Msg ε).Incremental := by
  have happ : ∀ q x y, (ofStep f : Parser σ (List β) Msg ε) q (x ++ y) =
      ⟨((ofStep f : Parser σ (List β) Msg ε) ((ofStep f : Parser σ (List β) Msg ε) q x).state
        y).state, ((ofStep f : Parser σ (List β) Msg ε) q x).messages ++
        ((ofStep f : Parser σ (List β) Msg ε) ((ofStep f : Parser σ (List β) Msg ε) q x).state
          y).messages, none⟩ := by
    intro q x y
    have hx := foldl_ofStep (ε := ε) f x q []
    rw [List.nil_append] at hx
    have hy := foldl_ofStep (ε := ε) f y
      ((ofStep f : Parser σ (List β) Msg ε) q x).state
      ((ofStep f : Parser σ (List β) Msg ε) q x).messages
    rw [ofStep, List.foldl_append, hx, hy]
  exact ⟨fun q => ⟨rfl, rfl⟩, fun q x y => by rw [happ], fun q x y => by rw [happ]⟩

/-- **The parser reads back what the encoder writes**, a message at a time. -/
structure Decodes (P : Parser σ (List β) Msg ε) (q : σ) (encode : Msg → List β) : Prop
    extends P.Incremental where
  frame : ∀ m, (P q (encode m)).state = q ∧ (P q (encode m)).messages = [m]

/-- **A whole stream** is read back. -/
theorem Decodes.stream {q : σ} {encode : Msg → List β} (h : P.Decodes q encode) (ms : List Msg) :
    (P q (ms.flatMap encode)).state = q ∧ (P q (ms.flatMap encode)).messages = ms := by
  induction ms with
  | nil => exact h.nil q
  | cons m ms ih =>
    rw [List.flatMap_cons]
    refine ⟨?_, ?_⟩
    · rw [h.state, (h.frame m).1, ih.1]
    · rw [h.messages, (h.frame m).1, (h.frame m).2, ih.2]
      rfl

end Parser

/-! ## The two ends of a stream -/

/-- A channel at either end of a stream. -/
structure Conveyor (Task σ β Msg ε : Type*) where
  /-- The receiving end. -/
  consumers : Consumers Task σ (List β) Msg ε
  /-- What is in the stream. -/
  buffer : List β
  /-- What `send_all()` has not put into the stream yet, while a task is in it. -/
  outgoing : Option (List β)
  /-- The messages `send()` has been called with, oldest first. -/
  sent : List Msg
  /-- The sending end is closed. -/
  closed : Bool

namespace Conveyor

variable {Task σ β Msg ε : Type*}

/-- The steps of the two ends. -/
inductive Label (Task Msg : Type*)
  /-- A task calls `send()`, while no other one is in `send_all()`. -/
  | send (m : Msg)
  /-- Some bytes go into the stream. -/
  | transmit (n : ℕ)
  /-- `send_all()` returns. -/
  | sent
  /-- `send_all()` is cancelled. -/
  | tear
  /-- The sending end is closed. -/
  | close
  /-- A task calls `receive()`. -/
  | receive (t : Task)
  /-- The read of a task returns some bytes. -/
  | read (t : Task) (n : ℕ)
  /-- The read of a task returns nothing, at the end of the stream. -/
  | eof (t : Task)
  /-- The read of a task raises, or is cancelled. -/
  | interrupt (t : Task)

/-- A step of the receiving end. -/
def Label.isReceiving {Task Msg : Type*} : Label Task Msg → Bool
  | .receive _ | .read _ _ | .eof _ | .interrupt _ => true
  | .send _ | .transmit _ | .sent | .tear | .close => false

/-- The message that `send()` is called with. -/
def Label.messages {Task Msg : Type*} : Label Task Msg → List Msg
  | .send m => [m]
  | _ => []

def init (q : σ) : Conveyor Task σ β Msg ε := ⟨.init q, [], none, [], false⟩

variable [DecidableEq Task]

/-- One step. -/
def step (P : Parser σ (List β) Msg ε) (encode : Msg → List β) (s : Conveyor Task σ β Msg ε) :
    Label Task Msg → Option (Conveyor Task σ β Msg ε)
  | .send m =>
    if s.outgoing.isNone && !s.closed then
      some { s with outgoing := some (encode m), sent := s.sent ++ [m] }
    else none
  | .transmit n => s.outgoing.map fun xs =>
      { s with buffer := s.buffer ++ xs.take n, outgoing := some (xs.drop n) }
  | .sent =>
    match s.outgoing with
    | some [] => some { s with outgoing := none }
    | _ => none
  | .tear => s.outgoing.map fun _ => { s with outgoing := none }
  | .close => if s.outgoing.isNone then some { s with closed := true } else none
  | .receive t => (s.consumers.step P (.receive t)).map fun c => { s with consumers := c }
  | .read t n =>
    if 0 < n ∧ n ≤ s.buffer.length then
      (s.consumers.step P (.read t (s.buffer.take n))).map fun c =>
        { s with consumers := c, buffer := s.buffer.drop n }
    else none
  | .eof t =>
    if s.closed && s.buffer.isEmpty then
      (s.consumers.step P (.read t [])).map fun c => { s with consumers := c }
    else none
  | .interrupt t => (s.consumers.step P (.interrupt t)).map fun c => { s with consumers := c }

end Conveyor

/-- **Messages over a stream of bytes.** -/
def conveyor (Task : Type*) {σ β Msg ε : Type*} [DecidableEq Task] (P : Parser σ (List β) Msg ε)
    (encode : Msg → List β) (q : σ) :
    Machine (Conveyor Task σ β Msg ε) (Conveyor.Label Task Msg) where
  init := .init q
  step := Conveyor.step P encode

namespace Conveyor

variable {Task σ β Msg ε : Type*} {P : Parser σ (List β) Msg ε} {encode : Msg → List β} {q : σ}
  {s s' : Conveyor Task σ β Msg ε}

/-! ## What goes in comes out -/

/-- The messages that have been returned. -/
def returned (s : Conveyor Task σ β Msg ε) : List Msg :=
  Consumer.messages (s.consumers.results.map Prod.snd)

/-- The messages that have been returned, or that are pending at the receiving end. -/
def delivered (s : Conveyor Task σ β Msg ε) : List Msg :=
  Consumer.messages (s.consumers.results.map Prod.snd) ++ s.consumers.channel.pending

/-- **The messages come out as they went in**, and all of them when the stream is empty. -/
structure Conveyed (s : Conveyor Task σ β Msg ε) : Prop where
  inOrder : s.delivered <+: s.sent
  complete : s.buffer = [] → s.outgoing.getD [] = [] → s.delivered = s.sent

/-- The bytes that have been read, are in the stream and are still to be sent are those of the
messages. -/
structure Conserved (P : Parser σ (List β) Msg ε) (encode : Msg → List β) (q : σ)
    (s : Conveyor Task σ β Msg ε) : Prop where
  inOrder : s.consumers.InOrder P q
  bytes : s.consumers.fed.flatten ++ s.buffer ++ s.outgoing.getD [] = s.sent.flatMap encode

theorem conserved_init : Conserved P encode q (init q : Conveyor Task σ β Msg ε) :=
  ⟨Consumers.inOrder_init, rfl⟩

/-- **The parser has yielded a prefix of the messages.** -/
theorem Conserved.conveyed (hP : P.Decodes q encode) (h : Conserved P encode q s) :
    Conveyed s := by
  have hyielded : s.delivered = (P q s.consumers.fed.flatten).messages := by
    rw [delivered, h.inOrder.returned, hP.yielded_eq]
  have hsent : s.sent = (P q (s.consumers.fed.flatten ++ (s.buffer ++ s.outgoing.getD []))).messages
      := by rw [← List.append_assoc, h.bytes, (hP.stream s.sent).2]
  refine ⟨?_, fun hbuf hout => ?_⟩
  · rw [hyielded, hsent, hP.messages]
    exact List.prefix_append _ _
  · rw [hyielded, hsent, hbuf, hout, List.append_nil, List.append_nil]

/-- A call of `send()` is not torn after some of its bytes. -/
def Whole (s : Conveyor Task σ β Msg ε) : Label Task Msg → Prop
  | .tear => s.outgoing = some []
  | _ => True

variable [DecidableEq Task]

/-- **One step.** -/
theorem Conserved.step {l : Label Task Msg} (h : Conserved P encode q s) (hw : Whole s l)
    (hst : s.step P encode l = some s') : Conserved P encode q s' := by
  have hbytes := h.bytes
  cases l with
  | send m =>
    simp only [Conveyor.step] at hst
    split_ifs at hst with hfree
    obtain rfl := Option.some.inj hst
    have hnone : s.outgoing = none := by simp_all
    refine ⟨h.inOrder, ?_⟩
    rw [hnone, Option.getD_none, List.append_nil] at hbytes
    rw [List.flatMap_append, ← hbytes]
    simp
  | transmit n =>
    obtain ⟨xs, hxs, rfl⟩ := Option.map_eq_some_iff.mp hst
    refine ⟨h.inOrder, ?_⟩
    rw [hxs, Option.getD_some] at hbytes
    rw [← hbytes, Option.getD_some, ← List.append_assoc, List.append_assoc, List.take_append_drop]
  | sent =>
    rcases hout : s.outgoing with _ | _ | ⟨x, xs⟩
    · simp [Conveyor.step, hout] at hst
    · obtain rfl : { s with outgoing := none } = s' := by simpa [Conveyor.step, hout] using hst
      rw [hout] at hbytes
      exact ⟨h.inOrder, hbytes⟩
    · simp [Conveyor.step, hout] at hst
  | tear =>
    obtain ⟨xs, hxs, rfl⟩ := Option.map_eq_some_iff.mp hst
    refine ⟨h.inOrder, ?_⟩
    have hnil : s.outgoing = some [] := hw
    rwa [hnil] at hbytes
  | close =>
    simp only [Conveyor.step] at hst
    split_ifs at hst
    obtain rfl := Option.some.inj hst
    exact ⟨h.inOrder, hbytes⟩
  | receive t | interrupt t =>
    obtain ⟨c, hc, rfl⟩ := Option.map_eq_some_iff.mp hst
    refine ⟨h.inOrder.step hc, ?_⟩
    rw [Consumers.fed_of_step hc]
    simpa [Consumers.given] using hbytes
  | read t n =>
    simp only [Conveyor.step] at hst
    split_ifs at hst with hn
    obtain ⟨c, hc, rfl⟩ := Option.map_eq_some_iff.mp hst
    have htruthy : truthy (s.buffer.take n) = true := by
      have hlen : 0 < (s.buffer.take n).length := by
        rw [List.length_take_of_le hn.2]
        exact hn.1
      simp [truthy, List.ne_nil_of_length_pos hlen]
    refine ⟨h.inOrder.step hc, ?_⟩
    rw [Consumers.fed_of_step hc, Consumers.given, if_pos htruthy, List.flatten_append,
      List.flatten_singleton, List.append_assoc s.consumers.fed.flatten, List.take_append_drop]
    exact hbytes
  | eof t =>
    simp only [Conveyor.step] at hst
    split_ifs at hst
    obtain ⟨c, hc, rfl⟩ := Option.map_eq_some_iff.mp hst
    refine ⟨h.inOrder.step hc, ?_⟩
    rw [Consumers.fed_of_step hc]
    exact (List.append_nil _).symm ▸ hbytes

/-! ## The sending end -/

theorem of_step_send {m : Msg} (hst : s.step P encode (.send m) = some s') :
    s.outgoing = none ∧ s' = { s with outgoing := some (encode m), sent := s.sent ++ [m] } := by
  simp only [step] at hst
  split_ifs at hst with hfree
  obtain rfl := Option.some.inj hst
  exact ⟨by simp_all, rfl⟩

theorem of_step_sent (hst : s.step P encode .sent = some s') :
    s.outgoing = some [] ∧ s' = { s with outgoing := none } := by
  simp only [step] at hst
  split at hst
  · next hout =>
    obtain rfl := Option.some.inj hst
    exact ⟨hout, rfl⟩
  · cases hst

theorem of_step_close (hst : s.step P encode .close = some s') :
    s' = { s with closed := true } := by
  simp only [step] at hst
  split_ifs at hst
  exact (Option.some.inj hst).symm

theorem of_step_tear (hst : s.step P encode .tear = some s') :
    s.outgoing ≠ none ∧ s' = { s with outgoing := none } := by
  obtain ⟨xs, hxs, rfl⟩ := Option.map_eq_some_iff.mp hst
  exact ⟨by simp [hxs], rfl⟩

/-! ## The receiving end -/

/-- **The receiving end does not look at what is still to be sent.** -/
theorem step_outgoing {l : Label Task Msg} (hl : l.isReceiving) (o : Option (List β)) :
    step P encode { s with outgoing := o } l =
      (s.step P encode l).map fun s' => { s' with outgoing := o } := by
  cases l with
  | receive t | interrupt t =>
    simp only [step, Option.map_map]
    rfl
  | read t n =>
    simp only [step]
    split_ifs
    · simp only [Option.map_map]
      rfl
    · rfl
  | eof t =>
    simp only [step]
    split_ifs
    · simp only [Option.map_map]
      rfl
    · rfl
  | _ => cases hl

/-- The sending end stays as it is. -/
theorem sent_of_isReceiving {l : Label Task Msg} (hl : l.isReceiving)
    (hst : s.step P encode l = some s') : s'.sent = s.sent ∧ s'.outgoing = s.outgoing := by
  cases l with
  | receive t | interrupt t =>
    obtain ⟨c, -, rfl⟩ := Option.map_eq_some_iff.mp hst
    exact ⟨rfl, rfl⟩
  | read t n =>
    simp only [step] at hst
    split_ifs at hst
    obtain ⟨c, -, rfl⟩ := Option.map_eq_some_iff.mp hst
    exact ⟨rfl, rfl⟩
  | eof t =>
    simp only [step] at hst
    split_ifs at hst
    obtain ⟨c, -, rfl⟩ := Option.map_eq_some_iff.mp hst
    exact ⟨rfl, rfl⟩
  | _ => cases hl

/-- At most one call ends. -/
theorem results_of_isReceiving {l : Label Task Msg} (hl : l.isReceiving)
    (hst : s.step P encode l = some s') :
    s'.consumers.results = s.consumers.results ∨
      ∃ t r, s'.consumers.results = s.consumers.results ++ [(t, r)] := by
  cases l with
  | receive t | interrupt t =>
    obtain ⟨c, hc, rfl⟩ := Option.map_eq_some_iff.mp hst
    exact Consumers.results_of_step hc
  | read t n =>
    simp only [step] at hst
    split_ifs at hst
    obtain ⟨c, hc, rfl⟩ := Option.map_eq_some_iff.mp hst
    exact Consumers.results_of_step hc
  | eof t =>
    simp only [step] at hst
    split_ifs at hst
    obtain ⟨c, hc, rfl⟩ := Option.map_eq_some_iff.mp hst
    exact Consumers.results_of_step hc
  | _ => cases hl

/-- **`sent` has the messages of the calls.** -/
theorem sent_of_step {l : Label Task Msg} (hst : s.step P encode l = some s') :
    s'.sent = s.sent ++ l.messages := by
  cases l with
  | send m =>
    obtain ⟨-, rfl⟩ := of_step_send hst
    rfl
  | transmit n =>
    obtain ⟨xs, -, rfl⟩ := Option.map_eq_some_iff.mp hst
    exact (List.append_nil _).symm
  | sent =>
    obtain ⟨-, rfl⟩ := of_step_sent hst
    exact (List.append_nil _).symm
  | tear =>
    obtain ⟨-, rfl⟩ := of_step_tear hst
    exact (List.append_nil _).symm
  | close =>
    obtain rfl := of_step_close hst
    exact (List.append_nil _).symm
  | receive t | read t n | eof t | interrupt t =>
    exact (sent_of_isReceiving rfl hst).1.trans (List.append_nil _).symm

/-- **What goes in comes out, once and in order**, in every run in which no call of `send()` is
torn: however the bytes are cut, whoever receives, and whatever reads are cancelled. -/
theorem conveyed_along (hP : P.Decodes q encode) {ls : List (Label Task Msg)}
    (h : (conveyor Task P encode q).Guarded Whole (.init q) ls) :
    (conveyor Task P encode q).Along Conveyed (.init q) ls ∧
      (conveyor Task P encode q).Throughout (fun s l s' => s'.sent = s.sent ++ l.messages)
        (.init q) ls := by
  constructor
  · have halong := h.along conserved_init fun _ _ _ hs hw hst => hs.step hw hst
    exact halong.mono fun _ hs => hs.conveyed hP
  · exact h.throughout conserved_init fun _ _ _ hs hw hst => ⟨hs.step hw hst, sent_of_step hst⟩

/-! ## An encoding of numbers -/

/-- As many ones as the number has, and a zero. -/
def tally (n : ℕ) : List Bool := List.replicate n true ++ [false]

/-- The parser counts the ones. -/
def count : Parser ℕ (List Bool) ℕ Unit :=
  .ofStep fun k b => if b then (k + 1, []) else (0, [k])

theorem count_decodes : count.Decodes 0 tally where
  toIncremental := Parser.incremental_ofStep _
  frame n := by
    have hones : ∀ k, (count k (tally n)).state = 0 ∧ (count k (tally n)).messages = [k + n] := by
      induction n with
      | zero => exact fun k => ⟨rfl, rfl⟩
      | succ n ih =>
        intro k
        have hcons : tally (n + 1) = [true] ++ tally n := rfl
        have hinc := Parser.incremental_ofStep (ε := Unit)
          fun (k : ℕ) (b : Bool) => if b then (k + 1, []) else (0, [k])
        obtain ⟨hstate, hmessages⟩ := ih (k + 1)
        refine ⟨?_, ?_⟩
        · rw [hcons, count, hinc.state]
          exact hstate
        · rw [hcons, count, hinc.messages, ← Nat.succ_add_eq_add_succ]
          exact hmessages
    simpa using hones 0

/-- Two messages, cut in the middle of the second one, and two tasks that take one each. -/
def tallied : List (Label Bool ℕ) :=
  [.send 1, .transmit 2, .sent, .send 2, .receive true, .receive false, .transmit 1, .read true 3,
    .transmit 2, .sent, .read false 2]

theorem conveyed_tally : (conveyor Bool count tally 0).Along Conveyed (.init 0) tallied ∧
    (conveyor Bool count tally 0).Throughout (fun s l s' => s'.sent = s.sent ++ l.messages)
      (.init 0) tallied :=
  conveyed_along count_decodes <| .cons rfl trivial <| .cons rfl trivial <| .cons rfl trivial <|
    .cons rfl trivial <| .cons rfl trivial <| .cons rfl trivial <| .cons rfl trivial <|
    .cons rfl trivial <| .cons rfl trivial <| .cons rfl trivial <| .cons rfl trivial trivial

end Conveyor

end FlockwaveConn
