import FlockwaveConn.Channels.Delivery

/-!
# Channels/Consumers — any number of consumers of one channel

Nothing keeps two tasks from calling `receive()` of the same channel.  Each of them tests the
pending queue before it reads and after its own read, so

* whoever gets them, the messages are returned once and in order (`inOrder_of_exec`);
* but a task that is at the read does not see what comes into the queue by the read of another one.
  A message can lie there while a task waits for one, exactly if an item can yield more than the one
  message that the reading task takes along (`not_stranded_iff`).
-/

namespace FlockwaveConn

/-- A channel and the tasks that call its `receive()`. -/
structure Consumers (Task σ Raw Msg ε : Type*) where
  channel : MessageChannel σ Msg
  /-- The task is in `receive()`, at the read. -/
  reading : Task → Bool
  /-- What the parser has been given, oldest first. -/
  fed : List Raw
  /-- How the calls so far have ended, and whose they were, oldest first. -/
  results : List (Task × Received Msg ε)

namespace Consumers

variable {Task σ Raw Msg ε : Type*}

/-- The steps of the tasks. -/
inductive Label (Task Raw : Type*)
  /-- A task calls `receive()`. -/
  | receive (t : Task)
  /-- The read of a task returns. -/
  | read (t : Task) (data : Raw)
  /-- The read of a task raises, or is cancelled. -/
  | interrupt (t : Task)

/-- No task has called anything yet. -/
def init (q : σ) : Consumers Task σ Raw Msg ε := ⟨⟨q, []⟩, fun _ => false, [], []⟩

/-- The channel as a task has it: a consumer of which no call has ended.  What its reader returns is
up to the labels. -/
def alone (t : Task) (s : Consumers Task σ Raw Msg ε) : Consumer σ Raw Msg ε :=
  ⟨s.channel, [], s.reading t, s.fed, []⟩

variable [DecidableEq Task]

/-- **What a task does in its call is what a single consumer does in it.** -/
def turn (t : Task) (f : Consumer σ Raw Msg ε → Consumer σ Raw Msg ε)
    (s : Consumers Task σ Raw Msg ε) : Consumers Task σ Raw Msg ε :=
  let c := f (s.alone t)
  ⟨c.channel, Function.update s.reading t c.waiting, c.fed, s.results ++ c.results.map (t, ·)⟩

/-- One step. -/
def step [Truthy Raw] (P : Parser σ Raw Msg ε) (s : Consumers Task σ Raw Msg ε) :
    Label Task Raw → Option (Consumers Task σ Raw Msg ε)
  | .receive t => if s.reading t then none else some (s.turn t Consumer.loop)
  | .read t data => if s.reading t then some (s.turn t (Consumer.absorb P data)) else none
  | .interrupt t => if s.reading t then some (s.turn t (Consumer.finish .interrupted)) else none

end Consumers

/-- **A channel with any number of consumers**, on a reader that may return anything. -/
def consumers (Task : Type*) {σ Raw Msg ε : Type*} [DecidableEq Task] [Truthy Raw]
    (P : Parser σ Raw Msg ε) (q : σ) :
    Machine (Consumers Task σ Raw Msg ε) (Consumers.Label Task Raw) where
  init := .init q
  step := Consumers.step P

namespace Consumers

variable {Task σ Raw Msg ε : Type*} [DecidableEq Task] {P : Parser σ Raw Msg ε} {q : σ} {t u : Task}
  {s s' : Consumers Task σ Raw Msg ε}

/-! ## What the steps do -/

omit [DecidableEq Task] in
@[simp] theorem alone_channel : (s.alone t).channel = s.channel := rfl

omit [DecidableEq Task] in
@[simp] theorem alone_fed : (s.alone t).fed = s.fed := rfl

omit [DecidableEq Task] in
@[simp] theorem alone_results : (s.alone t).results = [] := rfl

/-- The call of the task ends. -/
theorem turn_finish (r : Received Msg ε) :
    s.turn t (Consumer.finish r) =
      { s with reading := Function.update s.reading t false, results := s.results ++ [(t, r)] } :=
  rfl

/-- The task is at the read. -/
def waits (t : Task) (s : Consumers Task σ Raw Msg ε) : Consumers Task σ Raw Msg ε :=
  { s with reading := Function.update s.reading t true }

theorem turn_loop_of_nil (h : s.channel.pending = []) : s.turn t Consumer.loop = s.waits t := by
  have halone : (s.alone t).channel.pending = [] := h
  simp [turn, Consumer.loop_of_nil halone, waits]

theorem turn_loop_of_cons {m : Msg} {ms : List Msg} (h : s.channel.pending = m :: ms) :
    s.turn t Consumer.loop =
      { s with channel := { s.channel with pending := ms } }.turn t
        (Consumer.finish (.message m)) := by
  have halone : (s.alone t).channel.pending = m :: ms := h
  simp only [turn, Consumer.loop_of_cons halone]
  rfl

section

variable [Truthy Raw] {data : Raw} {l : Label Task Raw}

/-- The end of the connection ends the call, and nothing else happens. -/
theorem turn_absorb_of_falsy (h : truthy data = false) :
    s.turn t (Consumer.absorb P data) = s.turn t (Consumer.finish .ended) := by
  simp only [turn, Consumer.absorb_of_falsy h]

/-- The channel once the parser has got an item. -/
def feed (P : Parser σ Raw Msg ε) (data : Raw) (s : Consumers Task σ Raw Msg ε) :
    Consumers Task σ Raw Msg ε :=
  { s with
    channel := ⟨(P s.channel.parser data).state,
      s.channel.pending ++ (P s.channel.parser data).messages⟩
    fed := s.fed ++ [data] }

theorem turn_absorb_of_truthy (h : truthy data = true) :
    s.turn t (Consumer.absorb P data) =
      match (P s.channel.parser data).error with
      | none => (s.feed P data).turn t Consumer.loop
      | some x => (s.feed P data).turn t (Consumer.finish (.failed x)) := by
  have halone : P (s.alone t).channel.parser data = P s.channel.parser data := rfl
  simp only [turn, Consumer.absorb_of_truthy h, halone]
  cases (P s.channel.parser data).error <;> rfl

/-- What a step gives to the parser. -/
def given : Label Task Raw → List Raw
  | .read _ data => if truthy data then [data] else []
  | .receive _ | .interrupt _ => []

/-- **A step is the turn of a task**, and it gives to the parser what its read has returned. -/
theorem turn_of_step (hst : s.step P l = some s') : ∃ t f, s' = s.turn t f ∧
    (∀ earlier c, c.InOrder P q earlier → (f c).InOrder P q earlier) ∧
    (∀ c, (f c).fed = c.fed ++ given l) ∧
    ∀ c, (f c).results = c.results ∨ ∃ r, (f c).results = c.results ++ [r] := by
  cases l with
  | receive t =>
    obtain ⟨-, rfl⟩ : s.reading t = false ∧ s.turn t Consumer.loop = s' := by
      simpa [step] using hst
    exact ⟨t, _, rfl, fun _ _ h => h.loop, fun c => by simp [given], Consumer.loop_results⟩
  | read t data =>
    obtain ⟨-, rfl⟩ : s.reading t = true ∧ s.turn t (Consumer.absorb P data) = s' := by
      simpa [step] using hst
    exact ⟨t, _, rfl, fun _ _ h => h.absorb data, Consumer.absorb_fed P data,
      Consumer.absorb_results P data⟩
  | interrupt t =>
    obtain ⟨-, rfl⟩ : s.reading t = true ∧ s.turn t (Consumer.finish .interrupted) = s' := by
      simpa [step] using hst
    exact ⟨t, _, rfl, fun _ _ h => h.finish rfl, fun c => by simp [given, Consumer.finish],
      fun c => .inr ⟨_, rfl⟩⟩

theorem fed_of_step (hst : s.step P l = some s') : s'.fed = s.fed ++ given l := by
  obtain ⟨t, f, rfl, -, hfed, -⟩ := turn_of_step (q := s.channel.parser) hst
  exact hfed (s.alone t)

/-- **At most one call ends in a step.** -/
theorem results_of_step (hst : s.step P l = some s') :
    s'.results = s.results ∨ ∃ t r, s'.results = s.results ++ [(t, r)] := by
  obtain ⟨t, f, rfl, -, -, hresults⟩ := turn_of_step (q := s.channel.parser) hst
  rcases hresults (s.alone t) with hres | ⟨r, hres⟩
  · exact .inl (by simp [turn, hres])
  · exact .inr ⟨t, r, by simp [turn, hres]⟩

end

/-! ## Once, and in order -/

/-- **What the parser has yielded has been returned, to whichever task, or it is pending.** -/
structure InOrder (P : Parser σ Raw Msg ε) (q : σ) (s : Consumers Task σ Raw Msg ε) : Prop where
  parser : s.channel.parser = P.after q s.fed
  returned : Consumer.messages (s.results.map Prod.snd) ++ s.channel.pending = P.yielded q s.fed

omit [DecidableEq Task] in
theorem inOrder_init : InOrder P q (init q : Consumers Task σ Raw Msg ε) := ⟨rfl, rfl⟩

omit [DecidableEq Task] in
/-- To a task, what the others have got is what has been returned before. -/
theorem InOrder.alone (h : InOrder P q s) (t : Task) :
    (s.alone t).InOrder P q (Consumer.messages (s.results.map Prod.snd)) := by
  refine ⟨h.parser, ?_⟩
  simpa [Consumers.alone, Consumer.messages] using h.returned

/-- The turn of a task. -/
theorem InOrder.turn (h : InOrder P q s) {f : Consumer σ Raw Msg ε → Consumer σ Raw Msg ε}
    (hf : ∀ earlier c, c.InOrder P q earlier → (f c).InOrder P q earlier) :
    InOrder P q (s.turn t f) := by
  have hturn := hf _ _ (h.alone t)
  refine ⟨hturn.parser, ?_⟩
  have hresults : (s.turn t f).results.map Prod.snd =
      s.results.map Prod.snd ++ (f (s.alone t)).results := by
    simp [Consumers.turn, Function.comp_def]
  rw [hresults, Consumer.messages_append]
  exact hturn.returned

/-- **One step.** -/
theorem InOrder.step [Truthy Raw] {l : Label Task Raw} (h : InOrder P q s)
    (hst : s.step P l = some s') : InOrder P q s' := by
  obtain ⟨t, f, rfl, hf, -, -⟩ := turn_of_step (q := q) hst
  exact h.turn hf

/-- **Any number of consumers get each message once, and in order**, in every state of every run:
the messages are those of what the reads of the run have returned. -/
theorem inOrder_of_exec [Truthy Raw] (ls : List (Label Task Raw))
    (h : (consumers Task P q).exec (init q) ls = some s) :
    InOrder P q s ∧ s.fed = ls.flatMap given := by
  have hreach : (consumers Task P q).Reachable s := Machine.reachable_of_exec ls h
  refine ⟨hreach.invariant inOrder_init fun _ _ _ hI _ hst => hI.step hst, ?_⟩
  exact Machine.append_of_exec h fun _ _ _ hst => fed_of_step hst

/-- A parser that yields the numbers of an item. -/
def numbers : Parser Unit (List ℕ) ℕ Unit := fun _ xs => ⟨(), xs, none⟩

/-- Two tasks come to the read, and the second number of the first item is returned by the task that
reads the next one. -/
theorem inOrder_overtaken : ∃ s : Consumers Bool Unit (List ℕ) ℕ Unit,
    s.results = [(true, .message 1), (false, .message 2)] ∧ s.channel.pending = [3] ∧
      InOrder numbers () s ∧ s.fed = [[1, 2], [3]] :=
  ⟨_, rfl, rfl, inOrder_of_exec (P := numbers) (q := ())
    [.receive true, .receive false, .read true [1, 2], .read false [3]] rfl⟩

/-! ## Messages that lie there -/

/-- A message is pending while a task waits for one. -/
def Stranded (s : Consumers Task σ Raw Msg ε) : Prop :=
  s.channel.pending ≠ [] ∧ ∃ t, s.reading t = true

/-- No item yields more than what its reader takes along: one message, or none where the parser
raises. -/
def OneEach [Truthy Raw] (P : Parser σ Raw Msg ε) (q : σ) : Prop :=
  ∀ xs x, (∀ y ∈ xs, truthy y = true) → truthy x = true →
    (P (P.after q xs) x).messages.length ≤ 1 ∧
      ((P (P.after q xs) x).error ≠ none → (P (P.after q xs) x).messages = [])

/-- While a task reads, nothing is pending. -/
structure Taken [Truthy Raw] (P : Parser σ Raw Msg ε) (q : σ)
    (s : Consumers Task σ Raw Msg ε) : Prop where
  parser : s.channel.parser = P.after q s.fed
  items : ∀ y ∈ s.fed, truthy y = true
  pending : ∀ t, s.reading t = true → s.channel.pending = []

section

variable [Truthy Raw]

theorem Taken.finish (h : Taken P q s) (r : Received Msg ε) :
    Taken P q (s.turn t (Consumer.finish r)) := by
  refine ⟨h.parser, h.items, fun u hu => ?_⟩
  simp only [turn_finish, Function.update_apply] at hu
  split_ifs at hu
  exact h.pending u hu

/-- A turn of the loop, where a task that reads would find nothing, or one message. -/
theorem Taken.loop (hparser : s.channel.parser = P.after q s.fed)
    (hitems : ∀ y ∈ s.fed, truthy y = true)
    (hpending : ∀ u, s.reading u = true → s.channel.pending.length ≤ 1) :
    Taken P q (s.turn t Consumer.loop) := by
  cases hp : s.channel.pending with
  | nil =>
    rw [turn_loop_of_nil hp]
    exact ⟨hparser, hitems, fun _ _ => hp⟩
  | cons m ms =>
    rw [turn_loop_of_cons hp]
    refine ⟨hparser, hitems, fun u hu => ?_⟩
    simp only [turn_finish, Function.update_apply] at hu
    split_ifs at hu
    have hlen := hpending u hu
    rw [hp, List.length_cons] at hlen
    exact List.eq_nil_of_length_eq_zero (Nat.le_zero.mp (Nat.le_of_succ_le_succ hlen))

/-- **One step**, where an item yields no more than its reader takes along. -/
theorem Taken.step {l : Label Task Raw} (hone : OneEach P q) (h : Taken P q s)
    (hst : s.step P l = some s') : Taken P q s' := by
  cases l with
  | receive t =>
    obtain ⟨-, rfl⟩ : s.reading t = false ∧ s.turn t Consumer.loop = s' := by
      simpa [Consumers.step] using hst
    refine .loop h.parser h.items fun u hu => ?_
    rw [h.pending u hu]
    exact Nat.zero_le 1
  | read t data =>
    obtain ⟨ht, rfl⟩ : s.reading t = true ∧ s.turn t (Consumer.absorb P data) = s' := by
      simpa [Consumers.step] using hst
    have hnil := h.pending t ht
    cases hdata : truthy data with
    | false =>
      rw [turn_absorb_of_falsy hdata]
      exact h.finish _
    | true =>
      obtain ⟨hlen, hraises⟩ := hone s.fed data h.items hdata
      have hparser : (s.feed P data).channel.parser = P.after q (s.feed P data).fed := by
        rw [feed, P.after_concat, h.parser]
      have hitems : ∀ y ∈ (s.feed P data).fed, truthy y = true := by
        intro y hy
        rcases List.mem_append.mp hy with hy | hy
        · exact h.items y hy
        · rwa [List.mem_singleton.mp hy]
      have hpending : (s.feed P data).channel.pending =
          (P (P.after q s.fed) data).messages := by
        rw [feed, hnil, h.parser]
        rfl
      rw [turn_absorb_of_truthy hdata, h.parser]
      cases he : (P (P.after q s.fed) data).error with
      | none => exact .loop hparser hitems fun _ _ => hpending ▸ hlen
      | some x =>
        have hnone := hraises (by simp [he])
        exact Taken.finish ⟨hparser, hitems, fun _ _ => hpending.trans hnone⟩ _
  | interrupt t =>
    obtain ⟨-, rfl⟩ : s.reading t = true ∧ s.turn t (Consumer.finish .interrupted) = s' := by
      simpa [Consumers.step] using hst
    exact h.finish _

/-! ## How a message comes to lie there -/

/-- A single task takes what is pending. -/
theorem exists_drained (t : Task) (pending : List Msg) (h : (consumers Task P q).Reachable s)
    (hfree : ∀ u, s.reading u = false) (hp : s.channel.pending = pending) :
    ∃ s', (consumers Task P q).Reachable s' ∧ (∀ u, s'.reading u = false) ∧
      s'.channel.pending = [] ∧ s'.channel.parser = s.channel.parser := by
  induction pending generalizing s with
  | nil => exact ⟨s, h, hfree, hp, rfl⟩
  | cons m ms ih =>
    have hst : s.step P (.receive t) = some (s.turn t Consumer.loop) := by simp [step, hfree]
    have hloop := turn_loop_of_cons (t := t) hp
    have hfree' : ∀ u, (s.turn t Consumer.loop).reading u = false := by
      intro u
      rw [hloop]
      simp only [turn_finish, Function.update_apply]
      split_ifs
      · rfl
      · exact hfree u
    obtain ⟨s', hr, hfree'', hnil, hparser⟩ :=
      ih (h.next (l := Label.receive t) hst) hfree' (by rw [hloop]; rfl)
    exact ⟨s', hr, hfree'', hnil, hparser.trans (by rw [hloop]; rfl)⟩

/-- A single task reads an item when nothing is pending. -/
theorem step_read_of_free (data : Raw) (hfree : ∀ u, s.reading u = false)
    (hp : s.channel.pending = []) :
    s.step P (.receive t) = some (s.waits t) ∧
      (s.waits t).step P (.read t data) = some ((s.waits t).turn t (Consumer.absorb P data)) := by
  refine ⟨by simp [step, hfree, turn_loop_of_nil hp], ?_⟩
  simp [step, waits]

/-- …and what it then is at. -/
theorem absorb_of_free {data : Raw} (hfree : ∀ u, s.reading u = false)
    (hdata : truthy data = true) :
    ((s.waits t).turn t (Consumer.absorb P data)).channel.parser =
        (P s.channel.parser data).state ∧
      (∀ u, u ≠ t → ((s.waits t).turn t (Consumer.absorb P data)).reading u = false) ∧
      (((s.waits t).turn t (Consumer.absorb P data)).reading t = true →
        ((s.waits t).turn t (Consumer.absorb P data)).channel.pending = []) := by
  have hparser : (s.waits t).channel.parser = s.channel.parser := rfl
  rw [turn_absorb_of_truthy hdata, hparser]
  set s₁ := (s.waits t).feed P data
  have hs₁ : ∀ u, u ≠ t → s₁.reading u = false := fun u hu => by simp [s₁, feed, waits, hu, hfree]
  cases (P s.channel.parser data).error with
  | some x =>
    refine ⟨rfl, fun u hu => ?_, fun h => ?_⟩
    · simp [turn_finish, hu, hs₁]
    · simp [turn_finish] at h
  | none =>
    dsimp only
    cases hp₁ : s₁.channel.pending with
    | nil =>
      rw [turn_loop_of_nil hp₁]
      refine ⟨rfl, fun u hu => ?_, fun _ => hp₁⟩
      simp [waits, hu, hs₁]
    | cons m ms =>
      rw [turn_loop_of_cons hp₁]
      refine ⟨rfl, fun u hu => ?_, fun h => ?_⟩
      · simp [turn_finish, hu, hs₁]
      · simp [turn_finish] at h

/-- Every sequence of items can come to the parser. -/
theorem exists_fed (t : Task) {xs : List Raw} (hxs : ∀ y ∈ xs, truthy y = true) :
    ∃ s, (consumers Task P q).Reachable s ∧ (∀ u, s.reading u = false) ∧
      s.channel.pending = [] ∧ s.channel.parser = P.after q xs := by
  induction xs using List.reverseRecOn with
  | nil => exact ⟨_, Machine.Reach.init, fun _ => rfl, rfl, rfl⟩
  | append_singleton xs x ih =>
    obtain ⟨hx, hxs⟩ : truthy x = true ∧ ∀ y ∈ xs, truthy y = true :=
      ⟨hxs x (by simp), fun y hy => hxs y (List.mem_append_left _ hy)⟩
    obtain ⟨s, hr, hfree, hnil, hparser⟩ := ih hxs
    obtain ⟨hst₁, hst₂⟩ := step_read_of_free (P := P) (t := t) x hfree hnil
    obtain ⟨hparser₂, hothers, hwait⟩ := absorb_of_free (P := P) (t := t) hfree hx
    set s₂ := (s.waits t).turn t (Consumer.absorb P x)
    have hr₂ : (consumers Task P q).Reachable s₂ :=
      (hr.next (l := Label.receive t) hst₁).next (l := Label.read t x) hst₂
    rw [hparser, ← P.after_concat] at hparser₂
    cases ht : s₂.reading t with
    | true =>
      refine ⟨s₂.turn t (Consumer.finish .interrupted),
        hr₂.next (l := Label.interrupt t) (by simp [step, consumers, ht]), fun u => ?_,
        hwait ht, hparser₂⟩
      simp only [turn_finish, Function.update_apply]
      split_ifs with hu
      · rfl
      · exact hothers u hu
    | false =>
      have hfree₂ : ∀ u, s₂.reading u = false := by
        intro u
        by_cases hu : u = t
        · rw [hu, ht]
        · exact hothers u hu
      obtain ⟨s', hr', hfree', hnil', hparser'⟩ := exists_drained t _ hr₂ hfree₂ rfl
      exact ⟨s', hr', hfree', hnil', hparser'.trans hparser₂⟩

/-- **A message never lies there while a task waits for one, exactly if no item yields more than its
reader takes along.** -/
theorem not_stranded_iff (htu : t ≠ u) :
    (∀ s, (consumers Task P q).Reachable s → ¬ s.Stranded) ↔ OneEach P q := by
  constructor
  · intro h xs x hxs hx
    obtain ⟨s, hr, hfree, hnil, hparser⟩ := exists_fed (P := P) (q := q) t hxs
    -- both tasks come to the read, and one of them gets the item
    have hst₁ : s.step P (.receive u) = some (s.waits u) := by
      simp [step, hfree, turn_loop_of_nil hnil]
    have hst₂ : (s.waits u).step P (.receive t) = some ((s.waits u).waits t) := by
      have hloop := turn_loop_of_nil (s := s.waits u) (t := t) hnil
      have hfree' : (s.waits u).reading t = false := by simp [waits, htu, hfree]
      simp [step, hloop, hfree']
    have hst₃ : ((s.waits u).waits t).step P (.read t x) =
        some (((s.waits u).waits t).turn t (Consumer.absorb P x)) := by simp [step, waits]
    have hr₃ := ((hr.next (l := Label.receive u) hst₁).next (l := Label.receive t) hst₂).next
      (l := Label.read t x) hst₃
    have hnot := h _ hr₃
    set ms := (P (P.after q xs) x).messages with hms
    have hparser₂ : ((s.waits u).waits t).channel.parser = P.after q xs := hparser
    rw [turn_absorb_of_truthy hx, hparser₂] at hnot
    set s₁ := ((s.waits u).waits t).feed P x
    have hwait : s₁.reading u = true := by simp [s₁, feed, waits, htu.symm]
    have hpending : s₁.channel.pending = ms := by simp [s₁, feed, waits, hnil, hparser, hms]
    cases he : (P (P.after q xs) x).error with
    | some e =>
      rw [he] at hnot
      have hnone : ms = [] := by
        by_contra hne
        refine hnot ⟨by simpa [turn_finish, hpending] using hne, u, ?_⟩
        simpa [turn_finish, htu.symm] using hwait
      exact ⟨by simp [hnone], fun _ => hnone⟩
    | none =>
      rw [he] at hnot
      refine ⟨?_, fun hraises => absurd rfl hraises⟩
      match hms' : ms with
      | [] => exact Nat.zero_le 1
      | [m] => exact le_rfl
      | m :: m' :: rest =>
        refine absurd ?_ hnot
        dsimp only
        rw [turn_loop_of_cons hpending]
        exact ⟨List.cons_ne_nil _ _, u, by simpa [turn_finish, htu.symm] using hwait⟩
  · intro hone s hr ⟨hne, t, ht⟩
    have htaken : Taken P q s := hr.invariant (I := Taken P q) ⟨rfl, nofun, nofun⟩
      fun _ _ _ hI _ hst => hI.step hone hst
    exact hne (htaken.pending t ht)

end

/-- A parser that yields the length of an item. -/
def lengths : Parser Unit (List ℕ) ℕ Unit := fun _ xs => ⟨(), [xs.length], none⟩

/-- Two tasks do with the one parser, and not with the other. -/
theorem not_stranded_lengths :
    (∀ s, (consumers Bool lengths ()).Reachable s → ¬ s.Stranded) ∧
      ∃ s, (consumers Bool numbers ()).Reachable s ∧ s.Stranded := by
  have htwo : ¬ OneEach numbers () := fun h =>
    absurd (h [] [1, 2] (by simp) rfl).1 (by simp [numbers])
  constructor
  · exact (not_stranded_iff (t := true) (u := false) (by simp)).mpr
      fun _ _ _ _ => ⟨le_rfl, fun h => absurd rfl h⟩
  · by_contra h
    push Not at h
    exact htwo ((not_stranded_iff (t := true) (u := false) (by simp)).mp h)

end Consumers

end FlockwaveConn
