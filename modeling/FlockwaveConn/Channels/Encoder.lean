import FlockwaveConn.Channels.Message

/-!
# Channels/Encoder — a channel that encodes its messages

`EncoderChannel` takes a connection, or an asynchronous function in the place of its `write()`.  But
of a connection it takes the attribute `writer`, and no connection has one: the constructor raises
an `AttributeError`.  It is a channel like `MessageChannel` for a connection that has an attribute
of that name which does what `write()` does (`works_iff`).
-/

namespace FlockwaveConn

/-- What an attribute is, or an object that is called; its effects are on a state `σ`. -/
inductive PyValue (ε σ Raw : Type)
  /-- `iscoroutinefunction()` holds of it. -/
  | asyncFunction (run : List Raw → EStateM ε σ Unit)
  /-- Another function, and what comes of awaiting its result. -/
  | function (run : List Raw → EStateM ε σ Unit)
  /-- Anything else, with its truth value. -/
  | object (truthy : Bool)

namespace PyValue

variable {ε σ Raw : Type}

def isCoroutineFunction : PyValue ε σ Raw → Bool
  | .asyncFunction _ => true
  | .function _ | .object _ => false

def truthy : PyValue ε σ Raw → Bool
  | .asyncFunction _ | .function _ => true
  | .object truthy => truthy

/-- `await f(*args)`; what cannot be called raises `typeError`. -/
def await (typeError : ε) : PyValue ε σ Raw → List Raw → EStateM ε σ Unit
  | .asyncFunction run, args | .function run, args => run args
  | .object _, _ => throw typeError

end PyValue

/-- An object with attributes, which may be a function itself. -/
structure PyObject (ε σ Raw : Type) where
  attr : String → Option (PyValue ε σ Raw)
  value : PyValue ε σ Raw

/-- A connection with an asynchronous `write()`. -/
structure WritableConnection (ε σ Raw : Type) extends PyObject ε σ Raw where
  write : Raw → EStateM ε σ Unit
  close : EStateM ε σ Unit
  attr_write : ∃ run, attr "write" = some (.asyncFunction run) ∧ ∀ x, run [x] = write x
  attr_close : ∃ run, attr "close" = some (.asyncFunction run) ∧ run [] = close

/-- What `EncoderChannel()` raises. -/
inductive EncoderChannelError
  /-- The connection has no attribute `writer`. -/
  | attributeError
  /-- "WritableConnection or async function expected" -/
  | typeError
  deriving DecidableEq, Repr

/-- An `EncoderChannel`; the encoder may raise. -/
structure EncoderChannel (ε σ Msg Raw : Type) where
  writer : PyValue ε σ Raw
  closer : Option (PyValue ε σ Raw)
  encoder : Msg → Except ε Raw

variable {ε σ Msg Raw : Type}

/-- `self._encoder(value)` -/
def encode (encoder : Msg → Except ε Raw) (m : Msg) : EStateM ε σ Raw :=
  match encoder m with
  | .ok x => pure x
  | .error e => throw e

namespace EncoderChannel

/-- `EncoderChannel(writer, encoder)` -/
def init (writer : PyObject ε σ Raw) (encoder : Msg → Except ε Raw) :
    Except EncoderChannelError (EncoderChannel ε σ Msg Raw) :=
  if (writer.attr "write").any PyValue.isCoroutineFunction then
    -- `self._writer = writer.writer`
    match writer.attr "writer" with
    | some f => .ok ⟨f, writer.attr "close", encoder⟩
    | none => .error .attributeError
  else if writer.value.isCoroutineFunction then .ok ⟨writer.value, none, encoder⟩
  else .error .typeError

/-- `send()` -/
def send (typeError : ε) (c : EncoderChannel ε σ Msg Raw) (m : Msg) : EStateM ε σ Unit := do
  c.writer.await typeError [← encode c.encoder m]

/-- `aclose()` -/
def aclose (typeError : ε) (c : EncoderChannel ε σ Msg Raw) : EStateM ε σ Unit :=
  match c.closer with
  | some closer => if closer.truthy then closer.await typeError [] else pure ()
  | none => pure ()

end EncoderChannel

namespace MessageChannel

variable (conn : WritableConnection ε σ Raw) (encoder : Msg → Except ε Raw)

/-- `MessageChannel.send()`, over a connection. -/
def send (m : Msg) : EStateM ε σ Unit := do
  conn.write (← encode encoder m)

/-- `MessageChannel.aclose()` -/
def aclose : EStateM ε σ Unit := conn.close

variable {conn encoder} {m : Msg} {x : Raw}

theorem send_of_ok (hx : encoder m = .ok x) : send conn encoder m = conn.write x := by
  rw [send, encode, hx]
  rfl

theorem send_of_error {e : ε} (he : encoder m = .error e) : send conn encoder m = throw e := by
  rw [send, encode, he]
  rfl

/-- **What is sent is what the connection gets to write**, message for message. -/
theorem send_received {conn : WritableConnection ε (List Raw) Raw}
    (hwrite : ∀ x, conn.write x = modify (· ++ [x])) {ms : List Msg} {xs : List Raw}
    (hms : ms.mapM encoder = .ok xs) (log : List Raw) :
    (forM ms (send conn encoder)).run log = .ok () (log ++ xs) := by
  induction ms generalizing xs log with
  | nil =>
    obtain rfl : [] = xs := Except.ok.inj hms
    rw [List.append_nil]
    rfl
  | cons m ms ih =>
    rw [List.mapM_cons] at hms
    cases hx : encoder m with
    | error e =>
      rw [hx] at hms
      cases hms
    | ok x =>
      rw [hx] at hms
      cases hrest : ms.mapM encoder with
      | error e =>
        rw [hrest] at hms
        cases hms
      | ok rest =>
        rw [hrest] at hms
        obtain rfl : x :: rest = xs := Except.ok.inj hms
        rw [List.forM_cons, send_of_ok hx, hwrite]
        simpa using ih hrest (log ++ [x])

end MessageChannel

namespace EncoderChannel

/-- **The channel sends and closes as a `MessageChannel` does.** -/
structure Works (typeError : ε) (conn : WritableConnection ε σ Raw) (encoder : Msg → Except ε Raw)
    (c : EncoderChannel ε σ Msg Raw) : Prop where
  send : ∀ ms : List Msg, forM ms (c.send typeError) = forM ms (MessageChannel.send conn encoder)
  aclose : c.aclose typeError = MessageChannel.aclose conn

variable {conn : WritableConnection ε σ Raw} {encoder : Msg → Except ε Raw}

/-- A connection gets into the first branch. -/
theorem init_connection : init conn.toPyObject encoder =
    match conn.attr "writer" with
    | some f => .ok ⟨f, conn.attr "close", encoder⟩
    | none => .error .attributeError := by
  obtain ⟨run, hwrite, -⟩ := conn.attr_write
  rw [init, hwrite]
  rfl

theorem send_of_ok (typeError : ε) {c : EncoderChannel ε σ Msg Raw} {m : Msg} {x : Raw}
    (hx : c.encoder m = .ok x) : c.send typeError m = c.writer.await typeError [x] := by
  rw [send, encode, hx]
  rfl

theorem send_of_error (typeError : ε) {c : EncoderChannel ε σ Msg Raw} {m : Msg} {e : ε}
    (he : c.encoder m = .error e) : c.send typeError m = throw e := by
  rw [send, encode, he]
  rfl

/-- **An encoding channel over a connection works exactly if the connection has an attribute
`writer` that does what `write()` does.** -/
theorem works_iff (typeError : ε) (conn : WritableConnection ε σ Raw)
    (encoder : Msg → Except ε Raw) :
    (∃ c, init conn.toPyObject encoder = .ok c ∧ Works typeError conn encoder c) ↔
      ∃ f, conn.attr "writer" = some f ∧
        ∀ m x, encoder m = .ok x → f.await typeError [x] = conn.write x := by
  rw [init_connection]
  constructor
  · rintro ⟨c, hc, hworks⟩
    split at hc
    · next f hf =>
      obtain rfl := Except.ok.inj hc
      refine ⟨f, hf, fun m x hx => ?_⟩
      let c : EncoderChannel ε σ Msg Raw := ⟨f, conn.attr "close", encoder⟩
      have hsend : c.send typeError m = MessageChannel.send conn encoder m := by
        simpa only [List.forM_cons, List.forM_nil, bind_pure_unit] using hworks.send [m]
      rwa [MessageChannel.send_of_ok hx, send_of_ok typeError (c := c) hx] at hsend
    · cases hc
  · rintro ⟨f, hf, hwrite⟩
    obtain ⟨run, hclose, hrun⟩ := conn.attr_close
    rw [hf, hclose]
    have hsend : send typeError ⟨f, some (.asyncFunction run), encoder⟩ =
        MessageChannel.send conn encoder := by
      funext m
      cases hx : encoder m with
      | ok x =>
        rw [send_of_ok typeError hx, MessageChannel.send_of_ok hx]
        exact hwrite m x hx
      | error e => rw [send_of_error typeError hx, MessageChannel.send_of_error hx]
    exact ⟨_, rfl, fun ms => by rw [hsend], hrun⟩

/-- A connection with `write()` and `close()`, and nothing else; its state is what it has got. -/
def recorder : WritableConnection Unit (List ℕ) ℕ where
  attr name :=
    if name = "write" then some (.asyncFunction fun xs => modify (· ++ xs))
    else if name = "close" then some (.asyncFunction fun _ => pure ())
    else none
  value := .object true
  write x := modify (· ++ [x])
  close := pure ()
  attr_write := ⟨_, rfl, fun _ => rfl⟩
  attr_close := ⟨_, rfl, rfl⟩

/-- No `EncoderChannel` can be made of it. -/
theorem recorder_has_no_channel : ¬ ∀ (conn : WritableConnection Unit (List ℕ) ℕ)
    (encoder : ℕ → Except Unit ℕ),
      ∃ c, init conn.toPyObject encoder = .ok c ∧ Works () conn encoder c := by
  intro h
  obtain ⟨c, hc, -⟩ := h recorder .ok
  cases hc

end EncoderChannel

end FlockwaveConn
