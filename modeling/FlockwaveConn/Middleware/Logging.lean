import FlockwaveConn.Middleware.Hexdump

/-!
# Middleware/Logging — what a logged connection does

`LoggingMiddleware` runs a formatter over an item before it hands it to `write()` of the wrapped
object and after it got it from `read()`, and what the formatter raises is raised by the call.  So
the logged connection is the bare one as long as the formatters go through, and parts from it at the
first item at which one does not (`trace_logging_iff`).

The formatters that `register_builtin_middleware` gives it are made for bytes
(`logsTransparently_iff`).
-/

namespace FlockwaveConn

variable {τ Item Packet ε E : Type*}

/-- What a call writes. -/
def Op.written : Op Item → Option Item
  | .write x => some x
  | _ => none

theorem Op.written_eq_some {o : Op Item} {x : Item} : o.written = some x ↔ o = .write x := by
  cases o <;> simp [Op.written]

/-- What a call delivers. -/
def Reply.delivered : Reply ε (Option Item) → Option Item
  | .returned x => x
  | _ => none

theorem Reply.delivered_eq_some {r : Reply ε (Option Item)} {x : Item} :
    r.delivered = some x ↔ r = .returned (some x) := by
  cases r <;> simp [Reply.delivered]

namespace Formatter

variable {f : Formatter Item ε} {x : Item}

theorem formats_of_ok {lines : List Line} (h : f x = .ok lines) : f.Formats x := ⟨lines, h⟩

theorem not_formats_of_error {y : Failure ε} (h : f x = .error y) : ¬ f.Formats x := by
  rintro ⟨lines, hlines⟩
  cases h.symm.trans hlines

theorem not_formats_iff : ¬ f.Formats x ↔ ∃ y, f x = .error y := by
  constructor
  · intro h
    cases hx : f x with
    | ok lines => exact absurd (formats_of_ok hx) h
    | error y => exact ⟨y, rfl⟩
  · rintro ⟨y, hy⟩
    exact not_formats_of_error hy

end Formatter

/-! ## The wrapped object, watched -/

namespace Connection

/-- The connection with the items handed to its `write()` among what it transmits. -/
def recording (c : Connection τ Item Packet ε E) : Connection τ Item (Item ⊕ Packet) ε E where
  open_ e s := ⟨(c.open_ e s).reply, (c.open_ e s).state, (c.open_ e s).sent.map .inr⟩
  close e s := ⟨(c.close e s).reply, (c.close e s).state, (c.close e s).sent.map .inr⟩
  read e s := ⟨(c.read e s).reply, (c.read e s).state, (c.read e s).sent.map .inr⟩
  write e x s := ⟨(c.write e x s).reply, (c.write e x s).state,
    .inl x :: (c.write e x s).sent.map .inr⟩
  broadcast := c.broadcast.map fun b e x s => ⟨(b e x s).reply, (b e x s).state,
    (b e x s).sent.map .inr⟩

variable (c : Connection τ Item Packet ε E) (e : E) (s : τ) (o : Op Item)

@[simp] theorem perform_recording_reply :
    (c.recording.perform e s o).reply = (c.perform e s o).reply := by
  cases o with
  | broadcast x => cases hb : c.broadcast <;> simp [perform, recording, hb, Effect.map]
  | _ => rfl

@[simp] theorem perform_recording_state :
    (c.recording.perform e s o).state = (c.perform e s o).state := by
  cases o with
  | broadcast x => cases hb : c.broadcast <;> simp [perform, recording, hb, Effect.map]
  | _ => rfl

/-! ## One call -/

variable (onRead onWrite : Formatter Item ε)

/-- The formatters go through what a call writes and what it delivers. -/
def FormatsCall : Prop :=
  (∀ x, o = .write x → onWrite.Formats x) ∧
    ∀ x, (c.perform e s o).reply = .returned (some x) → onRead.Formats x

variable {c e s o onRead onWrite}

/-- A call whose items can be formatted is the call to the wrapped object. -/
theorem FormatsCall.perform_logging (h : c.FormatsCall e s o onRead onWrite) :
    (logging onRead onWrite c).perform e s o = c.perform e s o := by
  cases o with
  | open_ | close | broadcast x => rfl
  | write x =>
    obtain ⟨lines, hx⟩ := h.1 x rfl
    simp [perform, logging, hx]
  | read =>
    cases hr : (c.read e s).reply with
    | raised x | never => simp [perform, logging, hr]
    | returned x =>
      obtain ⟨lines, hx⟩ := h.2 x (by simp [perform, Effect.map, hr])
      simp [perform, logging, hr, hx]

/-- **A call whose items cannot be formatted shows**: the item is not handed on, or it has been read
and is not returned. -/
theorem formatsCall_of_observed
    (hreply : ((logging onRead onWrite c.recording).perform e s o).reply = (c.perform e s o).reply)
    (hsent : ((logging onRead onWrite c.recording).perform e s o).sent =
      (c.recording.perform e s o).sent) :
    c.FormatsCall e s o onRead onWrite := by
  constructor
  · rintro x rfl
    by_contra hx
    obtain ⟨y, hy⟩ := Formatter.not_formats_iff.mp hx
    simp [perform, logging, recording, Effect.map, hy] at hsent
  · intro x hx
    by_contra hf
    obtain ⟨z, hz⟩ := Formatter.not_formats_iff.mp hf
    cases o with
    | read =>
      cases hr : (c.read e s).reply with
      | raised y | never => simp [perform, Effect.map, hr] at hx
      | returned y =>
        obtain rfl : y = x := by simpa [perform, Effect.map, hr] using hx
        simp [perform, logging, recording, Effect.map, hr, hz] at hreply
    | open_ | close =>
      simp only [perform, Effect.map] at hx
      split at hx <;> simp at hx
    | write z =>
      simp only [perform, Effect.map] at hx
      split at hx <;> simp at hx
    | broadcast z =>
      simp only [perform, Effect.map] at hx
      split at hx
      · simp only at hx
        split at hx <;> simp at hx
      · simp at hx

/-! ## A run -/

variable (c s onRead onWrite)

/-- **The formatters go through** every item that a run writes or that is delivered in it. -/
def Formatted : τ → List (Op Item × E) → Prop
  | _, [] => True
  | s, (o, e) :: os =>
    c.FormatsCall e s o onRead onWrite ∧ Formatted (c.perform e s o).state os

/-- **The logged connection is the bare one exactly as long as the formatters go through**: what
each call replies, what is handed to the wrapped object and what that transmits. -/
theorem trace_logging_iff (os : List (Op Item × E)) :
    (logging onRead onWrite c.recording).trace s os = c.recording.trace s os ↔
      c.Formatted onRead onWrite s os := by
  induction os generalizing s with
  | nil => exact iff_of_true rfl trivial
  | cons x os ih =>
    obtain ⟨o, e⟩ := x
    have hcall : c.recording.FormatsCall e s o onRead onWrite ↔
        c.FormatsCall e s o onRead onWrite := by simp [FormatsCall]
    constructor
    · intro h
      obtain ⟨hhead, htail⟩ := List.cons.inj h
      obtain ⟨hreply, hsent⟩ := Prod.mk.inj hhead
      have hf := formatsCall_of_observed (hreply.trans (by simp)) hsent
      rw [(hcall.mpr hf).perform_logging, perform_recording_state] at htail
      exact ⟨hf, (ih _).mp htail⟩
    · rintro ⟨hf, hos⟩
      rw [trace, trace, (hcall.mpr hf).perform_logging, perform_recording_state, (ih _).mpr hos]

/-- The items of a run: what is written, and what is delivered. -/
def items : τ → List (Op Item × E) → List Item
  | _, [] => []
  | s, (o, e) :: os =>
    o.written.toList ++ (c.perform e s o).reply.delivered.toList ++ items (c.perform e s o).state os

/-- With formatters that go through on the same items, those of the run are all that matters. -/
theorem formatted_iff_items {p : Item → Prop} (hread : ∀ x, onRead.Formats x ↔ p x)
    (hwrite : ∀ x, onWrite.Formats x ↔ p x) (os : List (Op Item × E)) :
    c.Formatted onRead onWrite s os ↔ ∀ x ∈ c.items s os, p x := by
  induction os generalizing s with
  | nil => simp [Formatted, items]
  | cons x os ih =>
    obtain ⟨o, e⟩ := x
    simp only [Formatted, FormatsCall, items, ih, hread, hwrite, List.mem_append,
      Option.mem_toList, Op.written_eq_some, Reply.delivered_eq_some, or_imp, forall_and, and_assoc]

end Connection

/-! ## The formatters of the package -/

/-- `hexdump(obj, "generator")`, with what the generator yields or raises. -/
def hexdump : Formatter DataItem ε
  | .buffer data => .ok (dumpgen data)
  -- the check at its top
  | .text _ => .error .typeError
  -- the first chunk is the object itself or a slice of it, and no argument for `hexlify()`
  | .datagram _ _ => .error .typeError
  | .sequence length => if length = 0 then .ok [] else .error .typeError
  -- `len()`
  | .scalar => .error .typeError

/-- `format_bytes_for_logging()`. -/
def formatBytesForLogging : Formatter DataItem ε :=
  fun x => (hexdump x).bind fun lines => lines.mapM stripAddress

/-- `prefix_formatter()`. -/
def prefixFormatter (formatter : Formatter Item ε) (pre : Line) : Formatter Item ε :=
  fun x => (formatter x).map fun lines => lines.map (pre ++ ·)

/-- `_default_formatters`. -/
def defaultFormatters : Formatter DataItem ε × Formatter DataItem ε :=
  (prefixFormatter formatBytesForLogging "<-- ".toList,
    prefixFormatter formatBytesForLogging "--> ".toList)

/-- `register_builtin_middleware()`. -/
def registerBuiltinMiddleware : String → Option (Middleware DataItem ε)
  | "log" => some (.log defaultFormatters.1 defaultFormatters.2)
  | "rd" => some .rd
  | "wr" => some .wr
  | _ => none

/-- **An item that the formatters of the package go through**: a bytes-like object, or nothing at
all. -/
def Loggable : DataItem → Prop
  | .buffer _ => True
  | .sequence length => length = 0
  | _ => False

/-- What `prefix_formatter()` makes of the formatter for bytes: the lines, or a `TypeError`. -/
theorem prefixFormatter_eq (pre : Line) (x : DataItem) :
    (prefixFormatter formatBytesForLogging pre : Formatter DataItem ε) x =
      match x with
      | .buffer data => .ok (((chunks data 16).map dumpText).map (pre ++ ·))
      | .sequence 0 => .ok []
      | _ => .error .typeError := by
  cases x with
  | buffer data =>
    simp [prefixFormatter, formatBytesForLogging, hexdump, Except.bind, Except.map,
      mapM_stripAddress_dumpgen]
  | sequence length =>
    cases length <;> rfl
  | _ => rfl

theorem formats_prefixFormatter (pre : Line) (x : DataItem) :
    (prefixFormatter formatBytesForLogging pre : Formatter DataItem ε).Formats x ↔ Loggable x := by
  rw [Formatter.Formats, prefixFormatter_eq]
  cases x with
  | sequence length => cases length <;> simp [Loggable]
  | _ => simp [Loggable]

example : (defaultFormatters.2 (.buffer ("hello world".toUTF8.toList ++ [1, 2, 3])) :
      Except (Failure Empty) (List Line)) =
    .ok ["-->  68 65 6C 6C 6F 20 77 6F  72 6C 64 01 02 03        hello world...".toList] := by
  decide +kernel

/-- **Logging is transparent in a run**: through the middleware registered under `log` every call
replies as it does on the bare connection, and the wrapped object is handed the same items. -/
def LogsTransparently (c : Connection τ DataItem Packet ε E) (s : τ)
    (os : List (Op DataItem × E)) : Prop :=
  (c.recording.wrapped (registerBuiltinMiddleware "log").toList).trace s os = c.recording.trace s os

/-- **Logging is transparent exactly as long as there are only bytes to log.** -/
theorem logsTransparently_iff (c : Connection τ DataItem Packet ε E) (s : τ)
    (os : List (Op DataItem × E)) :
    LogsTransparently c s os ↔ ∀ x ∈ c.items s os, Loggable x := by
  rw [← c.formatted_iff_items s _ _ (formats_prefixFormatter "<-- ".toList)
    (formats_prefixFormatter "--> ".toList) os]
  exact c.trace_logging_iff s defaultFormatters.1 defaultFormatters.2 os

/-- **An item that cannot be logged is lost**: the wrapped object has delivered it, and the reader
gets a `TypeError` in its place. -/
theorem read_logging_of_not_loggable {c : Connection τ DataItem Packet ε E} {e : E} {s : τ}
    {x : DataItem} (hr : (c.read e s).reply = .returned x) (hx : ¬ Loggable x) :
    (Connection.logging defaultFormatters.1 defaultFormatters.2 c).read e s =
      { c.read e s with reply := .raised .typeError } := by
  have hf : (defaultFormatters.1 : Formatter DataItem ε) x = .error .typeError := by
    refine (prefixFormatter_eq _ x).trans ?_
    split
    · exact absurd trivial hx
    · exact absurd rfl hx
    · rfl
  simp [Connection.logging, hr, hf]

/-- **A UDP listener cannot be logged**: the datagram is gone, and the reader has an exception. -/
theorem udpListener_loses_datagram :
    ¬ ∀ os, LogsTransparently (udpListenerClass Empty).bare ⟨true, none⟩ os := by
  intro h
  have h1 := h [(.read, .datagram [1] (.limitedBroadcast, 7))]
  have hreply := congrArg Prod.fst (List.cons.inj h1).1
  cases hreply

end FlockwaveConn
