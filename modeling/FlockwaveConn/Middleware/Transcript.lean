import FlockwaveConn.Middleware.Logging
import FlockwaveConn.Middleware.Restore

/-!
# Middleware/Transcript — what the log of a connection tells

`LoggingMiddleware` prints a hex dump of what is written and of what has been read, without the
addresses, and with an arrow at the beginning of each line that tells the direction.  The lines of
one direction, without their arrows, are a dump that `restore()` reads: it gives back what `read()`
has delivered, or what has been handed to the `write()` of the wrapped object, in order and to the
byte (`restore_transcript`).
-/

namespace FlockwaveConn

/-! ## A dump without addresses -/

/-- The pieces of a dump: none is empty, none is too long for a line. -/
def FitLines (ds : List (List UInt8)) : Prop := ∀ d ∈ ds, d ≠ [] ∧ d.length ≤ 16

theorem fitLines_chunks (data : List UInt8) : FitLines (chunks data 16) := by
  induction data using chunks_induction (by norm_num : 0 < 16) with
  | nil => simp [FitLines]
  | last d hd hle =>
    rw [chunks_of_le hd hle]
    simpa [FitLines] using ⟨hd, hle⟩
  | full d xs hd hxs ih =>
    rw [chunks_append (by norm_num) hd]
    have hpos : d ≠ [] := List.ne_nil_of_length_pos (by omega)
    simpa [FitLines, hpos, hd] using ih

theorem flatten_chunks (data : List UInt8) : (chunks data 16).flatten = data := by
  induction data using chunks_induction (by norm_num : 0 < 16) with
  | nil => simp
  | last d hd hle => simp [chunks_of_le hd hle]
  | full d xs hd hxs ih => rw [chunks_append (by norm_num) hd, List.flatten_cons, ih]

/-- A line in which no colon comes early has no address. -/
theorem dropAddress_of_notMem {s : Text} (h : ':' ∉ s.take minHexWidth) : dropAddress s = s := by
  refine if_neg fun ⟨hmem, _, hlt⟩ => h ?_
  have hget : s[s.idxOf ':']? = some ':' := List.getElem?_idxOf hmem
  exact List.mem_iff_getElem?.mpr ⟨_, by rw [List.getElem?_take_of_lt hlt, hget]⟩

theorem colon_notMem_hexColumns (d : List UInt8) : ':' ∉ hexColumns d := by
  intro h
  have hdehex := dehex_hexColumns_append d []
  rw [List.append_nil, dehex_eq_none_of_colon h] at hdehex
  cases hdehex

/-- A row, and what is left of it without the white space at its end. -/
theorem colon_notMem_of_prefix {d : List UInt8} {s : Text} (h : s <+: row d) :
    ':' ∉ s.take minHexWidth := by
  have hpad : ':' ∉ hexColumns d ++ List.replicate (50 - (hexColumns d).length) ' ' := by
    simp [colon_notMem_hexColumns]
  have hlen : minHexWidth ≤
      (hexColumns d ++ List.replicate (50 - (hexColumns d).length) ' ').length := by
    simp only [List.length_append, List.length_replicate, minHexWidth]
    omega
  intro hmem
  have hrow := (h.take minHexWidth).mem hmem
  rw [row, List.take_append_of_le_length hlen] at hrow
  exact hpad (List.mem_of_mem_take hrow)

/-- **A row is read as it is**, with the blank in front of it or without. -/
theorem restoreLine_of_prefix {d : List UInt8} {s : Text} (h : s <+: row d) {n : ℕ} (hn : n < 16)
    (hhead : s.head? = some (hexDigit n)) :
    restoreLine s = restoreBytes s ∧ restoreLine (' ' :: s) = restoreBytes s := by
  have hcolon := colon_notMem_of_prefix h
  have hblank : ':' ∉ (' ' :: s).take minHexWidth := by
    intro hmem
    rcases List.mem_cons.mp hmem with hmem | hmem
    · exact absurd hmem (by decide)
    · exact hcolon ((List.take_prefix_take_left (by decide : 31 ≤ minHexWidth)).mem hmem)
  have hdigit : s.dropWhile isWhitespace = s := by
    obtain ⟨t, rfl⟩ : ∃ t, s = hexDigit n :: t := by
      cases s with
      | nil => cases hhead
      | cons c t => exact ⟨t, by rw [Option.some.inj hhead]⟩
    exact List.dropWhile_cons_of_neg (by simp [isWhitespace_hexDigit n hn])
  constructor
  · rw [restoreLine, dropAddress_of_notMem hcolon, hdigit]
  · rw [restoreLine, dropAddress_of_notMem hblank, List.dropWhile_cons_of_pos (by decide), hdigit]

section

variable {d : List UInt8} (hne : d ≠ []) (hle : d.length ≤ 16)

include hne

theorem head?_row : ∃ n < 16, (row d).head? = some (hexDigit n) := by
  obtain ⟨n, hn, hhead⟩ := head?_hexColumns_append hne
    (List.replicate (50 - (hexColumns d).length) ' ' ++ d.map printable)
  exact ⟨n, hn, by rw [row, List.append_assoc, hhead]⟩

include hle

/-- A line that is not the last one. -/
theorem restoreLine_row {pre : Text} (hpre : pre = [] ∨ pre = [' ']) :
    restoreLine (pre ++ row d) = .ok d := by
  obtain ⟨n, hn, hhead⟩ := head?_row hne
  obtain ⟨hbare, hblank⟩ := restoreLine_of_prefix (List.prefix_refl _) hn hhead
  have hbytes : restoreBytes (row d) = .ok d := restoreBytes_padded hne hle _
  rcases hpre with rfl | rfl
  · exact hbare.trans hbytes
  · exact hblank.trans hbytes

/-- The last line, without the white space at its end. -/
theorem restoreLine_rdropWhile_row {pre : Text} (hpre : pre = [] ∨ pre = [' ']) :
    restoreLine ((pre ++ row d).rdropWhile isWhitespace) =
      if d = [0x20] then .error .indexError else .ok d := by
  obtain ⟨⟨n, hn, hhead⟩, hbytes⟩ := restoreBytes_rdropWhile_row hne hle
  obtain ⟨hbare, hblank⟩ := restoreLine_of_prefix (List.rdropWhile_prefix _ _) hn hhead
  have hrow : (row d).rdropWhile isWhitespace ≠ [] := by
    intro h
    rw [h] at hhead
    cases hhead
  rw [rdropWhile_append_of_ne_nil hrow, ← hbytes]
  rcases hpre with rfl | rfl
  · exact hbare
  · exact hblank

theorem newline_notMem_row {pre : Text} (hpre : pre = [] ∨ pre = [' ']) : '\n' ∉ pre ++ row d := by
  have hline := newline_notMem_dumpLine 0 hne hle
  rw [dumpLine_eq 0 hne hle] at hline
  rcases hpre with rfl | rfl <;> simp_all

end

/-- The rows of a dump, the first of them behind `pre` and the others behind a new line and a
blank. -/
def rowsFrom (pre : Text) (d : List UInt8) (ds : List (List UInt8)) : Text :=
  pre ++ row d ++ ds.flatMap fun d => '\n' :: ' ' :: row d

theorem rdropWhile_rowsFrom_ne_nil {pre : Text} {d : List UInt8} {ds : List (List UInt8)}
    (hd : d ≠ []) : (rowsFrom pre d ds).rdropWhile isWhitespace ≠ [] := by
  obtain ⟨n, hn, hhead⟩ := head?_row hd
  intro h
  have hmem : hexDigit n ∈ rowsFrom pre d ds :=
    List.mem_append_left _ (List.mem_append_right _ (List.mem_of_head? hhead))
  have hall := List.rdropWhile_eq_nil_iff.mp h _ hmem
  simp [isWhitespace_hexDigit n hn] at hall

/-- **Rows are read back one by one.** -/
theorem mapM_restoreLine_rowsFrom {pre : Text} (hpre : pre = [] ∨ pre = [' ']) {d : List UInt8}
    {ds : List (List UInt8)} (hfit : FitLines (d :: ds)) :
    (((rowsFrom pre d ds).rdropWhile isWhitespace).splitOn '\n').mapM restoreLine =
      if (d :: ds).getLast? = some [0x20] then .error .indexError else .ok (d :: ds) := by
  induction ds generalizing pre d with
  | nil =>
    obtain ⟨hne, hle⟩ := hfit d (by simp)
    have hnl : '\n' ∉ (pre ++ row d).rdropWhile isWhitespace := fun h =>
      newline_notMem_row hne hle hpre ((List.rdropWhile_prefix _ _).mem h)
    rw [rowsFrom, List.flatMap_nil, List.append_nil, List.splitOn_eq_singleton hnl, List.mapM_cons,
      List.mapM_nil, restoreLine_rdropWhile_row hne hle hpre]
    by_cases hone : d = [0x20] <;> simp [hone]
  | cons d' ds ih =>
    obtain ⟨hne, hle⟩ := hfit d (by simp)
    have hfit' : FitLines (d' :: ds) := fun x hx => hfit x (List.mem_cons_of_mem d hx)
    have hrows : rowsFrom pre d (d' :: ds) =
        (pre ++ row d ++ ['\n']) ++ rowsFrom [' '] d' ds := by
      simp [rowsFrom]
    rw [hrows, rdropWhile_append_of_ne_nil (rdropWhile_rowsFrom_ne_nil (hfit' d' (by simp)).1),
      List.append_assoc, List.singleton_append,
      List.splitOn_append_cons_self_of_not_mem (newline_notMem_row hne hle hpre), List.mapM_cons,
      restoreLine_row hne hle hpre, ih (.inr rfl) hfit', List.getLast?_cons_cons]
    split <;> rfl

theorem intercalate_dumpText {d : List UInt8} {ds : List (List UInt8)}
    (hfit : FitLines (d :: ds)) :
    ['\n'].intercalate ((d :: ds).map dumpText) = rowsFrom [' '] d ds := by
  induction ds generalizing d with
  | nil =>
    obtain ⟨hne, hle⟩ := hfit d (by simp)
    simp [rowsFrom, dumpText_eq hne hle]
  | cons d' ds ih =>
    obtain ⟨hne, hle⟩ := hfit d (by simp)
    rw [List.map_cons, List.intercalate_cons_of_ne_nil (by simp), dumpText_eq hne hle,
      ih fun x hx => hfit x (List.mem_cons_of_mem d hx)]
    simp [rowsFrom]

/-- **A dump without addresses is read back**, unless it is empty or its last line consists of one
blank. -/
theorem restore_dumpText {ds : List (List UInt8)} (hfit : FitLines ds) :
    restore (['\n'].intercalate (ds.map dumpText)) =
      if ds = [] ∨ ds.getLast? = some [0x20] then .error .indexError else .ok ds.flatten := by
  cases ds with
  | nil => rfl
  | cons d ds =>
    obtain ⟨hne, hle⟩ := hfit d (by simp)
    have hstrip : (rowsFrom [' '] d ds).dropWhile isWhitespace = rowsFrom [] d ds := by
      obtain ⟨n, hn, hhead⟩ := head?_row hne
      obtain ⟨t, ht⟩ : ∃ t, row d = hexDigit n :: t := by
        cases hrow : row d with
        | nil => simp [hrow] at hhead
        | cons c t => exact ⟨t, by rw [hrow] at hhead; rw [Option.some.inj hhead]⟩
      rw [rowsFrom, rowsFrom, ht, List.append_assoc, List.singleton_append,
        List.dropWhile_cons_of_pos (by decide), List.cons_append,
        List.dropWhile_cons_of_neg (by simp [isWhitespace_hexDigit n hn])]
      rfl
    rw [intercalate_dumpText hfit, restore, hstrip]
    simp only [mapM_restoreLine_rowsFrom (.inl rfl) hfit, List.cons_ne_nil, false_or]
    split <;> rfl

/-! ## The log -/

/-- The bytes of an item that can be logged. -/
def DataItem.bytes : DataItem → List UInt8
  | .buffer data => data
  | _ => []

/-- The two directions of the log. -/
inductive Arrow
  /-- What has been read. -/
  | inbound
  /-- What is written. -/
  | outbound
  deriving DecidableEq, Repr

namespace Arrow

/-- What the lines of a direction begin with. -/
def text : Arrow → Line
  | inbound => "<-- ".toList
  | outbound => "--> ".toList

/-- The lines of a direction, without their arrows. -/
def linesOf (a : Arrow) (log : List Line) : List Line :=
  (log.filter fun l => a.text.isPrefixOf l).map fun l => l.drop a.text.length

/-- The formatter of a direction. -/
def format {ε : Type*} : Arrow → Formatter DataItem ε
  | inbound => defaultFormatters.1
  | outbound => defaultFormatters.2

end Arrow

namespace Connection

variable {τ Packet ε E : Type*}

/-- The connection behind the `LoggingMiddleware` of the package. -/
def logged (c : Connection τ DataItem Packet ε E) : Connection τ DataItem Packet ε E :=
  c.logging defaultFormatters.1 defaultFormatters.2

/-- What is printed of an item: its lines, if the formatter goes through. -/
def printed (f : Formatter DataItem ε) (x : DataItem) : List Line := (f x).toOption.getD []

/-- What a call prints. -/
def printedBy (c : Connection τ DataItem Packet ε E) (e : E) (s : τ) :
    Op DataItem → List Line
  | .write x => printed (Arrow.outbound.format : Formatter DataItem ε) x
  | .read =>
    match (c.read e s).reply with
    | .returned x => printed (Arrow.inbound.format : Formatter DataItem ε) x
    | _ => []
  | _ => []

/-- **The log of a run.** -/
def transcript (c : Connection τ DataItem Packet ε E) : τ → List (Op DataItem × E) → List Line
  | _, [] => []
  | s, (o, e) :: os => c.printedBy e s o ++ transcript c (c.logged.perform e s o).state os

/-- What a call takes from one side to the other: the item that `read()` delivers, or the one that
the `write()` of the wrapped object is given. -/
def passedBy (a : Arrow) (c : Connection τ DataItem Packet ε E) (e : E) (s : τ)
    (o : Op DataItem) : List DataItem :=
  match a with
  | .inbound => (c.logged.perform e s o).reply.delivered.toList
  | .outbound => (c.recording.logged.perform e s o).sent.filterMap Sum.getLeft?

/-- **What a run takes from one side to the other.** -/
def passed (a : Arrow) (c : Connection τ DataItem Packet ε E) (s : τ)
    (os : List (Op DataItem × E)) : List DataItem :=
  match a with
  | .inbound => (c.logged.trace s os).filterMap fun r => r.1.delivered
  | .outbound => (c.recording.logged.sentBy s os).filterMap Sum.getLeft?

end Connection

instance : DecidablePred Loggable := fun x =>
  match x with
  | .buffer _ => .isTrue trivial
  | .sequence length => inferInstanceAs (Decidable (length = 0))
  | .text _ | .datagram _ _ | .scalar => .isFalse id

section

variable {ε : Type*} (a : Arrow) (x : DataItem)

theorem format_eq :
    (a.format : Formatter DataItem ε) = prefixFormatter formatBytesForLogging a.text := by
  cases a <;> rfl

theorem formats_format : (a.format : Formatter DataItem ε).Formats x ↔ Loggable x := by
  rw [format_eq]
  exact formats_prefixFormatter a.text x

/-- The lines of an item, if there is something to print. -/
theorem printed_format : Connection.printed (a.format : Formatter DataItem ε) x =
    ((chunks x.bytes 16).map dumpText).map (a.text ++ ·) := by
  rw [Connection.printed, format_eq, prefixFormatter_eq]
  cases x with
  | buffer data => rfl
  | sequence length => cases length <;> simp [DataItem.bytes, Except.toOption]
  | _ => simp [DataItem.bytes, Except.toOption]

end

namespace Arrow

@[simp] theorem linesOf_append (a : Arrow) (xs ys : List Line) :
    a.linesOf (xs ++ ys) = a.linesOf xs ++ a.linesOf ys := by simp [linesOf]

/-- No line belongs to both directions. -/
theorem linesOf_map (a b : Arrow) (ls : List Line) :
    a.linesOf (ls.map (b.text ++ ·)) = if a = b then ls else [] := by
  induction ls with
  | nil => simp [linesOf]
  | cons l ls ih =>
    have hline : a.linesOf [b.text ++ l] = if a = b then [l] else [] := by
      cases a <;> cases b <;> rfl
    rw [List.map_cons, ← List.singleton_append, linesOf_append, hline, ih]
    split <;> rfl

end Arrow

namespace Connection

variable {τ Packet ε E : Type*} (c : Connection τ DataItem Packet ε E)

/-- The wrapped object is in the same state whether it is watched or not. -/
theorem perform_recording_logged_state (e : E) (s : τ) (o : Op DataItem) :
    (c.recording.logged.perform e s o).state = (c.logged.perform e s o).state := by
  cases o with
  | broadcast x =>
    exact (c.perform_recording_state e s (.broadcast x))
  | write x =>
    cases hx : (defaultFormatters.2 : Formatter DataItem ε) x <;>
      simp [logged, logging, perform, recording, Effect.map, hx]
  | read =>
    cases hr : (c.read e s).reply with
    | returned x =>
      cases hx : (defaultFormatters.1 : Formatter DataItem ε) x <;>
        simp [logged, logging, perform, recording, Effect.map, hr, hx]
    | _ => simp [logged, logging, perform, recording, Effect.map, hr]
  | _ => rfl

theorem passed_cons (a : Arrow) (s : τ) (o : Op DataItem) (e : E) (os : List (Op DataItem × E)) :
    c.passed a s ((o, e) :: os) =
      c.passedBy a e s o ++ c.passed a (c.logged.perform e s o).state os := by
  cases a with
  | inbound =>
    rw [passed, passedBy, trace, List.filterMap_cons]
    cases (c.logged.perform e s o).reply.delivered <;> rfl
  | outbound =>
    rw [passed, passedBy, sentBy_cons, List.filterMap_append, perform_recording_logged_state]
    rfl

/-- An item that is not printed has no bytes to print. -/
theorem flatMap_chunks_if (x : DataItem) :
    (if Loggable x then [x] else []).flatMap (fun x => chunks x.bytes 16) = chunks x.bytes 16 := by
  split
  · simp
  · next h =>
    have hnil : x.bytes = [] := by
      cases x with
      | buffer data => exact absurd trivial h
      | _ => rfl
    simp [hnil]

theorem passedBy_write (a : Arrow) (e : E) (s : τ) (x : DataItem) :
    c.passedBy a e s (.write x) =
      if a = .outbound then if Loggable x then [x] else [] else [] := by
  have hx : (defaultFormatters.2 : Formatter DataItem ε).Formats x ↔ Loggable x :=
    formats_format .outbound x
  cases a with
  | inbound =>
    cases h : (c.logged.write e x s).reply <;>
      simp [passedBy, perform, Effect.map, h, Reply.delivered]
  | outbound =>
    cases h : (defaultFormatters.2 : Formatter DataItem ε) x with
    | ok lines =>
      have hlog := hx.mp (Formatter.formats_of_ok h)
      simp [passedBy, logged, logging, perform, recording, Effect.map, h, hlog, Function.comp_def]
    | error y =>
      have hlog := mt hx.mpr (Formatter.not_formats_of_error h)
      simp [passedBy, logged, logging, perform, recording, Effect.map, h, hlog]

theorem passedBy_read (a : Arrow) (e : E) (s : τ) :
    c.passedBy a e s .read =
      match (c.read e s).reply with
      | .returned x => if a = .inbound then if Loggable x then [x] else [] else []
      | _ => [] := by
  cases hr : (c.read e s).reply with
  | returned x =>
    have hx : (defaultFormatters.1 : Formatter DataItem ε).Formats x ↔ Loggable x :=
      formats_format .inbound x
    cases h : (defaultFormatters.1 : Formatter DataItem ε) x with
    | ok lines =>
      have hlog := hx.mp (Formatter.formats_of_ok h)
      cases a <;>
        simp [passedBy, logged, logging, perform, recording, Effect.map, hr, h, hlog,
          Reply.delivered, Function.comp_def]
    | error y =>
      have hlog := mt hx.mpr (Formatter.not_formats_of_error h)
      cases a <;>
        simp [passedBy, logged, logging, perform, recording, Effect.map, hr, h, hlog,
          Reply.delivered, Function.comp_def]
  | raised x | never =>
    cases a <;>
      simp [passedBy, logged, logging, perform, recording, Effect.map, hr, Reply.delivered,
        Function.comp_def]

/-- The other methods are not logged. -/
theorem passedBy_of_silent (a : Arrow) (e : E) (s : τ) {o : Op DataItem} (hr : o ≠ .read)
    (hw : ∀ x, o ≠ .write x) : c.passedBy a e s o = [] := by
  cases o with
  | read => exact absurd rfl hr
  | write x => exact absurd rfl (hw x)
  | open_ =>
    cases h : (c.open_ e s).reply <;> cases a <;>
      simp [passedBy, logged, logging, perform, recording, Effect.map, h, Reply.delivered,
        Function.comp_def]
  | close =>
    cases h : (c.close e s).reply <;> cases a <;>
      simp [passedBy, logged, logging, perform, recording, Effect.map, h, Reply.delivered,
        Function.comp_def]
  | broadcast x =>
    cases hb : c.broadcast with
    | none =>
      cases a <;> simp [passedBy, logged, logging, perform, recording, hb, Reply.delivered]
    | some b =>
      cases h : (b e x s).reply <;> cases a <;>
        simp [passedBy, logged, logging, perform, recording, Effect.map, hb, h, Reply.delivered,
          Function.comp_def]

/-- **What a call prints is what it passes on.** -/
theorem linesOf_printedBy (a : Arrow) (e : E) (s : τ) (o : Op DataItem) :
    a.linesOf (c.printedBy e s o) =
      ((c.passedBy a e s o).flatMap fun x => chunks x.bytes 16).map dumpText := by
  cases o with
  | write x =>
    rw [printedBy, printed_format, Arrow.linesOf_map, passedBy_write]
    by_cases ha : a = .outbound
    · rw [if_pos ha, if_pos ha, flatMap_chunks_if]
    · rw [if_neg ha, if_neg ha]
      rfl
  | read =>
    rw [printedBy, passedBy_read]
    cases (c.read e s).reply with
    | returned x =>
      simp only [printed_format, Arrow.linesOf_map]
      by_cases ha : a = .inbound
      · rw [if_pos ha, if_pos ha, flatMap_chunks_if]
      · rw [if_neg ha, if_neg ha]
        rfl
    | _ => rfl
  | _ => rw [passedBy_of_silent c a e s (by simp) (by simp)]; rfl

theorem linesOf_transcript (a : Arrow) (s : τ) (os : List (Op DataItem × E)) :
    a.linesOf (c.transcript s os) =
      ((c.passed a s os).flatMap fun x => chunks x.bytes 16).map dumpText := by
  induction os generalizing s with
  | nil => cases a <;> rfl
  | cons x os ih =>
    obtain ⟨o, e⟩ := x
    rw [transcript, passed_cons, Arrow.linesOf_append, linesOf_printedBy, ih, List.flatMap_append,
      List.map_append]

/-- **The log of a connection tells what it has passed on**: the lines of one direction restore to
the bytes of that direction, unless there are none or the last line consists of one blank. -/
theorem restore_transcript (a : Arrow) (s : τ) (os : List (Op DataItem × E)) :
    restore (['\n'].intercalate (a.linesOf (c.transcript s os))) =
      let ds := (c.passed a s os).flatMap fun x => chunks x.bytes 16
      if ds = [] ∨ ds.getLast? = some [0x20] then .error .indexError
      else .ok ((c.passed a s os).flatMap DataItem.bytes) := by
  have hfit : FitLines ((c.passed a s os).flatMap fun x => chunks x.bytes 16) := by
    intro d hd
    obtain ⟨x, -, hx⟩ := List.mem_flatMap.mp hd
    exact fitLines_chunks _ d hx
  have hflat : ((c.passed a s os).flatMap fun x => chunks x.bytes 16).flatten =
      (c.passed a s os).flatMap DataItem.bytes := by
    rw [List.flatMap, List.flatten_flatten, List.map_map, List.flatMap]
    exact congrArg List.flatten (List.map_congr_left fun x _ => flatten_chunks _)
  rw [linesOf_transcript, restore_dumpText hfit, hflat]

end Connection

end FlockwaveConn
