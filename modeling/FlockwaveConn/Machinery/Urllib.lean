import FlockwaveConn.Machinery.Text

/-!
# Machinery/Urllib — `urlparse()`, `parse_qs()` and percent-encoding

The functions of `urllib.parse` on texts, without fragments (`allow_fragments=False`).  `Stdlib`
holds what they leave to the rest of the standard library: nearly all of it is about text that is
not ASCII.
-/

/-- What is left to the rest of the standard library. -/
structure Stdlib where
  /-- `sys.get_int_max_str_digits()`, if there is a limit. -/
  maxDigits : Option ℕ
  /-- What `int()` takes a character for that is not ASCII: a decimal digit or white space. -/
  decimal : Char → Char
  /-- `_check_bracketed_host()` does not raise. -/
  isBracketedHost : Text → Bool
  /-- `_checknetloc()` does not raise, for a text that is not ASCII. -/
  isNetloc : Text → Bool
  /-- What the UTF-8 decoder makes of bytes from 128 on, with `errors="replace"`. -/
  decode : List UInt8 → Text

namespace Urllib

def isAscii (c : Char) : Bool := c.toNat < 128

/-- `int(s)` -/
def int (lib : Stdlib) (s : Text) : Option ℤ :=
  s.map (fun c => if isAscii c then c else lib.decimal c) |> Text.parseInt lib.maxDigits

/-- A printable ASCII character that is not a blank. -/
def isVisible (c : Char) : Bool := 33 ≤ c.toNat && c.toNat ≤ 126

/-! ## Percent-encoding -/

/-- The characters that `quote()` never encodes. -/
def isUnreserved (c : Char) : Bool := c.isAlphanum || c = '_' || c = '.' || c = '-' || c = '~'

def hexDigit (n : ℕ) : Char := Char.ofNat (if n < 10 then 48 + n else 55 + n)

def quoteChar (c : Char) : Text :=
  if isUnreserved c then [c]
  else (String.utf8EncodeChar c).flatMap fun b =>
    ['%', hexDigit (b.toNat / 16), hexDigit (b.toNat % 16)]

/-- `quote(s, safe="")` -/
def quote (s : Text) : Text := s.flatMap quoteChar

def hexValue (c : Char) : Option ℕ :=
  if c.isDigit then some (c.toNat - 48)
  else if 'A' ≤ c ∧ c ≤ 'F' then some (c.toNat - 55)
  else if 'a' ≤ c ∧ c ≤ 'f' then some (c.toNat - 87)
  else none

/-- Bytes that are not ASCII are decoded together. -/
def decodeRun (lib : Stdlib) (run : List UInt8) : Text := if run = [] then [] else lib.decode run

/-- `unquote()`, with the bytes that are still to be decoded. -/
def unquoteFrom (lib : Stdlib) : List UInt8 → Text → Text
  | run, '%' :: a :: b :: s =>
    match hexValue a, hexValue b with
    | some i, some j =>
      if 16 * i + j < 128 then
        decodeRun lib run ++ Char.ofNat (16 * i + j) :: unquoteFrom lib [] s
      else unquoteFrom lib (run ++ [UInt8.ofNat (16 * i + j)]) s
    | _, _ => decodeRun lib run ++ '%' :: unquoteFrom lib [] (a :: b :: s)
  | run, c :: s => decodeRun lib run ++ c :: unquoteFrom lib [] s
  | run, [] => decodeRun lib run

/-- `unquote_plus(s)` -/
def unquotePlus (lib : Stdlib) (s : Text) : Text :=
  unquoteFrom lib [] (s.map fun c => if c = '+' then ' ' else c)

/-! ### Reading back what has been quoted -/

variable {c : Char} {s : Text} {lib : Stdlib}

theorem isUpper_iff : c.isUpper = true ↔ 65 ≤ c.toNat ∧ c.toNat ≤ 90 := by
  change decide (65 ≤ c.val ∧ c.val ≤ 90) = true ↔ _
  rw [decide_eq_true_iff, UInt32.le_iff_toNat_le, UInt32.le_iff_toNat_le]
  rfl

theorem isLower_iff : c.isLower = true ↔ 97 ≤ c.toNat ∧ c.toNat ≤ 122 := by
  change (decide (97 ≤ c.val) && decide (c.val ≤ 122)) = true ↔ _
  rw [Bool.and_eq_true, decide_eq_true_iff, decide_eq_true_iff, UInt32.le_iff_toNat_le,
    UInt32.le_iff_toNat_le]
  rfl

theorem isAlphanum_iff : c.isAlphanum = true ↔
    c.isUpper = true ∨ c.isLower = true ∨ c.isDigit = true := by
  change (c.isUpper || c.isLower || c.isDigit) = true ↔ _
  rw [Bool.or_eq_true, Bool.or_eq_true, or_assoc]

theorem isAlphanum_of_isDigit (h : c.isDigit = true) : c.isAlphanum = true :=
  isAlphanum_iff.mpr (.inr (.inr h))

theorem isVisible_of_isAlphanum (h : c.isAlphanum = true) : isVisible c = true := by
  have hcode : 33 ≤ c.toNat ∧ c.toNat ≤ 126 := by
    obtain h | h | h := isAlphanum_iff.mp h
    · have hup := isUpper_iff.mp h
      omega
    · have hlow := isLower_iff.mp h
      omega
    · obtain ⟨hzero, hnine⟩ : 48 ≤ c.toNat ∧ c.toNat ≤ 57 := Char.isDigit_iff_toNat.mp h
      omega
  simpa [isVisible] using hcode

theorem isAscii_of_isVisible (h : isVisible c = true) : isAscii c = true := by
  simp only [isVisible, Bool.and_eq_true, decide_eq_true_eq] at h
  simp only [isAscii, decide_eq_true_eq]
  omega

theorem isVisible_of_isUnreserved (h : isUnreserved c = true) : isVisible c = true := by
  simp only [isUnreserved, Bool.or_eq_true, decide_eq_true_eq] at h
  obtain (((h | rfl) | rfl) | rfl) | rfl := h
  · exact isVisible_of_isAlphanum h
  all_goals decide

theorem quoteChar_of_isAscii (h : isAscii c = true) :
    quoteChar c = if isUnreserved c then [c]
      else ['%', hexDigit (c.toNat / 16), hexDigit (c.toNat % 16)] := by
  have hlt : c.toNat < 128 := by simpa [isAscii] using h
  have hsize : c.utf8Size = 1 := by
    have hle : c.val ≤ 0x7f := UInt32.le_iff_toNat_le.mpr (show c.toNat ≤ 127 by omega)
    exact if_pos hle
  have hbyte : c.toUInt8.toNat = c.toNat :=
    (UInt32.toNat_toUInt8 c.val).trans (Nat.mod_eq_of_lt (hlt.trans (by decide)))
  rw [quoteChar, String.utf8EncodeChar_eq_singleton hsize]
  simp [hbyte]

theorem hexValue_hexDigit : ∀ n < 16, hexValue (hexDigit n) = some n := by decide

theorem isUnreserved_hexDigit : ∀ n < 16, isUnreserved (hexDigit n) = true := by decide

/-- A byte, percent-encoded. -/
def quoteByte (b : UInt8) : Text := ['%', hexDigit (b.toNat / 16), hexDigit (b.toNat % 16)]

/-- A quoted text has unreserved characters in it, and `%`. -/
theorem mem_quote (h : c ∈ quote s) : isUnreserved c = true ∨ c = '%' := by
  obtain ⟨d, -, hc⟩ := List.mem_flatMap.mp h
  unfold quoteChar at hc
  split at hc
  · next hu => exact .inl (List.mem_singleton.mp hc ▸ hu)
  · obtain ⟨b, -, hc⟩ := List.mem_flatMap.mp hc
    have hb : b.toNat < 256 := b.toNat_lt
    simp only [List.mem_cons, List.not_mem_nil, or_false] at hc
    obtain rfl | rfl | rfl := hc
    · exact .inr rfl
    · exact .inl (isUnreserved_hexDigit _ (by omega))
    · exact .inl (isUnreserved_hexDigit _ (by omega))

/-- The UTF-8 encoding of a text. -/
def utf8 (s : Text) : List UInt8 := s.flatMap String.utf8EncodeChar

/-- A character that is not ASCII is encoded in bytes from 128 on. -/
theorem le_of_mem_utf8EncodeChar (h : isAscii c = false) :
    ∀ b ∈ String.utf8EncodeChar c, 128 ≤ b.toNat := by
  have hcode : 128 ≤ c.val.toNat := by simpa [isAscii] using h
  unfold String.utf8EncodeChar
  simp only
  split
  · omega
  split
  · simp only [List.forall_mem_cons, UInt8.toNat_ofNat']
    refine ⟨by omega, by omega, List.forall_mem_nil _⟩
  split
  · simp only [List.forall_mem_cons, UInt8.toNat_ofNat']
    exact ⟨by omega, by omega, by omega, List.forall_mem_nil _⟩
  · simp only [List.forall_mem_cons, UInt8.toNat_ofNat']
    exact ⟨by omega, by omega, by omega, by omega, List.forall_mem_nil _⟩

/-- The decoder undoes the encoding of what is not ASCII in a text. -/
def Decodes (lib : Stdlib) (s : Text) : Prop :=
  ∀ cs : Text, cs ≠ [] → (∀ c ∈ cs, c ∈ s ∧ isAscii c = false) → lib.decode (utf8 cs) = cs

theorem decodes_of_isAscii (h : ∀ c ∈ s, isAscii c = true) : Decodes lib s := by
  intro cs hne hcs
  obtain ⟨c, hc⟩ := List.exists_mem_of_ne_nil cs hne
  exact absurd (h c (hcs c hc).1) (by simp [(hcs c hc).2])

/-- The UTF-8 decoder, which puts a replacement character where there is no encoding. -/
def decodeUtf8 (bs : List UInt8) : Text :=
  match bs.toByteArray.utf8Decode? with
  | some cs => cs.toList
  | none => [Char.ofNat 0xFFFD]

theorem decodes_of_decodeUtf8 (h : lib.decode = decodeUtf8) (s : Text) : Decodes lib s := by
  intro cs _ _
  have hencode : (utf8 cs).toByteArray = cs.utf8Encode := rfl
  rw [h, decodeUtf8, hencode, List.utf8Decode?_utf8Encode]

theorem unquoteFrom_quoteByte {b : UInt8} (hb : 128 ≤ b.toNat) (run : List UInt8) (s : Text) :
    unquoteFrom lib run (quoteByte b ++ s) = unquoteFrom lib (run ++ [b]) s := by
  have hlt : b.toNat < 256 := b.toNat_lt
  have hcode : 16 * (b.toNat / 16) + b.toNat % 16 = b.toNat := by omega
  rw [quoteByte]
  simp only [List.cons_append, List.nil_append]
  rw [unquoteFrom, hexValue_hexDigit _ (by omega), hexValue_hexDigit _ (by omega)]
  simp [hcode, not_lt.mpr hb]

theorem unquoteFrom_quoteBytes {bs : List UInt8} (hbs : ∀ b ∈ bs, 128 ≤ b.toNat)
    (run : List UInt8) (s : Text) :
    unquoteFrom lib run (bs.flatMap quoteByte ++ s) = unquoteFrom lib (run ++ bs) s := by
  induction bs generalizing run with
  | nil => simp
  | cons b bs ih =>
    obtain ⟨hb, hbs⟩ := List.forall_mem_cons.mp hbs
    rw [List.flatMap_cons, List.append_assoc, unquoteFrom_quoteByte hb, ih hbs, List.append_assoc]
    rfl

theorem unquoteFrom_quoteChar (h : isAscii c = true) (run : List UInt8) (s : Text) :
    unquoteFrom lib run (quoteChar c ++ s) = decodeRun lib run ++ c :: unquoteFrom lib [] s := by
  have hlt : c.toNat < 128 := by simpa [isAscii] using h
  rw [quoteChar_of_isAscii h]
  split
  · next hu =>
    have hc : c ≠ '%' := by
      rintro rfl
      exact absurd hu (by decide)
    rw [List.singleton_append, unquoteFrom]
    exact fun _ _ _ heq => absurd heq hc
  · simp only [List.cons_append, List.nil_append]
    rw [unquoteFrom, hexValue_hexDigit _ (by omega), hexValue_hexDigit _ (by omega)]
    have hcode : 16 * (c.toNat / 16) + c.toNat % 16 = c.toNat := by omega
    simp [hcode, hlt]

theorem decodeRun_utf8 {pending : Text} (h : Decodes lib (pending ++ s))
    (hpending : ∀ c ∈ pending, isAscii c = false) : decodeRun lib (utf8 pending) = pending := by
  unfold decodeRun
  split
  · next hnil =>
    refine (List.eq_nil_iff_forall_not_mem.mpr fun c hc => ?_).symm
    exact absurd (List.flatMap_eq_nil_iff.mp hnil c hc) String.utf8EncodeChar_ne_nil
  · next hne =>
    refine h pending (fun hnil => hne (by rw [hnil]; rfl)) fun c hc => ⟨?_, hpending c hc⟩
    exact List.mem_append_left s hc

/-- What is read of a quoted text, while the characters in `pending` are still to be decoded. -/
theorem unquoteFrom_quote {pending : Text} (h : Decodes lib (pending ++ s))
    (hpending : ∀ c ∈ pending, isAscii c = false) :
    unquoteFrom lib (utf8 pending) (quote s) = pending ++ s := by
  induction s generalizing pending with
  | nil => simpa [quote, unquoteFrom] using decodeRun_utf8 h hpending
  | cons c s ih =>
    rw [quote, List.flatMap_cons, ← quote]
    by_cases hc : isAscii c = true
    · have hrest : Decodes lib ([] ++ s) := fun cs hne hcs => h cs hne fun d hd =>
        ⟨List.mem_append_right _ (List.mem_cons_of_mem c (hcs d hd).1), (hcs d hd).2⟩
      rw [unquoteFrom_quoteChar hc, decodeRun_utf8 h hpending]
      exact congrArg (pending ++ c :: ·) (ih hrest (List.forall_mem_nil _))
    · have hascii : isAscii c = false := by simpa using hc
      have hquote : quoteChar c = (String.utf8EncodeChar c).flatMap quoteByte :=
        if_neg fun hu => hc (isAscii_of_isVisible (isVisible_of_isUnreserved hu))
      have hutf8 : utf8 pending ++ String.utf8EncodeChar c = utf8 (pending ++ [c]) := by
        simp [utf8]
      rw [List.append_cons] at h ⊢
      rw [hquote, unquoteFrom_quoteBytes (le_of_mem_utf8EncodeChar hascii), hutf8]
      exact ih h (by simpa [or_imp, forall_and, hascii] using hpending)

/-- **`unquote_plus()` undoes `quote()`.** -/
theorem unquotePlus_quote (h : Decodes lib s) : unquotePlus lib (quote s) = s := by
  have hplus : (quote s).map (fun c => if c = '+' then ' ' else c) = quote s := by
    refine List.map_congr_left (g := id) (fun c hc => if_neg ?_) |>.trans (List.map_id _)
    rintro rfl
    exact absurd (mem_quote hc) (by decide)
  rw [unquotePlus, hplus]
  exact unquoteFrom_quote h (List.forall_mem_nil _)

theorem isVisible_of_mem_ofInt {z : ℤ} (h : c ∈ Text.ofInt z) : isVisible c = true := by
  have hdigit : ∀ n, c ∈ Nat.toDigits 10 n → isVisible c = true := fun n hc =>
    isVisible_of_isAlphanum (isAlphanum_of_isDigit (Text.isDigit_of_mem_toDigits c hc))
  cases z with
  | ofNat n => exact hdigit n h
  | negSucc n =>
    obtain rfl | hc := List.mem_cons.mp h
    · decide
    · exact hdigit _ hc

theorem int_of_isAscii (hs : ∀ c ∈ s, isAscii c = true) :
    int lib s = Text.parseInt lib.maxDigits s := by
  have hmap : s.map (fun c => if isAscii c then c else lib.decimal c) = s :=
    (List.map_congr_left fun c hc => if_pos (hs c hc)).trans (List.map_id s)
  rw [int, hmap]

/-- **`int(str(z))` is `z`**, within the limit. -/
theorem int_ofInt (lib : Stdlib) (z : ℤ) :
    int lib (Text.ofInt z) = if Text.Fits lib.maxDigits z then some z else none := by
  rw [int_of_isAscii (fun c hc => isAscii_of_isVisible (isVisible_of_mem_ofInt hc)),
    Text.parseInt_ofInt]

/-! ## Queries -/

/-- `parse_qsl(query)`, without the blank values. -/
def parseQsl (lib : Stdlib) (query : Text) : List (Text × Text) :=
  (query.splitOn '&').filterMap fun field =>
    let (name, _, value) := Text.partition '=' field
    if value = [] then none else some (unquotePlus lib name, unquotePlus lib value)

/-- A value is put with those of the same name. -/
def addValue (p : Text × Text) : List (Text × List Text) → List (Text × List Text)
  | [] => [(p.1, [p.2])]
  | (name, values) :: rest =>
    if name = p.1 then (name, values ++ [p.2]) :: rest else (name, values) :: addValue p rest

/-- `parse_qs(query)`, in the order of the dictionary. -/
def parseQs (lib : Stdlib) (query : Text) : List (Text × List Text) :=
  (parseQsl lib query).foldl (fun d p => addValue p d) []

/-! ### Reading back a query -/

/-- `urlencode()` of the fields, with `quote()`. -/
def urlencode (fields : List (Text × Text)) : Text :=
  List.intercalate ['&'] (fields.map fun p => quote p.1 ++ '=' :: quote p.2)

theorem quote_eq_nil : quote s = [] ↔ s = [] := by
  cases s with
  | nil => exact iff_of_true rfl rfl
  | cons c s =>
    have hc : quoteChar c ≠ [] := by
      unfold quoteChar
      split
      · exact List.cons_ne_nil c []
      · simpa using List.exists_mem_of_ne_nil _ String.utf8EncodeChar_ne_nil
    simp [quote, hc]

/-- **`parse_qsl()` undoes `urlencode()`**, but for the blank values. -/
theorem parseQsl_urlencode (lib : Stdlib) {fields : List (Text × Text)}
    (h : ∀ p ∈ fields, Decodes lib p.1 ∧ Decodes lib p.2) :
    parseQsl lib (urlencode fields) = fields.filter fun p => p.2 ≠ [] := by
  by_cases hne : fields = []
  · simp [hne, urlencode, parseQsl, Text.partition]
  have hsep : ∀ p ∈ fields, ∀ x, isUnreserved x = false → x ≠ '%' →
      x ∉ quote p.1 ∧ x ∉ quote p.2 := by
    intro p hp x hx hpct
    exact ⟨fun hmem => by simpa [hx, hpct] using mem_quote hmem,
      fun hmem => by simpa [hx, hpct] using mem_quote hmem⟩
  have hsplit : (urlencode fields).splitOn '&' =
      fields.map fun p => quote p.1 ++ '=' :: quote p.2 := by
    refine List.splitOn_intercalate '&' ?_ (by simpa using hne)
    rintro _ hl hmem
    obtain ⟨p, hp, rfl⟩ := List.mem_map.mp hl
    obtain ⟨hname, hvalue⟩ := hsep p hp '&' (by decide) (by decide)
    simp [hname, hvalue] at hmem
  rw [parseQsl, hsplit, List.filterMap_map, ← List.filterMap_eq_filter]
  refine List.filterMap_congr fun p hp => ?_
  have hname := (hsep p hp '=' (by decide) (by decide)).1
  simp only [Function.comp, Text.partition_append hname, quote_eq_nil, Option.guard]
  split
  · next hv => simp [hv]
  · next hv =>
    rw [unquotePlus_quote (h p hp).1, unquotePlus_quote (h p hp).2]
    simp [hv]

theorem addValue_of_not_mem {p : Text × Text} {d : List (Text × List Text)}
    (h : p.1 ∉ d.map Prod.fst) : addValue p d = d ++ [(p.1, [p.2])] := by
  induction d with
  | nil => rfl
  | cons q d ih =>
    obtain ⟨hq, hd⟩ : p.1 ≠ q.1 ∧ p.1 ∉ d.map Prod.fst := by simpa using h
    rw [addValue, if_neg (Ne.symm hq), ih hd]
    rfl

theorem foldl_addValue {ps : List (Text × Text)} {d : List (Text × List Text)}
    (h : (d.map Prod.fst ++ ps.map Prod.fst).Nodup) :
    ps.foldl (fun d p => addValue p d) d = d ++ ps.map fun p => (p.1, [p.2]) := by
  induction ps generalizing d with
  | nil => simp
  | cons p ps ih =>
    have hp : p.1 ∉ d.map Prod.fst := fun hmem =>
      (List.nodup_append.mp h).2.2 p.1 hmem p.1 (by simp) rfl
    rw [List.foldl_cons, addValue_of_not_mem hp, ih (by simpa using h)]
    simp

/-- **`parse_qs()` of a query without repeated names.** -/
theorem parseQs_of_nodup {query : Text} (h : ((parseQsl lib query).map Prod.fst).Nodup) :
    parseQs lib query = (parseQsl lib query).map fun p => (p.1, [p.2]) := by
  rw [parseQs, foldl_addValue (by simpa using h), List.nil_append]

/-! ## URLs -/

/-- What `urlsplit()` and `urlparse()` raise a `ValueError` for. -/
inductive UrlError
  | invalidIPv6
  | bracketedHost
  | netloc
  deriving DecidableEq, Repr

/-- The parts of a URL; there is no fragment. -/
structure SplitResult where
  scheme : Text
  netloc : Text
  path : Text
  query : Text
  deriving DecidableEq, Repr

/-- `scheme_chars` -/
def isSchemeChar (c : Char) : Bool := c.isAlphanum || c = '+' || c = '-' || c = '.'

/-- A URL without what `urlsplit()` drops: blanks and control characters before it, and line breaks
and tabs everywhere. -/
def clean (url : Text) : Text :=
  (url.dropWhile fun c => c.toNat ≤ 32).filter fun c => !(c = '\t' || c = '\r' || c = '\n')

/-- The scheme, in lower case, and the rest. -/
def splitScheme (url : Text) : Text × Text :=
  match Text.partition ':' url with
  | (scheme, true, rest) =>
    if scheme.head?.any Char.isAlpha && scheme.all isSchemeChar then
      (scheme.map Char.toLower, rest)
    else ([], url)
  | _ => ([], url)

/-- What a netloc ends before. -/
def isDelimiter (c : Char) : Bool := c = '/' || c = '?' || c = '#'

/-- `_splitnetloc()`, where there is a netloc. -/
def splitNetloc : Text → Text × Text
  | '/' :: '/' :: rest => (rest.takeWhile (!isDelimiter ·), rest.dropWhile (!isDelimiter ·))
  | url => ([], url)

/-- What `urlsplit()` says about the netloc. -/
def netlocError (lib : Stdlib) (netloc : Text) : Option UrlError :=
  if netloc.contains '[' != netloc.contains ']' then some .invalidIPv6
  else if netloc.contains '[' &&
      !lib.isBracketedHost (Text.partition ']' (Text.partition '[' netloc).2.2).1 then
    some .bracketedHost
  else if !netloc.all isAscii && !lib.isNetloc netloc then some .netloc
  else none

/-- `urlsplit(url, allow_fragments=False)` -/
def urlsplit (lib : Stdlib) (url : Text) : Except UrlError SplitResult :=
  let (scheme, rest) := splitScheme (clean url)
  let (netloc, rest) := splitNetloc rest
  let (path, _, query) := Text.partition '?' rest
  match netlocError lib netloc with
  | some e => .error e
  | none => .ok ⟨scheme, netloc, path, query⟩

/-- `uses_params` -/
def usesParams : List Text :=
  ["", "ftp", "hdl", "prospero", "http", "imap", "https", "shttp", "rtsp", "rtsps", "rtspu", "sip",
    "sips", "mms", "sftp", "tel"].map String.toList

/-- The path that `_splitparams()` leaves: parameters are those of the last segment. -/
def splitParams (path : Text) : Text :=
  match Text.rpartition '/' path with
  | (dir, true, segment) => dir ++ '/' :: (Text.partition ';' segment).1
  | (_, false, segment) => (Text.partition ';' segment).1

/-- `urlparse(url, allow_fragments=False)` -/
def urlparse (lib : Stdlib) (url : Text) : Except UrlError SplitResult :=
  (urlsplit lib url).map fun parts =>
    if parts.scheme ∈ usesParams ∧ ';' ∈ parts.path then
      { parts with path := splitParams parts.path }
    else parts

/-! ### The parts of a URL that has been put together -/

/-- A text of visible characters has nothing in it that is dropped. -/
theorem clean_of_isVisible (h : ∀ c ∈ s, isVisible c = true) : clean s = s := by
  have hcode : ∀ c ∈ s, 33 ≤ c.toNat := fun c hc => by
    have hv := h c hc
    simp only [isVisible, Bool.and_eq_true, decide_eq_true_eq] at hv
    exact hv.1
  have hdrop : s.dropWhile (fun c => decide (c.toNat ≤ 32)) = s := by
    cases s with
    | nil => rfl
    | cons c s =>
      have hc := hcode c List.mem_cons_self
      rw [List.dropWhile_cons_of_neg (by simp; omega)]
  rw [clean, hdrop, List.filter_eq_self]
  intro c hc
  have hlow := hcode c hc
  simp only [Bool.not_eq_true', Bool.or_eq_false_iff, decide_eq_false_iff_not]
  refine ⟨⟨?_, ?_⟩, ?_⟩ <;> rintro rfl <;> exact absurd hlow (by decide)

theorem splitScheme_append {scheme : Text} (hhead : scheme.head?.any Char.isAlpha = true)
    (hall : ∀ c ∈ scheme, isSchemeChar c = true ∧ c.isUpper = false) (rest : Text) :
    splitScheme (scheme ++ ':' :: rest) = (scheme, rest) := by
  have hcolon : ':' ∉ scheme := fun hmem => absurd (hall ':' hmem).1 (by decide)
  have hchars : scheme.all isSchemeChar = true := List.all_eq_true.mpr fun c hc => (hall c hc).1
  have hlower : scheme.map Char.toLower = scheme := by
    refine (List.map_congr_left fun c hc => ?_).trans (List.map_id scheme)
    refine dif_neg fun hup => ?_
    have hupper : c.isUpper = true := decide_eq_true hup
    exact absurd ((hall c hc).2.symm.trans hupper) (by simp)
  rw [splitScheme, Text.partition_append hcolon]
  simp only [hhead, hchars, Bool.and_self, if_true, hlower]

theorem splitNetloc_append {netloc rest : Text} (hn : ∀ c ∈ netloc, isDelimiter c = false)
    (hr : rest.head?.all isDelimiter = true) :
    splitNetloc ('/' :: '/' :: (netloc ++ rest)) = (netloc, rest) := by
  have hnetloc : ∀ c ∈ netloc, (!isDelimiter c) = true := fun c hc => by simp [hn c hc]
  rw [splitNetloc, List.takeWhile_append_of_pos hnetloc, List.dropWhile_append_of_pos hnetloc]
  cases rest with
  | nil => simp
  | cons c rest =>
    have hc : isDelimiter c = true := by simpa using hr
    simp [hc]

theorem splitNetloc_of_not_prefix {url : Text} (h : ¬ ['/', '/'] <+: url) :
    splitNetloc url = ([], url) := by
  unfold splitNetloc
  split
  · next rest => exact absurd ⟨rest, rfl⟩ h
  · rfl

/-- Where the netloc of a URL comes from. -/
theorem netloc_of_urlparse {url : Text} {parts : SplitResult}
    (h : urlparse lib url = .ok parts) :
    parts.netloc = (splitNetloc (splitScheme (clean url)).2).1 := by
  have hsplit : ∀ parts, urlsplit lib url = .ok parts →
      parts.netloc = (splitNetloc (splitScheme (clean url)).2).1 := by
    intro parts hp
    simp only [urlsplit] at hp
    split at hp
    · cases hp
    · exact (congrArg SplitResult.netloc (Except.ok.inj hp)).symm
  unfold urlparse at h
  cases hp : urlsplit lib url with
  | error e => simp [hp, Except.map] at h
  | ok q =>
    rw [hp] at h
    have hq : parts.netloc = q.netloc := by
      rw [← Except.ok.inj h, apply_ite SplitResult.netloc, ite_self]
    rw [hq, hsplit q hp]

/-- A text that a delimiter comes in before `x` is cut off before `x`. -/
theorem not_mem_takeWhile {p : Char → Bool} {a : Text} {x : Char} (hx : x ∉ a)
    (ha : ∃ c ∈ a, p c = false) (b : Text) : x ∉ (a ++ b).takeWhile p := by
  induction a with
  | nil => simp at ha
  | cons c a ih =>
    obtain ⟨hc, hxa⟩ : x ≠ c ∧ x ∉ a := by simpa using hx
    by_cases hpc : p c = true
    · obtain ⟨e, he, hpe⟩ := ha
      have hea : e ∈ a := by
        obtain rfl | hea := List.mem_cons.mp he
        · exact absurd (hpe.symm.trans hpc) (by simp)
        · exact hea
      rw [List.cons_append, List.takeWhile_cons_of_pos hpc]
      simpa [hc] using ih hxa ⟨e, hea, hpe⟩
    · rw [List.cons_append, List.takeWhile_cons_of_neg hpc]
      exact List.not_mem_nil

end Urllib
