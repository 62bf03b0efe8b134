import FlockwaveConn.Factory.Specification

/-!
# Factory/RoundTrip — a dictionary, written as a URL and read back

`render` writes a dictionary as a URL, with its parameters percent-encoded.  What
`_url_specification_to_dict()` reads is another dictionary in these cases only (`roundTrips_iff`):

* the host is an IPv6 address in brackets, which is cut at the first `:` in it;
* there is a `#` in the user name or the password, which ends the netloc;
* the path is empty, which is the same as none;
* a parameter is blank, and so is dropped, or is a string that `int()` can read.

The proof puts `render` through `urlsplit()` part by part (`urlsplit_render`).
-/

namespace FlockwaveConn

open Urllib

/-- A parameter as a text. -/
def ParameterValue.text : ParameterValue → Text
  | .int z => Text.ofInt z
  | .str s => s

namespace Specification

/-- Type, `+` and each middleware. -/
def scheme (d : Specification) : Text := List.intercalate ['+'] (d.type :: d.middleware)

/-- `username [':' password]` -/
def auth (d : Specification) (username : Text) : Text :=
  username ++ match d.password with | none => [] | some p => ':' :: p

/-- `[username [':' password] '@']` -/
def userinfo (d : Specification) : Text :=
  match d.username with
  | none => []
  | some username => d.auth username ++ ['@']

/-- `host [':' port]` -/
def hostAndPort (d : Specification) (host : Text) : Text :=
  host ++ match d.port with | none => [] | some n => ':' :: Text.ofInt n

def netloc (d : Specification) : Text :=
  match d.host with
  | none => []
  | some host => d.userinfo ++ d.hostAndPort host

/-- The netloc, with the slashes before it. -/
def authority (d : Specification) : Text :=
  if d.host.isSome then '/' :: '/' :: d.netloc else []

/-- The parameters, as texts. -/
def fields (d : Specification) : List (Text × Text) :=
  (d.parameters.getD []).map fun p => (p.1, p.2.text)

/-- `?` and the parameters, if there are any. -/
def queryPart (d : Specification) : Text :=
  if d.fields = [] then [] else '?' :: urlencode d.fields

/-- **The specification as a URL.** -/
def render (d : Specification) : Text :=
  d.scheme ++ ':' :: (d.authority ++ (d.path.getD [] ++ d.queryPart))

/-! ## What may be in a specification -/

/-- A type or a middleware: a lower-case letter, and then others, digits, `-` or `.`. -/
def IsName (s : Text) : Prop :=
  s.head?.any Char.isLower = true ∧
    ∀ c ∈ s, (c.isLower || c.isDigit || c = '-' || c = '.') = true

/-- A host name or an IPv4 literal, or an IPv6 literal in brackets. -/
inductive IsHost : Text → Prop
  | name (s : Text) (hne : s ≠ [])
    (h : ∀ c ∈ s, (c.isAlphanum || c = '-' || c = '.' || c = '_') = true) : IsHost s
  | ipv6 (s : Text) (hcolon : ':' ∈ s) (h : ∀ c ∈ s, (c.isHexDigit || c = ':' || c = '.') = true) :
    IsHost ('[' :: (s ++ [']']))

/-- What a user name and a password are made of. -/
def IsUserText (s : Text) : Prop :=
  ∀ c ∈ s, isVisible c = true ∧ c ∉ ['@', '/', '?', '[', ']']

/-- A specification that can be written as a URL. -/
structure WellFormed (d : Specification) : Prop where
  type : IsName d.type
  middleware : ∀ m ∈ d.middleware, IsName m
  parameters : d.parameters.isSome = true
  names : (d.fields.map Prod.fst).Nodup
  ascii : ∀ p ∈ d.fields, (∀ c ∈ p.1, isAscii c = true) ∧ ∀ c ∈ p.2, isAscii c = true
  host : ∀ h ∈ d.host, IsHost h
  port : ∀ n ∈ d.port, 0 ≤ n ∧ d.host.isSome = true
  username : ∀ u ∈ d.username, u ≠ [] ∧ IsUserText u ∧ ':' ∉ u ∧ d.host.isSome = true
  password : ∀ p ∈ d.password, IsUserText p ∧ d.username.isSome = true
  path : ∀ p ∈ d.path, ∀ c ∈ p, isVisible c = true ∧ c ≠ '?' ∧ c ≠ ';'
  /-- A path after a host starts with a slash, and one without a host not with two. -/
  slash : ∀ p ∈ d.path, if d.host.isSome then p.head? = some '/' else ¬ ['/', '/'] <+: p

/-- The same dictionary: the order of the parameters does not matter. -/
structure Same (r d : Specification) : Prop where
  type : r.type = d.type
  middleware : r.middleware = d.middleware
  parameters : r.parameters.map (fun ps name => ps.lookup name) =
    d.parameters.map (fun ps name => ps.lookup name)
  host : r.host = d.host
  port : r.port = d.port
  path : r.path = d.path
  username : r.username = d.username
  password : r.password = d.password

/-- **The specification comes back.** -/
def RoundTrips (lib : Stdlib) (d : Specification) : Prop :=
  ∃ r, urlSpecificationToDict lib d.render = .ok r ∧ r.Same d

/-- The value is read as what it is. -/
def Keeps (lib : Stdlib) : ParameterValue → Prop
  | .int z => Text.Fits lib.maxDigits z
  | .str s => s ≠ [] ∧ Urllib.int lib s = none

/-- The cases in which a specification comes back. -/
structure Survives (lib : Stdlib) (d : Specification) : Prop where
  host : ∀ h ∈ d.host, ':' ∉ h
  userinfo : '#' ∉ d.userinfo
  port : ∀ n ∈ d.port, Text.Fits lib.maxDigits n
  path : d.path ≠ some []
  parameters : ∀ ps ∈ d.parameters, ∀ p ∈ ps, Keeps lib p.2

/-! ## The parts of the URL -/

variable {lib : Stdlib} {d : Specification} {c : Char}

theorem isVisible_of_isSchemeChar (h : isSchemeChar c = true) : isVisible c = true := by
  simp only [isSchemeChar, Bool.or_eq_true, decide_eq_true_eq] at h
  obtain ((h | rfl) | rfl) | rfl := h
  · exact isVisible_of_isAlphanum h
  all_goals decide

/-- The characters of a name can stand in a scheme, and are not capitals. -/
theorem IsName.isSchemeChar {s : Text} (h : IsName s) (hc : c ∈ s) :
    Urllib.isSchemeChar c = true ∧ c.isUpper = false := by
  have hname := h.2 c hc
  simp only [Bool.or_eq_true, decide_eq_true_eq] at hname
  obtain ((hl | hd) | rfl) | rfl := hname
  · have hcode := isLower_iff.mp hl
    refine ⟨by simp [Urllib.isSchemeChar, isAlphanum_iff, hl], Bool.eq_false_iff.mpr fun hup => ?_⟩
    have hup := isUpper_iff.mp hup
    omega
  · have hcode : 48 ≤ c.toNat ∧ c.toNat ≤ 57 := Char.isDigit_iff_toNat.mp hd
    refine ⟨by simp [Urllib.isSchemeChar, isAlphanum_iff, hd], Bool.eq_false_iff.mpr fun hup => ?_⟩
    have hup := isUpper_iff.mp hup
    omega
  all_goals decide

theorem WellFormed.scheme_char (h : d.WellFormed) (hc : c ∈ d.scheme) :
    isSchemeChar c = true ∧ c.isUpper = false := by
  obtain rfl | ⟨s, hs, hmem⟩ := Text.mem_intercalate hc
  · decide
  · obtain rfl | hs := List.mem_cons.mp hs
    · exact h.type.isSchemeChar hmem
    · exact (h.middleware s hs).isSchemeChar hmem

theorem WellFormed.scheme_head (h : d.WellFormed) : d.scheme.head?.any Char.isAlpha = true := by
  obtain ⟨c, t, ht⟩ : ∃ c t, d.type = c :: t := by
    cases ht : d.type with
    | nil => exact absurd h.type.1 (by simp [ht])
    | cons c t => exact ⟨c, t, rfl⟩
  have hc : c.isLower = true := by simpa [ht] using h.type.1
  have halpha : c.isAlpha = true := (Bool.or_eq_true _ _).mpr (.inr hc)
  rw [scheme, ht, List.intercalate_cons_cons_left]
  exact halpha

theorem isVisible_of_isDigit (h : c.isDigit = true) : isVisible c = true :=
  isVisible_of_isAlphanum (isAlphanum_of_isDigit h)

/-- A number that is not negative is made of digits. -/
theorem isDigit_of_mem_ofInt {z : ℤ} (hz : 0 ≤ z) (h : c ∈ Text.ofInt z) : c.isDigit = true := by
  obtain ⟨n, rfl⟩ := Int.eq_ofNat_of_zero_le hz
  exact Text.isDigit_of_mem_toDigits c h

/-! ### The netloc -/

theorem isAlphanum_of_isHexDigit (h : c.isHexDigit = true) : c.isAlphanum = true := by
  change (c.isDigit || (decide (97 ≤ c.val) && decide (c.val ≤ 102)) ||
    (decide (65 ≤ c.val) && decide (c.val ≤ 70))) = true at h
  simp only [Bool.or_eq_true, Bool.and_eq_true, decide_eq_true_eq, UInt32.le_iff_toNat_le] at h
  change (c.isDigit = true ∨ 97 ≤ c.toNat ∧ c.toNat ≤ 102) ∨ 65 ≤ c.toNat ∧ c.toNat ≤ 70 at h
  rw [isAlphanum_iff, isUpper_iff, isLower_iff]
  obtain (hdigit | hlow) | hup := h
  · exact .inr (.inr hdigit)
  · exact .inr (.inl (by omega))
  · exact .inl (by omega)

theorem isDelimiter_of_isAlphanum (h : c.isAlphanum = true) :
    isDelimiter c = false ∧ c ≠ '@' := by
  have hne : ∀ x, x.isAlphanum = false → c ≠ x := by
    rintro x hx rfl
    exact absurd (h.symm.trans hx) (by simp)
  exact ⟨by simp [isDelimiter, hne], hne '@' rfl⟩

/-- What may be in a host: neither `@` nor what ends a netloc. -/
theorem IsHost.char {s : Text} (h : IsHost s) (hc : c ∈ s) :
    isVisible c = true ∧ isDelimiter c = false ∧ c ≠ '@' := by
  cases h with
  | name _ _ hs =>
    have hname := hs c hc
    simp only [Bool.or_eq_true, decide_eq_true_eq] at hname
    obtain ((ha | rfl) | rfl) | rfl := hname
    · exact ⟨isVisible_of_isAlphanum ha, isDelimiter_of_isAlphanum ha⟩
    all_goals decide
  | ipv6 t _ ht =>
    obtain rfl | hmem | rfl : c = '[' ∨ c ∈ t ∨ c = ']' := by simpa using hc
    · decide
    · have haddr := ht c hmem
      simp only [Bool.or_eq_true, decide_eq_true_eq] at haddr
      obtain (ha | rfl) | rfl := haddr
      · exact ⟨isVisible_of_isAlphanum (isAlphanum_of_isHexDigit ha),
          isDelimiter_of_isAlphanum (isAlphanum_of_isHexDigit ha)⟩
      all_goals decide
    · decide

theorem IsHost.ne_nil {s : Text} (h : IsHost s) : s ≠ [] := by
  cases h with
  | name _ hne => exact hne
  | ipv6 => exact List.cons_ne_nil _ _

/-- Without a `:` it is a name. -/
theorem IsHost.not_bracket {s : Text} (h : IsHost s) (hcolon : ':' ∉ s) :
    '[' ∉ s ∧ ']' ∉ s := by
  cases h with
  | name _ _ hs =>
    exact ⟨fun hb => absurd (hs '[' hb) (by decide), fun hb => absurd (hs ']' hb) (by decide)⟩
  | ipv6 t ht _ => exact absurd (by simp [ht]) hcolon

theorem WellFormed.mem_hostAndPort (h : d.WellFormed) {host : Text}
    (hc : c ∈ d.hostAndPort host) : c ∈ host ∨ c = ':' ∨ c.isDigit = true := by
  obtain hmem | hmem := List.mem_append.mp hc
  · exact .inl hmem
  · split at hmem
    · exact absurd hmem List.not_mem_nil
    · next n hn =>
      obtain rfl | hmem := List.mem_cons.mp hmem
      · exact .inr (.inl rfl)
      · exact .inr (.inr (isDigit_of_mem_ofInt (h.port n hn).1 hmem))

theorem WellFormed.hostAndPort_char (h : d.WellFormed) {host : Text} (hd : d.host = some host)
    (hc : c ∈ d.hostAndPort host) : isVisible c = true ∧ isDelimiter c = false ∧ c ≠ '@' := by
  obtain hmem | rfl | hdigit := h.mem_hostAndPort hc
  · exact (h.host host hd).char hmem
  · decide
  · exact ⟨isVisible_of_isDigit hdigit,
      isDelimiter_of_isAlphanum (isAlphanum_of_isDigit hdigit)⟩

theorem WellFormed.auth_char (h : d.WellFormed) {username : Text} (hu : d.username = some username)
    (hc : c ∈ d.auth username) : isVisible c = true ∧ c ∉ ['@', '/', '?', '[', ']'] := by
  obtain hmem | hmem := List.mem_append.mp hc
  · exact (h.username username hu).2.1 c hmem
  · split at hmem
    · exact absurd hmem List.not_mem_nil
    · next p hp =>
      obtain rfl | hmem := List.mem_cons.mp hmem
      · decide
      · exact (h.password p hp).1 c hmem

/-- Of what ends a netloc there can be a `#` in the user information. -/
theorem WellFormed.userinfo_char (h : d.WellFormed) (hc : c ∈ d.userinfo) :
    isVisible c = true ∧ c ∉ ['/', '?', '[', ']'] := by
  unfold userinfo at hc
  split at hc
  · exact absurd hc List.not_mem_nil
  · next u hu =>
    obtain hmem | hmem := List.mem_append.mp hc
    · obtain ⟨hv, hnot⟩ := h.auth_char hu hmem
      exact ⟨hv, fun hb => hnot (List.mem_cons_of_mem _ hb)⟩
    · obtain rfl := List.mem_singleton.mp hmem
      decide

theorem WellFormed.netloc_char (h : d.WellFormed) (hc : c ∈ d.netloc) :
    isVisible c = true ∧ (isDelimiter c = true → c = '#' ∧ '#' ∈ d.userinfo) := by
  unfold netloc at hc
  split at hc
  · exact absurd hc List.not_mem_nil
  · next host hd =>
    obtain hmem | hmem := List.mem_append.mp hc
    · obtain ⟨hv, hnot⟩ := h.userinfo_char hmem
      refine ⟨hv, fun hdelim => ?_⟩
      have hsharp : c = '#' := by
        simp only [isDelimiter, Bool.or_eq_true, decide_eq_true_eq] at hdelim
        obtain (rfl | rfl) | rfl := hdelim
        · exact absurd hnot (by decide)
        · exact absurd hnot (by decide)
        · rfl
      exact ⟨hsharp, hsharp ▸ hmem⟩
    · obtain ⟨hv, hdelim, -⟩ := h.hostAndPort_char hd hmem
      exact ⟨hv, fun ht => absurd (hdelim.symm.trans ht) (by simp)⟩

/-! ### Path and query -/

theorem WellFormed.path_char (h : d.WellFormed) (hc : c ∈ d.path.getD []) :
    isVisible c = true ∧ c ≠ '?' ∧ c ≠ ';' := by
  cases hp : d.path with
  | none => simp [hp] at hc
  | some p => exact h.path p hp c (by simpa [hp] using hc)

theorem queryPart_char (hc : c ∈ d.queryPart) : isVisible c = true := by
  unfold queryPart at hc
  split at hc
  · exact absurd hc List.not_mem_nil
  obtain rfl | hmem := List.mem_cons.mp hc
  · decide
  obtain rfl | ⟨s, hs, hmem⟩ := Text.mem_intercalate hmem
  · decide
  obtain ⟨p, -, rfl⟩ := List.mem_map.mp hs
  have hquote : ∀ t : Text, c ∈ quote t → isVisible c = true := by
    intro t hct
    obtain hu | rfl := mem_quote hct
    · exact isVisible_of_isUnreserved hu
    · decide
  obtain hname | rfl | hvalue : c ∈ quote p.1 ∨ c = '=' ∨ c ∈ quote p.2 := by simpa using hmem
  · exact hquote p.1 hname
  · decide
  · exact hquote p.2 hvalue

/-- **There is nothing in the URL that `urlsplit()` drops.** -/
theorem WellFormed.clean_render (h : d.WellFormed) : clean d.render = d.render := by
  refine clean_of_isVisible fun c hc => ?_
  obtain hs | rfl | ha | hp | hq : c ∈ d.scheme ∨ c = ':' ∨ c ∈ d.authority ∨
      c ∈ d.path.getD [] ∨ c ∈ d.queryPart := by simpa [render] using hc
  · exact isVisible_of_isSchemeChar (h.scheme_char hs).1
  · decide
  · unfold authority at ha
    split at ha
    · obtain rfl | hn : c = '/' ∨ c ∈ d.netloc := by simpa using ha
      · decide
      · exact (h.netloc_char hn).1
    · exact absurd ha List.not_mem_nil
  · exact (h.path_char hp).1
  · exact queryPart_char hq

/-! ## `urlsplit()` of the URL -/

/-- What is after the netloc. -/
def rest (d : Specification) : Text := d.path.getD [] ++ d.queryPart

theorem WellFormed.splitScheme_render (h : d.WellFormed) :
    splitScheme (clean d.render) = (d.scheme, d.authority ++ d.rest) := by
  rw [h.clean_render]
  exact splitScheme_append h.scheme_head (fun c hc => h.scheme_char hc) _

theorem queryPart_head (d : Specification) : d.queryPart.head?.all isDelimiter = true := by
  unfold queryPart
  split <;> rfl

/-- After a netloc there is a delimiter, or nothing. -/
theorem WellFormed.rest_head (h : d.WellFormed) (hd : d.host.isSome = true) :
    d.rest.head?.all isDelimiter = true := by
  cases hp : d.path with
  | none => simpa [rest, hp] using d.queryPart_head
  | some p =>
    have hslash : p.head? = some '/' := by simpa [hd] using h.slash p hp
    simp [rest, hp, List.head?_append, hslash, isDelimiter]

theorem not_slash_prefix_queryPart (d : Specification) (t : Text) :
    ¬ '/' :: t <+: d.queryPart := by
  unfold queryPart
  split
  · simp
  · simp [List.cons_prefix_cons]

/-- Without a host there are no two slashes. -/
theorem WellFormed.rest_not_prefix (h : d.WellFormed) (hd : d.host = none) :
    ¬ ['/', '/'] <+: d.rest := by
  have hquery := d.not_slash_prefix_queryPart
  cases hp : d.path with
  | none => simpa [rest, hp] using hquery ['/']
  | some p =>
    have hslash : ¬ ['/', '/'] <+: p := by simpa [hd] using h.slash p hp
    match p with
    | [] => simpa [rest, hp] using hquery ['/']
    | [c] => simpa [rest, hp, List.cons_prefix_cons] using fun _ => hquery []
    | c :: e :: t => simpa [rest, hp, List.cons_prefix_cons] using hslash

theorem WellFormed.splitNetloc_render (h : d.WellFormed) (hu : '#' ∉ d.userinfo) :
    splitNetloc (d.authority ++ d.rest) = (d.netloc, d.rest) := by
  unfold authority
  split
  · next hd =>
    refine splitNetloc_append (fun c hc => ?_) (h.rest_head hd)
    by_contra hdelim
    exact hu ((h.netloc_char hc).2 (by simpa using hdelim)).2
  · next hd =>
    have hnone : d.host = none := by simpa using hd
    rw [List.nil_append, splitNetloc_of_not_prefix (h.rest_not_prefix hnone)]
    simp [netloc, hnone]

theorem WellFormed.partition_rest (h : d.WellFormed) :
    ∃ b, Text.partition '?' d.rest = (d.path.getD [], b, urlencode d.fields) := by
  have hpath : '?' ∉ d.path.getD [] := fun hc => (h.path_char hc).2.1 rfl
  unfold rest queryPart
  split
  · next hf =>
    rw [List.append_nil, Text.partition_of_not_mem hpath, hf]
    exact ⟨false, rfl⟩
  · rw [Text.partition_append hpath]
    exact ⟨true, rfl⟩

theorem WellFormed.not_bracket (h : d.WellFormed) (hh : ∀ host ∈ d.host, ':' ∉ host)
    (hc : c ∈ d.netloc) : c ≠ '[' ∧ c ≠ ']' := by
  unfold netloc at hc
  split at hc
  · exact absurd hc List.not_mem_nil
  · next host hd =>
    obtain hmem | hmem := List.mem_append.mp hc
    · have hnot := (h.userinfo_char hmem).2
      simp only [List.mem_cons, not_or] at hnot
      exact ⟨hnot.2.2.1, hnot.2.2.2.1⟩
    · obtain hmem | rfl | hdigit := h.mem_hostAndPort hmem
      · obtain ⟨hleft, hright⟩ := (h.host host hd).not_bracket (hh host hd)
        exact ⟨fun hx => hleft (hx ▸ hmem), fun hx => hright (hx ▸ hmem)⟩
      · decide
      · exact ⟨by rintro rfl; exact absurd hdigit (by decide),
          by rintro rfl; exact absurd hdigit (by decide)⟩

theorem WellFormed.netlocError_eq (h : d.WellFormed) (hh : ∀ host ∈ d.host, ':' ∉ host) :
    netlocError lib d.netloc = none := by
  have hleft : d.netloc.contains '[' = false := by
    simpa using fun hc => (h.not_bracket hh hc).1 rfl
  have hright : d.netloc.contains ']' = false := by
    simpa using fun hc => (h.not_bracket hh hc).2 rfl
  have hascii : d.netloc.all isAscii = true :=
    List.all_eq_true.mpr fun c hc => isAscii_of_isVisible (h.netloc_char hc).1
  rw [netlocError, hleft, hright, hascii]
  rfl

/-- **`urlparse()` finds the parts**, of a specification without a `#` in its user information and
without a `:` in its host. -/
theorem WellFormed.urlparse_render (h : d.WellFormed) (hu : '#' ∉ d.userinfo)
    (hh : ∀ host ∈ d.host, ':' ∉ host) :
    urlparse lib d.render = .ok ⟨d.scheme, d.netloc, d.path.getD [], urlencode d.fields⟩ := by
  obtain ⟨b, hrest⟩ := h.partition_rest
  have hparams : ';' ∉ d.path.getD [] := fun hc => (h.path_char hc).2.2 rfl
  rw [urlparse, urlsplit, h.splitScheme_render]
  simp only [h.splitNetloc_render hu, hrest, h.netlocError_eq hh]
  simp [Except.map, hparams]

/-! ## The dictionary that is read -/

/-- A parameter as it is read back, unless it is blank. -/
def reread (lib : Stdlib) (v : ParameterValue) : Option ParameterValue :=
  if v.text = [] then none else some (readValue lib v.text)

/-- The specification as it is read back. -/
def echo (lib : Stdlib) (d : Specification) : Specification :=
  { d with
    parameters := some ((d.parameters.getD []).filterMap fun p => (reread lib p.2).map (p.1, ·))
    path := ifNonempty (d.path.getD []) }

theorem WellFormed.splitOn_scheme (h : d.WellFormed) :
    d.scheme.splitOn '+' = d.type :: d.middleware := by
  have hplus : ∀ s, IsName s → '+' ∉ s := fun s hs hc => absurd (hs.2 '+' hc) (by decide)
  refine List.splitOn_intercalate '+' (fun s hs => hplus s ?_) (by simp)
  obtain rfl | hs := List.mem_cons.mp hs
  · exact h.type
  · exact h.middleware s hs

/-- The user information, by the last `@`. -/
theorem WellFormed.rpartition_netloc (h : d.WellFormed) {host : Text} (hd : d.host = some host) :
    ∃ b, Text.rpartition '@' d.netloc =
      ((d.username.map d.auth).getD [], b, d.hostAndPort host) := by
  have hat : '@' ∉ d.hostAndPort host := fun hc => (h.hostAndPort_char hd hc).2.2 rfl
  simp only [netloc, hd]
  cases hu : d.username with
  | none =>
    rw [userinfo, hu, List.nil_append, Text.rpartition_of_not_mem hat]
    exact ⟨false, rfl⟩
  | some username =>
    simp only [userinfo, hu, List.append_assoc, List.singleton_append]
    rw [Text.rpartition_append hat]
    exact ⟨true, rfl⟩

/-- Host and port, by the first `:`. -/
theorem partition_hostAndPort {host : Text} (hh : ':' ∉ host) (d : Specification) :
    ∃ b, Text.partition ':' (d.hostAndPort host) = (host, b, (d.port.map Text.ofInt).getD []) := by
  cases hn : d.port with
  | none =>
    rw [hostAndPort, hn, List.append_nil, Text.partition_of_not_mem hh]
    exact ⟨false, rfl⟩
  | some n =>
    rw [hostAndPort, hn, Text.partition_append hh]
    exact ⟨true, rfl⟩

/-- User name and password, by the first `:`. -/
theorem partition_auth {username : Text} (hu : ':' ∉ username) (d : Specification) :
    Text.partition ':' (d.auth username) =
      (username, d.password.isSome, d.password.getD []) := by
  cases hp : d.password with
  | none =>
    rw [auth, hp, List.append_nil, Text.partition_of_not_mem hu]
    rfl
  | some p =>
    rw [auth, hp, Text.partition_append hu]
    rfl

theorem readPort_ofInt (port : Option ℤ) :
    readPort lib ((port.map Text.ofInt).getD []) =
      if ∀ n ∈ port, Text.Fits lib.maxDigits n then .ok port else .error .port := by
  cases port with
  | none => rfl
  | some n =>
    have hall : (∀ m ∈ some n, Text.Fits lib.maxDigits m) ↔ Text.Fits lib.maxDigits n := by simp
    simp only [Option.map_some, Option.getD_some, readPort, Text.ofInt_ne_nil, if_false, int_ofInt,
      hall]
    by_cases hfits : Text.Fits lib.maxDigits n
    · simp only [if_pos hfits]
    · simp only [if_neg hfits]

theorem readParameters_eq {query : Text} {ps : List (Text × Text)}
    (h : parseQs lib query = ps.map fun p => (p.1, [p.2])) :
    readParameters lib query = .ok (ps.map fun p => (p.1, readValue lib p.2)) := by
  have hraw : (if query = [] then [] else parseQs lib query) = ps.map fun p => (p.1, [p.2]) := by
    split
    · next hq =>
      have hnil : parseQs lib query = [] := by simp [hq, parseQs, parseQsl, Text.partition]
      rw [← h, hnil]
    · exact h
  rw [readParameters, hraw]
  clear hraw h
  induction ps with
  | nil => rfl
  | cons p ps ih =>
    rw [List.map_cons, List.mapM_cons, ih]
    rfl

/-- The parameters that are not blank come back. -/
theorem WellFormed.readParameters_urlencode (h : d.WellFormed) :
    readParameters lib (urlencode d.fields) =
      .ok ((d.parameters.getD []).filterMap fun p => (reread lib p.2).map (p.1, ·)) := by
  have hqsl := parseQsl_urlencode lib fun p hp =>
    ⟨decodes_of_isAscii (h.ascii p hp).1, decodes_of_isAscii (h.ascii p hp).2⟩
  have hnodup : ((parseQsl lib (urlencode d.fields)).map Prod.fst).Nodup := by
    rw [hqsl]
    exact h.names.sublist (List.filter_sublist.map _)
  have hfilter : ∀ ps : List (Text × ParameterValue),
      ((ps.map fun p => (p.1, p.2.text)).filter fun p => p.2 ≠ []).map
          (fun p => (p.1, readValue lib p.2)) =
        ps.filterMap fun p => (reread lib p.2).map (p.1, ·) := by
    intro ps
    induction ps with
    | nil => rfl
    | cons p ps ih => by_cases hp : p.2.text = [] <;> simpa [reread, hp] using ih
  rw [readParameters_eq (parseQs_of_nodup hnodup), hqsl, fields, hfilter]

/-- Without a host there is nothing that belongs to one. -/
theorem WellFormed.of_host_eq_none (h : d.WellFormed) (hd : d.host = none) :
    d.username = none ∧ d.password = none ∧ d.port = none := by
  have husername : d.username = none := Option.eq_none_iff_forall_not_mem.mpr fun u hu => by
    simpa [hd] using (h.username u hu).2.2.2
  have hpassword : d.password = none := Option.eq_none_iff_forall_not_mem.mpr fun p hp => by
    simpa [husername] using (h.password p hp).2
  exact ⟨husername, hpassword, Option.eq_none_iff_forall_not_mem.mpr fun n hn => by
    simpa [hd] using (h.port n hn).2⟩

/-- The two cuts of the user information. -/
theorem WellFormed.read_auth (h : d.WellFormed) :
    let auth := (d.username.map d.auth).getD []
    let cut := Text.partition ':' auth
    (if auth = [] then none else some cut.1) = d.username ∧
      (if auth = [] ∨ cut.2.1 = false then none else some cut.2.2) = d.password := by
  cases hu : d.username with
  | none =>
    have hpassword : d.password = none := Option.eq_none_iff_forall_not_mem.mpr fun p hp => by
      simpa [hu] using (h.password p hp).2
    simp [hpassword]
  | some username =>
    obtain ⟨hne, -, hcolon, -⟩ := h.username username hu
    have hauth : d.auth username ≠ [] := fun hnil => hne (List.append_eq_nil_iff.mp hnil).1
    simp only [Option.map_some, Option.getD_some, hauth, if_false, false_or, partition_auth hcolon]
    cases d.password <;> simp

/-- **What is read**, in the cases in which the netloc is found. -/
theorem WellFormed.urlSpecificationToDict_render (h : d.WellFormed) (hu : '#' ∉ d.userinfo)
    (hh : ∀ host ∈ d.host, ':' ∉ host) :
    urlSpecificationToDict lib d.render =
      if ∀ n ∈ d.port, Text.Fits lib.maxDigits n then .ok (d.echo lib) else .error .port := by
  have hscheme : d.scheme ≠ [] := fun hnil => by simpa [hnil] using h.scheme_head
  rw [urlSpecificationToDict, h.urlparse_render hu hh]
  simp only [hscheme, if_false]
  cases hd : d.host with
  | none =>
    obtain ⟨husername, hpassword, hport⟩ := h.of_host_eq_none hd
    have hnetloc : d.netloc = [] := by simp [netloc, hd]
    simp only [ofParts, hnetloc, Text.rpartition, Text.partition, List.reverse_nil, readPort,
      if_true, h.readParameters_urlencode, h.splitOn_scheme]
    simp [echo, hd, husername, hpassword, hport, ifNonempty]
    rfl
  | some host =>
    obtain ⟨b, hat⟩ := h.rpartition_netloc hd
    obtain ⟨b', hcolon⟩ := partition_hostAndPort (hh host hd) d
    simp only [ofParts, hat, hcolon, readPort_ofInt, h.readParameters_urlencode, h.splitOn_scheme]
    have hhost : ifNonempty host = some host := if_neg (h.host host hd).ne_nil
    obtain ⟨husername, hpassword⟩ := h.read_auth
    by_cases hport : ∀ n ∈ d.port, Text.Fits lib.maxDigits n
    · simp only [if_pos hport]
      simp only [bind, Except.bind, pure, Except.pure, husername, hpassword, hhost]
      simp [echo, hd]
    · simp only [if_neg hport]
      rfl

/-! ## What does not come back -/

/-- Host and user name of what is read, by the netloc. -/
theorem netloc_of_ofParts {parts : SplitResult} {r : Specification}
    (hr : ofParts lib parts = .ok r) :
    r.host = ifNonempty (Text.partition ':' (Text.rpartition '@' parts.netloc).2.2).1 ∧
      ((Text.rpartition '@' parts.netloc).1 = [] → r.username = none) := by
  unfold ofParts at hr
  simp only at hr
  cases hport : readPort lib
      (Text.partition ':' (Text.rpartition '@' parts.netloc).2.2).2.2 with
  | error e => simp [hport, bind, Except.bind] at hr
  | ok port =>
    cases hparameters : readParameters lib parts.query with
    | error e => simp [hport, hparameters, bind, Except.bind] at hr
    | ok parameters =>
      simp only [hport, hparameters, bind, Except.bind, pure, Except.pure, Except.ok.injEq] at hr
      subst hr
      exact ⟨rfl, fun hnil => if_pos hnil⟩

/-- **A host that is read has no `:` in it.** -/
theorem not_mem_host {s : Text} {r : Specification} (hr : urlSpecificationToDict lib s = .ok r) :
    ∀ host ∈ r.host, ':' ∉ host := by
  unfold urlSpecificationToDict at hr
  split at hr
  · cases hr
  · split at hr
    · obtain rfl := Except.ok.inj hr
      exact fun host hhost => absurd hhost (by simp [ofBareName])
    · rw [(netloc_of_ofParts hr).1]
      intro host hhost
      obtain ⟨-, hcut⟩ := Option.ite_none_left_eq_some.mp hhost
      exact Option.some.inj hcut ▸ Text.not_mem_partition ':' _

/-- **A `#` ends the netloc**, and with it the user information is lost. -/
theorem WellFormed.username_eq_none (h : d.WellFormed) (hsharp : '#' ∈ d.userinfo)
    {r : Specification} (hr : urlSpecificationToDict lib d.render = .ok r) : r.username = none := by
  obtain ⟨username, hu⟩ : ∃ username, d.username = some username := by
    cases hu : d.username with
    | none => simp [userinfo, hu] at hsharp
    | some username => exact ⟨username, rfl⟩
  obtain ⟨host, hd⟩ := Option.isSome_iff_exists.mp (h.username username hu).2.2.2
  have hat : '@' ∉ d.auth username := fun hc => absurd (h.auth_char hu hc).2 (by decide)
  have hauth : '#' ∈ d.auth username := by simpa [userinfo, hu] using hsharp
  have hnetloc : '@' ∉ (splitNetloc (d.authority ++ d.rest)).1 := by
    have hurl : d.authority ++ d.rest =
        '/' :: '/' :: (d.auth username ++ ('@' :: d.hostAndPort host ++ d.rest)) := by
      simp [authority, netloc, userinfo, hd, hu]
    rw [hurl]
    exact not_mem_takeWhile hat ⟨'#', hauth, by decide⟩ _
  unfold urlSpecificationToDict at hr
  split at hr
  · cases hr
  · next parts hparts =>
    have hparse := netloc_of_urlparse hparts
    rw [h.splitScheme_render] at hparse
    split at hr
    · obtain rfl := Except.ok.inj hr
      rfl
    · refine (netloc_of_ofParts hr).2 ?_
      rw [Text.rpartition_of_not_mem (hparse ▸ hnetloc)]

/-! ## Dictionaries as lists -/

theorem lookup_map {α β γ : Type*} [BEq α] (g : β → γ) (ps : List (α × β)) (k : α) :
    (ps.map fun p => (p.1, g p.2)).lookup k = (ps.lookup k).map g := by
  induction ps with
  | nil => rfl
  | cons p ps ih =>
    obtain ⟨name, v⟩ := p
    simp only [List.map_cons, List.lookup_cons, ih]
    cases k == name <;> rfl

section

variable {α β γ : Type*} [BEq α] [LawfulBEq α] {ps : List (α × β)} {k : α}

theorem lookup_of_mem (hnd : (ps.map Prod.fst).Nodup) {p : α × β} (hp : p ∈ ps) :
    ps.lookup p.1 = some p.2 := by
  obtain ⟨before, after, rfl⟩ := List.append_of_mem hp
  refine List.lookup_eq_some_iff.mpr ⟨before, after, rfl, fun q hq => bne_iff_ne.mpr ?_⟩
  rw [List.map_append, List.map_cons] at hnd
  exact fun heq => (List.nodup_append.mp hnd).2.2 q.1 (List.mem_map_of_mem hq) p.1
    List.mem_cons_self heq.symm

theorem mem_of_lookup {v : β} (h : ps.lookup k = some v) : (k, v) ∈ ps := by
  obtain ⟨before, after, rfl, -⟩ := List.lookup_eq_some_iff.mp h
  simp

theorem lookup_filterMap (hnd : (ps.map Prod.fst).Nodup) (f : β → Option γ) (k : α) :
    (ps.filterMap fun p => (f p.2).map (p.1, ·)).lookup k = (ps.lookup k).bind f := by
  induction ps with
  | nil => rfl
  | cons p ps ih =>
    obtain ⟨name, v⟩ := p
    obtain ⟨hname, hps⟩ := List.nodup_cons.mp hnd
    by_cases hk : k = name
    · subst hk
      have hnone : ps.lookup k = none :=
        List.lookup_eq_none_iff.mpr fun q hq => bne_iff_ne.mpr fun heq =>
          hname (List.mem_map.mpr ⟨q, hq, heq.symm⟩)
      cases hf : f v with
      | none => simp [hf, ih hps, hnone]
      | some w => simp [hf]
    · have hne : (k == name) = false := by simpa using hk
      cases hf : f v with
      | none => simp [hf, ih hps, List.lookup_cons, hne]
      | some w => simp [hf, ih hps, List.lookup_cons, hne]

/-- **A dictionary stays as it is if each of its entries does.** -/
theorem lookup_filterMap_iff (hnd : (ps.map Prod.fst).Nodup) (f : β → Option β) :
    (fun k => (ps.filterMap fun p => (f p.2).map (p.1, ·)).lookup k) = (fun k => ps.lookup k) ↔
      ∀ p ∈ ps, f p.2 = some p.2 := by
  constructor
  · intro h p hp
    have hk := congrFun h p.1
    simpa only [lookup_filterMap hnd, lookup_of_mem hnd hp, Option.bind_some] using hk
  · refine fun h => funext fun k => ?_
    rw [lookup_filterMap hnd]
    cases hk : ps.lookup k with
    | none => rfl
    | some v => exact h (k, v) (mem_of_lookup hk)

end

/-! ## The round trip -/

theorem reread_eq_some {v : ParameterValue} : reread lib v = some v ↔ Keeps lib v := by
  cases v with
  | int z =>
    by_cases hfits : Text.Fits lib.maxDigits z <;>
      simp [reread, readValue, ParameterValue.text, Text.ofInt_ne_nil, int_ofInt, Keeps, hfits]
  | str s =>
    cases hint : Urllib.int lib s <;>
      simp [reread, readValue, ParameterValue.text, Keeps, hint]

theorem ifNonempty_eq (p : Option Text) : ifNonempty (p.getD []) = p ↔ p ≠ some [] := by
  cases p with
  | none => simp [ifNonempty]
  | some s => by_cases hs : s = [] <;> simp [ifNonempty, hs]

/-- A specification is read as itself if its path and its parameters are. -/
theorem WellFormed.echo_same (h : d.WellFormed) : (d.echo lib).Same d ↔
    d.path ≠ some [] ∧ ∀ ps ∈ d.parameters, ∀ p ∈ ps, Keeps lib p.2 := by
  obtain ⟨ps, hps⟩ := Option.isSome_iff_exists.mp h.parameters
  have hnd : (ps.map Prod.fst).Nodup := by
    simpa [fields, hps, Function.comp_def] using h.names
  have hparameters := lookup_filterMap_iff hnd (reread lib)
  simp only [reread_eq_some] at hparameters
  have hecho : (d.echo lib).parameters.map (fun ps name => ps.lookup name) =
      d.parameters.map (fun ps name => ps.lookup name) ↔ ∀ p ∈ ps, Keeps lib p.2 := by
    rw [← hparameters]
    simp [echo, hps]
  constructor
  · intro hsame
    refine ⟨(ifNonempty_eq d.path).mp hsame.path, fun qs hqs => ?_⟩
    obtain rfl : ps = qs := Option.some.inj (hps.symm.trans hqs)
    exact hecho.mp hsame.parameters
  · rintro ⟨hpath, hkeeps⟩
    exact ⟨rfl, rfl, hecho.mpr (hkeeps ps hps), rfl, rfl, (ifNonempty_eq d.path).mpr hpath, rfl,
      rfl⟩

/-- The host and the user information come back only if the netloc is found. -/
theorem WellFormed.survives_of_roundTrips (h : d.WellFormed) (hr : d.RoundTrips lib) :
    d.Survives lib := by
  obtain ⟨r, hr, hsame⟩ := hr
  have hh : ∀ host ∈ d.host, ':' ∉ host := hsame.host ▸ not_mem_host hr
  have hu : '#' ∉ d.userinfo := by
    intro hsharp
    have hnone := hsame.username.symm.trans (h.username_eq_none hsharp hr)
    simp [userinfo, hnone] at hsharp
  rw [h.urlSpecificationToDict_render hu hh] at hr
  split at hr
  · next hport =>
    obtain rfl := Except.ok.inj hr
    obtain ⟨hpath, hparameters⟩ := h.echo_same.mp hsame
    exact ⟨hh, hu, hport, hpath, hparameters⟩
  · cases hr

/-- **A specification that can be written as a URL comes back from it exactly if its host is not an
IPv6 literal, there is no `#` in its user information, its path is not empty, no number in it has
too many digits, and each string among its parameters is neither blank nor a number.** -/
theorem roundTrips_iff (lib : Stdlib) (d : Specification) (h : d.WellFormed) :
    d.RoundTrips lib ↔ d.Survives lib := by
  refine ⟨h.survives_of_roundTrips, fun hs => ⟨d.echo lib, ?_, ?_⟩⟩
  · rw [h.urlSpecificationToDict_render hs.userinfo hs.host, if_pos hs.port]
  · exact h.echo_same.mpr ⟨hs.path, hs.parameters⟩

/-- `tcp+log://u:@a.b:80/c?n=-1&s=%20` comes back. -/
theorem roundTrips_tcp :
    RoundTrips ⟨some 4300, id, fun _ => false, fun _ => true, fun _ => []⟩
      ⟨['t', 'c', 'p'], [['l', 'o', 'g']], some [(['n'], .int (-1)), (['s'], .str [' '])],
        some ['a', '.', 'b'], some 80, some ['/', 'c'], some ['u'], some []⟩ := by
  refine (roundTrips_iff _ _ ?_).mpr ?_
  · exact {
      type := ⟨rfl, List.all_eq_true.mp rfl⟩
      middleware := by simp [IsName]
      parameters := rfl
      names := by decide
      ascii := by
        refine List.forall_mem_cons.mpr ⟨⟨List.all_eq_true.mp rfl, List.all_eq_true.mp rfl⟩, ?_⟩
        exact List.forall_mem_singleton.mpr ⟨List.all_eq_true.mp rfl, List.all_eq_true.mp rfl⟩
      host := by
        rintro _ ⟨⟩
        exact .name _ (List.cons_ne_nil _ _) (List.all_eq_true.mp rfl)
      port := by
        rintro _ ⟨⟩
        decide
      username := by
        rintro _ ⟨⟩
        exact ⟨List.cons_ne_nil _ _, List.forall_mem_singleton.mpr (by decide), by decide, rfl⟩
      password := by
        rintro _ ⟨⟩
        exact ⟨List.forall_mem_nil _, rfl⟩
      path := by
        rintro _ ⟨⟩
        exact List.forall_mem_cons.mpr ⟨by decide, List.forall_mem_singleton.mpr (by decide)⟩
      slash := by
        rintro _ ⟨⟩
        rfl }
  · exact {
      host := by
        rintro _ ⟨⟩
        decide
      userinfo := by decide
      port := by
        rintro _ ⟨⟩
        decide
      path := by decide
      parameters := by
        rintro _ ⟨⟩ p hp
        obtain rfl | rfl : p = _ ∨ p = _ := by simpa using hp
        · show Text.Fits (some 4300) (-1)
          decide
        · exact ⟨by decide, by decide⟩ }

/-- An IPv6 literal does not come back: `tcp://[::1]`. -/
theorem ipv6_lost : ¬ ∀ lib d, d.WellFormed → RoundTrips lib d := by
  intro h
  have hd : WellFormed ⟨['t', 'c', 'p'], [], some [], some ['[', ':', ':', '1', ']'], none, none,
      none, none⟩ := {
    type := ⟨rfl, List.all_eq_true.mp rfl⟩
    middleware := by simp
    parameters := rfl
    names := by decide
    ascii := List.forall_mem_nil _
    host := by
      rintro _ ⟨⟩
      exact .ipv6 [':', ':', '1'] (by decide) (List.all_eq_true.mp rfl)
    port := by simp
    username := by simp
    password := by simp
    path := by simp
    slash := by simp }
  have hsurvives := hd.survives_of_roundTrips
    (h ⟨some 4300, id, fun _ => true, fun _ => true, fun _ => []⟩ _ hd)
  exact absurd (hsurvives.host _ rfl) (by decide)

end Specification

end FlockwaveConn
