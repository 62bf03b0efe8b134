import FlockwaveConn.Factory.Create

/-!
# Factory/BareName — the same name, with a `:` after it

`"tcp+log"` and `"tcp+log:"` are read in two ways: the first one is cut at its `+` as it stands, the
second one is a URL, whose scheme has been checked and put in lower case.  `register()` takes any
name.  So they reach the same factories only if the names can stand in a scheme and are registered
in lower case as well (`agree_iff`); otherwise the `:` stays where it is, and no name has one.
-/

namespace FlockwaveConn

open Urllib

namespace Factory

variable {F M V : Type*}

/-- A name that can be told from the rest of a specification. -/
structure IsPlainName (s : Text) : Prop where
  ne_nil : s ≠ []
  plain : ∀ c ∈ s, c ∉ [':', '+', '/', '?'] ∧ Text.isSpace c = false

/-- A factory that has been filled through `register()` and `register_middleware()`. -/
inductive Filled : Factory F M → Prop
  | init : Filled init
  | register {f : Factory F M} (h : Filled f) {name : Text} (hname : IsPlainName name) (klass : F) :
    Filled (f.register name klass)
  | registerMiddleware {f : Factory F M} (h : Filled f) {name : Text} (hname : IsPlainName name)
    (middleware : M) : Filled (f.registerMiddleware name middleware)

/-- `type` and each of `names` are registered. -/
structure Registered (f : Factory F M) (type : Text) (names : List Text) : Prop where
  type : (f.registry type).isSome = true
  names : ∀ name ∈ names, (f.middlewareRegistry name).isSome = true

/-- The names, joined by `+`. -/
def bareName (type : Text) (names : List Text) : Text := List.intercalate ['+'] (type :: names)

/-- What `create(s)` resolves to: the function it calls, and then the middleware. -/
def ResolvesTo (lib : Stdlib) (value : ParameterValue → V) (f : Factory F M) (s : Text) (func : F)
    (mws : List M) : Prop :=
  ∃ d, toDict lib value (.inl s) = .ok d ∧ f.resolve d = .ok (func, mws)

/-- **`create(s)` and `create(s + ":")` resolve to the same.** -/
def Agree (lib : Stdlib) (value : ParameterValue → V) (f : Factory F M) (s : Text) : Prop :=
  ∃ func mws, ResolvesTo lib value f s func mws ∧ ResolvesTo lib value f (s ++ [':']) func mws

/-- What is left of the type in a scheme: control characters at its beginning are dropped. -/
def schemeType (type : Text) : Text := type.dropWhile fun c => c.toNat ≤ 32

/-- The names, joined by `+`, are a scheme: an ASCII letter, and then others, digits, `-` or `.`. -/
def IsScheme (type : Text) (names : List Text) : Prop :=
  type.head?.any Char.isAlpha = true ∧ ∀ name ∈ type :: names, ∀ c ∈ name, isSchemeChar c = true

instance (type : Text) (names : List Text) : Decidable (IsScheme type names) :=
  decidable_of_iff ((type.head?.any Char.isAlpha &&
    (type :: names).all fun name => name.all isSchemeChar) = true) (by simp [IsScheme])

/-- The names can stand in a scheme, and mean the same in lower case. -/
structure ReadAlike (f : Factory F M) (type : Text) (names : List Text) : Prop where
  scheme : IsScheme (schemeType type) names
  type : f.registry ((schemeType type).map Char.toLower) = f.registry type
  names : ∀ name ∈ names,
    f.middlewareRegistry (name.map Char.toLower) = f.middlewareRegistry name

/-! ## The scheme -/

variable {f : Factory F M} {type : Text} {names : List Text} {c : Char}

theorem Filled.plain (hf : Filled f) :
    (∀ name, (f.registry name).isSome = true → IsPlainName name) ∧
      ∀ name, (f.middlewareRegistry name).isSome = true → IsPlainName name := by
  induction hf with
  | init => exact ⟨fun _ h => absurd h (by simp [Factory.init]),
      fun _ h => absurd h (by simp [Factory.init])⟩
  | @register _ _ name hname klass ih =>
    refine ⟨fun n hn => ?_, ih.2⟩
    by_cases heq : n = name
    · exact heq ▸ hname
    · exact ih.1 n (by simpa [Factory.register, heq] using hn)
  | @registerMiddleware _ _ name hname middleware ih =>
    refine ⟨ih.1, fun n hn => ?_⟩
    by_cases heq : n = name
    · exact heq ▸ hname
    · exact ih.2 n (by simpa [Factory.registerMiddleware, heq] using hn)

theorem Filled.plain_of_registered (hf : Filled f) (h : Registered f type names) :
    ∀ name ∈ type :: names, IsPlainName name :=
  List.forall_mem_cons.mpr ⟨hf.plain.1 type h.type, fun n hn => hf.plain.2 n (h.names n hn)⟩

theorem toLower_eq_plus (h : c.toLower = '+') : c = '+' := by
  unfold Char.toLower at h
  split at h
  · next hup =>
    have hcode : c.toNat ≤ 90 := UInt32.le_iff_toNat_le.mp hup.2
    have hval : (c.val + 32).toNat = 43 := congrArg Char.toNat h
    rw [UInt32.toNat_add] at hval
    change (c.toNat + 32) % 4294967296 = 43 at hval
    have hupper : 65 ≤ c.toNat := UInt32.le_iff_toNat_le.mp hup.1
    omega
  · exact h

theorem isPlainName_of_all {s : Text} (hne : s ≠ [])
    (h : s.all (fun c => decide (c ∉ [':', '+', '/', '?'] ∧ Text.isSpace c = false)) = true) :
    IsPlainName s :=
  ⟨hne, fun c hc => of_decide_eq_true (List.all_eq_true.mp h c hc)⟩

theorem IsPlainName.not_mem {s : Text} (h : IsPlainName s) : ':' ∉ s ∧ '+' ∉ s ∧ '/' ∉ s :=
  ⟨fun hc => absurd (h.plain _ hc).1 (by decide), fun hc => absurd (h.plain _ hc).1 (by decide),
    fun hc => absurd (h.plain _ hc).1 (by decide)⟩

theorem map_intercalate (g : Char → Char) (hg : g '+' = '+') (ls : List Text) :
    (List.intercalate ['+'] ls).map g = List.intercalate ['+'] (ls.map (List.map g)) := by
  induction ls with
  | nil => rfl
  | cons l ls ih =>
    cases ls with
    | nil => simp
    | cons m ls =>
      rw [List.intercalate_cons_cons, List.map_append, List.map_append, ih]
      simp [hg]

/-- What follows the type starts with a `+`. -/
theorem bareName_eq_append (names : List Text) :
    ∃ tail : Text, (∀ c ∈ tail.head?, c = '+') ∧ ∀ type, bareName type names = type ++ tail := by
  cases names with
  | nil => exact ⟨[], by simp, fun type => by simp [bareName]⟩
  | cons name names =>
    refine ⟨'+' :: List.intercalate ['+'] (name :: names), by simp, fun type => ?_⟩
    rw [bareName, List.intercalate_cons_cons, List.append_assoc]
    rfl

theorem mem_bareName (h : c ∈ bareName type names) :
    c = '+' ∨ ∃ name ∈ type :: names, c ∈ name :=
  Text.mem_intercalate h

theorem not_mem_bareName (h : ∀ name ∈ type :: names, IsPlainName name) :
    ':' ∉ bareName type names ∧ '/' ∉ bareName type names := by
  constructor
  all_goals
    intro hc
    obtain hc | ⟨name, hname, hc⟩ := mem_bareName hc
    · cases hc
  · exact (h name hname).not_mem.1 hc
  · exact (h name hname).not_mem.2.2 hc

theorem mem_of_mem_clean {s : Text} (h : c ∈ clean s) : c ∈ s :=
  (List.dropWhile_sublist _).subset (List.mem_filter.mp h).1

/-- A bare name loses the control characters at its beginning. -/
theorem clean_bareName (h : ∀ name ∈ type :: names, IsPlainName name) :
    clean (bareName type names ++ [':']) = bareName (schemeType type) names ++ [':'] := by
  obtain ⟨tail, htail, hname⟩ := bareName_eq_append names
  have hstop : (tail ++ [':']).dropWhile (fun c => decide (c.toNat ≤ 32)) = tail ++ [':'] := by
    cases tail with
    | nil => rfl
    | cons c tail =>
      obtain rfl : c = '+' := htail c rfl
      rfl
  have hdrop : (bareName type names ++ [':']).dropWhile (fun c => decide (c.toNat ≤ 32)) =
      bareName (schemeType type) names ++ [':'] := by
    rw [hname, hname, List.append_assoc, List.append_assoc, List.dropWhile_append, hstop,
      schemeType]
    split
    · next hempty => rw [List.isEmpty_iff.mp hempty, List.nil_append]
    · rfl
  rw [clean, hdrop, List.filter_eq_self]
  intro c hc
  have hspace : Text.isSpace c = false := by
    obtain hc | hc := List.mem_append.mp hc
    · obtain rfl | ⟨name, hname, hc⟩ := mem_bareName hc
      · rfl
      · obtain rfl | hname := List.mem_cons.mp hname
        · exact ((h type List.mem_cons_self).plain c ((List.dropWhile_sublist _).subset hc)).2
        · exact ((h name (List.mem_cons_of_mem type hname)).plain c hc).2
    · rw [List.mem_singleton.mp hc]
      rfl
  simp only [Bool.not_eq_true', Bool.or_eq_false_iff, decide_eq_false_iff_not]
  refine ⟨⟨?_, ?_⟩, ?_⟩ <;> rintro rfl <;> exact absurd hspace (by decide)

/-! ## What is read -/

variable {lib : Stdlib} {value : ParameterValue → V} {s rest : Text}

/-- Without a slash there is no netloc. -/
theorem urlsplit_of_not_mem (lib : Stdlib) (hs : '/' ∉ s) {scheme : Text}
    (h : splitScheme (clean s) = (scheme, rest)) (hrest : ∀ c ∈ rest, c ∈ clean s) :
    urlsplit lib s =
      .ok ⟨scheme, [], (Text.partition '?' rest).1, (Text.partition '?' rest).2.2⟩ := by
  have hnetloc : splitNetloc rest = ([], rest) := by
    refine splitNetloc_of_not_prefix fun hp => hs (mem_of_mem_clean (hrest _ ?_))
    exact hp.subset List.mem_cons_self
  simp only [urlsplit, h, hnetloc]
  rfl

/-- A specification in which no scheme is found is cut as it stands. -/
theorem urlSpecificationToDict_of_nil (hs : '/' ∉ s)
    (h : splitScheme (clean s) = ([], clean s)) :
    urlSpecificationToDict lib s = .ok (.ofBareName s) := by
  have hsplit := urlsplit_of_not_mem lib hs h fun _ hc => hc
  have hscheme : ∃ parts, urlparse lib s = .ok parts ∧ parts.scheme = [] := by
    refine ⟨_, by rw [urlparse, hsplit]; rfl, ?_⟩
    exact (apply_ite SplitResult.scheme _ _ _).trans (ite_self _)
  obtain ⟨parts, hparts, hnil⟩ := hscheme
  rw [urlSpecificationToDict, hparts]
  exact if_pos hnil

/-- A scheme and nothing else. -/
theorem urlSpecificationToDict_of_scheme (hs : '/' ∉ s) {scheme : Text} (hne : scheme ≠ [])
    (h : splitScheme (clean s) = (scheme, [])) :
    ∃ r, urlSpecificationToDict lib s = .ok r ∧ r.type = (scheme.splitOn '+').headD [] ∧
      r.middleware = (scheme.splitOn '+').tail := by
  have hsplit := urlsplit_of_not_mem lib hs h fun _ hc => by cases hc
  have hparts : urlparse lib s = .ok ⟨scheme, [], [], []⟩ := by
    rw [urlparse, hsplit]
    simp [Except.map, Text.partition]
  rw [urlSpecificationToDict, hparts]
  simp only [hne, if_false]
  exact ⟨_, rfl, rfl, rfl⟩

/-- The scheme of a bare name with a `:` after it. -/
theorem splitScheme_bareName (hcolon : ':' ∉ bareName type names) :
    splitScheme (bareName type names ++ [':']) =
      if IsScheme type names then
        (bareName (type.map Char.toLower) (names.map (List.map Char.toLower)), [])
      else ([], bareName type names ++ [':']) := by
  have hhead : (bareName type names).head?.any Char.isAlpha = type.head?.any Char.isAlpha := by
    obtain ⟨tail, htail, hname⟩ := bareName_eq_append names
    rw [hname]
    cases type with
    | cons c type => rfl
    | nil =>
      cases tail with
      | nil => rfl
      | cons c tail =>
        obtain rfl : c = '+' := htail c rfl
        rfl
  have hchars : (bareName type names).all isSchemeChar = true ↔
      ∀ name ∈ type :: names, ∀ c ∈ name, isSchemeChar c = true := by
    rw [List.all_eq_true]
    constructor
    · exact fun h name hname c hc => h c (Text.mem_intercalate_of_mem hname hc)
    · intro h c hc
      obtain rfl | ⟨name, hname, hc⟩ := mem_bareName hc
      · rfl
      · exact h name hname c hc
  have hscheme : ((bareName type names).head?.any Char.isAlpha &&
      (bareName type names).all isSchemeChar) = true ↔ IsScheme type names := by
    rw [Bool.and_eq_true, hhead, hchars, IsScheme]
  rw [splitScheme, Text.partition_append hcolon]
  simp only [hscheme]
  split
  · rw [bareName, map_intercalate _ rfl]
    rfl
  · rfl

section

variable (h : ∀ name ∈ type :: names, IsPlainName name)
include h

theorem not_mem_colon : ':' ∉ bareName (schemeType type) names ∧
    '/' ∉ bareName type names ++ [':'] := by
  constructor
  · intro hc
    obtain hc | ⟨name, hname, hc⟩ := mem_bareName hc
    · cases hc
    · obtain rfl | hname := List.mem_cons.mp hname
      · exact (h type List.mem_cons_self).not_mem.1 ((List.dropWhile_sublist _).subset hc)
      · exact (h name (List.mem_cons_of_mem type hname)).not_mem.1 hc
  · simpa using (not_mem_bareName h).2

theorem splitScheme_clean_bareName :
    splitScheme (clean (bareName type names ++ [':'])) =
      if IsScheme (schemeType type) names then
        (bareName ((schemeType type).map Char.toLower) (names.map (List.map Char.toLower)), [])
      else ([], clean (bareName type names ++ [':'])) := by
  rw [clean_bareName h, splitScheme_bareName (not_mem_colon h).1]

/-- **What is read of a bare name with a `:` after it**, if it is a scheme… -/
theorem urlSpecificationToDict_of_isScheme (lib : Stdlib)
    (hscheme : IsScheme (schemeType type) names) :
    ∃ r, urlSpecificationToDict lib (bareName type names ++ [':']) = .ok r ∧
      r.type = (schemeType type).map Char.toLower ∧
      r.middleware = names.map (List.map Char.toLower) := by
  have hsplit := splitScheme_clean_bareName h
  rw [if_pos hscheme] at hsplit
  have hlower : ∀ s : Text, '+' ∉ s → '+' ∉ s.map Char.toLower := by
    intro s hs hmem
    obtain ⟨c, hc, hlow⟩ := List.mem_map.mp hmem
    exact hs (toLower_eq_plus hlow ▸ hc)
  have hnames : (bareName ((schemeType type).map Char.toLower)
      (names.map (List.map Char.toLower))).splitOn '+' =
        (schemeType type).map Char.toLower :: names.map (List.map Char.toLower) := by
    refine List.splitOn_intercalate '+' (List.forall_mem_cons.mpr ⟨?_, ?_⟩) (by simp)
    · exact hlower _ fun hc => (h type List.mem_cons_self).not_mem.2.1
        ((List.dropWhile_sublist _).subset hc)
    · exact List.forall_mem_map.mpr fun name hname =>
        hlower name (h name (List.mem_cons_of_mem type hname)).not_mem.2.1
  have hne : bareName ((schemeType type).map Char.toLower)
      (names.map (List.map Char.toLower)) ≠ [] := by
    intro hnil
    rw [hnil] at hnames
    have hhead : schemeType type = [] := List.map_eq_nil_iff.mp (List.cons.inj hnames).1.symm
    exact absurd hscheme.1 (by simp [hhead])
  obtain ⟨r, hr, htype, hmiddleware⟩ :=
    urlSpecificationToDict_of_scheme (not_mem_colon h).2 hne hsplit
  exact ⟨r, hr, by rw [htype, hnames]; rfl, by rw [hmiddleware, hnames]; rfl⟩

/-- …and if it is not. -/
theorem urlSpecificationToDict_of_not_isScheme (hscheme : ¬ IsScheme (schemeType type) names) :
    urlSpecificationToDict lib (bareName type names ++ [':']) =
      .ok (.ofBareName (bareName type names ++ [':'])) := by
  refine urlSpecificationToDict_of_nil (not_mem_colon h).2 ?_
  rw [splitScheme_clean_bareName h, if_neg hscheme]

/-- The bare name by itself is cut at its `+`. -/
theorem urlSpecificationToDict_bareName :
    urlSpecificationToDict lib (bareName type names) = .ok (.ofBareName (bareName type names)) := by
  obtain ⟨hcolon, hslash⟩ := not_mem_bareName h
  refine urlSpecificationToDict_of_nil hslash ?_
  rw [splitScheme, Text.partition_of_not_mem fun hc => hcolon (mem_of_mem_clean hc)]

end

/-! ## What is looked up -/

theorem resolvesTo_iff_of_ok {func : F} {mws : List M} {r : Specification}
    (hr : urlSpecificationToDict lib s = .ok r) :
    ResolvesTo lib value f s func mws ↔
      f.registry r.type = some func ∧ r.middleware.map f.middlewareRegistry = mws.map some := by
  have hd : toDict lib value (.inl s) = .ok (r.toDict value) := by rw [toDict, hr]
  have hresolve : ResolvesTo lib value f s func mws ↔
      f.resolve (r.toDict value) = .ok (func, mws) := by
    refine ⟨?_, fun h => ⟨_, hd, h⟩⟩
    rintro ⟨d, hd', h⟩
    obtain rfl := Except.ok.inj (hd.symm.trans hd')
    exact h
  rw [hresolve, resolve_eq_ok]
  rfl

/-- A specification that is cut as it stands and has a `:` in it is not found. -/
theorem Filled.not_resolvesTo (hf : Filled f) (hs : ':' ∈ s)
    (hr : urlSpecificationToDict lib s = .ok (.ofBareName s)) (func : F) (mws : List M) :
    ¬ ResolvesTo lib value f s func mws := by
  rw [resolvesTo_iff_of_ok hr]
  rintro ⟨htype, hmiddleware⟩
  obtain ⟨name, rest, hsplit⟩ := List.exists_cons_of_ne_nil (List.splitOn_ne_nil '+' s)
  simp only [Specification.ofBareName, hsplit, List.headD_cons, List.tail_cons]
    at htype hmiddleware
  have hjoin : List.intercalate ['+'] (name :: rest) = s :=
    hsplit ▸ List.intercalate_splitOn '+'
  have hregistered : Registered f name rest := by
    refine ⟨by rw [htype]; rfl, fun m hm => ?_⟩
    have hmem := List.mem_map_of_mem (f := f.middlewareRegistry) hm
    rw [hmiddleware] at hmem
    obtain ⟨mw, -, hmw⟩ := List.mem_map.mp hmem
    exact Option.isSome_iff_exists.mpr ⟨mw, hmw.symm⟩
  rw [← hjoin] at hs
  obtain hc | ⟨m, hm, hc⟩ := Text.mem_intercalate hs
  · cases hc
  · exact (hf.plain_of_registered hregistered m hm).not_mem.1 hc

theorem Registered.exists_map (h : Registered f type names) :
    ∃ (func : F) (mws : List M),
      f.registry type = some func ∧ names.map f.middlewareRegistry = mws.map some := by
  obtain ⟨func, hfunc⟩ := Option.isSome_iff_exists.mp h.type
  have hmws : names.map f.middlewareRegistry ∈ Set.range (List.map some) := by
    rw [Set.range_list_map]
    refine List.forall_mem_map.mpr fun name hname => ?_
    obtain ⟨mw, hmw⟩ := Option.isSome_iff_exists.mp (h.names name hname)
    exact ⟨mw, hmw.symm⟩
  obtain ⟨mws, hmws⟩ := hmws
  exact ⟨func, mws, hfunc, hmws.symm⟩

/-- **A bare name means the same with a `:` after it exactly if its names can stand in a scheme,
and are registered in lower case as what they are.** -/
theorem agree_iff (lib : Stdlib) (value : ParameterValue → V) (f : Factory F M) (hf : Filled f)
    (type : Text) (names : List Text) (h : Registered f type names) :
    Agree lib value f (bareName type names) ↔ ReadAlike f type names := by
  have hplain := hf.plain_of_registered h
  have hsplit : (bareName type names).splitOn '+' = type :: names :=
    List.splitOn_intercalate '+' (fun name hname => (hplain name hname).not_mem.2.1) (by simp)
  have hbare : ∀ func mws, ResolvesTo lib value f (bareName type names) func mws ↔
      f.registry type = some func ∧ names.map f.middlewareRegistry = mws.map some := by
    intro func mws
    rw [resolvesTo_iff_of_ok (urlSpecificationToDict_bareName hplain)]
    simp only [Specification.ofBareName, hsplit, List.headD_cons, List.tail_cons]
  by_cases hscheme : IsScheme (schemeType type) names
  · obtain ⟨r, hr, htype, hmiddleware⟩ :=
      urlSpecificationToDict_of_isScheme hplain lib hscheme
    have hcolon : ∀ func mws, ResolvesTo lib value f (bareName type names ++ [':']) func mws ↔
        f.registry ((schemeType type).map Char.toLower) = some func ∧
          names.map (fun name => f.middlewareRegistry (name.map Char.toLower)) = mws.map some := by
      intro func mws
      rw [resolvesTo_iff_of_ok hr, htype, hmiddleware, List.map_map]
      rfl
    simp only [Agree, hbare, hcolon]
    constructor
    · rintro ⟨func, mws, ⟨hfunc, hmws⟩, hfunc', hmws'⟩
      exact ⟨hscheme, hfunc'.trans hfunc.symm, List.map_inj_left.mp (hmws'.trans hmws.symm)⟩
    · intro ha
      obtain ⟨func, mws, hfunc, hmws⟩ := h.exists_map
      exact ⟨func, mws, ⟨hfunc, hmws⟩, ha.type.trans hfunc,
        (List.map_inj_left.mpr ha.names).trans hmws⟩
  · refine iff_of_false ?_ fun ha => hscheme ha.scheme
    rintro ⟨func, mws, -, hcolon⟩
    exact hf.not_resolvesTo (by simp) (urlSpecificationToDict_of_not_isScheme hplain hscheme)
      func mws hcolon

/-- Registered in lower case, names mean the same: `"tcp+log"` and `"tcp+log:"`. -/
theorem agree_tcp :
    Agree ⟨some 4300, id, fun _ => false, fun _ => true, fun _ => []⟩ id
      ((init.register "tcp".toList "tcp").registerMiddleware "log".toList "log")
      (bareName "tcp".toList ["log".toList]) := by
  have htcp : IsPlainName "tcp".toList := isPlainName_of_all (by decide) rfl
  have hlog : IsPlainName "log".toList := isPlainName_of_all (by decide) rfl
  refine (agree_iff _ id _ ((Filled.init.register htcp "tcp").registerMiddleware hlog "log") _ _
    ⟨rfl, List.forall_mem_singleton.mpr rfl⟩).mpr ?_
  exact {
    scheme := ⟨rfl, List.forall_mem_cons.mpr ⟨List.all_eq_true.mp rfl,
      List.forall_mem_singleton.mpr (List.all_eq_true.mp rfl)⟩⟩
    type := rfl
    names := List.forall_mem_singleton.mpr rfl }

/-- A name in upper case is not found with a `:` after it: `"TCP:"`. -/
theorem upperCase_lost : ¬ ∀ (lib : Stdlib) (f : Factory String String) (type : Text)
    (names : List Text), Filled f → Registered f type names →
      Agree lib id f (bareName type names) := by
  intro h
  have htcp : IsPlainName "TCP".toList := isPlainName_of_all (by decide) rfl
  have hfilled : Filled (init.register "TCP".toList "tcp" : Factory String String) :=
    .register .init htcp "tcp"
  have hregistered : Registered (init.register "TCP".toList "tcp" : Factory String String)
      "TCP".toList [] := ⟨rfl, List.forall_mem_nil _⟩
  have ha := (agree_iff _ _ _ hfilled _ _ hregistered).mp
    (h ⟨some 4300, id, fun _ => false, fun _ => true, fun _ => []⟩ _ _ _ hfilled hregistered)
  exact absurd ha.type (by decide)

end Factory

end FlockwaveConn
