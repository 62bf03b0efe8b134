import Mathlib.Data.List.Basic

/-!
# Machinery/Arguments — how the arguments of a call reach the parameters of a function

A function in Python may take any number of arguments beyond its own parameters, by position in
`*args` and by keyword in `**kwds`.  But a keyword that is the name of a parameter does not get into
`**kwds`, and it is an error if that parameter has got its value by position already: the names of
the parameters are taken (`bind_of_clash`), and all other keywords go through (`bind_of_disjoint`).
-/

/-- The parameters of a function that takes `*args` and `**kwds` as well. -/
structure Signature (ι : Type*) where
  /-- They are given by position or by keyword. -/
  required : List ι
  /-- They have default values, and come after `*args`. -/
  keywordOnly : List ι

namespace Signature

/-- A `TypeError`. -/
inductive BindError (ι : Type*)
  | multipleValues (name : ι)
  | missing (name : ι)
  deriving DecidableEq, Repr

/-- What the function gets. -/
structure Bound (ι V : Type*) where
  /-- Its parameters, but for those that keep their default values. -/
  named : ι → Option V
  args : List V
  kwds : List (ι × V)

variable {ι V : Type*} [DecidableEq ι]

/-- `f(…, name=value, **kwds)`: the keywords that the call gives. -/
def spread (given kwds : List (ι × V)) : Except (BindError ι) (List (ι × V)) :=
  match kwds.find? fun p => p.1 ∈ given.map Prod.fst with
  | some p => .error (.multipleValues p.1)
  | none => .ok (given ++ kwds)

/-- A call of the function. -/
def bind (sig : Signature ι) (args : List V) (kwds : List (ι × V)) :
    Except (BindError ι) (Bound ι V) :=
  let positional := sig.required.zip args
  match kwds.find? fun p => p.1 ∈ positional.map Prod.fst with
  | some p => .error (.multipleValues p.1)
  | none =>
    match sig.required.find? fun n => ((positional ++ kwds).lookup n).isNone with
    | some n => .error (.missing n)
    | none => .ok {
        named n :=
          if n ∈ sig.required ∨ n ∈ sig.keywordOnly then (positional ++ kwds).lookup n else none
        args := args.drop sig.required.length
        kwds := kwds.filter fun p => p.1 ∉ sig.required ∧ p.1 ∉ sig.keywordOnly }

variable {sig : Signature ι} {args : List V} {given kwds : List (ι × V)} {n : ι}

theorem find?_eq_none_iff {names : List ι} :
    (kwds.find? fun p => p.1 ∈ names) = none ↔ ∀ n ∈ names, n ∉ kwds.map Prod.fst := by
  simp only [List.find?_eq_none, decide_eq_true_eq, List.mem_map, not_exists, not_and]
  exact ⟨fun h n hn p hp hpn => h p hp (hpn ▸ hn), fun h p hp hn => h p.1 hn p hp rfl⟩

theorem spread_of_disjoint (h : ∀ n ∈ given.map Prod.fst, n ∉ kwds.map Prod.fst) :
    spread given kwds = .ok (given ++ kwds) := by
  rw [spread, find?_eq_none_iff.mpr h]

/-- Keywords that are no parameter get into `**kwds`. -/
theorem filter_of_disjoint (hrequired : ∀ n ∈ sig.required, n ∉ kwds.map Prod.fst)
    (hkeywordOnly : ∀ n ∈ sig.keywordOnly, n ∉ kwds.map Prod.fst) :
    (kwds.filter fun p => p.1 ∉ sig.required ∧ p.1 ∉ sig.keywordOnly) = kwds := by
  refine List.filter_eq_self.mpr fun p hp => decide_eq_true ?_
  have hkey : p.1 ∈ kwds.map Prod.fst := List.mem_map_of_mem hp
  exact ⟨fun hn => hrequired p.1 hn hkey, fun hn => hkeywordOnly p.1 hn hkey⟩

/-- …and one that is a parameter does not. -/
theorem filter_cons_of_mem (hn : n ∈ sig.keywordOnly) (v : V) :
    (((n, v) :: kwds).filter fun p => p.1 ∉ sig.required ∧ p.1 ∉ sig.keywordOnly) =
      kwds.filter fun p => p.1 ∉ sig.required ∧ p.1 ∉ sig.keywordOnly :=
  List.filter_cons_of_neg (by simp [hn])

variable (hlen : sig.required.length ≤ args.length)
include hlen

/-- A keyword that names a parameter with a value is an error… -/
theorem bind_of_clash (hn : n ∈ sig.required) (hkey : n ∈ kwds.map Prod.fst) :
    ∃ e, sig.bind args kwds = .error e := by
  have hclash : (kwds.find? fun p => p.1 ∈ (sig.required.zip args).map Prod.fst) ≠ none := by
    rw [List.map_fst_zip hlen]
    exact fun h => find?_eq_none_iff.mp h n hn hkey
  obtain ⟨p, hp⟩ := Option.ne_none_iff_exists'.mp hclash
  exact ⟨.multipleValues p.1, by rw [bind, hp]⟩

/-- **…and where there is none, everything else goes through.** -/
theorem bind_of_disjoint (h : ∀ n ∈ sig.required, n ∉ kwds.map Prod.fst) :
    sig.bind args kwds = .ok {
      named n := if n ∈ sig.required ∨ n ∈ sig.keywordOnly then
        (sig.required.zip args ++ kwds).lookup n else none
      args := args.drop sig.required.length
      kwds := kwds.filter fun p => p.1 ∉ sig.required ∧ p.1 ∉ sig.keywordOnly } := by
  have hdisjoint : (kwds.find? fun p => p.1 ∈ (sig.required.zip args).map Prod.fst) = none := by
    rw [List.map_fst_zip hlen]
    exact find?_eq_none_iff.mpr h
  have hgiven : (sig.required.find? fun n =>
      ((sig.required.zip args ++ kwds).lookup n).isNone) = none := by
    refine List.find?_eq_none.mpr fun n hn hnone => ?_
    rw [← List.map_fst_zip hlen] at hn
    obtain ⟨p, hp, rfl⟩ := List.mem_map.mp hn
    have hlookup := List.lookup_eq_none_iff.mp (Option.isNone_iff_eq_none.mp hnone) p
    simp [hp] at hlookup
  rw [bind, hdisjoint]
  dsimp only
  rw [hgiven]

end Signature
