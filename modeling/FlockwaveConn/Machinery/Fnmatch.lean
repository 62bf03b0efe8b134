import FlockwaveConn.Machinery.Text

/-!
# Machinery/Fnmatch — glob patterns

`fnmatch()` where upper and lower case are different: `*` is any text, `?` any character, `[seq]` a
character in `seq`, and `[!seq]` one that is not; in `seq`, `a-z` is a range.  A `[` that nothing
closes is itself, and so is every other character.
-/

namespace Fnmatch

/-- A part of a pattern. -/
inductive Item
  | star
  | any
  | chars (negated : Bool) (ranges : List (Char × Char))
  | lit (c : Char)
  deriving DecidableEq, Repr

/-- What is between brackets; a single character is a range of its own. -/
def ranges : Text → List (Char × Char)
  | lo :: '-' :: hi :: s => (lo, hi) :: ranges s
  | c :: s => (c, c) :: ranges s
  | [] => []

/-- What follows a `[`, if it is closed, and how many characters there are up to the `]`. -/
def readSeq (s : Text) : Option (Item × ℕ) :=
  let negated := s.head? == some '!'
  let seq := if negated then s.tail else s
  -- a `]` does not close the brackets if it comes first
  let first := if seq.head? == some ']' then [']'] else []
  match Text.partition ']' (seq.drop first.length) with
  | (rest, true, _) =>
    some (.chars negated (ranges (first ++ rest)),
      (if negated then 1 else 0) + first.length + rest.length + 1)
  | _ => none

/-- `translate()`, with the number of characters that have been read already. -/
def translateFrom : ℕ → Text → List Item
  | _, [] => []
  | n + 1, _ :: s => translateFrom n s
  | 0, c :: s =>
    if c = '*' then .star :: translateFrom 0 s
    else if c = '?' then .any :: translateFrom 0 s
    else if c = '[' then
      match readSeq s with
      | some (item, n) => item :: translateFrom n s
      | none => .lit c :: translateFrom 0 s
    else .lit c :: translateFrom 0 s

def Item.accepts (c : Char) : Item → Bool
  | .star => false
  | .any => true
  | .chars negated ranges => (ranges.any fun r => r.1 ≤ c && c ≤ r.2) != negated
  | .lit d => c = d

/-- The whole text matches. -/
def matchItems : List Item → Text → Bool
  | [], s => s.isEmpty
  | .star :: items, s => s.tails.any (matchItems items)
  | _ :: _, [] => false
  | item :: items, c :: s => item.accepts c && matchItems items s

end Fnmatch

/-- `fnmatch(name, pat)` -/
def fnmatch (name pat : Text) : Bool := Fnmatch.matchItems (Fnmatch.translateFrom 0 pat) name

/-- **A pattern without `*`, `?` and `[` matches itself only.** -/
theorem fnmatch_of_plain {pat : Text} (h : ∀ c ∈ pat, c ∉ ['*', '?', '[']) (name : Text) :
    fnmatch name pat = decide (name = pat) := by
  unfold fnmatch
  induction pat generalizing name with
  | nil => cases name <;> simp [Fnmatch.translateFrom, Fnmatch.matchItems]
  | cons c pat ih =>
    obtain ⟨hc, hpat⟩ := List.forall_mem_cons.mp h
    have htranslate :
        Fnmatch.translateFrom 0 (c :: pat) = .lit c :: Fnmatch.translateFrom 0 pat := by
      simp only [List.mem_cons, List.not_mem_nil, or_false, not_or] at hc
      rw [Fnmatch.translateFrom, if_neg hc.1, if_neg hc.2.1, if_neg hc.2.2]
    rw [htranslate]
    cases name with
    | nil => simp [Fnmatch.matchItems]
    | cons d name => simp [Fnmatch.matchItems, Fnmatch.Item.accepts, ih hpat]

example : fnmatch "u-blox 7".toList "[t-v]-*x ?".toList = true := by decide
