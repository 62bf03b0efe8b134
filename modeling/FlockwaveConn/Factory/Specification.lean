import FlockwaveConn.Machinery.Urllib

/-!
# Factory/Specification — from a URL to a dictionary

`Factory._url_specification_to_dict()` takes a URL apart by hand where `urlparse()` stops: it cuts
the netloc at its last `@` and what is after that at its first `:`, and turns a parameter into an
integer wherever `int()` can read it.
-/

namespace FlockwaveConn

open Urllib

/-- A parameter. -/
inductive ParameterValue
  | int (z : ℤ)
  | str (s : Text)
  deriving DecidableEq, Repr

/-- A specification in the form of a dictionary; `none` stands for a key that is not there. -/
structure Specification where
  type : Text
  middleware : List Text
  /-- The entries in the order in which they were made. -/
  parameters : Option (List (Text × ParameterValue))
  host : Option Text
  port : Option ℤ
  path : Option Text
  username : Option Text
  password : Option Text
  deriving DecidableEq, Repr

/-- The `ValueError`s of `_url_specification_to_dict()`. -/
inductive SpecificationError
  | url (e : UrlError)
  /-- `int(port)` -/
  | port
  /-- "repeated parameters are not supported" -/
  | repeatedParameters
  deriving DecidableEq, Repr

namespace Specification

/-- `if s: result[key] = s` -/
def ifNonempty (s : Text) : Option Text := if s = [] then none else some s

/-- `int(port) if port else None` -/
def readPort (lib : Stdlib) (port : Text) : Except SpecificationError (Option ℤ) :=
  if port = [] then .ok none
  else match int lib port with
    | some n => .ok (some n)
    | none => .error .port

/-- A value, turned into an integer where applicable. -/
def readValue (lib : Stdlib) (v : Text) : ParameterValue :=
  match int lib v with
  | some z => .int z
  | none => .str v

/-- The loop over the raw parameters. -/
def readParameters (lib : Stdlib) (query : Text) :
    Except SpecificationError (List (Text × ParameterValue)) :=
  (if query = [] then [] else parseQs lib query).mapM fun p =>
    match p.2 with
    | [v] => .ok (p.1, readValue lib v)
    | _ => .error .repeatedParameters

/-- A specification without a `:`, which is taken for a URL scheme. -/
def ofBareName (specification : Text) : Specification where
  type := (specification.splitOn '+').headD []
  middleware := (specification.splitOn '+').tail
  parameters := none
  host := none
  port := none
  path := none
  username := none
  password := none

/-- The dictionary of the parts of a URL. -/
def ofParts (lib : Stdlib) (parts : SplitResult) : Except SpecificationError Specification :=
  let (auth, _, hostAndPort) := Text.rpartition '@' parts.netloc
  let (host, _, port) := Text.partition ':' hostAndPort
  let (username, sep, password) := Text.partition ':' auth
  do
    let port ← readPort lib port
    let parameters ← readParameters lib parts.query
    return {
      type := (parts.scheme.splitOn '+').headD []
      middleware := (parts.scheme.splitOn '+').tail
      parameters := some parameters
      host := ifNonempty host
      port := port
      path := ifNonempty parts.path
      username := if auth = [] then none else some username
      password := if auth = [] ∨ sep = false then none else some password }

end Specification

/-- `Factory._url_specification_to_dict()` -/
def urlSpecificationToDict (lib : Stdlib) (specification : Text) :
    Except SpecificationError Specification :=
  match urlparse lib specification with
  | .error e => .error (.url e)
  | .ok parts =>
    if parts.scheme = [] then .ok (.ofBareName specification)
    else Specification.ofParts lib parts

end FlockwaveConn
