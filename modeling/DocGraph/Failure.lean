import DocGraph.Json.Writer

/-!
Failures of a whole run, and the responses that tell of them.
-/
namespace DocGraph

inductive Failure where
  | invalidArguments (reason : String) (details : Option Json)
  | fileNotFound (path : String)
  /-- A module has no place among the packages. -/
  | moduleRegistration (name reason : String)
  | internal (reason : String)

namespace Failure

def message : Failure → String
  | .invalidArguments reason _ => "invalid arguments: " ++ reason
  | .fileNotFound path => "file not found: " ++ path
  | .moduleRegistration name reason => "cannot register module '" ++ name ++ "': " ++ reason
  | .internal reason => "internal error: " ++ reason

/-- The number by which callers tell failures apart; it is also the exit code. -/
def code : Failure → Nat
  | .invalidArguments _ _ => 2
  | .fileNotFound _ => 3
  | .moduleRegistration _ _ => 3
  | .internal _ => 10

def details? : Failure → Option Json
  | .invalidArguments _ details => details.map Json.sortKeys
  | .moduleRegistration name _ => some (.obj [("module", .str name)])
  | _ => none

end Failure

namespace Response

def schemaVersion : String := "1"

/-- The fields that open every response. -/
def header (status : String) : List (String × Json) :=
  [("status", .str status), ("schema_version", .str schemaVersion)]

def ofFailure (failure : Failure) : Json :=
  let details := failure.details?.toList.map fun details => ("details", details)
  .obj (header "error"
    ++ [("error", .obj ([("code", .nat failure.code), ("message", .str failure.message)] ++ details))])

/-- A response as it is printed. -/
def print (isCompact : Bool) (response : Json) : String :=
  (if isCompact then response.compact else response.pretty) ++ "\n"

end Response

end DocGraph
