/-
# JSON values

Whole numbers and doubles are different numbers. An object is a list of fields;
`Json.ofFields` keeps one field for each key, the last one given, in the order
of the keys.

Key definitions: `Json`, `Json.Number`, `Json.ofFields`, `Json.field?`.
-/
import TaskHost.Binary64

namespace TaskHost

/-- A number: a whole one, or a double. -/
inductive Json.Number where
  | whole (n : Int)
  | binary (x : Binary64)
  deriving DecidableEq, Repr

/-- A JSON value. -/
inductive Json where
  | null
  | bool (b : Bool)
  | number (n : Json.Number)
  | string (s : String)
  | array (items : List Json)
  | object (fields : List (String × Json))
  deriving Repr, Inhabited

namespace Json

/-- The whole number `n`. -/
def nat (n : Nat) : Json := .number (.whole n)

/-- Puts a field at its place in the order of keys, instead of one of the same
key. -/
def insertField (key : String) (value : Json) : List (String × Json) → List (String × Json)
  | [] => [(key, value)]
  | (k, v) :: rest =>
    if key < k then (key, value) :: (k, v) :: rest
    else if key = k then (key, value) :: rest
    else (k, v) :: insertField key value rest

/-- The object of the given fields, of which the last one of each key counts. -/
def ofFields (fields : List (String × Json)) : Json :=
  .object (fields.foldl (fun acc f => insertField f.1 f.2 acc) [])

/-- The value of a field of an object. -/
def field? (j : Json) (key : String) : Option Json :=
  match j with
  | .object fields => fields.lookup key
  | _ => none

end Json
end TaskHost
