/-
# Reading values of a wanted kind

A decoder reads one value of a wanted kind from the front of a text and gives
what follows it. Where another kind of value stands, the fault names what was
found. A record is written as an object, whose unknown fields are passed over, or
as an array of its fields in order.

Fuel bounds the number of items, fields and values in a row; every one of them
takes at least a character, so the length of the text is enough.

Key definitions: `Json.Decoder`, `Json.mismatch`, `Json.passValue`,
`Json.readText`, `Json.readNatural`, `Json.readOption`, `Json.readList`,
`Json.readPair`, `Json.Field`, `Json.readRecord`, `Json.Column`, `Json.readRecord1`,
`Json.readRecord2`, `Json.readRecord3`, `Json.readVariant`, `Json.decode`.
-/
import TaskHost.Json.Scanner

namespace TaskHost
namespace Json

/-- Reads a value from the front of a text. -/
abbrev Decoder (α : Type) := List Char → Except Fault (α × List Char)

/-- Whether a number can begin with the character. -/
def beginsNumber (c : Char) : Bool := c = '-' || c.isDigit

/-- The value that stands where another kind was wanted. Scalars are read; of
arrays and objects the bracket tells enough. -/
def scanFound (s : List Char) : Except Fault (Found × List Char) :=
  match s with
  | 'n' :: rest => do return (.null, ← scanWord ['u', 'l', 'l'] rest)
  | 't' :: rest => do return (.bool true, ← scanWord ['r', 'u', 'e'] rest)
  | 'f' :: rest => do return (.bool false, ← scanWord ['a', 'l', 's', 'e'] rest)
  | '"' :: rest => do
    let (cs, after) ← scanString rest
    return (.string (String.ofList cs), after)
  | '[' :: _ => return (.sequence, s)
  | '\x7b' :: _ => return (.map, s)
  | c :: _ =>
    if beginsNumber c then do
      let (n, after) ← scanNumber s
      return (.number n, after)
    else throw (.peeked .expectedValue s)
  | [] => throw (.peeked .expectedValue s)

/-- The fault of a value that is not of the wanted kind. -/
def mismatch (wanted : String) (s : List Char) : Fault :=
  match scanFound s with
  | .ok (found, after) => .taken (.invalidType found wanted) after
  | .error f => f

/-- The text from the first character of a value on. -/
def valueStart (s : List Char) : Except Fault (List Char) :=
  match skipBlanks s with
  | [] => .error (.taken .endInValue [])
  | s => .ok s

/-! ### Passing over values -/

/-- The text after a colon. -/
def passColon (s : List Char) : Except Fault (List Char) :=
  match skipBlanks s with
  | ':' :: rest => .ok rest
  | [] => .error (.taken .endInObject [])
  | s => .error (.peeked .expectedColon s)

/-- The opening quote of a key, passed. -/
def passKeyQuote (s : List Char) : Except Fault (List Char) :=
  match skipBlanks s with
  | '"' :: rest => .ok rest
  | [] => .error (.taken .endInObject [])
  | s => .error (.peeked .keyMustBeString s)

mutual

/-- Passes over a value. -/
def passValue : Nat → List Char → Except Fault (List Char)
  | 0, s => .error (.taken .endInValue s)
  | fuel + 1, s =>
    match skipBlanks s with
    | [] => .error (.taken .endInValue [])
    | 'n' :: rest => scanWord ['u', 'l', 'l'] rest
    | 't' :: rest => scanWord ['r', 'u', 'e'] rest
    | 'f' :: rest => scanWord ['a', 'l', 's', 'e'] rest
    | '"' :: rest => passString rest
    | '[' :: rest =>
      match skipBlanks rest with
      | ']' :: after => .ok after
      | [] => .error (.taken .endInList [])
      | _ => passItems fuel rest
    | '\x7b' :: rest =>
      match skipBlanks rest with
      | '\x7d' :: after => .ok after
      | [] => .error (.taken .endInObject [])
      | _ => passFields fuel rest
    | c :: rest =>
      if beginsNumber c then passNumber (c :: rest) else .error (.peeked .expectedValue (c :: rest))

/-- Passes over the items of an array and its closing bracket. -/
def passItems : Nat → List Char → Except Fault (List Char)
  | 0, s => .error (.taken .endInList s)
  | fuel + 1, s => do
    let s ← passValue fuel s
    match skipBlanks s with
    | ',' :: rest => passItems fuel rest
    | ']' :: rest => return rest
    | [] => throw (.taken .endInList [])
    | s => throw (.peeked .expectedListSeparator s)

/-- Passes over the fields of an object and its closing brace. -/
def passFields : Nat → List Char → Except Fault (List Char)
  | 0, s => .error (.taken .endInObject s)
  | fuel + 1, s => do
    let s ← passKeyQuote s
    let s ← passString s
    let s ← passColon s
    let s ← passValue fuel s
    match skipBlanks s with
    | ',' :: rest => passFields fuel rest
    | '\x7d' :: rest => return rest
    | [] => throw (.taken .endInObject [])
    | s => throw (.peeked .expectedObjectSeparator s)

end

/-- Passes over a value of any kind. -/
def passAny (s : List Char) : Except Fault (List Char) := passValue (s.length + 1) s

/-! ### Scalars -/

/-- Reads a string. -/
def readText (s : List Char) : Except Fault (String × List Char) := do
  let s ← valueStart s
  match s with
  | '"' :: rest => do
    let (cs, after) ← scanString rest
    return (String.ofList cs, after)
  | _ => throw (mismatch "a string" s)

/-- Reads a whole number from zero to `limit`, which messages call `wanted`. -/
def readNatural (wanted : String) (limit : Nat) (s : List Char) : Except Fault (Nat × List Char) := do
  let s ← valueStart s
  if !(s.head?.any beginsNumber) then throw (mismatch wanted s)
  let (n, after) ← scanNumber s
  match n with
  | .whole i =>
    if 0 ≤ i ∧ i ≤ limit then return (i.toNat, after)
    else throw (.taken (.invalidValue (.number n) wanted) after)
  | .binary _ => throw (.taken (.invalidType (.number n) wanted) after)

/-- Reads a truth value. -/
def readBool (s : List Char) : Except Fault (Bool × List Char) := do
  let s ← valueStart s
  match s with
  | 't' :: rest => return (true, ← scanWord ['r', 'u', 'e'] rest)
  | 'f' :: rest => return (false, ← scanWord ['a', 'l', 's', 'e'] rest)
  | _ => throw (mismatch "a boolean" s)

/-- Reads a value that may be `null` instead. -/
def readOption {α : Type} (item : Decoder α) (s : List Char) : Except Fault (Option α × List Char) := do
  let s ← valueStart s
  match s with
  | 'n' :: rest => return (none, ← scanWord ['u', 'l', 'l'] rest)
  | _ => do
    let (a, after) ← item s
    return (some a, after)

/-! ### Arrays -/

/-- The text from the next item of an array on, if there is one. -/
def nextItem (first : Bool) (s : List Char) : Except Fault (Option (List Char)) :=
  match skipBlanks s with
  | ']' :: _ => .ok none
  | [] => .error (.taken .endInList [])
  | c :: rest =>
    if first then .ok (some (c :: rest))
    else if c = ',' then
      match skipBlanks rest with
      | [] => .error (.taken .endInValue [])
      | ']' :: more => .error (.peeked .trailingComma (']' :: more))
      | s => .ok (some s)
    else .error (.peeked .expectedListSeparator (c :: rest))

/-- The text after the bracket that ends an array. -/
def endList (s : List Char) : Except Fault (List Char) :=
  match skipBlanks s with
  | ']' :: rest => .ok rest
  | [] => .error (.taken .endInList [])
  | ',' :: rest =>
    match skipBlanks rest with
    | ']' :: more => .error (.peeked .trailingComma (']' :: more))
    | s => .error (.peeked .trailingCharacters s)
  | s => .error (.peeked .trailingCharacters s)

/-- Reads the items of an array up to its closing bracket. -/
def readItems {α : Type} (item : Decoder α) :
    Nat → Bool → List Char → Except Fault (List α × List Char)
  | 0, _, s => .error (.taken .endInList s)
  | fuel + 1, first, s => do
    match ← nextItem first s with
    | none => return ([], s)
    | some s => do
      let (a, s) ← item s
      let (as, s) ← readItems item fuel false s
      return (a :: as, s)

/-- Reads an array of values of one kind. -/
def readList {α : Type} (item : Decoder α) (s : List Char) : Except Fault (List α × List Char) := do
  let s ← valueStart s
  match s with
  | '[' :: rest => do
    let (items, s) ← readItems item (rest.length + 1) true rest
    return (items, ← endList s)
  | _ => throw (mismatch "a sequence" s)

/-- Reads an array of two values. -/
def readPair {α β : Type} (wanted : String) (left : Decoder α) (right : Decoder β) (s : List Char) :
    Except Fault ((α × β) × List Char) := do
  let s ← valueStart s
  match s with
  | '[' :: rest => do
    match ← nextItem true rest with
    | none => throw (.taken (.invalidLength 0 wanted) rest)
    | some s => do
      let (a, s) ← left s
      match ← nextItem false s with
      | none => throw (.taken (.invalidLength 1 wanted) s)
      | some s => do
        let (b, s) ← right s
        return ((a, b), ← endList s)
  | _ => throw (mismatch wanted s)

/-! ### Records -/

/-- A field of a record of which the parts read so far are kept in a `σ`. -/
structure Field (σ : Type) where
  name : String
  isSet : σ → Bool
  read : σ → Decoder σ

/-- The text from the opening quote of the next key of an object on, if there is
one. -/
def nextKey (first : Bool) (s : List Char) : Except Fault (Option (List Char)) :=
  match skipBlanks s with
  | '\x7d' :: _ => .ok none
  | [] => .error (.taken .endInObject [])
  | c :: rest =>
    if first then
      if c = '"' then .ok (some rest) else .error (.peeked .keyMustBeString (c :: rest))
    else if c = ',' then
      match skipBlanks rest with
      | '"' :: more => .ok (some more)
      | '\x7d' :: more => .error (.peeked .trailingComma ('\x7d' :: more))
      | [] => .error (.taken .endInValue [])
      | s => .error (.peeked .keyMustBeString s)
    else .error (.peeked .expectedObjectSeparator (c :: rest))

/-- A fault of the record itself, which is placed after the brace that ends the
object if that comes next, and else after the blanks. -/
def recordFault (cause : Cause) (s : List Char) : Fault :=
  match skipBlanks s with
  | '\x7d' :: rest => .taken cause rest
  | s => .taken cause s

/-- Reads the fields of an object up to its closing brace. -/
def readFields {σ : Type} (fields : List (Field σ)) :
    Nat → Bool → σ → List Char → Except Fault (σ × List Char)
  | 0, _, _, s => .error (.taken .endInObject s)
  | fuel + 1, first, parts, s => do
    match ← nextKey first s with
    | none => return (parts, s)
    | some s => do
      let (key, s) ← scanString s
      match fields.find? fun f => f.name.toList = key with
      | none => do
        let s ← passColon s
        let s ← passAny s
        readFields fields fuel false parts s
      | some field => do
        if field.isSet parts then throw (recordFault (.duplicateField field.name) s)
        let s ← passColon s
        let (parts, s) ← field.read parts s
        readFields fields fuel false parts s

/-- Reads the fields of an array in order, as far as there are items. -/
def readColumns {σ : Type} :
    List (Field σ) → Bool → σ → List Char → Except Fault (σ × List Char)
  | [], _, parts, s => .ok (parts, s)
  | field :: more, first, parts, s => do
    match ← nextItem first s with
    | none => return (parts, s)
    | some s => do
      let (parts, s) ← field.read parts s
      readColumns more false parts s

/-- Reads a record, which messages call `wanted`. The parts are made into a value
by `ofObject` or `ofArray`, which say what is missing. -/
def readRecord {σ α : Type} (wanted : String) (fields : List (Field σ)) (start : σ)
    (ofObject ofArray : σ → Except Cause α) (s : List Char) : Except Fault (α × List Char) := do
  let s ← valueStart s
  match s with
  | '\x7b' :: rest => do
    let (parts, s) ← readFields fields (rest.length + 1) true start rest
    match ofObject parts with
    | .ok a => return (a, (skipBlanks s).drop 1)
    | .error cause => throw (recordFault cause s)
  | '[' :: rest => do
    let (parts, s) ← readColumns fields true start rest
    match ofArray parts with
    | .ok a => return (a, ← endList s)
    | .error cause => throw (.taken cause s)
  | _ => throw (mismatch wanted s)

/-! ### Records of one to three columns -/

/-- A column of a record: its name, how its value is read, and the value that
stands for it if an object leaves it out. -/
structure Column (α : Type) where
  name : String
  read : Decoder α
  missing : Option α

/-- A column that must be there. -/
def Column.required {α : Type} (name : String) (read : Decoder α) : Column α := ⟨name, read, none⟩

/-- A column that may be left out or `null`. -/
def Column.optional {α : Type} (name : String) (read : Decoder α) : Column (Option α) :=
  ⟨name, readOption read, some none⟩

/-- The field of a column, whose value is kept in a part of `σ`. -/
def Column.field {α σ : Type} (c : Column α) (get : σ → Option α) (set : σ → Option α → σ) :
    Field σ :=
  { name := c.name, isSet := fun p => (get p).isSome,
    read := fun p s => do
      let (v, s) ← c.read s
      return (set p (some v), s) }

/-- The value of a column of an object. -/
def Column.ofObject {α : Type} (c : Column α) (v : Option α) : Except Cause α :=
  match v <|> c.missing with
  | some v => .ok v
  | none => .error (.missingField c.name)

/-- The value of a column of an array, which has `index` columns before it. -/
def Column.ofArray {α : Type} (wanted : String) (index : Nat) (v : Option α) : Except Cause α :=
  match v with
  | some v => .ok v
  | none => .error (.invalidLength index wanted)

/-- Reads a record of one column. -/
def readRecord1 {α ρ : Type} (wanted : String) (a : Column α) (make : α → ρ) (s : List Char) :
    Except Fault (ρ × List Char) :=
  readRecord wanted [a.field id fun _ v => v] none
    (fun p => do return make (← a.ofObject p))
    (fun p => do return make (← Column.ofArray wanted 0 p)) s

/-- Reads a record of two columns. -/
def readRecord2 {α β ρ : Type} (wanted : String) (a : Column α) (b : Column β) (make : α → β → ρ)
    (s : List Char) : Except Fault (ρ × List Char) :=
  readRecord wanted
    [a.field Prod.fst fun p v => (v, p.2), b.field Prod.snd fun p v => (p.1, v)] (none, none)
    (fun p => do return make (← a.ofObject p.1) (← b.ofObject p.2))
    (fun p => do return make (← Column.ofArray wanted 0 p.1) (← Column.ofArray wanted 1 p.2)) s

/-- Reads a record of three columns. -/
def readRecord3 {α β γ ρ : Type} (wanted : String) (a : Column α) (b : Column β) (c : Column γ)
    (make : α → β → γ → ρ) (s : List Char) : Except Fault (ρ × List Char) :=
  readRecord wanted
    [a.field (fun p => p.1) fun p v => (v, p.2), b.field (fun p => p.2.1) fun p v => (p.1, v, p.2.2),
      c.field (fun p => p.2.2) fun p v => (p.1, p.2.1, v)]
    (none, none, none)
    (fun p => do return make (← a.ofObject p.1) (← b.ofObject p.2.1) (← c.ofObject p.2.2))
    (fun p => do
      return make (← Column.ofArray wanted 0 p.1) (← Column.ofArray wanted 1 p.2.1)
        (← Column.ofArray wanted 2 p.2.2)) s

/-! ### Variants -/

/-- Reads one of several names, or an object with such a name as its only key and
`null` as its value. -/
def readVariant {α : Type} (wanted : String) (names : List (String × α)) (s : List Char) :
    Except Fault (α × List Char) := do
  let s ← valueStart s
  match s with
  | '"' :: _ => do
    let (name, after) ← readText s
    return (← variant name after, after)
  | '\x7b' :: rest => do
    let (name, s) ← readText rest
    let a ← variant name s
    let s ← passColon s
    let s ← valueStart s
    match s with
    | 'n' :: rest => do
      let s ← scanWord ['u', 'l', 'l'] rest
      match skipBlanks s with
      | '\x7d' :: rest => return (a, rest)
      | [] => throw (.taken .endInObject [])
      | s => throw (.peeked .expectedValue s)
    | _ => throw (mismatch "unit" s)
  | _ => throw (.peeked .expectedValue s)
where
  /-- The variant of a name. -/
  variant (name : String) (s : List Char) : Except Fault α :=
    match names.lookup name with
    | some a => .ok a
    | none => .error (.taken (.unknownVariant name wanted) s)

/-! ### Whole texts -/

/-- Reads a text that holds one value and nothing else. -/
def decode {α : Type} (item : Decoder α) (text : List Char) : Except Fault α := do
  let (a, s) ← item text
  match skipBlanks s with
  | [] => return a
  | s => throw (.peeked .trailingCharacters s)

end Json
end TaskHost
