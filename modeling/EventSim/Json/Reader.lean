import EventSim.Json.Number
import EventSim.Json.Text

/-! # Reading JSON against a shape

A `Reader` takes a value of one shape from the front of a text. Shapes are checked while the text
is read, so a value of the wrong kind is reported before a breach of the grammar further on. A
record may be written as an object or as the list of its fields; `Record` says what a record type
needs for both. `parse` reads a whole text.
-/

namespace EventSim.Json

/-- Takes a value from the front of a text. -/
abbrev Reader (α : Type) := List Char → Except Fault (α × List Char)

/-- The characters that may stand between tokens. -/
def isSpace (c : Char) : Bool := c == ' ' || c == '\n' || c == '\t' || c == '\r'

/-- The text from its first token on. -/
def skipSpace (s : List Char) : List Char := s.dropWhile isSpace

/-- What follows the word at the front. -/
def readWord : List Char → List Char → Except Fault (List Char)
  | [], s => .ok s
  | _ :: _, [] => .error (.endOfText .value)
  | w :: word, c :: rest => if c = w then readWord word rest else .error .expectedWord

/-- The description of a number that was not expected. -/
def Number.found : Number → Found
  | .integer n => .integer n
  | .float x => .float (String.ofList (x.shortestText Binary64.messageForm))

/-- The fault of a text that does not start with the expected kind of value; a value that is itself
broken is reported as such. -/
def misfit (expected : String) (s : List Char) : Fault :=
  let wrong (found : Found) : Fault := .wrongType found expected
  let orBroken (found : Found) (r : Except Fault (List Char)) : Fault :=
    match r with
    | .ok _ => wrong found
    | .error e => e
  let ofNumber (r : Except Fault (Number × List Char)) : Fault :=
    match r with
    | .ok (n, _) => wrong n.found
    | .error e => e
  match s with
  | [] => .endOfText .value
  | 'n' :: rest => orBroken .null (readWord ['u', 'l', 'l'] rest)
  | 't' :: rest => orBroken (.bool true) (readWord ['r', 'u', 'e'] rest)
  | 'f' :: rest => orBroken (.bool false) (readWord ['a', 'l', 's', 'e'] rest)
  | '-' :: rest => ofNumber (readNumber false rest)
  | '"' :: rest =>
    match readString rest with
    | .ok (text, _) => wrong (.string (String.ofList text))
    | .error e => e
  | '[' :: _ => wrong .list
  | '\x7b' :: _ => wrong .object
  | c :: _ => if c.isDigit then ofNumber (readNumber true s) else .expectedValue

/-! ### Values without parts -/

/-- An integer from `low` to `high`; `expected` is the name of that range. -/
def integer (low high : Int) (expected : String) : Reader Int := fun s => do
  let s := skipSpace s
  let (n, rest) ←
    match s with
    | '-' :: rest => readNumber false rest
    | c :: _ => if c.isDigit then readNumber true s else .error (misfit expected s)
    | [] => .error (.endOfText .value)
  match n with
  | .float _ => .error (.wrongType n.found expected)
  | .integer n => if low ≤ n ∧ n ≤ high then .ok (n, rest) else .error (.outOfRange n expected)

/-- A string. -/
def string : Reader String := fun s =>
  match skipSpace s with
  | '"' :: rest => do
    let (text, rest) ← readString rest
    .ok (String.ofList text, rest)
  | s => .error (misfit "a string" s)

/-! ### Lists and objects -/

/-- The next element of a list, after its bracket or after an element; `none` at the end. -/
def nextElement (first : Bool) (s : List Char) : Except Fault (Option (List Char)) :=
  match skipSpace s with
  | [] => .error (.endOfText .list)
  | ']' :: _ => .ok none
  | c :: rest =>
    if first then .ok (some (c :: rest))
    else if c = ',' then
      match skipSpace rest with
      | [] => .error (.endOfText .value)
      | ']' :: _ => .error .trailingComma
      | s => .ok (some s)
    else .error .expectedListEnd

/-- The text after the quote of the next key of an object; `none` at the end. -/
def nextKey (first : Bool) (s : List Char) : Except Fault (Option (List Char)) :=
  match skipSpace s with
  | [] => .error (.endOfText .object)
  | '\x7d' :: _ => .ok none
  | c :: rest =>
    if first then
      if c = '"' then .ok (some rest) else .error .keyNotString
    else if c = ',' then
      match skipSpace rest with
      | [] => .error (.endOfText .value)
      | '"' :: s => .ok (some s)
      | '\x7d' :: _ => .error .trailingComma
      | _ => .error .keyNotString
    else .error .expectedObjectEnd

/-- What follows the colon after a key. -/
def afterColon (s : List Char) : Except Fault (List Char) :=
  match skipSpace s with
  | [] => .error (.endOfText .object)
  | ':' :: rest => .ok rest
  | _ => .error .expectedColon

/-- What follows the bracket of a list whose expected elements have been read. -/
def closeList (s : List Char) : Except Fault (List Char) :=
  match skipSpace s with
  | [] => .error (.endOfText .list)
  | ']' :: rest => .ok rest
  | ',' :: rest =>
    match skipSpace rest with
    | ']' :: _ => .error .trailingComma
    | _ => .error .trailingCharacters
  | _ => .error .trailingCharacters

/-- What follows the brace of an object whose keys have been read. -/
def closeObject (s : List Char) : Except Fault (List Char) :=
  match skipSpace s with
  | [] => .error (.endOfText .object)
  | '\x7d' :: rest => .ok rest
  | ',' :: _ => .error .trailingComma
  | _ => .error .trailingCharacters

/-- The elements of a list up to its bracket. The fuel counts the elements that are left at
most. -/
def readElements {α : Type} (element : Reader α) :
    Nat → Bool → List Char → Except Fault (List α × List Char)
  | 0, _, _ => .error (.endOfText .list)
  | fuel + 1, first, s => do
    match ← nextElement first s with
    | none => .ok ([], s)
    | some s =>
      let (a, s) ← element s
      let (rest, s) ← readElements element fuel false s
      .ok (a :: rest, s)

/-- A list of elements of one shape. -/
def list {α : Type} (element : Reader α) : Reader (List α) := fun s =>
  match skipSpace s with
  | '[' :: rest => do
    let (items, s) ← readElements element (rest.length + 1) true rest
    let s ← closeList s
    .ok (items, s)
  | s => .error (misfit "a sequence" s)

/-! ### Values that nobody looks at -/

/-- The containers that a skipped value can open. -/
inductive Container where
  | list
  | object

/-- What a skipped text is expected to go on with. -/
inductive Expecting where
  /-- A value. -/
  | value
  /-- The first element of the container just opened, or its end. -/
  | firstPart
  /-- A comma or the end of the innermost container. -/
  | nextPart

/-- What follows a value of any shape, `inside` being the containers that are open. Each step uses
up a character or turns from the first part of a container to a value, so the fuel is twice the
length of the text. -/
def skipParts : Nat → Expecting → List Container → List Char → Except Fault (List Char)
  | 0, _, _, _ => .error (.endOfText .value)
  | fuel + 1, .value, inside, s =>
    match skipSpace s with
    | [] => .error (.endOfText .value)
    | 'n' :: rest => do
      skipParts fuel .nextPart inside (← readWord ['u', 'l', 'l'] rest)
    | 't' :: rest => do
      skipParts fuel .nextPart inside (← readWord ['r', 'u', 'e'] rest)
    | 'f' :: rest => do
      skipParts fuel .nextPart inside (← readWord ['a', 'l', 's', 'e'] rest)
    | '-' :: rest => do
      skipParts fuel .nextPart inside (← skipNumber rest)
    | '"' :: rest => do
      skipParts fuel .nextPart inside (← skipString rest)
    | '[' :: rest => skipParts fuel .firstPart (.list :: inside) rest
    | '\x7b' :: rest => skipParts fuel .firstPart (.object :: inside) rest
    | c :: rest =>
      if c.isDigit then do
        skipParts fuel .nextPart inside (← skipNumber (c :: rest))
      else .error .expectedValue
  | _ + 1, .firstPart, [], s => .ok s
  | _ + 1, .nextPart, [], s => .ok s
  | fuel + 1, .firstPart, .list :: inside, s =>
    match skipSpace s with
    | [] => .error (.endOfText .list)
    | ']' :: rest => skipParts fuel .nextPart inside rest
    | s => skipParts fuel .value (.list :: inside) s
  | fuel + 1, .nextPart, .list :: inside, s =>
    match skipSpace s with
    | [] => .error (.endOfText .list)
    | ']' :: rest => skipParts fuel .nextPart inside rest
    | ',' :: rest => skipParts fuel .value (.list :: inside) rest
    | _ => .error .expectedListEnd
  | fuel + 1, .firstPart, .object :: inside, s =>
    match skipSpace s with
    | [] => .error (.endOfText .object)
    | '\x7d' :: rest => skipParts fuel .nextPart inside rest
    | '"' :: rest => do
      skipParts fuel .value (.object :: inside) (← afterColon (← skipString rest))
    | _ => .error .keyNotString
  | fuel + 1, .nextPart, .object :: inside, s =>
    match skipSpace s with
    | [] => .error (.endOfText .object)
    | '\x7d' :: rest => skipParts fuel .nextPart inside rest
    | ',' :: rest =>
      match skipSpace rest with
      | [] => .error (.endOfText .object)
      | '"' :: rest => do
        skipParts fuel .value (.object :: inside) (← afterColon (← skipString rest))
      | _ => .error .keyNotString
    | _ => .error .expectedObjectEnd

/-- What follows a value of any shape. -/
def skipValue (s : List Char) : Except Fault (List Char) :=
  skipParts (2 * s.length + 2) .value [] s

/-! ### Records -/

/-- How to read a record type: its fields arrive one by one in an unfinished record `σ`. -/
structure Record (σ α : Type) where
  /-- The name of the type in messages. -/
  expected : String
  /-- The names of the fields, in order. -/
  names : List String
  /-- Whether a field that the type does not have is passed over. -/
  tolerant : Bool
  /-- The record without any field. -/
  empty : σ
  /-- Whether the field at a position has arrived. -/
  has : Nat → σ → Bool
  /-- Reads the value of the field at a position. -/
  readField : Nat → σ → Reader σ
  /-- The record once an object has ended. -/
  finish : σ → Except Fault α
  /-- The record once a list has ended after a number of elements. -/
  finishList : Nat → σ → Except Fault α

namespace Record

variable {σ α : Type}

/-- The fields of an object up to its brace. The fuel counts the fields that are left at most. -/
def readFields (r : Record σ α) : Nat → Bool → σ → List Char → Except Fault (σ × List Char)
  | 0, _, _, _ => .error (.endOfText .object)
  | fuel + 1, first, got, s => do
    match ← nextKey first s with
    | none => .ok (got, s)
    | some s =>
      let (name, s) ← readString s
      let name := String.ofList name
      match r.names.findIdx? (· == name) with
      | none =>
        if r.tolerant then
          let s ← skipValue (← afterColon s)
          r.readFields fuel false got s
        else .error (.unknownField name r.names)
      | some i =>
        if r.has i got then .error (.duplicateField name)
        else
          let (got, s) ← r.readField i got (← afterColon s)
          r.readFields fuel false got s

/-- The fields of a record written as a list: those from position `i` on, `left` in number. -/
def readPositions (r : Record σ α) : Nat → Nat → σ → List Char → Except Fault (α × List Char)
  | 0, i, got, s => do .ok (← r.finishList i got, s)
  | left + 1, i, got, s => do
    match ← nextElement (i == 0) s with
    | none => .ok (← r.finishList i got, s)
    | some s =>
      let (got, s) ← r.readField i got s
      r.readPositions left (i + 1) got s

/-- A record, as an object or as a list. -/
def read (r : Record σ α) : Reader α := fun s =>
  match skipSpace s with
  | '\x7b' :: rest => do
    let (fields, s) ← r.readFields (rest.length + 1) true r.empty rest
    let a ← r.finish fields
    .ok (a, ← closeObject s)
  | '[' :: rest => do
    let (a, s) ← r.readPositions r.names.length 0 r.empty rest
    .ok (a, ← closeList s)
  | s => .error (misfit r.expected s)

end Record

/-! ### Whole texts -/

/-- The value of a text that holds nothing else. -/
def parse {α : Type} (reader : Reader α) (text : String) : Except Fault α := do
  let (a, rest) ← reader text.toList
  if (skipSpace rest).isEmpty then .ok a else .error .trailingCharacters

end EventSim.Json
