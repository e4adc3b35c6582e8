import EventSim.Json.Text

/-! # JSON values and their texts

Results leave the library as JSON: `compact` writes a value without any blank, `pretty` with one
element to a line and two blanks for each level. An object keeps the order of its fields.
-/

namespace EventSim.Json

/-- A JSON value whose numbers are integers. -/
inductive Value where
  | null
  | bool (b : Bool)
  | integer (n : Int)
  | string (s : String)
  | list (items : List Value)
  | object (fields : List (String × Value))

namespace Value

/-- The digits of an integer, with a minus sign if it is negative. -/
def integerText (n : Int) : List Char :=
  if n < 0 then '-' :: Nat.toDigits 10 n.natAbs else Nat.toDigits 10 n.natAbs

/-- The text of a value that has no parts. -/
def boolText : Bool → List Char
  | true => ['t', 'r', 'u', 'e']
  | false => ['f', 'a', 'l', 's', 'e']

/-! ### Without blanks -/

mutual

/-- The text without blanks. -/
def compact : Value → List Char
  | null => ['n', 'u', 'l', 'l']
  | bool b => boolText b
  | integer n => integerText n
  | string s => quote s.toList
  | list items => '[' :: compactItems items ++ [']']
  | object fields => '\x7b' :: compactFields fields ++ ['\x7d']

/-- Items parted by commas. -/
def compactItems : List Value → List Char
  | [] => []
  | [v] => compact v
  | v :: rest => compact v ++ ',' :: compactItems rest

/-- Fields parted by commas. -/
def compactFields : List (String × Value) → List Char
  | [] => []
  | [(name, v)] => quote name.toList ++ ':' :: compact v
  | (name, v) :: rest => quote name.toList ++ ':' :: compact v ++ ',' :: compactFields rest

end

/-! ### One element to a line -/

/-- The start of a line at a level. -/
def newLine (level : Nat) : List Char := '\n' :: List.replicate (2 * level) ' '

mutual

/-- The text at a level, with one element to a line. -/
def prettyAt (level : Nat) : Value → List Char
  | null => ['n', 'u', 'l', 'l']
  | bool b => boolText b
  | integer n => integerText n
  | string s => quote s.toList
  | list [] => ['[', ']']
  | list (v :: rest) => '[' :: prettyItems (level + 1) (v :: rest) ++ newLine level ++ [']']
  | object [] => ['\x7b', '\x7d']
  | object (f :: rest) =>
    '\x7b' :: prettyFields (level + 1) (f :: rest) ++ newLine level ++ ['\x7d']

/-- Items parted by commas, each on a line of its own. -/
def prettyItems (level : Nat) : List Value → List Char
  | [] => []
  | [v] => newLine level ++ prettyAt level v
  | v :: rest => newLine level ++ prettyAt level v ++ ',' :: prettyItems level rest

/-- Fields parted by commas, each on a line of its own. -/
def prettyFields (level : Nat) : List (String × Value) → List Char
  | [] => []
  | [(name, v)] => newLine level ++ quote name.toList ++ ':' :: ' ' :: prettyAt level v
  | (name, v) :: rest =>
    newLine level ++ quote name.toList ++ ':' :: ' ' :: prettyAt level v ++
      ',' :: prettyFields level rest

end

/-- The text with one element to a line. -/
def pretty (v : Value) : List Char := prettyAt 0 v

end Value

end EventSim.Json
