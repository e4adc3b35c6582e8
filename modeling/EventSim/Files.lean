import EventSim.Config

/-! # Files

What can come of reading a file or writing one, and a `Folder` in memory. A path is walked part by
part: every part but the last must lead to a folder, an empty part and a single dot lead nowhere,
and two dots lead back up. Folders exist where files are in them. Above the folder there is nothing
to be found.
-/

namespace EventSim

/-- Why a file could not be opened. -/
inductive FileFault where
  | missing
  /-- A part of the path on the way is a file. -/
  | notFolder
  | isFolder
  | nameTooLong
  | other (code : Nat) (words : String)
  deriving DecidableEq

namespace FileFault

/-- The number of a fault. -/
def code : FileFault → Nat
  | .missing => 2
  | .notFolder => 20
  | .isFolder => 21
  | .nameTooLong => 36
  | .other code _ => code

/-- The kind of a fault in one word. -/
def kind : FileFault → String
  | .missing => "NotFound"
  | .notFolder => "NotADirectory"
  | .isFolder => "IsADirectory"
  | .nameTooLong => "InvalidFilename"
  | .other .. => "Uncategorized"

/-- A fault in words. -/
def words : FileFault → String
  | .missing => "No such file or directory"
  | .notFolder => "Not a directory"
  | .isFolder => "Is a directory"
  | .nameTooLong => "File name too long"
  | .other _ words => words

/-- A fault with its number. -/
def message (f : FileFault) : String :=
  f.words ++ " (os error " ++ toString f.code ++ ")"

/-- A fault with its number, its kind and its words. -/
def details (f : FileFault) : String :=
  "Os \x7b code: " ++ toString f.code ++ ", kind: " ++ f.kind ++ ", message: \"" ++ f.words ++
    "\" \x7d"

end FileFault

/-- What a file holds when it is read as text. -/
inductive FileContent where
  | closed (fault : FileFault)
  | undecodable
  | text (s : String)
  deriving DecidableEq

/-! ### Folders -/

/-- The names on the way from a folder to a place in it. -/
abbrev Place := List (List Char)

/-- Files with their places. -/
structure Folder where
  files : List (Place × String)

namespace Folder

/-- A folder without files. -/
def empty : Folder := ⟨[]⟩

/-- The text of the file at a place. -/
def find? (d : Folder) (p : Place) : Option String := d.files.lookup p

/-- A folder is at the place. -/
def isFolder (d : Folder) (p : Place) : Bool :=
  p.isEmpty || d.files.any fun f => p.length < f.1.length && p.isPrefixOf f.1

/-- The place that a part of a path leads to from a folder, and why it leads on to nothing. -/
def enter (d : Folder) (p : Place) (part : List Char) : Except FileFault Place :=
  if part = [] ∨ part = ['.'] then .ok p
  else if part = ['.', '.'] then
    if p.isEmpty then .error .missing else .ok p.dropLast
  else if 255 < (String.ofList part).utf8ByteSize then .error .nameTooLong
  else
    let q := p ++ [part]
    if d.isFolder q then .ok q
    else if (d.find? q).isSome then .error .notFolder
    else .error .missing

/-- The folder that the first parts of a path lead to, and its last part. -/
def walk (d : Folder) (p : Place) : List (List Char) → Except FileFault (Place × List Char)
  | [] => .error .missing
  | [last] => .ok (p, last)
  | part :: rest =>
    match d.enter p part with
    | .error f => .error f
    | .ok p => d.walk p rest

/-- What a path leads to: a folder, or a file that is there or could be. -/
def locate (d : Folder) (path : String) : Except FileFault (Place × Bool) :=
  if path = "" then .error .missing
  else if 4096 ≤ path.utf8ByteSize then .error .nameTooLong
  else
    match d.walk [] (Config.splitOn '/' path.toList) with
    | .error f => .error f
    | .ok (p, last) =>
      if last = [] ∨ last = ['.'] ∨ last = ['.', '.'] then
        match d.enter p last with
        | .error _ => .error .isFolder
        | .ok p => .ok (p, true)
      else if 255 < (String.ofList last).utf8ByteSize then .error .nameTooLong
      else .ok (p ++ [last], d.isFolder (p ++ [last]))

/-- What the file at a path holds. -/
def read (d : Folder) (path : String) : FileContent :=
  match d.locate path with
  | .error f => .closed f
  | .ok (_, true) => .closed .isFolder
  | .ok (p, false) =>
    match d.find? p with
    | none => .closed .missing
    | some s => .text s

/-- The folder with a text put into the file at a path. -/
def write (d : Folder) (path text : String) : Except FileFault Folder :=
  match d.locate path with
  | .error f => .error f
  | .ok (_, true) => .error .isFolder
  | .ok (p, false) => .ok ⟨(p, text) :: d.files.filter fun f => f.1 ≠ p⟩

end Folder

end EventSim
