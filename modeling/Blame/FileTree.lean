import Blame.Path.Plain
import Blame.Text.Quoted

/-!
# File trees

The files and directories that a run can see, and what it is not permitted to do with them. A path is followed
component by component, each of which has to be a directory that may be searched before the next is looked at; the root
is always one. Names and paths have a greatest length. There are no links in a tree, so that two paths lead to the same
place only if they are spelled alike, and nothing changes it while a run goes on but the run itself.
-/

namespace Blame

open Blame.Path Text

/-- What stands at a place of the tree. -/
inductive Entry where
  | dir
  | file (bytes : List UInt8)
  deriving DecidableEq

/-- What the system may permit at a place: to look names up in a directory, to read, and to change a file or the names
in a directory. -/
inductive Access where
  | search
  | read
  | write
  deriving DecidableEq, Repr

/-- Why the system refuses a path. -/
inductive Refusal where
  | missing
  | denied
  | exists
  | notADirectory
  | isADirectory
  | nameTooLong
  deriving DecidableEq, Repr

/-- A failed file operation: the system refused a path, or it was not asked because of a zero character in the path or
because too many directories would have to be made, or the path or what was to be written has no bytes. -/
inductive FileError where
  | refused (what : Refusal) (path : Text)
  | zeroCharacter
  | unencodable (e : Utf8.Unencodable)
  | tooDeep
  deriving DecidableEq, Repr

namespace Refusal

def number : Refusal → Nat
  | missing => 2
  | denied => 13
  | «exists» => 17
  | notADirectory => 20
  | isADirectory => 21
  | nameTooLong => 36

def message : Refusal → Text
  | missing => "No such file or directory"
  | denied => "Permission denied"
  | «exists» => "File exists"
  | notADirectory => "Not a directory"
  | isADirectory => "Is a directory"
  | nameTooLong => "File name too long"

end Refusal

namespace FileError

def ofName : NameFault → FileError
  | .zeroCharacter => zeroCharacter
  | .unencodable e => unencodable e

def message : FileError → Text
  | refused what path => "[Errno " ++ Number.natText what.number ++ "] " ++ what.message ++ ": " ++ quoted path
  | zeroCharacter => NameFault.zeroCharacter.message
  | unencodable e => e.message
  | tooDeep => "too many directories to be made"

end FileError

/-- The greatest number of bytes in a name. -/
def longestName : Nat := 255

/-- The greatest number of bytes in a path. -/
def longestPath : Nat := 4095

/-- A place in the tree: the names that lead to it from the root. -/
abbrev Place := List (List CodePoint)

/-- The files and directories, each with its place, and what is denied where; the root has no entry of its own. -/
structure FileTree where
  entries : List (Place × Entry) := []
  denied : List (Place × Access) := []
  deriving DecidableEq

namespace FileTree

/-- What stands at a place. -/
def get? (t : FileTree) (at_ : Place) : Option Entry :=
  if at_.isEmpty then some .dir else t.entries.lookup at_

/-- Puts an entry at a place, over one that was there before. -/
def setEntry (at_ : Place) (e : Entry) : List (Place × Entry) → List (Place × Entry)
  | [] => [(at_, e)]
  | x :: rest => if x.1 = at_ then (at_, e) :: rest else x :: setEntry at_ e rest

def put (t : FileTree) (at_ : Place) (e : Entry) : FileTree := { t with entries := setEntry at_ e t.entries }

def permits (t : FileTree) (at_ : Place) (access : Access) : Bool := !t.denied.contains (at_, access)

/-- Follows components from a place. The last name need not exist, everything before it has to. -/
def follow (t : FileTree) (here : Place) : List (List CodePoint) → Except Refusal Place
  | [] => .ok here
  | c :: rest =>
    match t.get? here with
    | none => .error .missing
    | some (.file _) => .error .notADirectory
    | some .dir =>
      if c = [] then follow t here rest
      else if !t.permits here .search then .error .denied
      else if c = [.char '.'] then follow t here rest
      else if c = [.char '.', .char '.'] then follow t here.dropLast rest
      else if longestName < byteLength c then .error .nameTooLong
      else follow t (here ++ [c]) rest

/-- The place that a path leads to. The empty path leads nowhere. -/
def locate (t : FileTree) (cwd : Text) (p : Text) : Except Refusal Place :=
  if p.isEmpty then .error .missing
  else if longestPath < byteLength p.toList then .error .nameTooLong
  else if isAbsolute p.toList then t.follow [] ((pieces p.toList).drop 1)
  else t.follow (components cwd.toList) (pieces p.toList)

/-- What stands where a path leads to. -/
def stat (t : FileTree) (cwd p : Text) : Except FileError Entry :=
  match nameFault? p.toList with
  | some f => .error (.ofName f)
  | none =>
    match t.locate cwd p with
    | .error r => .error (.refused r p)
    | .ok at_ =>
      match t.get? at_ with
      | some e => .ok e
      | none => .error (.refused .missing p)

def isDir (t : FileTree) (cwd p : Text) : Bool :=
  match t.stat cwd p with
  | .ok .dir => true
  | _ => false

def isFile (t : FileTree) (cwd p : Text) : Bool :=
  match t.stat cwd p with
  | .ok (.file _) => true
  | _ => false

/-- Whether a path leads to a file. It is an error if the path is too long or must not be followed; otherwise one that
leads nowhere, or that cannot be given to the system, leads to no file. -/
def findsFile (t : FileTree) (cwd p : Text) : Except FileError Bool :=
  match t.stat cwd p with
  | .error (.refused .nameTooLong _) => .error (.refused .nameTooLong p)
  | .error (.refused .denied _) => .error (.refused .denied p)
  | _ => .ok (t.isFile cwd p)

/-- What a file holds, whoever may read it. -/
def content? (t : FileTree) (cwd p : Text) : Option (List UInt8) :=
  match t.stat cwd p with
  | .ok (.file bytes) => some bytes
  | _ => none

/-- The bytes of a file. -/
def read (t : FileTree) (cwd p : Text) : Except FileError (List UInt8) :=
  match nameFault? p.toList with
  | some f => .error (.ofName f)
  | none =>
    match t.locate cwd p with
    | .error r => .error (.refused r p)
    | .ok at_ =>
      match t.get? at_ with
      | none => .error (.refused .missing p)
      | some e =>
        if !t.permits at_ .read then .error (.refused .denied p)
        else
          match e with
          | .file bytes => .ok bytes
          | .dir => .error (.refused .isADirectory p)

/-- Puts a new entry into a directory, which has to be there and may be changed. -/
def putNew (t : FileTree) (at_ : Place) (e : Entry) : Except Refusal FileTree :=
  match t.get? at_.dropLast with
  | none => .error .missing
  | some (.file _) => .error .notADirectory
  | some .dir => if t.permits at_.dropLast .write then .ok (t.put at_ e) else .error .denied

/-- Makes a place a file with the given bytes; the directory it lies in has to exist. -/
def write (t : FileTree) (cwd p : Text) (bytes : List UInt8) : Except FileError FileTree :=
  match nameFault? p.toList with
  | some f => .error (.ofName f)
  | none =>
    match t.locate cwd p with
    | .error r => .error (.refused r p)
    | .ok at_ =>
      match t.get? at_ with
      | some .dir => .error (.refused .isADirectory p)
      | some (.file _) =>
        if t.permits at_ .write then .ok (t.put at_ (.file bytes)) else .error (.refused .denied p)
      | none => (t.putNew at_ (.file bytes)).mapError (.refused · p)

/-- Makes one directory, which must not exist, in one that does. -/
def makeDir (t : FileTree) (cwd p : Text) : Except Refusal FileTree :=
  match t.locate cwd p with
  | .error r => .error r
  | .ok at_ =>
    match t.get? at_ with
    | some _ => .error .exists
    | none => t.putNew at_ .dir

/-- Makes a directory and those above it that are missing, of which there may be at most `depth`. A directory that is
there already is fine, and above a path without components there is none to make. -/
def makeDirs (t : FileTree) (cwd : Text) (depth : Nat) (p : Text) : FileTree × Option FileError :=
  match t.makeDir cwd p with
  | .ok t => (t, none)
  | .error .missing =>
    if (components p.toList).isEmpty then (t, some (.refused .missing p))
    else
      match depth with
      | 0 => (t, some .tooDeep)
      | depth + 1 =>
        match makeDirs t cwd depth (Path.parent p) with
        | (t, some e) => (t, some e)
        | (t, none) =>
          match t.makeDir cwd p with
          | .ok t => (t, none)
          | .error r => if t.isDir cwd p then (t, none) else (t, some (.refused r p))
  | .error r => if t.isDir cwd p then (t, none) else (t, some (.refused r p))

/-- Makes the directory in which a plain path lies, and at most `depth` directories above it. -/
def makeParent (t : FileTree) (cwd : Text) (depth : Nat) (p : Text) : FileTree × Option FileError :=
  match nameFault? (Path.parent p).toList with
  | some f => (t, some (.ofName f))
  | none => t.makeDirs cwd depth (Path.parent p)

/-- The bytes of a text, and why it has none. -/
def bytesOf (text : Text) : List UInt8 × Option FileError :=
  match Utf8.encode text with
  | .ok bytes => (bytes, none)
  | .error e => ([], some (.unencodable e))

/-- Writes a text to a file whose directory is made if it is missing. What was made stays also if the file cannot be
opened, and a file that was opened stays empty if the text has no bytes. -/
def writeText (t : FileTree) (cwd : Text) (depth : Nat) (p text : Text) : FileTree × Option FileError :=
  match t.makeParent cwd depth p with
  | (t, some e) => (t, some e)
  | (t, none) =>
    let (bytes, fault) := bytesOf text
    match t.write cwd p bytes with
    | .ok t => (t, fault)
    | .error e => (t, some e)

end FileTree

end Blame
