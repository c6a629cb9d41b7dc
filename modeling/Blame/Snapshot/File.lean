import Blame.FileTree
import Blame.Json.Reader
import Blame.Snapshot.Load
import Blame.Text.Lines

/-!
# Snapshot files

A snapshot file holds a document in UTF-8, with line ends of any kind. Reading it can fail in more ways
than loading the document, and not all of them are reported as faults of the snapshot.
-/

namespace Blame.Snapshot

open Text

/-- Why a text file could not be read. -/
inductive TextError where
  | file (e : FileError)
  | encoding (e : Utf8.Fault)

/-- The characters of a text file, each line end as a line feed. -/
def readText (tree : FileTree) (cwd p : Text) : Except TextError (List CodePoint) :=
  match tree.read cwd p with
  | .error e => .error (.file e)
  | .ok bytes =>
    match Utf8.decode bytes with
    | .error f => .error (.encoding f)
    | .ok cs => .ok (unixLines cs)

/-- Why a snapshot file could not be read or loaded. -/
inductive FileLoadError where
  | file (e : FileError)
  | encoding (e : Utf8.Fault)
  | notJson (path : Text) (fault : Json.Fault) (text : List CodePoint) (offset : Nat)
  | excess (e : Json.Excess)
  | notAnObject (path : Text)
  | load (e : LoadError)

/-- Reads the document of a snapshot file; `nesting` is how deep its lists and objects may lie in each other. -/
def readDocument (nesting : Nat) (tree : FileTree) (cwd p : Text) : Except FileLoadError Members :=
  let path := Path.plain p
  match readText tree cwd path with
  | .error (.file e) => .error (.file e)
  | .error (.encoding e) => .error (.encoding e)
  | .ok cs =>
    match Json.read nesting cs with
    | .error (.malformed fault offset) => .error (.notJson path fault cs offset)
    | .error (.excess e) => .error (.excess e)
    | .ok (.obj members) => .ok members
    | .ok _ => .error (.notAnObject path)

/-- A fault of a snapshot: where it is and what it is. -/
structure Complaint where
  place : Text
  text : Text
  deriving DecidableEq, Repr

/-- The complaint in one line; without a place it is the text alone. -/
def Complaint.message (c : Complaint) : Text :=
  if c.place.isEmpty then c.text else (c.place ++ ": " ++ c.text)

/-- How a failed load is to be taken: as a refused file operation, a complaint about the snapshot or a
contradiction within it, or as a failure that no caller is prepared for. -/
inductive Failure where
  | file (e : FileError)
  | complaint (c : Complaint)
  | inconsistent (i : Inconsistency)
  | unhashable (u : Unhashable)
  | unclassifiable (u : Unclassifiable)
  | encoding (e : Utf8.Fault)
  | excess (e : Json.Excess)

def LoadError.failure : LoadError → Failure
  | .fault (.malformed place what) => .complaint ⟨place, what.message⟩
  | .fault (.unhashable u) => .unhashable u
  | .inconsistent i => .inconsistent i
  | .unclassifiable u => .unclassifiable u

def FileLoadError.failure : FileLoadError → Failure
  | .file e => .file e
  | .encoding e => .encoding e
  | .notJson path fault text offset =>
    .complaint ⟨path, ("invalid JSON: " ++ (Json.ReadError.malformed fault offset).message text)⟩
  | .excess e => .excess e
  | .notAnObject path => .complaint ⟨path, "top level must be an object"⟩
  | .load e => e.failure

end Blame.Snapshot
