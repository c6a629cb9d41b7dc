import Blame.Path.Name
import Blame.Text.Lines

/-!
# Normal paths

Paths are texts with slashes. The normal form of a path is absolute and free of empty, `.` and `..`
components; exactly two slashes at the front are kept, any other number of them becomes one. A `~` at the front stands
for a home directory, and there is no normal form if it has a name behind it that the system cannot be asked for.
-/

namespace Blame.Path

open Text

/-- The home directories that the system knows: that of the user who runs the program, and those of users by the bytes
of their names. -/
structure Users where
  own : Option Text := none
  named : List (List UInt8 × Text) := []
  deriving DecidableEq, Repr

/-- What relative paths and `~` refer to. -/
structure Context where
  cwd : Text
  home : Option Text
  users : Users
  deriving DecidableEq, Repr

def isAbsolute (p : List CodePoint) : Bool := p.head? = some (.char '/')

/-- The pieces between slashes. -/
def pieces (p : List CodePoint) : List (List CodePoint) := splitChar (.char '/') p

/-- The name behind a leading `~`; without one the name is empty. -/
def userName : List CodePoint → List CodePoint
  | .char '~' :: rest => rest.takeWhile (· ≠ .char '/')
  | _ => []

/-- The home directory that a `~` with a name behind it stands for, if there is one. Without a name it is the one that
was set, or else that of the user who runs the program. -/
def Context.homeOf (ctx : Context) (name : List CodePoint) : Except NameFault (Option Text) :=
  if name.isEmpty then .ok (ctx.home.or ctx.users.own)
  else (nameBytes name).map fun bytes => ctx.users.named.lookup bytes

/-- A path that goes on from a home directory; the slashes at the end of the directory are dropped. -/
def fromHome (dir : Text) (rest : List CodePoint) : List CodePoint :=
  let expanded := (dir.toList.reverse.dropWhile (· = .char '/')).reverse ++ rest
  if expanded.isEmpty then [.char '/'] else expanded

/-- The path with a leading `~` component replaced by the home directory that it stands for, where there is one. -/
def expandUser (ctx : Context) (p : List CodePoint) : Except NameFault (List CodePoint) :=
  match p with
  | .char '~' :: rest =>
    (ctx.homeOf (userName p)).map fun
      | some dir => fromHome dir (rest.dropWhile (· ≠ .char '/'))
      | none => p
  | _ => .ok p

/-- A path taken from a directory; an absolute one stands for itself. -/
def joinPath (dir p : List CodePoint) : List CodePoint :=
  if isAbsolute p then p
  else if dir.isEmpty || dir.getLast? = some (.char '/') then dir ++ p
  else dir ++ .char '/' :: p

/-- How many slashes the normal form starts with. -/
def leadingSlashes : List CodePoint → Nat
  | .char '/' :: .char '/' :: .char '/' :: _ => 1
  | .char '/' :: .char '/' :: _ => 2
  | .char '/' :: _ => 1
  | _ => 0

/-- Puts one component after those so far, which are given in reverse. A `..` takes the last one away,
at the root it is dropped, and it stays where there is nothing it could take away. -/
def pushComponent (absolute : Bool) (before : List (List CodePoint)) (c : List CodePoint) : List (List CodePoint) :=
  if c = [] ∨ c = [.char '.'] then before
  else if c = [.char '.', .char '.'] then
    match before with
    | [] => if absolute then [] else [c]
    | last :: others => if last = [.char '.', .char '.'] then c :: before else others
  else c :: before

/-- The components that remain of a path. -/
def normalComponents (p : List CodePoint) : List (List CodePoint) :=
  ((pieces p).foldl (pushComponent (isAbsolute p)) []).reverse

/-- The path without superfluous components; an empty result is the current directory. -/
def normalPath (p : List CodePoint) : List CodePoint :=
  let text := List.replicate (leadingSlashes p) (.char '/') ++ joinChar (.char '/') (normalComponents p)
  if text.isEmpty then [.char '.'] else text

/-- The absolute normal form of a path without regard to `~`. -/
def absolutePath (cwd : Text) (p : List CodePoint) : List CodePoint := normalPath (joinPath cwd.toList p)

/-- The normal form of a path as a user writes it. -/
def normalise (ctx : Context) (p : Text) : Except NameFault Text :=
  (expandUser ctx p.toList).map fun q => Text.ofList (normalPath (absolutePath ctx.cwd q))

/-- The components of a path, empty and `.` ones left out. -/
def components (p : List CodePoint) : List (List CodePoint) :=
  (pieces p).filter fun c => !c.isEmpty && c != [.char '.']

/-- The longest list that both lists start with. -/
def commonStart : List (List CodePoint) → List (List CodePoint) → List (List CodePoint)
  | x :: xs, y :: ys => if x = y then x :: commonStart xs ys else []
  | _, _ => []

/-- The deepest directory above two absolute paths. -/
def commonPath (p q : List CodePoint) : List CodePoint :=
  .char '/' :: joinChar (.char '/') (commonStart (components p) (components q))

/-- Whether a normal path is a normal directory or lies below it: the directory is what they share. -/
def isUnder (p dir : Text) : Bool := commonPath p.toList dir.toList == dir.toList

/-- What follows the last slash. -/
def baseName (p : List CodePoint) : List CodePoint := (p.reverse.takeWhile (· ≠ .char '/')).reverse

end Blame.Path
