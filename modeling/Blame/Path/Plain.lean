import Blame.Path.Normal

/-!
# Paths as file operations use them

A path for a file operation loses its empty and `.` components and keeps its `..`, which only the file
system can resolve.
-/

namespace Blame.Path

open Text

/-- The slashes that a path goes on starting with. -/
def rootSlashes (p : List CodePoint) : List CodePoint := List.replicate (leadingSlashes p) (.char '/')

/-- A path from its leading slashes and its components; without either it is the current directory. -/
def ofComponents (root : List CodePoint) (cs : List (List CodePoint)) : List CodePoint :=
  let text := root ++ joinChar (.char '/') cs
  if text.isEmpty then [.char '.'] else text

/-- The path without empty and `.` components. -/
def plain (p : Text) : Text :=
  Text.ofList (ofComponents (rootSlashes p.toList) (components p.toList))

/-- The directory in which a plain path lies. -/
def parent (p : Text) : Text :=
  Text.ofList (ofComponents (rootSlashes p.toList) (components p.toList).dropLast)

/-- Why a path does not lead to a file: the system cannot be given a name on the way, or a home directory that is asked
for is not known. -/
inductive WayFault where
  | name (f : NameFault)
  | noHome
  deriving DecidableEq, Repr

/-- The plain path with a leading `~` component replaced by the home directory that it stands for. There has to be one. -/
def expanded (ctx : Context) (p : Text) : Except WayFault Text :=
  match components p.toList with
  | c :: rest =>
    if !isAbsolute p.toList && c.head? = some (.char '~') then
      match expandUser ctx c with
      | .error f => .error (.name f)
      | .ok dir =>
        if dir.head? = some (.char '~') then .error .noHome
        else
          let base := (plain (Text.ofList dir)).toList
          .ok (plain (Text.ofList (joinPath base (joinChar (.char '/') rest))))
    else .ok (plain p)
  | [] => .ok (plain p)

/-- The absolute path without `..` components, whatever lies on the way, with a single leading slash. -/
def resolved (cwd : Text) (p : Text) : Text :=
  Text.ofList (.char '/' :: joinChar (.char '/') (normalComponents (joinPath cwd.toList p.toList)))

/-- What is wrong with the names that a path leads through. The system is asked for each of them, also for those that a
`..` takes away again; `before` holds those that are left, in reverse. -/
def wayFault? (absolute : Bool) (before : List (List CodePoint)) : List (List CodePoint) → Option NameFault
  | [] => none
  | c :: rest =>
    let here := pushComponent absolute before c
    let asked := if absolute then .char '/' :: joinChar (.char '/') here.reverse else joinChar (.char '/') here.reverse
    match (if c = [.char '.', .char '.'] then none else nameFault? asked) with
    | some f => some f
    | none => wayFault? absolute here rest

/-- The absolute path of a file that a user names as the target of an output. -/
def target (ctx : Context) (p : Text) : Except WayFault Text :=
  match expanded ctx (plain p) with
  | .error f => .error f
  | .ok path =>
    match wayFault? (isAbsolute path.toList) [] (components path.toList) with
    | some f => .error (.name f)
    | none =>
      let file := resolved ctx.cwd path
      match nameFault? file.toList with
      | some f => .error (.name f)
      | none => .ok file

end Blame.Path
