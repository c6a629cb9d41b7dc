import Blame.Text.Digits
import Blame.Text.Lines
import Blame.Text.Quoted

/-!
# Command line options

How a list of arguments is told apart into options, their values and words. A long option may be
shortened as far as it stays unique and may carry its value after `=`; short options without values may
be written together, and one with a value may carry it right behind its letter, or after `=` if it is
written alone. After `--` all is words. Two dashes that an option carries as its value were taken for none at first, and
later for a value like any other; a reader of arguments does one or the other.
-/

namespace Blame.Command

open Text

/-- What two dashes in the place of a value are taken for. -/
inductive Dashes where
  | value
  | nothing
  deriving DecidableEq, Repr

/-- What is given where a value is expected: a value, or nothing. -/
inductive Given (α : Type) where
  | value (v : α)
  | nothing
  deriving DecidableEq, Repr

namespace Given

def toOption {α : Type} : Given α → Option α
  | value v => some v
  | nothing => none

/-- What a text in the place of a value gives. -/
def ofText (dashes : Dashes) (text : Text) : Given Text :=
  if dashes = .nothing ∧ text = "--" then nothing else value text

end Given

/-- What an option does to the choices `α` made so far: it may take a value, refuse to be given, or end
the reading with a text to show. -/
inductive Effect (α : Type) where
  | flag (act : α → Except Text α)
  | valued (act : Given Text → α → Except Text α)
  | final (text : Text)

/-- An option with all its spellings. -/
structure Opt (α : Type) where
  names : List Text
  effect : Effect α

/-- What an option is called in messages. -/
def Opt.title {α : Type} (o : Opt α) : Text := Text.intercalate "/" o.names

def Opt.takesValue {α : Type} (o : Opt α) : Bool :=
  match o.effect with
  | .valued _ => true
  | _ => false

/-- An option that an argument names, by which spelling, and what is written behind it in the same
argument. -/
structure Match (α : Type) where
  opt : Opt α
  name : Text
  attached : Option (List CodePoint)

/-- What an argument is. -/
inductive Token (α : Type) where
  | word (text : Text)
  | dashes
  | option (text : Text) (m : Match α)
  | unknown (text : Text)

/-- The argument that the token stands for. -/
def Token.text {α : Type} : Token α → Text
  | word s => s
  | dashes => "--"
  | option s _ => s
  | unknown s => s

variable {α : Type}

/-- The spellings of all options, in order, each with its option. -/
def spellings (opts : List (Opt α)) : List (Text × Opt α) :=
  opts.flatMap fun o => o.names.map fun n => (n, o)

def lookupName (opts : List (Opt α)) (name : Text) : Option (Opt α) :=
  ((spellings opts).find? (·.1 == name)).map Prod.snd

/-- Cuts a text at its first `=`. -/
def cutEquals (cs : List CodePoint) : List CodePoint × Option (List CodePoint) :=
  let before := cs.takeWhile (· ≠ .char '=')
  match cs.drop before.length with
  | _ :: after => (before, some after)
  | [] => (before, none)

/-- The options that an argument could mean by a shortened or combined spelling. -/
def candidates (opts : List (Opt α)) (arg : List CodePoint) : List (Match α) :=
  match arg with
  | .char '-' :: .char '-' :: _ =>
    let (start, value) := cutEquals arg
    (spellings opts).filterMap fun (n, o) =>
      if start.isPrefixOf n.toList then some ⟨o, n, value⟩ else none
  | .char '-' :: c :: rest =>
    (spellings opts).filterMap fun (n, o) =>
      if n.toList = [.char '-', c] then some ⟨o, n, some rest⟩
      else if arg.isPrefixOf n.toList then some ⟨o, n, none⟩
      else none
  | _ => []

/-- Whether an argument is a minus sign and a decimal number. -/
def isNegativeNumber (arg : List CodePoint) : Bool :=
  let isDigit := fun c => (digitValue? c).isSome
  let body := (arg.drop 1)
  let body := if body.getLast? = some (.char '\n') then body.dropLast else body
  let fraction := (body.dropWhile isDigit).drop 1
  arg.head? = some (.char '-') &&
    ((!body.isEmpty && body.all isDigit)
      || ((body.dropWhile isDigit).head? = some (.char '.') && !fraction.isEmpty && fraction.all isDigit))

/-- The one option that an argument spells in full, with `=` and a value or without. -/
def exactMatch (opts : List (Opt α)) (arg : Text) : Option (Match α) :=
  match lookupName opts arg with
  | some o => some ⟨o, arg, none⟩
  | none =>
    match cutEquals arg.toList with
    | (start, some value) =>
      let name := Text.ofList start
      (lookupName opts name).map fun o => ⟨o, name, some value⟩
    | _ => none

/-- Tells what an argument before `--` is; the error is the message for an ambiguous one. -/
def readToken (opts : List (Opt α)) (arg : Text) : Except Text (Token α) :=
  let cs := arg.toList
  if cs.head? ≠ some (.char '-') then .ok (.word arg)
  else
    match exactMatch opts arg with
    | some m => .ok (.option arg m)
    | none =>
      if cs.length = 1 then .ok (.word arg)
      else
        match candidates opts cs with
        | [m] => .ok (.option arg m)
        | [] =>
          if isNegativeNumber cs || cs.contains (.char ' ') then .ok (.word arg) else .ok (.unknown arg)
        | ms => .error (("ambiguous option: " ++ arg ++ " could match ") ++ Text.intercalate ", " (ms.map (·.name)))

/-- Tells what each argument is. -/
def readTokens (opts : List (Opt α)) : List Text → Except Text (List (Token α))
  | [] => .ok []
  | arg :: rest =>
    if arg = "--" then .ok (.dashes :: rest.map .word)
    else
      match readToken opts arg with
      | .error e => .error e
      | .ok t => (readTokens opts rest).map (t :: ·)

/-- What is left of an option argument after the options without values at its front. -/
inductive Remainder (α : Type) where
  | nothing
  | value (opt : Opt α) (text : Text)
  | wantsValue (opt : Opt α)
  | refused (opt : Opt α) (text : Text)

/-- Takes the letters behind a short option apart: after an option without a value they name further
options, and after one with a value they are that value. -/
def unpackLetters (opts : List (Opt α)) (o : Opt α) : List CodePoint → List (Opt α) × Remainder α
  | [] => if o.takesValue then ([], .wantsValue o) else ([o], .nothing)
  | c :: rest =>
    if o.takesValue then ([], .value o (Text.ofList (c :: rest)))
    else
      match lookupName opts (Text.ofList [.char '-', c]) with
      | none => ([], .refused o (Text.ofList (c :: rest)))
      | some next =>
        let (flags, remainder) := unpackLetters opts next rest
        (o :: flags, remainder)

/-- Takes an option argument apart into options without values and what is left. -/
def unpack (opts : List (Opt α)) (m : Match α) : List (Opt α) × Remainder α :=
  match m.attached with
  | none => unpackLetters opts m.opt []
  | some text =>
    if m.opt.takesValue then ([], .value m.opt (Text.ofList text))
    else if text.isEmpty || (Text.toList "--").isPrefixOf m.name.toList then
      ([], .refused m.opt (Text.ofList text))
    else unpackLetters opts m.opt text

/-- Why the reading of arguments ended early. -/
inductive Stop where
  | refused (message : Text)
  | shown (text : Text)
  deriving DecidableEq, Repr

/-- The message of a refused option. -/
def optionError (o : Opt α) (message : Text) : Stop :=
  .refused ("argument " ++ o.title ++ ": " ++ message)

/-- Lets an option without a value have its effect. -/
def applyFlag (choices : α) (o : Opt α) : Except Stop α :=
  match o.effect with
  | .flag act => (act choices).mapError (optionError o)
  | .final text => .error (.shown text)
  | .valued _ => .ok choices

/-- Lets an option have its effect with the text in the place of its value. -/
def applyValue (dashes : Dashes) (choices : α) (o : Opt α) (value : Text) : Except Stop α :=
  match o.effect with
  | .valued act => (act (.ofText dashes value) choices).mapError (optionError o)
  | _ => .ok choices

/-- The choices made so far and the arguments that nothing was made of. -/
structure Taken (α : Type) where
  choices : α
  extras : List Text

/-- Takes one option argument, with the argument after it if that is its value. The second answer tells
whether it was. -/
def takeOption (dashes : Dashes) (opts : List (Opt α)) (taken : Taken α) (m : Match α) (next : Option (Token α)) :
    Except Stop (Taken α × Bool) := do
  let (flags, remainder) := unpack opts m
  let nextWord := match next with
    | some (.word s) => some s
    | _ => none
  match remainder with
  | .refused o value => .error (optionError o ("ignored explicit argument " ++ quoted value))
  | .wantsValue o =>
    match nextWord with
    | none => .error (optionError o "expected one argument")
    | some value =>
      let choices ← flags.foldlM applyFlag taken.choices
      return ({ taken with choices := ← applyValue dashes choices o value }, true)
  | .nothing => return ({ taken with choices := ← flags.foldlM applyFlag taken.choices }, false)
  | .value o value =>
    let choices ← flags.foldlM applyFlag taken.choices
    return ({ taken with choices := ← applyValue dashes choices o value }, false)

end Blame.Command
