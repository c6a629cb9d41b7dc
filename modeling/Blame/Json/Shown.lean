import Blame.Json.Value
import Blame.Number.Text
import Blame.Text.Quoted

/-!
# Values in messages

How a decoded value is shown where a message has to name it, and the text it stands for where a text is
expected. The two differ for texts only, which a message puts in quotes.
-/

namespace Blame.Json

open Number Text

mutual

/-- The value as a message shows it. -/
def shown : Json → Text
  | null => "None"
  | bool true => "True"
  | bool false => "False"
  | int n => intText n
  | float x => x.text
  | str s => quoted s
  | list items => "[" ++ shownItems items ++ "]"
  | obj members => "\x7b" ++ shownMembers members ++ "\x7d"

/-- The items separated by commas. -/
def shownItems : List Json → Text
  | [] => ""
  | [v] => shown v
  | v :: w :: rest => shown v ++ ", " ++ shownItems (w :: rest)

/-- The members separated by commas, each key in quotes. -/
def shownMembers : List (Text × Json) → Text
  | [] => ""
  | [(k, v)] => quoted k ++ ": " ++ shown v
  | (k, v) :: m :: rest => quoted k ++ ": " ++ shown v ++ ", " ++ shownMembers (m :: rest)

end

/-- The text a value stands for. -/
def asText : Json → Text
  | str s => s
  | v => shown v

/-- The name of a value's type in messages. -/
def typeName : Json → Text
  | null => "NoneType"
  | bool _ => "bool"
  | int _ => "int"
  | float _ => "float"
  | str _ => "str"
  | list _ => "list"
  | obj _ => "dict"

end Blame.Json
