/-
# Option values

A configuration option holds a value of one of five kinds. The kind of an option
never changes, so a kind has a name of its own that messages can show.
-/
import Coverage.Decimal

namespace Coverage

/-- The kinds of option values. -/
inductive OptionKind where
  | bool
  | int
  | float
  | string
  | list
deriving DecidableEq, Repr

/-- The name of a kind in messages. -/
def OptionKind.name : OptionKind → String
  | bool => "bool"
  | int => "int"
  | float => "float"
  | string => "string"
  | list => "list"

/-- The value of an option. -/
inductive OptionValue where
  | bool (b : Bool)
  | int (n : Int)
  | float (x : Float)
  | string (s : String)
  | list (items : List String)
deriving Repr

namespace OptionValue

/-- The kind of a value. -/
def kind : OptionValue → OptionKind
  | bool _ => .bool
  | int _ => .int
  | float _ => .float
  | string _ => .string
  | list _ => .list

/-- The truth value that a value holds, if it is of that kind. -/
def asBool? : OptionValue → Option Bool
  | bool b => some b
  | _ => none

/-- The integer that a value holds, if it is of that kind. -/
def asInt? : OptionValue → Option Int
  | int n => some n
  | _ => none

/-- The text that a value holds, if it is of that kind. -/
def asString? : OptionValue → Option String
  | string s => some s
  | _ => none

/-- The list that a value holds, if it is of that kind. -/
def asList? : OptionValue → Option (List String)
  | list items => some items
  | _ => none

/-- A value as text, without quotes. -/
def render : OptionValue → String
  | bool b => if b then "true" else "false"
  | int n => toString n
  | float x => Decimal.render x
  | string s => s
  | list items => "[" ++ ", ".intercalate items ++ "]"

/-- Whether two values are of one kind and equal. Floats are compared as numbers,
so that no value equals a NaN and the two zeros are equal. -/
def same : OptionValue → OptionValue → Bool
  | bool a, bool b => a == b
  | int m, int n => m == n
  | float x, float y => x == y
  | string s, string t => s == t
  | list xs, list ys => xs == ys
  | _, _ => false

instance : BEq OptionValue := ⟨same⟩

end OptionValue

end Coverage
