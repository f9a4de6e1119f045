/-
# Plug-in options as JSON

The options of a plug-in module can be written as a JSON object with a member
`options` that holds names and values. A value is a text or a number, or null
for the empty text. Other members mean nothing, and options may be spread over
several members of that name.

The reader for JSON finds at most one value in a text, with nothing but blanks
around it. An object keeps its members in the order and as often as they are
written, and a whole number is kept apart from one with a fraction or an
exponent. The reader takes steps that each use up a character, so the length of
the text bounds them.
-/
import Coverage.Failure

namespace Coverage

/-- A JSON value. -/
inductive Json where
  | null
  | bool (b : Bool)
  | integer (n : Int)
  | decimal (x : Float)
  | string (s : String)
  | array (items : List Json)
  | object (members : List (String × Json))

namespace Json

/-- Whether a character may stand between the parts of a text. -/
def isBlank (c : Char) : Bool := c == ' ' || c == '\t' || c == '\n' || c == '\r'

/-- Drop the blanks in front of a text. -/
def skipBlanks (text : List Char) : List Char := text.dropWhile isBlank

/-- The value of a hexadecimal digit. -/
def hexValue? (c : Char) : Option Nat :=
  if '0' ≤ c ∧ c ≤ '9' then some (c.toNat - 48)
  else if 'a' ≤ c ∧ c ≤ 'f' then some (c.toNat - 87)
  else if 'A' ≤ c ∧ c ≤ 'F' then some (c.toNat - 55)
  else none

/-- The number that four hexadecimal digits write. -/
def hexQuad? (a b c d : Char) : Option Nat := do
  let a ← hexValue? a
  let b ← hexValue? b
  let c ← hexValue? c
  let d ← hexValue? d
  return ((a * 16 + b) * 16 + c) * 16 + d

/-- Whether a code unit is the first of a pair. -/
def isHighSurrogate (unit : Nat) : Bool := 0xd800 ≤ unit && unit < 0xdc00

/-- Whether a code unit is the second of a pair. -/
def isLowSurrogate (unit : Nat) : Bool := 0xdc00 ≤ unit && unit < 0xe000

/-- The character of a letter after a backslash. -/
def shortEscape? : Char → Option Char
  | '"' => some '"'
  | '\\' => some '\\'
  | '/' => some '/'
  | 'b' => some '\x08'
  | 'f' => some '\x0c'
  | 'n' => some '\n'
  | 'r' => some '\r'
  | 't' => some '\t'
  | _ => none

/-- Read the rest of a string, after its opening quote. A code unit that is half
of a pair must stand with its other half. -/
def readString (done : List Char) : List Char → Option (String × List Char)
  | '"' :: rest => some (String.ofList done.reverse, rest)
  | '\\' :: 'u' :: a :: b :: c :: d :: '\\' :: 'u' :: e :: f :: g :: h :: rest => do
    let first ← hexQuad? a b c d
    if isHighSurrogate first then
      let second ← hexQuad? e f g h
      if isLowSurrogate second then
        let point := 0x10000 + (first - 0xd800) * 0x400 + (second - 0xdc00)
        readString (Char.ofNat point :: done) rest
      else none
    else if isLowSurrogate first then none
    else readString (Char.ofNat first :: done) ('\\' :: 'u' :: e :: f :: g :: h :: rest)
  | '\\' :: 'u' :: a :: b :: c :: d :: rest => do
    let unit ← hexQuad? a b c d
    if isHighSurrogate unit || isLowSurrogate unit then none
    else readString (Char.ofNat unit :: done) rest
  | '\\' :: c :: rest => do readString ((← shortEscape? c) :: done) rest
  | c :: rest => if c.toNat < 32 then none else readString (c :: done) rest
  | [] => none

/-- The number that decimal digits write. -/
def digitsValue (digits : List Char) : Nat :=
  digits.foldl (fun n c => n * 10 + (c.toNat - 48)) 0

/-- Split the digits off the front of a text. -/
def splitDigits (text : List Char) : List Char × List Char :=
  (text.takeWhile Char.isDigit, text.dropWhile Char.isDigit)

/-- Read the fraction of a number, if there is one: its digits. -/
def readFraction : List Char → Option (List Char × List Char)
  | '.' :: rest =>
    let (digits, rest) := splitDigits rest
    if digits.isEmpty then none else some (digits, rest)
  | rest => some ([], rest)

/-- Read the digits of an exponent. -/
def readExponentDigits (negative : Bool) (text : List Char) : Option (Int × List Char) :=
  let (digits, rest) := splitDigits text
  if digits.isEmpty then none
  else some (if negative then -(digitsValue digits : Int) else digitsValue digits, rest)

/-- Read the exponent of a number, if there is one. -/
def readExponent : List Char → Option (Option Int × List Char)
  | c :: rest =>
    if c = 'e' ∨ c = 'E' then
      let read :=
        match rest with
        | '-' :: rest => readExponentDigits true rest
        | '+' :: rest => readExponentDigits false rest
        | rest => readExponentDigits false rest
      read.map fun (exponent, rest) => (some exponent, rest)
    else some (none, c :: rest)
  | [] => some (none, [])

/-- Read a number after its sign. No zero stands in front of other digits. -/
def readNumber (negative : Bool) (text : List Char) : Option (Json × List Char) := do
  let (whole, rest) := splitDigits text
  if whole.isEmpty || (whole.head? == some '0' && 1 < whole.length) then none
  else
    let (fraction, rest) ← readFraction rest
    let (exponent, rest) ← readExponent rest
    let mantissa := digitsValue (whole ++ fraction)
    if fraction.isEmpty && exponent.isNone then
      return (.integer (if negative then -(mantissa : Int) else mantissa), rest)
    else
      let power := exponent.getD 0 - fraction.length
      let size := Float.ofScientific mantissa (power < 0) power.natAbs
      return (.decimal (if negative then -size else size), rest)

mutual

/-- Read a value in at most the given number of steps. -/
def readValue : Nat → List Char → Option (Json × List Char)
  | 0, _ => none
  | steps + 1, text =>
    match skipBlanks text with
    | 'n' :: 'u' :: 'l' :: 'l' :: rest => some (.null, rest)
    | 't' :: 'r' :: 'u' :: 'e' :: rest => some (.bool true, rest)
    | 'f' :: 'a' :: 'l' :: 's' :: 'e' :: rest => some (.bool false, rest)
    | '"' :: rest => (readString [] rest).map fun (s, rest) => (.string s, rest)
    | '[' :: rest =>
      match skipBlanks rest with
      | ']' :: rest => some (.array [], rest)
      | rest => (readItems steps rest).map fun (items, rest) => (.array items, rest)
    | '\x7b' :: rest =>
      match skipBlanks rest with
      | '\x7d' :: rest => some (.object [], rest)
      | rest => (readMembers steps rest).map fun (members, rest) => (.object members, rest)
    | '-' :: rest => readNumber true rest
    | rest => readNumber false rest

/-- Read the items of an array, up to its closing bracket. -/
def readItems : Nat → List Char → Option (List Json × List Char)
  | 0, _ => none
  | steps + 1, text => do
    let (item, rest) ← readValue steps text
    match skipBlanks rest with
    | ',' :: rest => do
      let (items, rest) ← readItems steps rest
      return (item :: items, rest)
    | ']' :: rest => return ([item], rest)
    | _ => none

/-- Read the members of an object, up to its closing brace. -/
def readMembers : Nat → List Char → Option (List (String × Json) × List Char)
  | 0, _ => none
  | steps + 1, text =>
    match skipBlanks text with
    | '"' :: rest => do
      let (name, rest) ← readString [] rest
      match skipBlanks rest with
      | ':' :: rest => do
        let (value, rest) ← readValue steps rest
        match skipBlanks rest with
        | ',' :: rest => do
          let (members, rest) ← readMembers steps rest
          return ((name, value) :: members, rest)
        | '\x7d' :: rest => return ([(name, value)], rest)
        | _ => none
      | _ => none
    | _ => none

end

/-- The value of a JSON text. -/
def parse? (text : String) : Option Json :=
  match readValue (text.length + 1) text.toList with
  | some (value, rest) => if (skipBlanks rest).isEmpty then some value else none
  | none => none

end Json

namespace PluginOptions

/-- The text of an option that is written as a JSON value. -/
def valueText? : Json → Option String
  | .string s => some s
  | .integer n => some (toString n)
  | .decimal x => some (Decimal.render x)
  | .null => some ""
  | _ => none

/-- The options that one member of the table holds. -/
def ofMember? : String × Json → Option (List (String × String))
  | ("options", .object members) =>
    members.mapM fun member => (valueText? member.2).map fun text => (member.1, text)
  | ("options", _) => none
  | _ => some []

/-- The options of a JSON value. -/
def ofJson? : Json → Option PluginOptions
  | .null => some ∅
  | .object members => (members.mapM ofMember?).map fun options => ofList options.flatten
  | _ => none

/-- Read the options of a JSON text. -/
def parse (text : String) : Except Failure PluginOptions :=
  match (Json.parse? text).bind ofJson? with
  | some options => .ok options
  | none => .error .invalidPluginOptions

end PluginOptions

end Coverage
