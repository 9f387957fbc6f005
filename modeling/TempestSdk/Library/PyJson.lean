import TempestSdk.Library.Numerals

/-!
# JSON as Python writes and reads it

`json.dumps` with its default separators and only ASCII in the text, and
`json.loads`.  A value that is no JSON is written as its `str`.  Reading gives
one entry for each key, the last value in the first place.  Texts are lists of
Unicode scalar values, so a lone surrogate is not read.
-/

namespace PyJson

/-- The numbers of a float type as texts.  `parse` reads the numerals that have
a fraction or an exponent. -/
structure FloatTexts where
  Float : Type
  text : Float → List Char
  parse : List Char → Option Float

def isNumeral (char : Char) : Bool :=
  char.isDigit || char ∈ ['-', '+', '.', 'e', 'E']

/-- What is written is a numeral that is read as the same number. -/
structure FloatTexts.Lawful (floats : FloatTexts) : Prop where
  parse_text : ∀ number, floats.parse (floats.text number) = some number
  numeral : ∀ number, ∀ char ∈ floats.text number, isNumeral char = true
  begins : ∀ number, ∃ char rest, floats.text number = char :: rest ∧
    (char.isDigit = true ∨ char = '-' ∧ ∃ digit ∈ rest.head?, digit.isDigit = true)
  marked : ∀ number, ∃ char ∈ floats.text number, char.isDigit = false ∧ char ≠ '-'

inductive PyFloat (floats : FloatTexts) where
  | nan
  | infinity (negative : Bool)
  | finite (number : floats.Float)

inductive Key (floats : FloatTexts) where
  | str (text : List Char)
  | int (number : Int)
  | float (number : PyFloat floats)
  | bool (truth : Bool)
  | none

mutual

inductive Json (floats : FloatTexts) where
  | none
  | bool (truth : Bool)
  | int (number : Int)
  | float (number : PyFloat floats)
  | str (text : List Char)
  | list (items : Items floats)
  | dict (members : Members floats)
  /-- Any other object, with its `str`. -/
  | other (text : List Char)

inductive Items (floats : FloatTexts) where
  | nil
  | cons (item : Json floats) (rest : Items floats)

inductive Members (floats : FloatTexts) where
  | nil
  | cons (key : Key floats) (value : Json floats) (rest : Members floats)

end

variable {floats : FloatTexts}

def PyFloat.text : PyFloat floats → List Char
  | .nan => ['N', 'a', 'N']
  | .infinity false => ['I', 'n', 'f', 'i', 'n', 'i', 't', 'y']
  | .infinity true => ['-', 'I', 'n', 'f', 'i', 'n', 'i', 't', 'y']
  | .finite number => floats.text number

def boolText (truth : Bool) : List Char :=
  if truth then ['t', 'r', 'u', 'e'] else ['f', 'a', 'l', 's', 'e']

def noneText : List Char := ['n', 'u', 'l', 'l']

def Key.text : Key floats → List Char
  | .str text => text
  | .int number => number.repr.toList
  | .float number => number.text
  | .bool truth => boolText truth
  | .none => noneText

def unitText (unit : Nat) : List Char :=
  '\\' :: 'u' :: Numerals.fixed 16 4 unit

def escape (char : Char) : List Char :=
  if char = '"' then ['\\', '"']
  else if char = '\\' then ['\\', '\\']
  else if char = '\n' then ['\\', 'n']
  else if char = '\r' then ['\\', 'r']
  else if char = '\t' then ['\\', 't']
  else if char = '\x0c' then ['\\', 'f']
  else if char = '\x08' then ['\\', 'b']
  else if 32 ≤ char.toNat ∧ char.toNat ≤ 126 then [char]
  else if char.toNat < 65536 then unitText char.toNat
  else
    unitText (55296 + (char.toNat - 65536) / 1024) ++
      unitText (56320 + (char.toNat - 65536) % 1024)

def quoted (text : List Char) : List Char :=
  '"' :: text.flatMap escape ++ ['"']

mutual

def Json.dumps : Json floats → List Char
  | .none => noneText
  | .bool truth => boolText truth
  | .int number => number.repr.toList
  | .float number => number.text
  | .str text => quoted text
  | .list .nil => ['[', ']']
  | .list (.cons item rest) => '[' :: item.dumps ++ rest.dumpsTail ++ [']']
  | .dict .nil => ['\x7b', '\x7d']
  | .dict (.cons key value rest) =>
    '\x7b' :: quoted key.text ++ ':' :: ' ' :: value.dumps ++ rest.dumpsTail ++ ['\x7d']
  | .other text => quoted text

def Items.dumpsTail : Items floats → List Char
  | .nil => []
  | .cons item rest => ',' :: ' ' :: item.dumps ++ rest.dumpsTail

def Members.dumpsTail : Members floats → List Char
  | .nil => []
  | .cons key value rest =>
    ',' :: ' ' :: quoted key.text ++ ':' :: ' ' :: value.dumps ++ rest.dumpsTail

end

def skip (text : List Char) : List Char :=
  text.dropWhile (· ∈ [' ', '\t', '\n', '\r'])

def readUnit : List Char → Option (Nat × List Char)
  | a :: b :: c :: d :: rest => (Numerals.read 16 [a, b, c, d]).map fun unit => (unit, rest)
  | _ => .none

def charOf (code : Nat) : Option Char :=
  if code.isValidChar then some (Char.ofNat code) else .none

/-- What follows `\u`: a code unit, or a pair of surrogates. -/
def readCode (text : List Char) : Option (Char × List Char) :=
  (readUnit text).bind fun (unit, rest) =>
    if 55296 ≤ unit ∧ unit < 56320 then
      match rest with
      | '\\' :: 'u' :: rest =>
        (readUnit rest).bind fun (low, rest) =>
          if 56320 ≤ low ∧ low < 57344 then
            (charOf (65536 + (unit - 55296) * 1024 + (low - 56320))).map
              fun char => (char, rest)
          else .none
      | _ => .none
    else (charOf unit).map fun char => (char, rest)

def readChar : List Char → Option (Char × List Char)
  | '\\' :: '"' :: rest => some ('"', rest)
  | '\\' :: '\\' :: rest => some ('\\', rest)
  | '\\' :: '/' :: rest => some ('/', rest)
  | '\\' :: 'b' :: rest => some ('\x08', rest)
  | '\\' :: 'f' :: rest => some ('\x0c', rest)
  | '\\' :: 'n' :: rest => some ('\n', rest)
  | '\\' :: 'r' :: rest => some ('\r', rest)
  | '\\' :: 't' :: rest => some ('\t', rest)
  | '\\' :: 'u' :: rest => readCode rest
  | '\\' :: _ => .none
  | char :: rest => if 32 ≤ char.toNat then some (char, rest) else .none
  | [] => .none

/-- `scanstring`: the characters before the closing quote. -/
def scan : Nat → List Char → Option (List Char × List Char)
  | 0, _ => .none
  | _ + 1, '"' :: rest => some ([], rest)
  | fuel + 1, text =>
    (readChar text).bind fun (char, rest) =>
      (scan fuel rest).map fun (chars, rest) => (char :: chars, rest)

def readString (text : List Char) : Option (List Char × List Char) :=
  scan (text.length + 1) text

def natural? (digits : List Char) : Option Nat :=
  if digits ≠ [] ∧ digits.all Char.isDigit ∧ (digits.head? = some '0' → digits = ['0']) then
    some (Nat.ofDigitChars 10 digits 0)
  else .none

def integer? : List Char → Option Int
  | '-' :: digits => (natural? digits).map fun number => -(number : Int)
  | digits => (natural? digits).map Int.ofNat

def number (floats : FloatTexts) (text : List Char) : Option (Json floats × List Char) :=
  let token := text.takeWhile isNumeral
  let rest := text.dropWhile isNumeral
  match integer? token with
  | some number => some (.int number, rest)
  | .none => (floats.parse token).map fun number => (.float (.finite number), rest)

def scalar (floats : FloatTexts) : List Char → Option (Json floats × List Char)
  | 'n' :: 'u' :: 'l' :: 'l' :: rest => some (.none, rest)
  | 't' :: 'r' :: 'u' :: 'e' :: rest => some (.bool true, rest)
  | 'f' :: 'a' :: 'l' :: 's' :: 'e' :: rest => some (.bool false, rest)
  | 'N' :: 'a' :: 'N' :: rest => some (.float .nan, rest)
  | 'I' :: 'n' :: 'f' :: 'i' :: 'n' :: 'i' :: 't' :: 'y' :: rest =>
    some (.float (.infinity false), rest)
  | '-' :: 'I' :: 'n' :: 'f' :: 'i' :: 'n' :: 'i' :: 't' :: 'y' :: rest =>
    some (.float (.infinity true), rest)
  | text => number floats text

namespace Members

def set (key : List Char) (value : Json floats) : Members floats → Members floats
  | .nil => .cons (.str key) value .nil
  | .cons first old rest =>
    if first.text = key then .cons (.str key) value rest
    else .cons first old (rest.set key value)

/-- `dict(pairs)`, entry after entry. -/
def gather (known : Members floats) : Members floats → Members floats
  | .nil => known
  | .cons key value rest => (known.set key.text value).gather rest

/-- `dict.get` of a text, or nothing. -/
def find (key : List Char) : Members floats → Option (Json floats)
  | .nil => .none
  | .cons (.str first) value rest => if first = key then some value else rest.find key
  | .cons _ _ rest => rest.find key

end Members

mutual

def readValue (floats : FloatTexts) : Nat → List Char → Option (Json floats × List Char)
  | 0, _ => .none
  | _ + 1, '"' :: rest => (readString rest).map fun (text, rest) => (.str text, rest)
  | fuel + 1, '[' :: rest =>
    match skip rest with
    | ']' :: rest => some (.list .nil, rest)
    | text => (readItems floats fuel text).map fun (items, rest) => (.list items, rest)
  | fuel + 1, '\x7b' :: rest =>
    match skip rest with
    | '\x7d' :: rest => some (.dict .nil, rest)
    | text => (readMembers floats fuel text).map fun (members, rest) =>
      (.dict (Members.nil.gather members), rest)
  | _ + 1, text => scalar floats text

def readItems (floats : FloatTexts) : Nat → List Char → Option (Items floats × List Char)
  | 0, _ => .none
  | fuel + 1, text =>
    (readValue floats fuel text).bind fun (item, rest) =>
      match skip rest with
      | ']' :: rest => some (.cons item .nil, rest)
      | ',' :: rest => (readItems floats fuel (skip rest)).map
          fun (items, rest) => (.cons item items, rest)
      | _ => .none

def readMembers (floats : FloatTexts) : Nat → List Char → Option (Members floats × List Char)
  | 0, _ => .none
  | fuel + 1, '"' :: rest =>
    (readString rest).bind fun (key, rest) =>
      match skip rest with
      | ':' :: rest =>
        (readValue floats fuel (skip rest)).bind fun (value, rest) =>
          match skip rest with
          | '\x7d' :: rest => some (.cons (.str key) value .nil, rest)
          | ',' :: rest => (readMembers floats fuel (skip rest)).map
              fun (members, rest) => (.cons (.str key) value members, rest)
          | _ => .none
      | _ => .none
  | _ + 1, _ => .none

end

def loads (floats : FloatTexts) (text : List Char) : Option (Json floats) :=
  (readValue floats (text.length + 1) (skip text)).bind fun (value, rest) =>
    if skip rest = [] then some value else .none

end PyJson
