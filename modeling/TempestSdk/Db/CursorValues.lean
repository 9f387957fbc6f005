import Mathlib.Algebra.Order.Ring.Rat
import TempestSdk.Db.CursorPages
import TempestSdk.Library.PyText

/-!
# Values in cursors

`encode_cursor` makes JSON of a value, by `str` when JSON has no such value, and
`_coerce_cursor_value` rehydrates what `decode_cursor` finds for the Python type
of the column.  Base64 and the text of JSON are left out: reading inverts
writing.  A float is the rational number it stands for.
-/

namespace TempestSdk.CursorValues

open PyText
open Tenancy CursorPages

/-- What an `Enum` subclass mixes in. -/
inductive Mixin where
  | plain
  | str
  | int
deriving DecidableEq

inductive MemberValue where
  | str (text : String)
  | int (number : Int)
deriving DecidableEq

structure EnumClass where
  name : String
  mixin : Mixin
  members : List (String × MemberValue)
deriving DecidableEq

inductive PyValue where
  | none
  | bool (value : Bool)
  | int (value : Int)
  | float (value : ℚ)
  | str (text : String)
  | datetime (value : Datetime)
  | date (value : Date)
  | time (value : Time)
  | uuid (value : Uuid)
  | decimal (value : Decimal)
  | enum (enumeration : EnumClass) (member : String × MemberValue)
  /-- A value of another type, and its `str`. -/
  | other (type text : String)
deriving DecidableEq

inductive PythonType where
  | bool
  | int
  | float
  | str
  /-- With what `_wants_timezone` says. -/
  | datetime (timezone : Bool)
  | date
  | time
  | uuid
  | decimal
  | enum (enumeration : EnumClass)
  | other (type : String)
  | unnamed
deriving DecidableEq

inductive Json where
  | null
  | bool (value : Bool)
  | int (value : Int)
  | float (value : ℚ)
  | str (text : String)
deriving DecidableEq

/-- A cursor that decodes to a JSON object, or to something else. -/
inductive Payload where
  | object (fields : List (String × Json))
  | other (json : Json)
deriving DecidableEq

/-- The value JSON has for a member: the one of the type that is mixed in.
`str` of a plain member is its name after that of its class. -/
def memberJson (enumeration : EnumClass) (member : String × MemberValue) : Json :=
  match enumeration.mixin, member.2 with
  | .plain, _ => .str (enumeration.name ++ "." ++ member.1)
  | _, .str text => .str text
  | _, .int number => .int number

/-- `json.dumps(value, default=str)`. -/
def dumps : PyValue → Json
  | .none => .null
  | .bool value => .bool value
  | .int value => .int value
  | .float value => .float value
  | .str text => .str text
  | .datetime value => .str (String.ofList value.isoformat)
  | .date value => .str (String.ofList value.isoformat)
  | .time value => .str (String.ofList value.isoformat)
  | .uuid value => .str (String.ofList (PyText.Uuid.str value))
  | .decimal value => .str (String.ofList value.str)
  | .enum enumeration member => memberJson enumeration member
  | .other _ text => .str text

def encodeCursor (value id : PyValue) : Payload :=
  .object [("value", dumps value), ("id", dumps id)]

def decodeCursor : Payload → Except Error (List (String × Json))
  | .object fields => .ok fields
  | .other _ => .error (.valueError "Invalid cursor payload")

/-- `payload.get(key)`. -/
def get (fields : List (String × Json)) (key : String) : Json :=
  (fields.lookup key).getD .null

/-- `int(text)`. -/
def parseInt (chars : List Char) : Option Int :=
  match chars with
  | '-' :: digits => (Numerals.read 10 digits).map fun number : Nat => -(number : Int)
  | '+' :: digits => (Numerals.read 10 digits).map Int.ofNat
  | digits => (Numerals.read 10 digits).map Int.ofNat

/-- `float(text)`, before it is rounded. -/
def parseFloat (chars : List Char) : Option ℚ :=
  (Decimal.parse chars).map fun decimal =>
    (if decimal.negative then -1 else 1) * decimal.coefficient * (10 : ℚ) ^ decimal.exponent

def parseDatetime (timezone : Bool) (chars : List Char) : Option Datetime :=
  (Datetime.fromisoformat chars).map fun parsed =>
    if timezone then parsed.toUtc else parsed.toUtc.naive

/-- `python_type(text)` for an enumeration: the member that has this value. -/
def parseMember (enumeration : EnumClass) (text : String) : Option (String × MemberValue) :=
  enumeration.members.find? fun member => decide (member.2 = .str text)

/-- What a text is rehydrated to; nothing is a `ValueError`. -/
def parse (type : PythonType) (text : String) : Option PyValue :=
  match type with
  | .unnamed | .str | .other _ => some (.str text)
  | .datetime timezone => (parseDatetime timezone text.toList).map .datetime
  | .date => (Date.fromisoformat text.toList).map .date
  | .time => (Time.fromisoformat text.toList).map .time
  | .uuid => (PyText.Uuid.parse text.toList).map .uuid
  | .decimal => (Decimal.parse text.toList).map .decimal
  | .bool => some (.bool (["true", "1", "t", "yes"].contains text.toLower))
  | .enum enumeration => (parseMember enumeration text).map (.enum enumeration)
  | .int => (parseInt text.toList).map .int
  | .float => (parseFloat text.toList).map .float

def coerceCursorValue (type : PythonType) : Json → Except Error PyValue
  | .null => .ok .none
  | .bool value => .ok (.bool value)
  | .int value => .ok (.int value)
  | .float value => .ok (.float value)
  | .str text =>
    match parse type text with
    | some value => .ok value
    | none => .error (.valueError "Invalid cursor value")

/-- A mapped column: what SQLAlchemy loads from it, and what it makes of an
operand of a comparison with it, if it takes it. -/
structure Column (Value : Type) where
  type : PythonType
  load : Value → PyValue
  bind : PyValue → Option Value

def operands {Value : Type} (column id : Column Value)
    (lastValue lastId : PyValue) : Except Error (Value × Value) :=
  match column.bind lastValue, id.bind lastId with
  | some value, some key => .ok (value, key)
  | _, _ => .error .argument

def coerceId (type : PythonType) (json : Json) : Except Error PyValue :=
  match coerceCursorValue type json with
  | .ok value => .ok value
  | .error _ => .error (.valueError "Invalid cursor id")

/-- What `cursor_paginate` makes of a cursor. -/
def decode {Value : Type} (column id : Column Value) (cursor : Payload) :
    Except Error (Value × Value) := do
  let payload ← decodeCursor cursor
  let lastValue ← coerceCursorValue column.type (get payload "value")
  let lastId ← coerceId id.type (get payload "id")
  operands column id lastValue lastId

/-- The cursors of `cursor_paginate`, for `order_by` and for `id`. -/
def codec {Value : Type} (column id : Column Value) : Codec Value Payload where
  encode := fun last => encodeCursor (column.load last.1) (id.load last.2)
  decode := decode column id

section

variable {Value : Type} [DecidableEq Value] {model : Model Value} {hooks : Hooks Value}
  {request : Request Value} {query : Query Value} {rows : List (Row Value)}
  {last : Row Value}

end

/-- Numbers in the database, the least one after NULL. -/
def storedLess : Option Nat → Option Nat → Bool
  | none, some _ => true
  | some left, some right => decide (left < right)
  | _, none => false

def paints : Model (Option Nat) where
  name := "Paint"
  columns := ["id", "color"]
  keys := []
  isNull := Option.isNone
  less := storedLess
  boolean := fun _ => none
  orderableColumns := none
  maxPageSize := none
  dialect := "postgresql"
  autoflush := true
  notFoundMessage := none
  conflictMessage := fun _ => none

theorem paints_ordered : LinearlyOrdered paints where
  irrefl := by
    rintro (_ | value)
    · rfl
    · simp [paints, storedLess]
  trans := by
    rintro (_ | low) (_ | middle) (_ | high) <;> simp [paints, storedLess]
    exact Nat.lt_trans
  total := by
    rintro (_ | left) (_ | right) <;> simp [paints, storedLess]

def paint (key : Nat) (color : Option Nat) : Row (Option Nat) := fun column =>
  if column = "id" then some key else if column = "color" then color else none

def byColor : Request (Option Nat) where
  start := everything
  filters := none
  limit := 1
  orderBy := "color"
  ascending := true

theorem byColor_accepted : Accepted paints plainHooks byColor everything where
  size := rfl
  positive := by decide
  column := by decide
  filters := rfl

/-- The `id` of a paint. -/
def keyColumn : Column (Option Nat) where
  type := .uuid
  load := fun
    | some number => .uuid (Fin.ofNat (16 ^ 32) number)
    | none => .none
  bind := fun
    | .uuid value => some (some value.val)
    | _ => none

def numberColumn : Column (Option Nat) where
  type := .int
  load := fun
    | some number => .int number
    | none => .none
  bind := fun
    | .int number => some (some number.toNat)
    | .none => some none
    | _ => none

def color : EnumClass where
  name := "Color"
  mixin := .plain
  members := [("RED", .str "red"), ("BLUE", .str "blue")]

def colorColumn : Column (Option Nat) where
  type := .enum color
  load := fun
    | some position =>
      match color.members[position]? with
      | some member => .enum color member
      | none => .none
    | none => .none
  bind := fun
    | .enum _ member => some (color.members.idxOf? member)
    | .none => some none
    | _ => none

theorem paints_keyed (first second : Option Nat) :
    Keyed paints [paint 1 first, paint 2 second] where
  distinct := by simp [paint]
  not_null := by simp [paint, paints]

end TempestSdk.CursorValues
