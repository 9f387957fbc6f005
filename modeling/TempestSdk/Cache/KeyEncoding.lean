import TempestSdk.Library.JsonTrees

/-!
# The default key of a cached call

`_default_key_builder` over Python values: what `json.dumps` accepts enters the
key as it is, anything else is encoded with tags.  A value is told by the first
test of `_encode` that it passes, with its class and what is inside it.  Texts
are lists of Unicode scalar values.
-/

namespace TempestSdk.CacheKeys

open PyJson StableSort JsonTrees

abbrev Text := List Char

abbrev Bytes := List UInt8

structure PyClass where
  /-- `__module__`. -/
  module : Text
  /-- `__qualname__`. -/
  qualname : Text
  /-- `__name__`. -/
  name : Text
deriving DecidableEq

def PyClass.path (cls : PyClass) : Text := cls.module ++ '.' :: cls.qualname

/-- What the key takes from the standard library. -/
structure Host where
  floats : FloatTexts
  /-- The values of `UUID`, `Decimal`, `datetime`, `date`, `time` and
  `timedelta`. -/
  Stamp : Type
  /-- `type(value).__name__`. -/
  stampType : Stamp → Text
  /-- `str(value)`. -/
  stampText : Stamp → Text
  /-- The names of the fields of a dataclass, by its path and their places. -/
  fieldName : Text → Nat → Text
  /-- `sha256(raw).hexdigest()`, of a secret. -/
  secretDigest : Bytes → Text
  /-- `sha256(payload.encode()).hexdigest()[:32]`. -/
  digest : Text → Text

structure Host.Lawful (host : Host) : Prop where
  floats : host.floats.Lawful
  secretDigest : Function.Injective host.secretDigest
  digest : Function.Injective host.digest

variable {host : Host}

inductive Value (host : Host) where
  | none
  | bool (truth : Bool)
  | int (cls : PyClass) (number : Int)
  | float (cls : PyClass) (number : PyFloat host.floats)
  | str (cls : PyClass) (text : Text)
  /-- `SecretStr` or `SecretBytes`, with the bytes of the secret. -/
  | secret (cls : PyClass) (raw : Bytes)
  | model (cls : PyClass) (fields : List (Text × Value host))
  | dataclass (cls : PyClass) (values : List (Value host))
  | enum (cls : PyClass) (value : Value host)
  | stamp (value : host.Stamp)
  /-- `bytes` or `bytearray`. -/
  | bytes (cls : PyClass) (raw : Bytes)
  | dict (cls : PyClass) (entries : List (Value host × Value host))
  | seq (cls : PyClass) (items : List (Value host))
  | set (cls : PyClass) (items : List (Value host))
  | object (cls : PyClass)

namespace Value

/-- A key of a dict that `json.dumps` writes. -/
def isKey : Value host → Bool
  | .none | .bool _ | .int _ _ | .float _ _ | .str _ _ => true
  | _ => false

def keyText : Value host → Text
  | .none => noneText
  | .bool truth => boolText truth
  | .int _ number => number.repr.toList
  | .float _ number => number.text
  | .str _ text => text
  | _ => []

mutual

/-- `json.dumps` does not raise. -/
def accepts : Value host → Bool
  | .none | .bool _ | .int _ _ | .float _ _ | .str _ _ => true
  | .dict _ entries => acceptsEntries entries
  | .seq _ items => acceptsItems items
  | _ => false

def acceptsItems : List (Value host) → Bool
  | [] => true
  | item :: rest => item.accepts && acceptsItems rest

def acceptsEntries : List (Value host × Value host) → Bool
  | [] => true
  | (key, value) :: rest => key.isKey && value.accepts && acceptsEntries rest

end

mutual

/-- What `json.dumps` writes of a value that it accepts. -/
def json : Value host → Tree host.floats
  | .bool truth => .bool truth
  | .int _ number => .int number
  | .float _ number => .float number
  | .str _ text => .str text
  | .dict _ entries => .dict (jsonEntries entries)
  | .seq _ items => .list (jsonItems items)
  | _ => .none

def jsonItems : List (Value host) → List (Tree host.floats)
  | [] => []
  | item :: rest => item.json :: jsonItems rest

def jsonEntries : List (Value host × Value host) → List (Text × Tree host.floats)
  | [] => []
  | (key, value) :: rest => (key.keyText, value.json) :: jsonEntries rest

end

end Value

/-- `json.dumps(value, sort_keys=True)`, by which `_encode` sorts. -/
def sortText (tree : Tree host.floats) : Text := tree.ordered.write [' ']

def hex (raw : Bytes) : Text :=
  raw.flatMap fun byte => Numerals.fixed 16 2 byte.toNat

def pair (entry : Tree host.floats × Tree host.floats) : Tree host.floats :=
  .list [entry.1, entry.2]

namespace Value

mutual

/-- `_encode`, of a value in which there is nothing that makes it raise. -/
def encode : Value host → Tree host.floats
  | .none => .none
  | .bool truth => .bool truth
  | .int _ number => .int number
  | .float _ number => .float number
  | .str _ text => .str text
  | .secret _ raw => .dict [("__secret__".toList, .str (host.secretDigest raw))]
  | .model cls fields =>
    .dict [("__model__".toList, .str cls.path),
      ("fields".toList, .dict (sortBy Prod.fst (encodeFields fields)))]
  | .dataclass cls values =>
    .dict [("__dataclass__".toList, .str cls.path), ("fields".toList,
        .dict (encodeNamed (host.fieldName cls.path) 0 values))]
  | .enum cls value =>
    .dict [("__enum__".toList, .str cls.path), ("value".toList, value.encode)]
  | .stamp value =>
    .dict [("__t__".toList, .str (host.stampType value)),
      ("v".toList, .str (host.stampText value))]
  | .bytes _ raw => .dict [("__bytes__".toList, .str (hex raw))]
  | .dict _ entries =>
    .dict [("__dict__".toList, .list
      ((sortBy (fun entry => sortText entry.1) (encodeEntries entries)).map pair))]
  | .seq cls items =>
    .dict [("__seq__".toList, .str cls.name), ("items".toList, .list (encodeItems items))]
  | .set _ items => .dict [("__set__".toList, .list (sortBy sortText (encodeItems items)))]
  | .object _ => .list []

def encodeItems : List (Value host) → List (Tree host.floats)
  | [] => []
  | item :: rest => item.encode :: encodeItems rest

def encodeFields : List (Text × Value host) → List (Text × Tree host.floats)
  | [] => []
  | (name, value) :: rest => (name, value.encode) :: encodeFields rest

def encodeNamed (name : Nat → Text) (place : Nat) :
    List (Value host) → List (Text × Tree host.floats)
  | [] => []
  | value :: rest => (name place, value.encode) :: encodeNamed name (place + 1) rest

def encodeEntries : List (Value host × Value host) → List (Tree host.floats × Tree host.floats)
  | [] => []
  | (key, value) :: rest => (key.encode, value.encode) :: encodeEntries rest

end

mutual

/-- `_encode` does not raise. -/
def encodable : Value host → Bool
  | .object _ => false
  | .model _ fields => encodableFields fields
  | .dataclass _ values => encodableItems values
  | .enum _ value => value.encodable
  | .dict _ entries => encodableEntries entries
  | .seq _ items | .set _ items => encodableItems items
  | _ => true

def encodableItems : List (Value host) → Bool
  | [] => true
  | item :: rest => item.encodable && encodableItems rest

def encodableFields : List (Text × Value host) → Bool
  | [] => true
  | (_, value) :: rest => value.encodable && encodableFields rest

def encodableEntries : List (Value host × Value host) → Bool
  | [] => true
  | (key, value) :: rest => key.encodable && value.encodable && encodableEntries rest

end

def toJsonable (value : Value host) : Option (Tree host.floats) :=
  if value.accepts then some value.json
  else if value.encodable then some value.encode
  else Option.none

end Value

structure Call (host : Host) where
  args : List (Value host)
  kwargs : List (Text × Value host)

/-- `_default_key_builder`, which gives no key when an argument has no
encoding. -/
def defaultKeyBuilder (func_name : Text) (call : Call host) : Option Text :=
  (call.args.mapM Value.toJsonable).bind fun args =>
    ((sortBy Prod.fst call.kwargs).mapM fun (field : Text × Value host) =>
      field.2.toJsonable.map fun value => (field.1, value)).map fun kwargs =>
        let payload : Tree host.floats :=
          .dict [("args".toList, .list args), ("kwargs".toList, .dict kwargs)]
        func_name ++ ':' :: host.digest (payload.write [])

end TempestSdk.CacheKeys
