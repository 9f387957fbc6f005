import TempestSdk.Cache.KeyEncoding

/-!
# Arguments that the default key confuses

When two arguments are the same data, and when the key shows the same of them:
both are written by `json.dumps`, both are encoded, or one of them is a dict
that spells the encoding of the other.
-/

namespace TempestSdk.CacheKeys

open PyJson StableSort JsonTrees

variable {host : Host}

mutual

/-- Types and values are the same at every depth, in whatever order dicts and
sets hold them. -/
inductive SameData : Value host → Value host → Prop where
  | refl (value : Value host) : SameData value value
  | model {cls : PyClass} {fields among others : List (Text × Value host)} :
      fields.Perm among → SameFields among others →
      SameData (.model cls fields) (.model cls others)
  | dataclass {cls : PyClass} {values others : List (Value host)} :
      SameItems values others →
      SameData (.dataclass cls values) (.dataclass cls others)
  | enum {cls : PyClass} {value other : Value host} :
      SameData value other → SameData (.enum cls value) (.enum cls other)
  | dict {cls : PyClass} {entries among others :
      List (Value host × Value host)} :
      entries.Perm among → SameEntries among others →
      SameData (.dict cls entries) (.dict cls others)
  | seq {cls : PyClass} {items others : List (Value host)} :
      SameItems items others → SameData (.seq cls items) (.seq cls others)
  | set {cls : PyClass} {items among others : List (Value host)} :
      items.Perm among → SameItems among others →
      SameData (.set cls items) (.set cls others)

inductive SameItems : List (Value host) → List (Value host) → Prop where
  | nil : SameItems [] []
  | cons {item other : Value host} {rest others : List (Value host)} :
      SameData item other → SameItems rest others →
      SameItems (item :: rest) (other :: others)

inductive SameFields :
    List (Text × Value host) → List (Text × Value host) → Prop where
  | nil : SameFields [] []
  | cons {name : Text} {value other : Value host}
      {rest others : List (Text × Value host)} :
      SameData value other → SameFields rest others →
      SameFields ((name, value) :: rest) ((name, other) :: others)

inductive SameEntries : List (Value host × Value host) →
    List (Value host × Value host) → Prop where
  | nil : SameEntries [] []
  | cons {key value otherKey otherValue : Value host}
      {rest others : List (Value host × Value host)} :
      SameData key otherKey → SameData value otherValue →
      SameEntries rest others →
      SameEntries ((key, value) :: rest) ((otherKey, otherValue) :: others)

end

def Call.SameData (call other : Call host) : Prop :=
  SameItems call.args other.args ∧
    ∃ among, call.kwargs.Perm among ∧ SameFields among other.kwargs

namespace Value

mutual

/-- Two values that `json.dumps` writes look the same: the classes of numbers,
texts, sequences and dicts do not show, nor the types of keys, but the order of
a dict does. -/
def looks : Value host → Value host → Bool
  | .none, .none => true
  | .bool truth, .bool other => decide (truth = other)
  | .int _ number, .int _ other => decide (number = other)
  | .float _ number, .float _ other => decide (number.text = other.text)
  | .str _ text, .str _ other => decide (text = other)
  | .dict _ entries, .dict _ others => looksEntries entries others
  | .seq _ items, .seq _ others => looksItems items others
  | _, _ => false

def looksItems : List (Value host) → List (Value host) → Bool
  | [], [] => true
  | item :: rest, other :: others => item.looks other && looksItems rest others
  | _, _ => false

def looksEntries : List (Value host × Value host) → List (Value host × Value host) → Bool
  | [], [] => true
  | (key, value) :: rest, (otherKey, otherValue) :: others =>
    decide (key.keyText = otherKey.keyText) && value.looks otherValue &&
      looksEntries rest others
  | _, _ => false

end

mutual

/-- Two values that are encoded are alike: of numbers, texts, secrets, bytes,
dicts and sets the class does not show, of sequences and of what has a `str`
only its name, and of models, dataclasses and enums its path.  What a dict, a
set or a model holds is matched in any order, but of the keys of a dict that
are alike the first is matched first. -/
def alike : Value host → Value host → Bool
  | .none, .none => true
  | .bool truth, .bool other => decide (truth = other)
  | .int _ number, .int _ other => decide (number = other)
  | .float _ number, .float _ other => decide (number.text = other.text)
  | .str _ text, .str _ other => decide (text = other)
  | .secret _ raw, .secret _ other => decide (raw = other)
  | .model cls fields, .model another others =>
    decide (cls.path = another.path) && alikeFields fields others
  | .dataclass cls values, .dataclass another others =>
    decide (cls.path = another.path) && alikeItems values others
  | .enum cls value, .enum another other =>
    decide (cls.path = another.path) && value.alike other
  | .stamp value, .stamp other =>
    decide (host.stampType value = host.stampType other) &&
      decide (host.stampText value = host.stampText other)
  | .bytes _ raw, .bytes _ other => decide (raw = other)
  | .dict _ entries, .dict _ others => alikeEntries entries others
  | .seq cls items, .seq another others =>
    decide (cls.name = another.name) && alikeItems items others
  | .set _ items, .set _ others => alikeMembers items others
  | .object _, .object _ => true
  | _, _ => false

def alikeItems : List (Value host) → List (Value host) → Bool
  | [], [] => true
  | item :: rest, other :: others => item.alike other && alikeItems rest others
  | _, _ => false

def alikeFields : List (Text × Value host) → List (Text × Value host) → Bool
  | [], others => others.isEmpty
  | (name, value) :: rest, others =>
    match others.find? fun other => decide (name = other.1) with
    | Option.none => false
    | some other => value.alike other.2 &&
        alikeFields rest (others.eraseP fun other => decide (name = other.1))

def alikeEntries : List (Value host × Value host) → List (Value host × Value host) → Bool
  | [], others => others.isEmpty
  | (key, value) :: rest, others =>
    match others.find? fun other => key.alike other.1 with
    | Option.none => false
    | some other => value.alike other.2 &&
        alikeEntries rest (others.eraseP fun other => key.alike other.1)

def alikeMembers : List (Value host) → List (Value host) → Bool
  | [], others => others.isEmpty
  | item :: rest, others =>
    match others.find? fun other => item.alike other with
    | Option.none => false
    | some _ => alikeMembers rest (others.eraseP fun other => item.alike other)

end

def asText : Value host → Option Text
  | .str _ text => some text
  | _ => Option.none

def asRows : Value host → Option (List (Value host))
  | .seq _ items => some items
  | _ => Option.none

def asDict : Value host → Option (List (Value host × Value host))
  | .dict _ entries => some entries
  | _ => Option.none

def asPair : Value host → Option (Value host × Value host)
  | .seq _ [first, second] => some (first, second)
  | _ => Option.none

def only (tag : Text) : Value host → Option (Value host)
  | .dict _ [(key, value)] => if key.keyText = tag then some value else Option.none
  | _ => Option.none

def both (tag inner : Text) : Value host → Option (Value host × Value host)
  | .dict _ [(key, value), (otherKey, other)] =>
    if key.keyText = tag ∧ otherKey.keyText = inner then some (value, other)
    else Option.none
  | _ => Option.none

def inOrder (texts : List Text) : Bool :=
  decide (texts.Pairwise fun text later => text ≤ later)

mutual

/-- The first value, which `json.dumps` writes, spells the encoding of the
second: it is a dict that has the tag for a key, and so is what it holds. -/
def spells (spelled : Value host) : Value host → Bool
  | .none => spelled.looks .none
  | .bool truth => spelled.looks (.bool truth)
  | .int cls number => spelled.looks (.int cls number)
  | .float cls number => spelled.looks (.float cls number)
  | .str cls text => spelled.looks (.str cls text)
  | .secret _ raw =>
    (spelled.only "__secret__".toList).any fun text =>
      decide (text.asText = some (host.secretDigest raw))
  | .model cls fields =>
    (spelled.both "__model__".toList "fields".toList).any fun tagged =>
      decide (tagged.1.asText = some cls.path) && tagged.2.asDict.any fun entries =>
          inOrder (entries.map fun entry => entry.1.keyText) && spellsFields entries fields
  | .dataclass cls values =>
    (spelled.both "__dataclass__".toList "fields".toList).any fun tagged =>
      decide (tagged.1.asText = some cls.path) && tagged.2.asDict.any fun entries =>
          spellsNamed (host.fieldName cls.path) 0 entries values
  | .enum cls value =>
    (spelled.both "__enum__".toList "value".toList).any fun tagged =>
      decide (tagged.1.asText = some cls.path) && tagged.2.spells value
  | .stamp value =>
    (spelled.both "__t__".toList "v".toList).any fun tagged =>
      decide (tagged.1.asText = some (host.stampType value)) &&
        decide (tagged.2.asText = some (host.stampText value))
  | .bytes _ raw =>
    (spelled.only "__bytes__".toList).any fun text =>
      decide (text.asText = some (hex raw))
  | .dict _ entries =>
    (spelled.only "__dict__".toList).any fun listed =>
      listed.asRows.any fun rows =>
        (rows.mapM asPair).any fun pairs =>
          inOrder (pairs.map fun pair => sortText pair.1.json) && spellsEntries pairs entries
  | .seq cls items =>
    (spelled.both "__seq__".toList "items".toList).any fun tagged =>
      decide (tagged.1.asText = some cls.name) &&
        tagged.2.asRows.any fun rows => spellsItems rows items
  | .set _ items =>
    (spelled.only "__set__".toList).any fun listed =>
      listed.asRows.any fun rows =>
        inOrder (rows.map fun row => sortText row.json) && spellsMembers rows items
  | .object _ => spelled.asRows.any List.isEmpty
termination_by structural value => value

def spellsItems : List (Value host) → List (Value host) → Bool
  | rows, [] => rows.isEmpty
  | [], _ :: _ => false
  | row :: rows, item :: rest => row.spells item && spellsItems rows rest
termination_by structural _ items => items

def spellsNamed (name : Nat → Text) (place : Nat) :
    List (Value host × Value host) → List (Value host) → Bool
  | entries, [] => entries.isEmpty
  | [], _ :: _ => false
  | entry :: entries, value :: rest =>
    decide (entry.1.keyText = name place) && entry.2.spells value &&
      spellsNamed name (place + 1) entries rest
termination_by structural _ values => values

def spellsFields (entries : List (Value host × Value host)) : List (Text × Value host) → Bool
  | [] => entries.isEmpty
  | (name, value) :: rest =>
    match entries.find? fun entry => decide (name = entry.1.keyText) with
    | Option.none => false
    | some entry => entry.2.spells value &&
        spellsFields (entries.eraseP fun entry => decide (name = entry.1.keyText)) rest
termination_by structural fields => fields

def spellsEntries (pairs : List (Value host × Value host)) :
    List (Value host × Value host) → Bool
  | [] => pairs.isEmpty
  | (key, value) :: rest =>
    match pairs.find? fun pair => pair.1.spells key with
    | Option.none => false
    | some pair => pair.2.spells value &&
        spellsEntries (pairs.eraseP fun pair => pair.1.spells key) rest
termination_by structural entries => entries

def spellsMembers (rows : List (Value host)) : List (Value host) → Bool
  | [] => rows.isEmpty
  | item :: rest =>
    match rows.find? fun row => row.spells item with
    | Option.none => false
    | some _ => spellsMembers (rows.eraseP fun row => row.spells item) rest
termination_by structural items => items

end

def confused (value other : Value host) : Bool :=
  match value.accepts, other.accepts with
  | true, true => value.looks other
  | true, false => value.spells other
  | false, true => other.spells value
  | false, false => value.alike other

end Value

def Call.confused (call other : Call host) : Bool :=
  confusedItems call.args other.args &&
    matchUp (fun field another => decide (field.1 = another.1))
      (fun field another => field.2.confused another.2)
      call.kwargs other.kwargs
where
  confusedItems : List (Value host) → List (Value host) → Bool
    | [], [] => true
    | item :: rest, other :: others => item.confused other && confusedItems rest others
    | _, _ => false

end TempestSdk.CacheKeys
