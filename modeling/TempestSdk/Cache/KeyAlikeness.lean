import TempestSdk.Cache.KeyConfusion

/-!
# What encodings tell

What `json.dumps` writes of two values is the same just when they look the same,
and their encodings are the same just when they are alike.
-/

namespace TempestSdk.CacheKeys

open PyJson StableSort JsonTrees

variable {host : Host}

namespace Value

def parts : Value host → List (Value host)
  | .model _ fields => fields.map Prod.snd
  | .dataclass _ values => values
  | .enum _ value => [value]
  | .dict _ entries => entries.map Prod.fst ++ entries.map Prod.snd
  | .seq _ items | .set _ items => items
  | _ => []

theorem sizeOf_part {value part : Value host} (inside : part ∈ value.parts) :
    sizeOf part < sizeOf value := by
  cases value with
  | model cls fields =>
    obtain ⟨field, member, rfl⟩ := List.mem_map.mp inside
    have smaller := List.sizeOf_lt_of_mem member
    rcases field with ⟨name, value⟩
    simp at smaller ⊢
    omega
  | dataclass cls items | seq cls items | set cls items =>
    have member : part ∈ items := inside
    have smaller := List.sizeOf_lt_of_mem member
    simp
    omega
  | enum cls value =>
    rw [List.mem_singleton.mp inside]
    simp
  | dict cls entries =>
    rcases List.mem_append.mp inside with first | second
    · obtain ⟨entry, member, rfl⟩ := List.mem_map.mp first
      have smaller := List.sizeOf_lt_of_mem member
      rcases entry with ⟨key, value⟩
      simp at smaller ⊢
      omega
    · obtain ⟨entry, member, rfl⟩ := List.mem_map.mp second
      have smaller := List.sizeOf_lt_of_mem member
      rcases entry with ⟨key, value⟩
      simp at smaller ⊢
      omega
  | none | bool | int | float | str | secret | stamp | bytes | object => cases inside

theorem of_parts {motive : Value host → Prop}
    (step : ∀ value, (∀ part ∈ value.parts, motive part) → motive value)
    (value : Value host) : motive value :=
  step value fun part _inside => of_parts step part
termination_by sizeOf value
decreasing_by exact sizeOf_part _inside

theorem part_of_field {cls : PyClass} {fields : List (Text × Value host)}
    {field : Text × Value host} (member : field ∈ fields) :
    field.2 ∈ (Value.model cls fields).parts :=
  List.mem_map_of_mem member

theorem part_of_key {cls : PyClass} {entries : List (Value host × Value host)}
    {entry : Value host × Value host} (member : entry ∈ entries) :
    entry.1 ∈ (Value.dict cls entries).parts :=
  List.mem_append_left _ (List.mem_map_of_mem member)

theorem part_of_value {cls : PyClass} {entries : List (Value host × Value host)}
    {entry : Value host × Value host} (member : entry ∈ entries) :
    entry.2 ∈ (Value.dict cls entries).parts :=
  List.mem_append_right _ (List.mem_map_of_mem member)

theorem encodeItems_eq (items : List (Value host)) : encodeItems items = items.map encode := by
  induction items with
  | nil => rfl
  | cons item rest induction =>
    rw [encodeItems, induction]
    rfl

theorem encodeFields_eq (fields : List (Text × Value host)) : encodeFields fields =
      fields.map fun field => (field.1, field.2.encode) := by
  induction fields with
  | nil => rfl
  | cons field rest induction =>
    rw [encodeFields, induction]
    rfl

theorem encodeEntries_eq (entries : List (Value host × Value host)) : encodeEntries entries =
      entries.map fun entry => (entry.1.encode, entry.2.encode) := by
  induction entries with
  | nil => rfl
  | cons entry rest induction =>
    rw [encodeEntries, induction]
    rfl

theorem jsonItems_eq (items : List (Value host)) : jsonItems items = items.map json := by
  induction items with
  | nil => rfl
  | cons item rest induction =>
    rw [jsonItems, induction]
    rfl

theorem jsonEntries_eq (entries : List (Value host × Value host)) : jsonEntries entries =
      entries.map fun entry => (entry.1.keyText, entry.2.json) := by
  induction entries with
  | nil => rfl
  | cons entry rest induction =>
    rw [jsonEntries, induction]
    rfl

theorem acceptsItems_iff (items : List (Value host)) :
    acceptsItems items = true ↔ ∀ item ∈ items, item.accepts = true := by
  induction items with
  | nil => simp [acceptsItems]
  | cons item rest induction => simp [acceptsItems, induction]

theorem acceptsEntries_iff (entries : List (Value host × Value host)) :
    acceptsEntries entries = true ↔
      ∀ entry ∈ entries, entry.1.isKey = true ∧ entry.2.accepts = true := by
  induction entries with
  | nil => simp [acceptsEntries]
  | cons entry rest induction => simp [acceptsEntries, induction]

theorem alikeFields_eq (fields others : List (Text × Value host)) :
    alikeFields fields others = matchUp (fun field other => decide (field.1 = other.1))
        (fun field other => field.2.alike other.2) fields others := by
  induction fields generalizing others with
  | nil => rw [alikeFields, matchUp]
  | cons field rest induction =>
    unfold alikeFields matchUp
    cases others.find? fun other => decide (field.1 = other.1) with
    | none => rfl
    | some other =>
      dsimp only
      rw [induction]

theorem alikeEntries_eq (entries others : List (Value host × Value host)) :
    alikeEntries entries others = matchUp (fun entry other => entry.1.alike other.1)
        (fun entry other => entry.2.alike other.2) entries others := by
  induction entries generalizing others with
  | nil => rw [alikeEntries, matchUp]
  | cons entry rest induction =>
    unfold alikeEntries matchUp
    cases others.find? fun other => entry.1.alike other.1 with
    | none => rfl
    | some other =>
      dsimp only
      rw [induction]

theorem alikeMembers_eq (items others : List (Value host)) : alikeMembers items others =
      matchUp (fun item other => item.alike other) (fun _ _ => true) items others := by
  induction items generalizing others with
  | nil => rw [alikeMembers, matchUp]
  | cons item rest induction =>
    unfold alikeMembers matchUp
    cases others.find? fun other => item.alike other with
    | none => rfl
    | some other =>
      dsimp only
      rw [induction, Bool.true_and]

theorem float_text_iff (lawful : host.Lawful) (number other : PyFloat host.floats) :
    number.text = other.text ↔ number = other := by
  constructor
  · intro same
    have stops : Stops [] := by
      intro char member
      cases member
    have read := scalar_float lawful.floats number stops
    rw [same, scalar_float lawful.floats other stops] at read
    cases read
    rfl
  · intro same
    rw [same]

theorem looksItems_iff {items others : List (Value host)}
    (looking : ∀ item ∈ items, ∀ other ∈ others,
      (item.looks other = true ↔ item.json = other.json)) :
    looksItems items others = true ↔ items.map json = others.map json := by
  induction items generalizing others with
  | nil =>
    cases others with
    | nil => simp [looksItems]
    | cons other others => simp [looksItems]
  | cons item rest induction =>
    cases others with
    | nil => simp [looksItems]
    | cons other others =>
      have first := looking item List.mem_cons_self other List.mem_cons_self
      have later := @induction others fun next member another found =>
        looking next (List.mem_cons_of_mem _ member) another (List.mem_cons_of_mem _ found)
      rw [looksItems, Bool.and_eq_true, first, later, List.map_cons,
        List.map_cons, List.cons.injEq]

theorem looksEntries_iff {entries others : List (Value host × Value host)}
    (looking : ∀ entry ∈ entries, ∀ other ∈ others,
      (entry.2.looks other.2 = true ↔ entry.2.json = other.2.json)) :
    looksEntries entries others = true ↔
      entries.map (fun entry => (entry.1.keyText, entry.2.json)) =
        others.map fun entry => (entry.1.keyText, entry.2.json) := by
  induction entries generalizing others with
  | nil =>
    cases others with
    | nil => simp [looksEntries]
    | cons other others => simp [looksEntries]
  | cons entry rest induction =>
    cases others with
    | nil => simp [looksEntries]
    | cons other others =>
      have first := looking entry List.mem_cons_self other List.mem_cons_self
      have later := @induction others fun next member another found =>
        looking next (List.mem_cons_of_mem _ member) another (List.mem_cons_of_mem _ found)
      rw [looksEntries, Bool.and_eq_true, Bool.and_eq_true, first, later,
        decide_eq_true_eq, List.map_cons, List.map_cons, List.cons.injEq,
        Prod.mk.injEq]

theorem looks_iff (lawful : host.Lawful) (value : Value host) :
    ∀ other : Value host, value.accepts = true → other.accepts = true →
      (value.looks other = true ↔ value.json = other.json) := by
  induction value using of_parts with
  | step value parts =>
    intro other accepted otherAccepted
    cases value with
    | none | bool | int | float | str =>
      cases other with
      | none | bool | int | float | str | dict | seq =>
        simp [looks, json, float_text_iff lawful]
      | secret | model | dataclass | enum | stamp | bytes | set | object => cases otherAccepted
    | seq cls items =>
      cases other with
      | none | bool | int | float | str | dict => simp [looks, json]
      | secret | model | dataclass | enum | stamp | bytes | set | object => cases otherAccepted
      | seq another others =>
        have accept := (acceptsItems_iff items).mp accepted
        have otherAccept := (acceptsItems_iff others).mp otherAccepted
        rw [looks, json, json, jsonItems_eq, jsonItems_eq, Tree.list.injEq]
        apply looksItems_iff
        intro item member other found
        exact parts item member other (accept item member) (otherAccept other found)
    | dict cls entries =>
      cases other with
      | none | bool | int | float | str | seq => simp [looks, json]
      | secret | model | dataclass | enum | stamp | bytes | set | object => cases otherAccepted
      | dict another others =>
        have accept := (acceptsEntries_iff entries).mp accepted
        have otherAccept := (acceptsEntries_iff others).mp otherAccepted
        rw [looks, json, json, jsonEntries_eq, jsonEntries_eq, Tree.dict.injEq]
        apply looksEntries_iff
        intro entry member other found
        exact parts entry.2 (part_of_value member) other.2
          (accept entry member).2 (otherAccept other found).2
    | secret | model | dataclass | enum | stamp | bytes | set | object => cases accepted

inductive Kind where
  | none | bool | int | float | str | secret | model | dataclass | enum
  | stamp | bytes | dict | seq | set | object
deriving DecidableEq

def kind : Value host → Kind
  | .none => .none
  | .bool _ => .bool
  | .int _ _ => .int
  | .float _ _ => .float
  | .str _ _ => .str
  | .secret _ _ => .secret
  | .model _ _ => .model
  | .dataclass _ _ => .dataclass
  | .enum _ _ => .enum
  | .stamp _ => .stamp
  | .bytes _ _ => .bytes
  | .dict _ _ => .dict
  | .seq _ _ => .seq
  | .set _ _ => .set
  | .object _ => .object

def tagKind (tag : Text) : Kind :=
  if tag = "__secret__".toList then .secret
  else if tag = "__model__".toList then .model
  else if tag = "__dataclass__".toList then .dataclass
  else if tag = "__enum__".toList then .enum
  else if tag = "__t__".toList then .stamp
  else if tag = "__bytes__".toList then .bytes
  else if tag = "__dict__".toList then .dict
  else if tag = "__seq__".toList then .seq
  else if tag = "__set__".toList then .set
  else .object

def treeKind : Tree host.floats → Kind
  | .none => .none
  | .bool _ => .bool
  | .int _ => .int
  | .float _ => .float
  | .str _ => .str
  | .list _ => .object
  | .dict [] => .object
  | .dict ((tag, _) :: _) => tagKind tag

theorem treeKind_encode (value : Value host) : treeKind value.encode = value.kind := by
  cases value <;> rfl

theorem treeKind_ordered (value : Value host) : treeKind value.encode.ordered = value.kind := by
  cases value with
  | model | dataclass | enum | stamp | seq =>
    rw [encode, ordered_two (by decide)]
    rfl
  | none | bool | int | float | str | secret | bytes | dict | set | object => rfl

theorem kind_of_alike {value other : Value host}
    (alike : value.alike other = true) : value.kind = other.kind := by
  unfold Value.alike at alike
  split at alike
  case h_16 => cases alike
  all_goals rfl

/-- An encoding tells all that the key shows of a value, also when the members
of its objects are sorted. -/
def Told (value : Value host) : Prop :=
  ∀ other : Value host, (value.alike other = true ↔ value.encode = other.encode) ∧
    (value.encode.ordered = other.encode.ordered → value.encode = other.encode)

variable {value : Value host}

theorem told_of_kind (told : ∀ other : Value host, value.kind = other.kind →
      (value.alike other = true ↔ value.encode = other.encode) ∧
      (value.encode.ordered = other.encode.ordered →
        value.encode = other.encode)) : Told value := by
  intro other
  by_cases kinds : value.kind = other.kind
  · exact told other kinds
  · refine ⟨iff_of_false ?_ ?_, ?_⟩
    · intro alike
      exact kinds (kind_of_alike alike)
    · intro same
      have read := congrArg treeKind same
      rw [treeKind_encode, treeKind_encode] at read
      exact kinds read
    · intro same
      have read := congrArg treeKind same
      rw [treeKind_ordered, treeKind_ordered] at read
      exact absurd read kinds

theorem told_scalar (lawful : host.Lawful)
    (scalar : value.kind ∈ [.none, .bool, .int, .float, .str, .object]) :
    Told value := by
  apply told_of_kind
  intro other kinds
  cases value with
  | none | bool | int | float | str | object =>
    cases other <;> cases kinds
    all_goals simp [alike, encode, Tree.ordered, orderedItems, float_text_iff lawful]
  | secret | model | dataclass | enum | stamp | bytes | dict | seq | set =>
    simp [kind] at scalar

theorem hex_injective : Function.Injective hex := by
  intro raw other same
  induction raw generalizing other with
  | nil =>
    cases other with
    | nil => rfl
    | cons byte rest => simp [hex, Numerals.fixed] at same
  | cons byte rest induction =>
    cases other with
    | nil => simp [hex, Numerals.fixed] at same
    | cons another others =>
      unfold hex at same
      rw [List.flatMap_cons, List.flatMap_cons] at same
      obtain ⟨digits, behind⟩ := List.append_inj same (by simp)
      have read : ∀ byte : UInt8, Numerals.read 16 (Numerals.fixed 16 2 byte.toNat) =
            some byte.toNat := fun byte =>
        Numerals.read_fixed (by decide) (by decide) byte.toNat_lt
      have number := read byte
      rw [digits, read another] at number
      have bytes : byte = another :=
        UInt8.toNat_inj.mp (Option.some.inj number).symm
      rw [bytes, induction behind]

theorem told_secret (lawful : host.Lawful) (cls : PyClass) (raw : Bytes) :
    Told (.secret cls raw : Value host) := by
  apply told_of_kind
  intro other kinds
  cases other <;> cases kinds
  rw [encode, encode, ordered_one, ordered_one]
  simp [alike, Tree.ordered, lawful.secretDigest.eq_iff]

theorem told_bytes (cls : PyClass) (raw : Bytes) : Told (.bytes cls raw : Value host) := by
  apply told_of_kind
  intro other kinds
  cases other <;> cases kinds
  rw [encode, encode, ordered_one, ordered_one]
  simp [alike, Tree.ordered, hex_injective.eq_iff]

theorem told_stamp (value : host.Stamp) : Told (Value.stamp value) := by
  apply told_of_kind
  intro other kinds
  cases other <;> cases kinds
  rw [encode, encode, ordered_two (by decide), ordered_two (by decide)]
  simp [alike, Tree.ordered]

theorem told_enum (cls : PyClass) (told : Told value) : Told (.enum cls value) := by
  apply told_of_kind
  intro other kinds
  cases other <;> cases kinds
  case enum another other =>
    obtain ⟨same, sorted⟩ := told other
    rw [encode, encode, ordered_two (by decide), ordered_two (by decide)]
    refine ⟨by simp [alike, same], ?_⟩
    intro ordered
    simp [Tree.ordered] at ordered
    rw [ordered.1, sorted ordered.2]

theorem alikeItems_iff {items others : List (Value host)} (told : ∀ item ∈ items, Told item) :
    alikeItems items others = true ↔ items.map encode = others.map encode := by
  induction items generalizing others with
  | nil =>
    cases others with
    | nil => simp [alikeItems]
    | cons other others => simp [alikeItems]
  | cons item rest induction =>
    cases others with
    | nil => simp [alikeItems]
    | cons other others =>
      have first := (told item List.mem_cons_self other).1
      have later := @induction others fun next member =>
        told next (List.mem_cons_of_mem _ member)
      rw [alikeItems, Bool.and_eq_true, first, later, List.map_cons,
        List.map_cons, List.cons.injEq]

theorem encode_of_ordered {items others : List (Value host)} (told : ∀ item ∈ items, Told item)
    (same : (items.map encode).map Tree.ordered = (others.map encode).map Tree.ordered) :
    items.map encode = others.map encode := by
  induction items generalizing others with
  | nil =>
    cases others with
    | nil => rfl
    | cons other others => cases same
  | cons item rest induction =>
    cases others with
    | nil => cases same
    | cons other others =>
      simp only [List.map_cons, List.cons.injEq] at same ⊢
      refine ⟨(told item List.mem_cons_self other).2 same.1, ?_⟩
      exact induction (fun next member => told next (List.mem_cons_of_mem _ member)) same.2

theorem told_seq (cls : PyClass) {items : List (Value host)}
    (told : ∀ item ∈ items, Told item) : Told (.seq cls items) := by
  apply told_of_kind
  intro other kinds
  cases other <;> cases kinds
  case seq another others =>
    rw [encode, encode, ordered_two (by decide), ordered_two (by decide),
      encodeItems_eq, encodeItems_eq]
    refine ⟨by simp [alike, alikeItems_iff told], ?_⟩
    intro ordered
    simp only [Tree.ordered, orderedItems_eq, Tree.dict.injEq, List.cons.injEq,
      Prod.mk.injEq, Tree.str.injEq, Tree.list.injEq, true_and, and_true]
      at ordered
    rw [ordered.1, encode_of_ordered told ordered.2]

theorem Told.sortText_iff (lawful : host.Lawful) (told : Told value) (other : Value host) :
    value.alike other = true ↔ sortText other.encode = sortText value.encode := by
  rw [(told other).1]
  constructor
  · intro same
    rw [same]
  · intro same
    exact (told other).2 (write_injective lawful.floats same).symm

theorem Told.ordered_iff (told : Told value) (other : Value host) :
    value.alike other = true ↔ value.encode.ordered = other.encode.ordered := by
  rw [(told other).1]
  constructor
  · intro same
    rw [same]
  · exact (told other).2

theorem map_pair_injective : Function.Injective (List.map (@pair host)) := by
  apply List.map_injective_iff.mpr
  rintro ⟨key, value⟩ ⟨otherKey, otherValue⟩ same
  simp only [pair, Tree.list.injEq, List.cons.injEq, and_true] at same
  rw [same.1, same.2]

def orderedEntry (entry : Tree host.floats × Tree host.floats) :
    Tree host.floats × Tree host.floats :=
  (entry.1.ordered, entry.2.ordered)

theorem orderedItems_pair (entries : List (Tree host.floats × Tree host.floats)) :
    orderedItems (entries.map pair) = (entries.map orderedEntry).map pair := by
  rw [orderedItems_eq, List.map_map, List.map_map]
  rfl

theorem sortBy_orderedEntry (entries : List (Tree host.floats × Tree host.floats)) :
    (sortBy (fun entry => sortText entry.1) entries).map orderedEntry =
      sortBy (fun entry => entry.1.write [' ']) (entries.map orderedEntry) :=
  map_sortBy (fun entry => entry.1.write [' ']) orderedEntry entries

theorem told_dict (lawful : host.Lawful) (cls : PyClass)
    {entries : List (Value host × Value host)}
    (told : ∀ entry ∈ entries, Told entry.1 ∧ Told entry.2) :
    Told (.dict cls entries) := by
  apply told_of_kind
  intro other kinds
  cases other <;> cases kinds
  case dict another others =>
    have encoded : alikeEntries entries others = true ↔
        sortBy (fun entry => sortText entry.1) (encodeEntries entries) =
          sortBy (fun entry => sortText entry.1) (encodeEntries others) := by
      rw [alikeEntries_eq, encodeEntries_eq, encodeEntries_eq]
      apply matchUp_iff
      · intro entry member other _found
        exact (told entry member).1.sortText_iff lawful other.1
      · intro entry member other _found alike
        have keys := ((told entry member).1 other.1).1.mp alike
        rw [((told entry member).2 other.2).1, Prod.mk.injEq, keys]
        simp
    have sorted : alikeEntries entries others = true ↔ sortBy (fun entry => entry.1.write [' '])
            ((encodeEntries entries).map orderedEntry) =
          sortBy (fun entry => entry.1.write [' '])
            ((encodeEntries others).map orderedEntry) := by
      rw [alikeEntries_eq, encodeEntries_eq, encodeEntries_eq, List.map_map, List.map_map]
      apply matchUp_iff
      · intro entry member other _found
        exact (told entry member).1.sortText_iff lawful other.1
      · intro entry member other _found alike
        have keys := (told entry member).1.ordered_iff other.1 |>.mp alike
        have values := (told entry member).2.ordered_iff other.2
        simp [orderedEntry, keys, values]
    rw [encode, encode, ordered_one, ordered_one]
    refine ⟨by simp [alike, encoded, map_pair_injective.eq_iff], ?_⟩
    intro same
    simp only [Tree.ordered, orderedItems_pair, sortBy_orderedEntry,
      Tree.dict.injEq, List.cons.injEq, Prod.mk.injEq, Tree.list.injEq,
      true_and, and_true, map_pair_injective.eq_iff] at same
    rw [encoded.mp (sorted.mpr same)]

theorem told_set (lawful : host.Lawful) (cls : PyClass)
    {items : List (Value host)} (told : ∀ item ∈ items, Told item) :
    Told (.set cls items) := by
  apply told_of_kind
  intro other kinds
  cases other <;> cases kinds
  case set another others =>
    have encoded : alikeMembers items others = true ↔
        sortBy sortText (encodeItems items) = sortBy sortText (encodeItems others) := by
      rw [alikeMembers_eq, encodeItems_eq, encodeItems_eq]
      apply matchUp_iff
      · intro item member other _found
        exact (told item member).sortText_iff lawful other
      · intro item member other _found alike
        exact iff_of_true rfl (((told item member) other).1.mp alike)
    have sorted : alikeMembers items others = true ↔
        sortBy (Tree.write [' ']) ((encodeItems items).map Tree.ordered) =
          sortBy (Tree.write [' ']) ((encodeItems others).map Tree.ordered) := by
      rw [alikeMembers_eq, encodeItems_eq, encodeItems_eq, List.map_map, List.map_map]
      apply matchUp_iff
      · intro item member other _found
        exact (told item member).sortText_iff lawful other
      · intro item member other _found alike
        exact iff_of_true rfl ((told item member).ordered_iff other |>.mp alike)
    have moves : ∀ trees : List (Tree host.floats), (sortBy sortText trees).map Tree.ordered =
          sortBy (Tree.write [' ']) (trees.map Tree.ordered) :=
      map_sortBy (Tree.write [' ']) Tree.ordered
    rw [encode, encode, ordered_one, ordered_one]
    refine ⟨by simp [alike, encoded], ?_⟩
    intro same
    simp only [Tree.ordered, orderedItems_eq, moves, Tree.dict.injEq,
      List.cons.injEq, Prod.mk.injEq, Tree.list.injEq, true_and, and_true]
      at same
    rw [encoded.mp (sorted.mpr same)]

def orderedMember (member : Text × Tree host.floats) : Text × Tree host.floats :=
  (member.1, member.2.ordered)

theorem sortBy_orderedMember (members : List (Text × Tree host.floats)) :
    (sortBy Prod.fst members).map orderedMember = sortBy Prod.fst (members.map orderedMember) :=
  map_sortBy Prod.fst orderedMember members

theorem ordered_fields (members : List (Text × Tree host.floats)) :
    (Tree.dict (sortBy Prod.fst members)).ordered =
      .dict (sortBy Prod.fst (members.map orderedMember)) := by
  rw [Tree.ordered, orderedMembers_eq]
  change Tree.dict (sortBy Prod.fst ((sortBy Prod.fst members).map orderedMember)) = _
  rw [sortBy_orderedMember, sortBy_sortBy]

theorem told_model (cls : PyClass) {fields : List (Text × Value host)}
    (told : ∀ field ∈ fields, Told field.2) : Told (.model cls fields) := by
  apply told_of_kind
  intro other kinds
  cases other <;> cases kinds
  case model another others =>
    have encoded : alikeFields fields others = true ↔ sortBy Prod.fst (encodeFields fields) =
          sortBy Prod.fst (encodeFields others) := by
      rw [alikeFields_eq, encodeFields_eq, encodeFields_eq]
      apply matchUp_iff
      · intro field _member other _found
        rw [decide_eq_true_eq]
        exact eq_comm
      · intro field member other _found named
        rw [((told field member) other.2).1, Prod.mk.injEq, of_decide_eq_true named]
        simp
    have sorted : alikeFields fields others = true ↔
        sortBy Prod.fst ((encodeFields fields).map orderedMember) =
          sortBy Prod.fst ((encodeFields others).map orderedMember) := by
      rw [alikeFields_eq, encodeFields_eq, encodeFields_eq, List.map_map, List.map_map]
      apply matchUp_iff
      · intro field _member other _found
        rw [decide_eq_true_eq]
        exact eq_comm
      · intro field member other _found named
        have values := (told field member).ordered_iff other.2
        simp [orderedMember, of_decide_eq_true named, values]
    rw [encode, encode, ordered_two (by decide), ordered_two (by decide),
      ordered_fields, ordered_fields]
    refine ⟨by simp [alike, encoded], ?_⟩
    intro same
    simp only [Tree.ordered, Tree.dict.injEq, List.cons.injEq, Prod.mk.injEq,
      Tree.str.injEq, true_and, and_true] at same
    rw [same.1, encoded.mp (sorted.mpr same.2)]

def named (name : Nat → Text) (place : Nat) (trees : List (Tree host.floats)) :
    List (Text × Tree host.floats) :=
  (trees.zipIdx place).map fun placed => (name placed.2, placed.1)

theorem encodeNamed_eq (name : Nat → Text) (place : Nat) (values : List (Value host)) :
    encodeNamed name place values = named name place (values.map encode) := by
  induction values generalizing place with
  | nil => rfl
  | cons value rest induction =>
    rw [encodeNamed, induction]
    rfl

theorem map_named (name : Nat → Text) (place : Nat) (trees : List (Tree host.floats)) :
    (named name place trees).map orderedMember = named name place (trees.map Tree.ordered) := by
  induction trees generalizing place with
  | nil => rfl
  | cons tree rest induction => exact congrArg _ (induction (place + 1))

theorem values_named (name : Nat → Text) (place : Nat) (trees : List (Tree host.floats)) :
    (named name place trees).map Prod.snd = trees := by
  induction trees generalizing place with
  | nil => rfl
  | cons tree rest induction => exact congrArg _ (induction (place + 1))

theorem named_injective {name : Nat → Text} {place : Nat}
    {trees others : List (Tree host.floats)}
    (same : named name place trees = named name place others) :
    trees = others := by
  have values := congrArg (List.map Prod.snd) same
  rwa [values_named, values_named] at values

theorem names_named (name : Nat → Text) (place : Nat) (trees : List (Tree host.floats)) :
    (named name place trees).map Prod.fst = (List.range' place trees.length).map name := by
  induction trees generalizing place with
  | nil => rfl
  | cons tree rest induction => exact congrArg _ (induction (place + 1))

theorem named_of_sorted {name : Nat → Text} {trees others : List (Tree host.floats)}
    (same : sortBy Prod.fst (named name 0 trees) =
      sortBy Prod.fst (named name 0 others)) : trees = others := by
  have lengths : trees.length = others.length := by
    have permuted : (sortBy Prod.fst (named name 0 trees)).length =
        (named name 0 trees).length := (sortBy_perm _).length_eq
    rw [same, (sortBy_perm _).length_eq] at permuted
    simpa [named] using permuted.symm
  have names : (named name 0 trees).map Prod.fst = (named name 0 others).map Prod.fst := by
    rw [names_named, names_named, lengths]
  exact named_injective (eq_of_agree names (sortBy_eq_iff.mp same))

theorem told_dataclass (cls : PyClass) {values : List (Value host)}
    (told : ∀ value ∈ values, Told value) : Told (.dataclass cls values) := by
  apply told_of_kind
  intro other kinds
  cases other <;> cases kinds
  case dataclass another others =>
    rw [encode, encode, ordered_two (by decide), ordered_two (by decide),
      encodeNamed_eq, encodeNamed_eq]
    refine ⟨?_, ?_⟩
    · rw [alike, Bool.and_eq_true, decide_eq_true_eq, alikeItems_iff told]
      constructor
      · rintro ⟨paths, items⟩
        rw [paths, items]
      · intro same
        simp only [Tree.dict.injEq, List.cons.injEq, Prod.mk.injEq,
          Tree.str.injEq, true_and, and_true] at same
        obtain ⟨paths, items⟩ := same
        rw [paths] at items
        exact ⟨paths, named_injective items⟩
    · intro same
      simp only [Tree.ordered, orderedMembers_eq, Tree.dict.injEq,
        List.cons.injEq, Prod.mk.injEq, Tree.str.injEq, true_and, and_true]
        at same
      obtain ⟨paths, items⟩ := same
      have sorted : sortBy Prod.fst ((named (host.fieldName cls.path) 0
            (values.map encode)).map orderedMember) =
          sortBy Prod.fst ((named (host.fieldName another.path) 0
            (others.map encode)).map orderedMember) := items
      rw [map_named, map_named, paths] at sorted
      rw [paths, encode_of_ordered told (named_of_sorted sorted)]

theorem told (lawful : host.Lawful) (value : Value host) : Told value := by
  induction value using of_parts with
  | step value parts =>
    cases value with
    | none | bool | int | float | str | object => exact told_scalar lawful (by simp [kind])
    | secret cls raw => exact told_secret lawful cls raw
    | model cls fields =>
      exact told_model cls fun field member =>
        parts field.2 (part_of_field member)
    | dataclass cls values => exact told_dataclass cls parts
    | enum cls value => exact told_enum cls (parts value (List.mem_singleton.mpr rfl))
    | stamp value => exact told_stamp value
    | bytes cls raw => exact told_bytes cls raw
    | dict cls entries =>
      exact told_dict lawful cls fun entry member =>
        ⟨parts entry.1 (part_of_key member), parts entry.2 (part_of_value member)⟩
    | seq cls items => exact told_seq cls parts
    | set cls items => exact told_set lawful cls parts

end Value

end TempestSdk.CacheKeys
