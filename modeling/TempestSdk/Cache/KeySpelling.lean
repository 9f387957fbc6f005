import TempestSdk.Cache.KeyAlikeness

/-!
# Dicts that spell an encoding

A value that `json.dumps` writes is written as the encoding of another one just
when it spells it.
-/

namespace TempestSdk.CacheKeys

open PyJson StableSort JsonTrees

variable {host : Host}

namespace Value

variable {value : Value host}

theorem text_iff (accepted : value.accepts = true) (text : Text) :
    decide (value.asText = some text) = true ↔ value.json = .str text := by
  cases value with
  | str => simp [asText, json]
  | none | bool | int | float | dict | seq => simp [asText, json]
  | secret | model | dataclass | enum | stamp | bytes | set | object => cases accepted

theorem rows_iff (accepted : value.accepts = true)
    {holds : List (Value host) → Bool} {trees : List (Tree host.floats)}
    (same : ∀ rows, (∀ row ∈ rows, row.accepts = true) →
      (holds rows = true ↔ rows.map json = trees)) :
    value.asRows.any holds = true ↔ value.json = .list trees := by
  cases value with
  | seq cls items =>
    rw [json, jsonItems_eq, Tree.list.injEq]
    exact same items ((acceptsItems_iff items).mp accepted)
  | none | bool | int | float | str | dict => simp [asRows, json]
  | secret | model | dataclass | enum | stamp | bytes | set | object => cases accepted

def written (entry : Value host × Value host) : Text × Tree host.floats :=
  (entry.1.keyText, entry.2.json)

theorem dict_iff (accepted : value.accepts = true)
    {holds : List (Value host × Value host) → Bool}
    {members : List (Text × Tree host.floats)}
    (same : ∀ entries : List (Value host × Value host),
      (∀ entry ∈ entries, entry.2.accepts = true) →
      (holds entries = true ↔ entries.map written = members)) :
    value.asDict.any holds = true ↔ value.json = .dict members := by
  cases value with
  | dict cls entries =>
    have accept := (acceptsEntries_iff entries).mp accepted
    rw [json, jsonEntries_eq, Tree.dict.injEq]
    exact same entries fun entry member => (accept entry member).2
  | none | bool | int | float | str | seq => simp [asDict, json]
  | secret | model | dataclass | enum | stamp | bytes | set | object => cases accepted

theorem only_iff (accepted : value.accepts = true) {tag : Text}
    {holds : Value host → Bool} {tree : Tree host.floats}
    (same : ∀ part : Value host, part.accepts = true → (holds part = true ↔ part.json = tree)) :
    (value.only tag).any holds = true ↔ value.json = .dict [(tag, tree)] := by
  cases value with
  | dict cls entries =>
    have accept := (acceptsEntries_iff entries).mp accepted
    match entries with
    | [] => simp [only, json, jsonEntries]
    | [entry] =>
      have part := same entry.2 (accept entry (by simp)).2
      by_cases tagged : entry.1.keyText = tag
      · simp [only, json, jsonEntries, tagged, part]
      · simp [only, json, jsonEntries, tagged]
    | _ :: _ :: _ => simp [only, json, jsonEntries]
  | none | bool | int | float | str | seq => simp [only, json]
  | secret | model | dataclass | enum | stamp | bytes | set | object => cases accepted

theorem both_iff (accepted : value.accepts = true) {tag inner : Text}
    {holds : Value host × Value host → Bool} {tree other : Tree host.floats}
    (same : ∀ parts : Value host × Value host, parts.1.accepts = true → parts.2.accepts = true →
      (holds parts = true ↔ parts.1.json = tree ∧ parts.2.json = other)) :
    (value.both tag inner).any holds = true ↔
      value.json = .dict [(tag, tree), (inner, other)] := by
  cases value with
  | dict cls entries =>
    have accept := (acceptsEntries_iff entries).mp accepted
    match entries with
    | [] => simp [both, json, jsonEntries]
    | [_] => simp [both, json, jsonEntries]
    | [first, second] =>
      have parts := same (first.2, second.2) (accept first (by simp)).2
        (accept second (by simp)).2
      by_cases tagged : first.1.keyText = tag ∧ second.1.keyText = inner
      · simp [both, json, jsonEntries, tagged, parts]
      · simp [both, json, jsonEntries, tagged]
        tauto
    | _ :: _ :: _ :: _ => simp [both, json, jsonEntries]
  | none | bool | int | float | str | seq => simp [both, json]
  | secret | model | dataclass | enum | stamp | bytes | set | object => cases accepted

/-- Every value that `json.dumps` writes as the encoding of this one spells it. -/
def Spelled (value : Value host) : Prop :=
  ∀ spelled : Value host, spelled.accepts = true →
    (spelled.spells value = true ↔ spelled.json = value.encode)

theorem spellsItems_iff {rows items : List (Value host)}
    (spelled : ∀ item ∈ items, Spelled item)
    (accept : ∀ row ∈ rows, row.accepts = true) :
    spellsItems rows items = true ↔ rows.map json = items.map encode := by
  induction items generalizing rows with
  | nil =>
    cases rows with
    | nil => simp [spellsItems]
    | cons row rows => simp [spellsItems]
  | cons item rest induction =>
    cases rows with
    | nil => simp [spellsItems]
    | cons row rows =>
      have first := spelled item List.mem_cons_self row (accept row List.mem_cons_self)
      have later := @induction rows
        (fun next member => spelled next (List.mem_cons_of_mem _ member))
        (fun next member => accept next (List.mem_cons_of_mem _ member))
      rw [spellsItems, Bool.and_eq_true, first, later, List.map_cons,
        List.map_cons, List.cons.injEq]

theorem spellsNamed_iff {name : Nat → Text} {place : Nat}
    {entries : List (Value host × Value host)} {values : List (Value host)}
    (spelled : ∀ value ∈ values, Spelled value)
    (accept : ∀ entry ∈ entries, entry.2.accepts = true) :
    spellsNamed name place entries values = true ↔
      entries.map written = encodeNamed name place values := by
  induction values generalizing place entries with
  | nil =>
    cases entries with
    | nil => simp [spellsNamed, encodeNamed]
    | cons entry entries => simp [spellsNamed, encodeNamed]
  | cons value rest induction =>
    cases entries with
    | nil => simp [spellsNamed, encodeNamed]
    | cons entry entries =>
      have first := spelled value List.mem_cons_self entry.2 (accept entry List.mem_cons_self)
      have later := @induction (place + 1) entries
        (fun next member => spelled next (List.mem_cons_of_mem _ member))
        (fun next member => accept next (List.mem_cons_of_mem _ member))
      rw [spellsNamed, Bool.and_eq_true, Bool.and_eq_true, first, later,
        decide_eq_true_eq, encodeNamed, List.map_cons, List.cons.injEq,
        written, Prod.mk.injEq]

theorem spellsFields_eq (entries : List (Value host × Value host))
    (fields : List (Text × Value host)) :
    spellsFields entries fields =
      matchUp (fun field entry => decide (field.1 = entry.1.keyText))
        (fun field entry => entry.2.spells field.2) fields entries := by
  induction fields generalizing entries with
  | nil => rw [spellsFields, matchUp]
  | cons field rest induction =>
    unfold spellsFields matchUp
    cases entries.find? fun entry => decide (field.1 = entry.1.keyText) with
    | none => rfl
    | some entry =>
      dsimp only
      rw [induction]

theorem spellsEntries_eq (pairs entries : List (Value host × Value host)) :
    spellsEntries pairs entries = matchUp (fun entry pair => pair.1.spells entry.1)
        (fun entry pair => pair.2.spells entry.2) entries pairs := by
  induction entries generalizing pairs with
  | nil => rw [spellsEntries, matchUp]
  | cons entry rest induction =>
    unfold spellsEntries matchUp
    cases pairs.find? fun pair => pair.1.spells entry.1 with
    | none => rfl
    | some pair =>
      dsimp only
      rw [induction]

theorem spellsMembers_eq (rows items : List (Value host)) : spellsMembers rows items =
      matchUp (fun item row => row.spells item) (fun _ _ => true) items rows := by
  induction items generalizing rows with
  | nil => rw [spellsMembers, matchUp]
  | cons item rest induction =>
    unfold spellsMembers matchUp
    cases rows.find? fun row => row.spells item with
    | none => rfl
    | some row =>
      dsimp only
      rw [induction, Bool.true_and]

theorem inOrder_iff (texts : List Text) :
    inOrder texts = true ↔ texts.Pairwise fun text later => text ≤ later :=
  decide_eq_true_iff

theorem fields_iff {entries : List (Value host × Value host)}
    {fields : List (Text × Value host)}
    (spelled : ∀ field ∈ fields, Spelled field.2)
    (accept : ∀ entry ∈ entries, entry.2.accepts = true) :
    (inOrder (entries.map fun entry => entry.1.keyText) && spellsFields entries fields) = true ↔
      entries.map written = sortBy Prod.fst (encodeFields fields) := by
  have matched : spellsFields entries fields = true ↔
      sortBy Prod.fst (encodeFields fields) = sortBy Prod.fst (entries.map written) := by
    rw [spellsFields_eq, encodeFields_eq]
    apply matchUp_iff
    · intro field _member entry _found
      rw [decide_eq_true_eq]
      exact eq_comm
    · intro field member entry found named
      rw [spelled field member entry.2 (accept entry found), Prod.mk.injEq,
        of_decide_eq_true named]
      simp [written, eq_comm]
  rw [Bool.and_eq_true, inOrder_iff, eq_sortBy_iff, matched, List.pairwise_map,
    List.pairwise_map]
  rfl

def writtenPair (pair : Value host × Value host) : Tree host.floats × Tree host.floats :=
  (pair.1.json, pair.2.json)

theorem pair_iff {row : Value host} (accepted : row.accepts = true)
    (entry : Tree host.floats × Tree host.floats) :
    (∃ pair, row.asPair = some pair ∧ writtenPair pair = entry) ↔
      row.json = CacheKeys.pair entry := by
  rcases entry with ⟨key, value⟩
  cases row with
  | seq cls items =>
    match items with
    | [] => simp [asPair, json, jsonItems, CacheKeys.pair]
    | [_] => simp [asPair, json, jsonItems, CacheKeys.pair]
    | [first, second] => simp [asPair, json, jsonItems, CacheKeys.pair, writtenPair]
    | _ :: _ :: _ :: _ => simp [asPair, json, jsonItems, CacheKeys.pair]
  | none | bool | int | float | str | dict => simp [asPair, json, CacheKeys.pair]
  | secret | model | dataclass | enum | stamp | bytes | set | object => cases accepted

theorem accepts_pair {row : Value host} (accepted : row.accepts = true)
    {pair : Value host × Value host} (read : row.asPair = some pair) :
    pair.1.accepts = true ∧ pair.2.accepts = true := by
  unfold asPair at read
  split at read
  case h_1 cls first second =>
    cases read
    have accept := (acceptsItems_iff [first, second]).mp accepted
    exact ⟨accept first (by simp), accept second (by simp)⟩
  case h_2 => cases read

theorem mapM_cons_eq_some {α β : Type} {read : α → Option β} {item : α}
    {rest : List α} {results : List β} :
    (item :: rest).mapM read = some results ↔ ∃ first others, read item = some first ∧
        rest.mapM read = some others ∧ results = first :: others := by
  rw [List.mapM_cons]
  simp only [Option.bind_eq_bind, Option.bind_eq_some_iff, Option.pure_def, Option.some.injEq]
  constructor
  · rintro ⟨first, one, others, more, same⟩
    exact ⟨first, others, one, more, same.symm⟩
  · rintro ⟨first, others, one, more, same⟩
    exact ⟨first, one, others, more, same.symm⟩

theorem accepts_pairs {rows : List (Value host)} (accept : ∀ row ∈ rows, row.accepts = true)
    {pairs : List (Value host × Value host)}
    (read : rows.mapM asPair = some pairs) :
    ∀ pair ∈ pairs, pair.1.accepts = true ∧ pair.2.accepts = true := by
  induction rows generalizing pairs with
  | nil =>
    cases read
    intro pair impossible
    cases impossible
  | cons row rows induction =>
    obtain ⟨first, others, one, more, rfl⟩ := (mapM_cons_eq_some).mp read
    intro pair member
    rcases List.mem_cons.mp member with rfl | inside
    · exact accepts_pair (accept row List.mem_cons_self) one
    · exact induction (fun next found => accept next (List.mem_cons_of_mem _ found))
        more pair inside

theorem pairs_iff {rows : List (Value host)} (accept : ∀ row ∈ rows, row.accepts = true)
    (entries : List (Tree host.floats × Tree host.floats)) :
    (∃ pairs, rows.mapM asPair = some pairs ∧ pairs.map writtenPair = entries) ↔
        rows.map json = entries.map CacheKeys.pair := by
  induction rows generalizing entries with
  | nil =>
    cases entries with
    | nil => simp
    | cons entry rest => simp
  | cons row rows induction =>
    have first := pair_iff (accept row List.mem_cons_self)
    have later := induction fun next member =>
      accept next (List.mem_cons_of_mem _ member)
    constructor
    · rintro ⟨pairs, read, rfl⟩
      obtain ⟨pair, others, one, more, rfl⟩ := (mapM_cons_eq_some).mp read
      rw [List.map_cons, List.map_cons, List.map_cons, List.cons.injEq]
      exact ⟨(first _).mp ⟨pair, one, rfl⟩, (later _).mp ⟨others, more, rfl⟩⟩
    · intro same
      cases entries with
      | nil => cases same
      | cons entry entries =>
        rw [List.map_cons, List.map_cons, List.cons.injEq] at same
        obtain ⟨pair, one, writes⟩ := (first entry).mpr same.1
        obtain ⟨others, more, rest⟩ := (later entries).mpr same.2
        refine ⟨pair :: others, ?_, ?_⟩
        · exact (mapM_cons_eq_some).mpr ⟨pair, others, one, more, rfl⟩
        · rw [List.map_cons, writes, rest]

section

variable (lawful : host.Lawful)

include lawful

theorem sortText_encode_iff (value other : Value host) :
    sortText value.encode = sortText other.encode ↔
      value.encode.write [] = other.encode.write [] := by
  constructor
  · intro same
    have ordered := write_injective lawful.floats same
    rw [(told lawful value other).2 ordered]
  · intro same
    rw [write_injective lawful.floats same]

theorem entries_iff {pairs entries : List (Value host × Value host)}
    (spelled : ∀ entry ∈ entries, Spelled entry.1 ∧ Spelled entry.2)
    (accept : ∀ pair ∈ pairs, pair.1.accepts = true ∧ pair.2.accepts = true) :
    (inOrder (pairs.map fun pair => sortText pair.1.json) &&
        spellsEntries pairs entries) = true ↔
      pairs.map writtenPair =
        sortBy (fun entry => sortText entry.1) (encodeEntries entries) := by
  have matched : spellsEntries pairs entries = true ↔
      sortBy (fun entry => entry.1.write []) (encodeEntries entries) =
        sortBy (fun entry => entry.1.write []) (pairs.map writtenPair) := by
    rw [spellsEntries_eq, encodeEntries_eq]
    apply matchUp_iff
    · intro entry member pair found
      rw [(spelled entry member).1 pair.1 (accept pair found).1]
      constructor
      · intro same
        rw [writtenPair, same]
      · intro same
        exact write_injective lawful.floats same
    · intro entry member pair found keys
      rw [(spelled entry member).1 pair.1 (accept pair found).1] at keys
      rw [(spelled entry member).2 pair.2 (accept pair found).2, writtenPair,
        Prod.mk.injEq, keys]
      simp [eq_comm]
  have tells : ∀ item ∈ encodeEntries entries, ∀ other ∈ encodeEntries entries,
      sortText item.1 = sortText other.1 ↔ item.1.write [] = other.1.write [] := by
    rw [encodeEntries_eq]
    intro item member other found
    obtain ⟨entry, _inside, rfl⟩ := List.mem_map.mp member
    obtain ⟨another, _there, rfl⟩ := List.mem_map.mp found
    exact sortText_encode_iff lawful entry.1 another.1
  rw [Bool.and_eq_true, inOrder_iff, eq_sortBy_iff, matched, sortBy_eq_iff,
    sortBy_eq_iff, List.pairwise_map, List.pairwise_map]
  apply and_congr Iff.rfl
  constructor
  · intro agree
    exact agree.of_marks fun item member other found =>
      (tells item member other found).symm
  · intro agree
    exact agree.of_marks tells

theorem members_iff {rows items : List (Value host)} (spelled : ∀ item ∈ items, Spelled item)
    (accept : ∀ row ∈ rows, row.accepts = true) :
    (inOrder (rows.map fun row => sortText row.json) && spellsMembers rows items) = true ↔
      rows.map json = sortBy sortText (encodeItems items) := by
  have matched : spellsMembers rows items = true ↔ sortBy (Tree.write []) (encodeItems items) =
        sortBy (Tree.write []) (rows.map json) := by
    rw [spellsMembers_eq, encodeItems_eq]
    apply matchUp_iff
    · intro item member row found
      rw [spelled item member row (accept row found)]
      constructor
      · intro same
        rw [same]
      · intro same
        exact write_injective lawful.floats same
    · intro item member row found same
      rw [spelled item member row (accept row found)] at same
      exact iff_of_true rfl same.symm
  have tells : ∀ item ∈ encodeItems items, ∀ other ∈ encodeItems items,
      sortText item = sortText other ↔ item.write [] = other.write [] := by
    rw [encodeItems_eq]
    intro item member other found
    obtain ⟨value, _inside, rfl⟩ := List.mem_map.mp member
    obtain ⟨another, _there, rfl⟩ := List.mem_map.mp found
    exact sortText_encode_iff lawful value another
  rw [Bool.and_eq_true, inOrder_iff, eq_sortBy_iff, matched, sortBy_eq_iff,
    sortBy_eq_iff, List.pairwise_map, List.pairwise_map]
  apply and_congr Iff.rfl
  constructor
  · intro agree
    exact agree.of_marks fun item member other found =>
      (tells item member other found).symm
  · intro agree
    exact agree.of_marks tells

theorem looks_scalar {value spelled : Value host}
    (accepted : value.accepts = true) (same : value.json = value.encode)
    (spelledAccepted : spelled.accepts = true) :
    spelled.looks value = true ↔ spelled.json = value.encode := by
  rw [looks_iff lawful spelled value spelledAccepted accepted, same]

theorem spelled (value : Value host) : Spelled value := by
  induction value using of_parts with
  | step value parts =>
    intro spelled accepted
    cases value with
    | none | bool | int | float | str =>
      rw [spells]
      exact looks_scalar lawful rfl rfl accepted
    | secret cls raw =>
      rw [spells, encode]
      apply only_iff accepted
      intro text written
      exact text_iff written _
    | bytes cls raw =>
      rw [spells, encode]
      apply only_iff accepted
      intro text written
      exact text_iff written _
    | stamp value =>
      rw [spells, encode]
      apply both_iff accepted
      intro tagged first second
      rw [Bool.and_eq_true, text_iff first, text_iff second]
    | enum cls value =>
      have inside := parts value (List.mem_singleton.mpr rfl)
      rw [spells, encode]
      apply both_iff accepted
      intro tagged first second
      rw [Bool.and_eq_true, text_iff first, inside tagged.2 second]
    | seq cls items =>
      rw [spells, encode, encodeItems_eq]
      apply both_iff accepted
      intro tagged first second
      rw [Bool.and_eq_true, text_iff first, rows_iff second]
      intro rows accept
      exact spellsItems_iff parts accept
    | dataclass cls values =>
      rw [spells, encode]
      apply both_iff accepted
      intro tagged first second
      rw [Bool.and_eq_true, text_iff first, dict_iff second]
      intro entries accept
      exact spellsNamed_iff parts accept
    | model cls fields =>
      rw [spells, encode]
      apply both_iff accepted
      intro tagged first second
      rw [Bool.and_eq_true, text_iff first, dict_iff second]
      intro entries accept
      exact fields_iff (fun field member => parts field.2 (part_of_field member)) accept
    | dict cls entries =>
      rw [spells, encode]
      apply only_iff accepted
      intro listed written
      apply rows_iff written
      intro rows accept
      rw [← pairs_iff accept, Option.any_eq_true]
      apply exists_congr
      intro pairs
      apply and_congr_right
      intro read
      exact entries_iff lawful (fun entry member => ⟨parts entry.1 (part_of_key member),
          parts entry.2 (part_of_value member)⟩)
        (accepts_pairs accept read)
    | set cls items =>
      rw [spells, encode]
      apply only_iff accepted
      intro listed written
      apply rows_iff written
      intro rows accept
      exact members_iff lawful parts accept
    | object cls =>
      rw [spells, encode]
      apply rows_iff accepted
      intro rows _accept
      simp

end

end Value

end TempestSdk.CacheKeys
