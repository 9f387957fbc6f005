import TempestSdk.Cache.KeySpelling

/-!
# When the default key is faithful

Two calls have the same key just when their arguments are confused, so the key
tells the data of two calls apart just when it does not confuse them.
-/

namespace TempestSdk.CacheKeys

open PyJson StableSort JsonTrees

variable {host : Host}

namespace Value

def shown (value : Value host) : Tree host.floats :=
  if value.accepts then value.json else value.encode

theorem shown_of_toJsonable {value : Value host} {tree : Tree host.floats}
    (built : value.toJsonable = some tree) : tree = value.shown := by
  unfold toJsonable at built
  unfold shown
  split at built
  case isTrue accepted =>
    cases built
    rw [if_pos accepted]
  case isFalse refused =>
    rw [if_neg refused]
    split at built
    case isTrue => exact (Option.some.inj built).symm
    case isFalse => cases built

theorem confused_iff (lawful : host.Lawful) (value other : Value host) :
    value.confused other = true ↔ value.shown = other.shown := by
  unfold confused shown
  cases accepted : value.accepts with
  | true =>
    cases otherAccepted : other.accepts with
    | true => exact looks_iff lawful value other accepted otherAccepted
    | false => exact spelled lawful other value accepted
  | false =>
    cases otherAccepted : other.accepts with
    | true => exact (spelled lawful value other otherAccepted).trans eq_comm
    | false => exact (told lawful value other).1

end Value

theorem confusedItems_iff (lawful : host.Lawful) (items others : List (Value host)) :
    Call.confused.confusedItems items others = true ↔
      items.map Value.shown = others.map Value.shown := by
  induction items generalizing others with
  | nil =>
    cases others with
    | nil => simp [Call.confused.confusedItems]
    | cons other others => simp [Call.confused.confusedItems]
  | cons item rest induction =>
    cases others with
    | nil => simp [Call.confused.confusedItems]
    | cons other others =>
      rw [Call.confused.confusedItems, Bool.and_eq_true,
        Value.confused_iff lawful, induction, List.map_cons, List.map_cons,
        List.cons.injEq]

def shownField (field : Text × Value host) : Text × Tree host.floats :=
  (field.1, field.2.shown)

/-- What `sha256` is given. -/
def Call.payload (call : Call host) : Tree host.floats :=
  .dict [("args".toList, .list (call.args.map Value.shown)),
    ("kwargs".toList, .dict (sortBy Prod.fst (call.kwargs.map shownField)))]

theorem mapM_eq_map {α β : Type} {read : α → Option β} {shown : α → β}
    (reads : ∀ item result, read item = some result → result = shown item)
    {items : List α} {results : List β} (read_all : items.mapM read = some results) :
    results = items.map shown := by
  induction items generalizing results with
  | nil =>
    cases read_all
    rfl
  | cons item rest induction =>
    obtain ⟨first, others, one, more, rfl⟩ :=
      Value.mapM_cons_eq_some.mp read_all
    rw [reads item first one, induction more, List.map_cons]

theorem key_of_payload {func_name key : Text} {call : Call host}
    (keyed : defaultKeyBuilder func_name call = some key) :
    key = func_name ++ ':' :: host.digest (call.payload.write []) := by
  unfold defaultKeyBuilder at keyed
  rw [Option.bind_eq_some_iff] at keyed
  obtain ⟨args, positional, keyed⟩ := keyed
  rw [Option.map_eq_some_iff] at keyed
  obtain ⟨kwargs, named, rfl⟩ := keyed
  have shownArgs := mapM_eq_map (fun value tree => Value.shown_of_toJsonable) positional
  have shownKwargs : kwargs = (sortBy Prod.fst call.kwargs).map shownField := by
    apply mapM_eq_map _ named
    intro field member built
    rw [Option.map_eq_some_iff] at built
    obtain ⟨tree, built, rfl⟩ := built
    rw [shownField, Value.shown_of_toJsonable built]
  have moved : (sortBy Prod.fst call.kwargs).map shownField =
      sortBy Prod.fst (call.kwargs.map shownField) :=
    map_sortBy Prod.fst shownField call.kwargs
  rw [Call.payload, shownArgs, shownKwargs, moved]

theorem payload_eq_iff (lawful : host.Lawful) (call other : Call host) :
    call.payload = other.payload ↔ call.confused other = true := by
  have keywords : matchUp (fun field another : Text × Value host =>
        decide (field.1 = another.1))
      (fun field another => field.2.confused another.2)
      call.kwargs other.kwargs = true ↔ sortBy Prod.fst (call.kwargs.map shownField) =
          sortBy Prod.fst (other.kwargs.map shownField) := by
    apply matchUp_iff
    · intro field _member another _found
      rw [decide_eq_true_eq]
      exact eq_comm
    · intro field _member another _found named
      rw [Value.confused_iff lawful, shownField, shownField, Prod.mk.injEq,
        of_decide_eq_true named]
      simp
  rw [Call.confused, Bool.and_eq_true, confusedItems_iff lawful, keywords]
  simp [Call.payload]

/-- Of every two calls that have keys: the keys are the same when the data is,
and different when it is not, just when the calls are the same data exactly if
they are confused. -/
theorem cache_keys_faithful_iff (lawful : host.Lawful) (func_name : Text)
    (call other : Call host) {key otherKey : Text}
    (keyed : defaultKeyBuilder func_name call = some key)
    (otherKeyed : defaultKeyBuilder func_name other = some otherKey) :
    ((call.SameData other → key = otherKey) ∧ (¬ call.SameData other → key ≠ otherKey)) ↔
        (call.SameData other ↔ call.confused other = true) := by
  have keys : key = otherKey ↔ call.confused other = true := by
    rw [key_of_payload keyed, key_of_payload otherKeyed,
      ← payload_eq_iff lawful, List.append_cancel_left_eq, List.cons.injEq,
      lawful.digest.eq_iff]
    constructor
    · rintro ⟨_colon, same⟩
      exact write_injective lawful.floats same
    · intro same
      rw [same]
      exact ⟨rfl, rfl⟩
  rw [← keys]
  tauto

/-- Neither floats nor dates, and hashes that show what they are given. -/
def bare : Host where
  floats := ⟨Empty, fun number => number.elim, fun _ => none⟩
  Stamp := Empty
  stampType := fun stamp => stamp.elim
  stampText := fun stamp => stamp.elim
  fieldName := fun _ _ => []
  secretDigest := hex
  digest := fun payload => payload

theorem bare_lawful : bare.Lawful where
  floats :=
    { parse_text := fun number => number.elim
      numeral := fun number => number.elim
      begins := fun number => number.elim
      marked := fun number => number.elim }
  secretDigest := Value.hex_injective
  digest := fun _ _ same => same

def builtin (name : String) : PyClass :=
  ⟨"builtins".toList, name.toList, name.toList⟩

def text (content : String) : Value bare := .str (builtin "str") content.toList

def positional (value : Value bare) : Call bare := ⟨[value], []⟩

def tagged (first second : String) : Call bare :=
  positional (.seq (builtin "list") [.none, .set (builtin "set") [text first, text second]])

theorem cache_keys_faithful_iff_tagged :
    ∃ key otherKey, defaultKeyBuilder ['f'] (tagged "a" "b") = some key ∧
      defaultKeyBuilder ['f'] (tagged "b" "a") = some otherKey ∧
      (((tagged "a" "b").SameData (tagged "b" "a") → key = otherKey) ∧
        (¬ (tagged "a" "b").SameData (tagged "b" "a") → key ≠ otherKey) ↔
          ((tagged "a" "b").SameData (tagged "b" "a") ↔
            (tagged "a" "b").confused (tagged "b" "a") = true)) :=
  ⟨_, _, rfl, rfl, cache_keys_faithful_iff bare_lawful ['f'] (tagged "a" "b")
    (tagged "b" "a") rfl rfl⟩

theorem sameData_of_positional {value other : Value bare}
    (same : (positional value).SameData (positional other)) :
    SameData value other := by
  obtain ⟨items, _keywords⟩ := same
  cases items with
  | cons first _rest => exact first

theorem keys_confuse_data : (∃ key,
      defaultKeyBuilder ['f'] (positional (.seq (builtin "tuple") [])) = some key ∧
      defaultKeyBuilder ['f'] (positional (.seq (builtin "list") [])) = some key ∧
      ¬ (positional (.seq (builtin "tuple") [])).SameData
        (positional (.seq (builtin "list") []))) ∧
    (∃ key, defaultKeyBuilder ['f'] (positional (.dict (builtin "dict")
        [(text "__bytes__", text "00")])) = some key ∧
      defaultKeyBuilder ['f'] (positional (.bytes (builtin "bytes") [0])) = some key ∧
      ¬ (positional (.dict (builtin "dict") [(text "__bytes__", text "00")])).SameData
        (positional (.bytes (builtin "bytes") [0]))) ∧
    ∃ key otherKey, defaultKeyBuilder ['f'] (positional (.dict (builtin "dict")
        [(text "a", .none), (text "b", .none)])) = some key ∧
      defaultKeyBuilder ['f'] (positional (.dict (builtin "dict")
        [(text "b", .none), (text "a", .none)])) = some otherKey ∧
      (positional (.dict (builtin "dict") [(text "a", .none), (text "b", .none)])).SameData
        (positional (.dict (builtin "dict") [(text "b", .none), (text "a", .none)])) ∧
      key ≠ otherKey := by
  refine ⟨⟨_, rfl, rfl, ?_⟩, ⟨_, rfl, rfl, ?_⟩, _, _, rfl, rfl, ?_, ?_⟩
  · intro same
    have classes : builtin "tuple" = builtin "list" := by
      generalize builtin "tuple" = tuple at same ⊢
      generalize builtin "list" = list at same ⊢
      cases sameData_of_positional same with
      | refl => rfl
      | seq items => rfl
    revert classes
    decide
  · intro same
    cases sameData_of_positional same
  · refine ⟨.cons (.dict (List.Perm.swap _ _ []) ?_) .nil, [], .refl _, .nil⟩
    exact .cons (.refl _) (.refl _) (.cons (.refl _) (.refl _) .nil)
  · decide

end TempestSdk.CacheKeys
