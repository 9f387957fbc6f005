import Mathlib.Data.Char
import Mathlib.Data.List.Lex
import TempestSdk.Library.PyJsonRoundTrip
import TempestSdk.Library.StableSort

/-!
# JSON trees and the texts they are written as

What `json.dumps` writes, with a space or none behind its separators: a tree of
lists and of objects whose keys are texts.  The text determines the tree.
-/

namespace JsonTrees

open PyJson StableSort

inductive Tree (floats : FloatTexts) where
  | none
  | bool (truth : Bool)
  | int (number : Int)
  | float (number : PyFloat floats)
  | str (text : List Char)
  | list (items : List (Tree floats))
  | dict (members : List (List Char × Tree floats))

variable {floats : FloatTexts} {space : List Char}

def joined (comma : List Char) : List (List Char) → List Char
  | [] => []
  | piece :: rest => piece ++ rest.flatMap fun more => comma ++ more

mutual

/-- The text of a tree, with this space behind a comma and a colon. -/
@[grind =] def Tree.write (space : List Char) : Tree floats → List Char
  | .none => noneText
  | .bool truth => boolText truth
  | .int number => number.repr.toList
  | .float number => number.text
  | .str text => quoted text
  | .list items => '[' :: joined (',' :: space) (writeItems space items) ++ [']']
  | .dict members => '\x7b' :: joined (',' :: space) (writeMembers space members) ++ ['\x7d']

def writeItems (space : List Char) : List (Tree floats) → List (List Char)
  | [] => []
  | item :: rest => item.write space :: writeItems space rest

def writeMembers (space : List Char) : List (List Char × Tree floats) → List (List Char)
  | [] => []
  | (key, value) :: rest =>
    (quoted key ++ ':' :: space ++ value.write space) :: writeMembers space rest

end

mutual

/-- With `sort_keys`, the members of every object come sorted. -/
def Tree.ordered : Tree floats → Tree floats
  | .none => .none
  | .bool truth => .bool truth
  | .int number => .int number
  | .float number => .float number
  | .str text => .str text
  | .list items => .list (orderedItems items)
  | .dict members => .dict (sortBy Prod.fst (orderedMembers members))

def orderedItems : List (Tree floats) → List (Tree floats)
  | [] => []
  | item :: rest => item.ordered :: orderedItems rest

def orderedMembers : List (List Char × Tree floats) → List (List Char × Tree floats)
  | [] => []
  | (key, value) :: rest => (key, value.ordered) :: orderedMembers rest

end

theorem orderedItems_eq (items : List (Tree floats)) :
    orderedItems items = items.map Tree.ordered := by
  induction items with
  | nil => rfl
  | cons item rest induction =>
    rw [orderedItems, induction]
    rfl

theorem orderedMembers_eq (members : List (List Char × Tree floats)) :
    orderedMembers members = members.map fun member => (member.1, member.2.ordered) := by
  induction members with
  | nil => rfl
  | cons member rest induction =>
    rw [orderedMembers, induction]
    rfl

theorem ordered_one (key : List Char) (value : Tree floats) :
    (Tree.dict [(key, value)]).ordered = .dict [(key, value.ordered)] := rfl

theorem ordered_two {key later : List Char} (before : key ≤ later) (value other : Tree floats) :
    (Tree.dict [(key, value), (later, other)]).ordered =
      .dict [(key, value.ordered), (later, other.ordered)] := by
  simp [Tree.ordered, orderedMembers, sortBy, before]

def Tree.scalar? : Tree floats → Option (Json floats)
  | .none => some .none
  | .bool truth => some (.bool truth)
  | .int number => some (.int number)
  | .float number => some (.float number)
  | _ => Option.none

theorem scalar_write (space : List Char) (lawful : floats.Lawful) {tree : Tree floats}
    {value : Json floats} (plain : tree.scalar? = some value)
    {rest : List Char} (stops : Stops rest) :
    scalar floats (tree.write space ++ rest) = some (value, rest) := by
  cases tree with
  | none =>
    cases plain
    rw [Tree.write]
    rfl
  | bool truth =>
    cases plain
    rw [Tree.write]
    cases truth with
    | true => rfl
    | false => rfl
  | int number =>
    cases plain
    rw [Tree.write]
    exact scalar_int number stops
  | float number =>
    cases plain
    rw [Tree.write]
    exact scalar_float lawful number stops
  | str | list | dict => cases plain

theorem scalar_head (lawful : floats.Lawful) {tree : Tree floats}
    {value : Json floats} (plain : tree.scalar? = some value) :
    ∃ first rest, tree.write space = first :: rest ∧ first ∉ ['"', '[', ']', '\x7b'] := by
  cases tree with
  | none => exact ⟨_, _, by rw [Tree.write]; rfl, by decide⟩
  | bool truth =>
    cases truth with
    | true => exact ⟨_, _, by rw [Tree.write]; rfl, by decide⟩
    | false => exact ⟨_, _, by rw [Tree.write]; rfl, by decide⟩
  | int number =>
    obtain ⟨first, rest, shape, kind⟩ := (begins_repr number).first
    refine ⟨first, rest, by rw [Tree.write, shape], ?_⟩
    intro member
    simp only [List.mem_cons, List.not_mem_nil, or_false] at member
    rcases member with rfl | rfl | rfl | rfl
    all_goals revert kind; decide
  | float number =>
    obtain ⟨first, rest, shape, kind⟩ := number.text_first lawful
    refine ⟨first, rest, by rw [Tree.write, shape], ?_⟩
    intro member
    simp only [List.mem_cons, List.not_mem_nil, or_false] at member
    rcases member with rfl | rfl | rfl | rfl
    all_goals revert kind; decide
  | str | list | dict => cases plain

variable {tree other : Tree floats}

theorem scalar?_injective {value : Json floats}
    (left : tree.scalar? = some value) (right : other.scalar? = some value) :
    tree = other := by
  cases tree with
  | str | list | dict => cases left
  | none | bool truth | int number | float number =>
    cases left
    cases other with
    | none | bool | int | float => cases right <;> rfl
    | str | list | dict => cases right

/-- What a text begins with says what kind of tree it is. -/
inductive Head : Tree floats → Char → Prop where
  | str (text : List Char) : Head (.str text) '"'
  | list (items : List (Tree floats)) : Head (.list items) '['
  | dict (members : List (List Char × Tree floats)) :
      Head (.dict members) '\x7b'
  | scalar {tree : Tree floats} {value : Json floats} {first : Char} :
      tree.scalar? = some value → first ∉ ['"', '[', ']', '\x7b'] →
      Head tree first

theorem write_head (space : List Char) (lawful : floats.Lawful) (tree : Tree floats) :
    ∃ first rest, tree.write space = first :: rest ∧ Head tree first := by
  have plain : ∀ value, tree.scalar? = some value → ∃ first rest,
      tree.write space = first :: rest ∧ Head tree first := by
    intro value read
    obtain ⟨first, rest, shape, other⟩ := scalar_head lawful read
    exact ⟨first, rest, shape, .scalar read other⟩
  cases tree with
  | none | bool | int | float => exact plain _ rfl
  | str text => exact ⟨_, _, by rw [Tree.write]; rfl, .str text⟩
  | list items => exact ⟨_, _, by rw [Tree.write]; rfl, .list items⟩
  | dict members => exact ⟨_, _, by rw [Tree.write]; rfl, .dict members⟩

theorem Head.not_end {tree : Tree floats} (head : Head tree ']') : False := by
  cases head with
  | scalar plain apart => exact apart (by decide)

theorem quoted_prefix {text other rest more : List Char}
    (same : quoted text ++ rest = quoted other ++ more) :
    text = other ∧ rest = more := by
  unfold quoted at same
  simp only [List.cons_append, List.append_assoc, List.nil_append,
    List.cons.injEq, true_and] at same
  have left := readString_escaped text rest
  rw [same, readString_escaped other more] at left
  simp only [Option.some.injEq, Prod.mk.injEq] at left
  exact ⟨left.1.symm, left.2.symm⟩

theorem stops_behind {pieces : List (List Char)} {closing : Char}
    (closes : isNumeral closing = false) (rest : List Char) :
    Stops (pieces.flatMap (fun more => ',' :: space ++ more) ++ closing :: rest) := by
  cases pieces with
  | nil => exact stops_cons closes
  | cons piece others => exact stops_cons rfl

theorem scalar_prefix (lawful : floats.Lawful) {value found : Json floats}
    (plain : tree.scalar? = some value)
    (otherPlain : other.scalar? = some found) {rest more : List Char}
    (stops : Stops rest) (stopsMore : Stops more)
    (same : tree.write space ++ rest = other.write space ++ more) :
    tree = other ∧ rest = more := by
  have left := scalar_write space lawful plain stops
  rw [same, scalar_write space lawful otherPlain stopsMore] at left
  simp only [Option.some.injEq, Prod.mk.injEq] at left
  rw [left.1] at otherPlain
  exact ⟨scalar?_injective plain otherPlain, left.2.symm⟩

theorem not_end (lawful : floats.Lawful) {tree : Tree floats}
    {rest more : List Char} (same : tree.write space ++ rest = ']' :: more) :
    False := by
  obtain ⟨first, behind, shape, head⟩ := write_head space lawful tree
  rw [shape] at same
  have ends := (List.cons.inj same).1
  subst ends
  exact head.not_end

theorem head_of_same (lawful : floats.Lawful) {rest more : List Char}
    (same : tree.write space ++ rest = other.write space ++ more) :
    ∃ first, Head tree first ∧ Head other first := by
  obtain ⟨first, behind, shape, head⟩ := write_head space lawful tree
  obtain ⟨again, after, otherShape, otherHead⟩ :=
    write_head space lawful other
  rw [shape, otherShape] at same
  have heads := (List.cons.inj same).1
  subst heads
  exact ⟨first, head, otherHead⟩

def behind (space : List Char) (closing : Char) (pieces : List (List Char))
    (rest : List Char) : List Char :=
  pieces.flatMap (fun more => ',' :: space ++ more) ++ closing :: rest

theorem write_list_cons (item : Tree floats) (items : List (Tree floats)) (rest : List Char) :
    (Tree.list (item :: items)).write space ++ rest = '[' :: (item.write space ++
        behind space ']' (writeItems space items) rest) := by
  simp [Tree.write, writeItems, joined, behind]

theorem write_dict_cons (key : List Char) (value : Tree floats)
    (members : List (List Char × Tree floats)) (rest : List Char) :
    (Tree.dict ((key, value) :: members)).write space ++ rest =
      '\x7b' :: (quoted key ++ (':' :: space ++ (value.write space ++
        behind space '\x7d' (writeMembers space members) rest))) := by
  simp [Tree.write, writeMembers, joined, behind]

mutual

theorem write_front (lawful : floats.Lawful) (tree other : Tree floats)
    {rest more : List Char} (stops : Stops rest) (stopsMore : Stops more)
    (same : tree.write space ++ rest = other.write space ++ more) :
    tree = other ∧ rest = more := by
  obtain ⟨first, head, otherHead⟩ := head_of_same lawful same
  cases tree with
  | none | bool | int | float =>
    cases head with
    | scalar plain apart =>
      cases otherHead with
      | scalar otherPlain _apart =>
        exact scalar_prefix lawful plain otherPlain stops stopsMore same
      | str | list | dict => exact absurd (by decide) apart
  | str text =>
    cases head with
    | scalar impossible => cases impossible
    | str =>
      cases otherHead with
      | scalar _plain apart => exact absurd (by decide) apart
      | str again =>
        rw [Tree.write, Tree.write] at same
        obtain ⟨rfl, rests⟩ := quoted_prefix same
        exact ⟨rfl, rests⟩
  | list items =>
    cases head with
    | scalar impossible => cases impossible
    | list =>
      cases otherHead with
      | scalar _plain apart => exact absurd (by decide) apart
      | list others =>
        cases items with
        | nil =>
          cases others with
          | nil => exact ⟨rfl, List.append_cancel_left same⟩
          | cons other others =>
            rw [write_list_cons] at same
            exact (not_end lawful (List.cons.inj same).2.symm).elim
        | cons item items =>
          cases others with
          | nil =>
            rw [write_list_cons] at same
            exact (not_end lawful (List.cons.inj same).2).elim
          | cons other others =>
            rw [write_list_cons, write_list_cons] at same
            have written := (List.cons.inj same).2
            obtain ⟨rfl, rests⟩ := write_front lawful item other
              (stops_behind rfl rest) (stops_behind rfl more) written
            obtain ⟨rfl, ends⟩ :=
              items_prefix lawful items others rests
            exact ⟨rfl, ends⟩
  | dict members =>
    cases head with
    | scalar impossible => cases impossible
    | dict =>
      cases otherHead with
      | scalar _plain apart => exact absurd (by decide) apart
      | dict others =>
        cases members with
        | nil =>
          cases others with
          | nil => exact ⟨rfl, List.append_cancel_left same⟩
          | cons other others =>
            rw [write_dict_cons] at same
            exact absurd (List.cons.inj (List.cons.inj same).2).1 (by decide)
        | cons member members =>
          obtain ⟨key, value⟩ := member
          cases others with
          | nil =>
            rw [write_dict_cons] at same
            exact absurd (List.cons.inj (List.cons.inj same).2).1 (by decide)
          | cons other others =>
            obtain ⟨otherKey, otherValue⟩ := other
            rw [write_dict_cons, write_dict_cons] at same
            obtain ⟨rfl, values⟩ :=
              quoted_prefix (List.cons.inj same).2
            have written := List.append_cancel_left values
            obtain ⟨rfl, rests⟩ := write_front lawful value otherValue (stops_behind rfl rest)
              (stops_behind rfl more) written
            obtain ⟨rfl, ends⟩ :=
              members_prefix lawful members others rests
            exact ⟨rfl, ends⟩

theorem items_prefix (lawful : floats.Lawful)
    (items others : List (Tree floats)) {rest more : List Char}
    (same : behind space ']' (writeItems space items) rest =
      behind space ']' (writeItems space others) more) :
    items = others ∧ rest = more := by
  cases items with
  | nil =>
    cases others with
    | nil => exact ⟨rfl, (List.cons.inj same).2⟩
    | cons other others => exact absurd (List.cons.inj same).1 (by decide)
  | cons item items =>
    cases others with
    | nil => exact absurd (List.cons.inj same).1 (by decide)
    | cons other others =>
      have written : item.write space ++ behind space ']' (writeItems space items) rest =
          other.write space ++ behind space ']' (writeItems space others) more := by
        simpa [behind, writeItems] using same
      obtain ⟨rfl, rests⟩ := write_front lawful item other
        (stops_behind rfl rest) (stops_behind rfl more) written
      obtain ⟨rfl, ends⟩ := items_prefix lawful items others rests
      exact ⟨rfl, ends⟩

theorem members_prefix (lawful : floats.Lawful)
    (members others : List (List Char × Tree floats)) {rest more : List Char}
    (same : behind space '\x7d' (writeMembers space members) rest =
      behind space '\x7d' (writeMembers space others) more) :
    members = others ∧ rest = more := by
  cases members with
  | nil =>
    cases others with
    | nil => exact ⟨rfl, (List.cons.inj same).2⟩
    | cons other others => exact absurd (List.cons.inj same).1 (by decide)
  | cons member members =>
    obtain ⟨key, value⟩ := member
    cases others with
    | nil => exact absurd (List.cons.inj same).1 (by decide)
    | cons other others =>
      obtain ⟨otherKey, otherValue⟩ := other
      have keyed : quoted key ++ (':' :: space ++ (value.write space ++
            behind space '\x7d' (writeMembers space members) rest)) =
          quoted otherKey ++ (':' :: space ++ (otherValue.write space ++
            behind space '\x7d' (writeMembers space others) more)) := by
        simpa [behind, writeMembers] using same
      obtain ⟨rfl, values⟩ := quoted_prefix keyed
      have written := List.append_cancel_left values
      obtain ⟨rfl, rests⟩ := write_front lawful value otherValue
        (stops_behind rfl rest) (stops_behind rfl more) written
      obtain ⟨rfl, ends⟩ := members_prefix lawful members others rests
      exact ⟨rfl, ends⟩

end

theorem write_injective (lawful : floats.Lawful)
    (same : tree.write space = other.write space) : tree = other := by
  have stops : Stops [] := by
    intro char member
    cases member
  have whole : tree.write space ++ [] = other.write space ++ [] := by
    rw [same]
  exact (write_front lawful tree other stops stops whole).1

end JsonTrees
