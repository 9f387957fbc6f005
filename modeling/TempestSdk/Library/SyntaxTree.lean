import Mathlib.Algebra.GroupWithZero.Nat
import Mathlib.Algebra.Order.BigOperators.Group.List
import Mathlib.Algebra.Order.Group.Nat
import Mathlib.Data.List.Basic

/-!
# Syntax trees with named arguments

A node has a kind and arguments, each under a key: a plain value or another
node.  An argument that is a list of nodes has one entry for each of them.  A
tree is walked level by level.
-/

namespace SyntaxTree

variable (Kind Key Value : Type)

mutual

inductive Tree where
  | node (kind : Kind) (args : Args)

inductive Args where
  | nil
  | value (key : Key) (value : Value) (rest : Args)
  | child (key : Key) (tree : Tree) (rest : Args)

end

variable {Kind Key Value}

namespace Args

def children : Args Kind Key Value → List (Tree Kind Key Value)
  | .nil => []
  | .value _ _ rest => rest.children
  | .child _ tree rest => tree :: rest.children

section

variable [DecidableEq Key]

def childAt (key : Key) : Args Kind Key Value → Option (Tree Kind Key Value)
  | .nil => none
  | .value _ _ rest => rest.childAt key
  | .child other tree rest => if other = key then some tree else rest.childAt key

def valueAt (key : Key) : Args Kind Key Value → Option Value
  | .nil => none
  | .value other content rest => if other = key then some content else rest.valueAt key
  | .child _ _ rest => rest.valueAt key

def has (key : Key) (args : Args Kind Key Value) : Bool :=
  (args.childAt key).isSome || (args.valueAt key).isSome

end

end Args

namespace Tree

def kind : Tree Kind Key Value → Kind
  | .node kind _ => kind

def args : Tree Kind Key Value → Args Kind Key Value
  | .node _ args => args

end Tree

mutual

def Tree.size : Tree Kind Key Value → Nat
  | .node _ args => args.size + 1

def Args.size : Args Kind Key Value → Nat
  | .nil => 0
  | .value _ _ rest => rest.size
  | .child _ tree rest => tree.size + rest.size

end

namespace Args

theorem size_eq (args : Args Kind Key Value) :
    args.size = (args.children.map Tree.size).sum := by
  cases args with
  | nil => rfl
  | value key value rest => exact rest.size_eq
  | child key tree rest => simp [size, children, rest.size_eq]

theorem childAt_mem [DecidableEq Key] {key : Key}
    {tree : Tree Kind Key Value} (args : Args Kind Key Value)
    (found : args.childAt key = some tree) : tree ∈ args.children := by
  cases args with
  | nil => cases found
  | value other value rest => exact rest.childAt_mem found
  | child other first rest =>
    unfold childAt at found
    split at found
    · cases found
      exact List.mem_cons_self
    · exact List.mem_cons_of_mem _ (rest.childAt_mem found)

end Args

namespace Tree

theorem size_eq (tree : Tree Kind Key Value) :
    tree.size = (tree.args.children.map Tree.size).sum + 1 := by
  cases tree with
  | node kind args => simp [size, Tree.args, Args.size_eq]

theorem size_lt_of_mem {tree child : Tree Kind Key Value}
    (member : child ∈ tree.args.children) : child.size < tree.size := by
  have part : child.size ≤ (tree.args.children.map Tree.size).sum :=
    List.single_le_sum (by simp) _ (List.mem_map_of_mem member)
  have whole := tree.size_eq
  omega

def walkFrom : Nat → List (Tree Kind Key Value) → List (Tree Kind Key Value)
  | 0, _ => []
  | _ + 1, [] => []
  | fuel + 1, tree :: queue => tree :: walkFrom fuel (queue ++ tree.args.children)

def walk (tree : Tree Kind Key Value) : List (Tree Kind Key Value) :=
  walkFrom tree.size [tree]

def descendants (tree : Tree Kind Key Value) : List (Tree Kind Key Value) :=
  walkFrom (tree.size - 1) tree.args.children

inductive Within (node : Tree Kind Key Value) : Tree Kind Key Value → Prop where
  | root : Within node node
  | deeper {tree child : Tree Kind Key Value}
      (member : child ∈ tree.args.children) (inside : Within node child) :
      Within node tree

theorem within_iff {node tree : Tree Kind Key Value} : node.Within tree ↔
      node = tree ∨ ∃ child ∈ tree.args.children, node.Within child := by
  constructor
  · intro inside
    cases inside with
    | root => exact Or.inl rfl
    | deeper member inside => exact Or.inr ⟨_, member, inside⟩
  · intro position
    rcases position with same | ⟨child, member, inside⟩
    · exact same ▸ .root
    · exact .deeper member inside

theorem mem_walkFrom {fuel : Nat} {queue : List (Tree Kind Key Value)}
    (enough : (queue.map Tree.size).sum ≤ fuel)
    {node : Tree Kind Key Value} :
    node ∈ walkFrom fuel queue ↔ ∃ tree ∈ queue, node.Within tree := by
  induction fuel generalizing queue with
  | zero =>
    cases queue with
    | nil => simp [walkFrom]
    | cons tree queue =>
      have whole := tree.size_eq
      simp only [List.map_cons, List.sum_cons] at enough
      omega
  | succ fuel induction =>
    cases queue with
    | nil => simp [walkFrom]
    | cons tree queue =>
      have whole := tree.size_eq
      have later : ((queue ++ tree.args.children).map Tree.size).sum ≤ fuel := by
        simp only [List.map_cons, List.sum_cons, List.map_append, List.sum_append] at enough ⊢
        omega
      rw [walkFrom, List.mem_cons, induction later]
      have here : node.Within tree ↔ node = tree ∨
          ∃ child ∈ tree.args.children, node.Within child := within_iff
      simp only [List.mem_append, List.mem_cons, or_and_right, exists_or,
        exists_eq_left, here, or_assoc]
      exact or_congr_right or_comm

theorem mem_walk {tree node : Tree Kind Key Value} : node ∈ tree.walk ↔ node.Within tree := by
  rw [walk, mem_walkFrom (by simp)]
  simp

theorem mem_descendants {tree node : Tree Kind Key Value} : node ∈ tree.descendants ↔
      ∃ child ∈ tree.args.children, node.Within child := by
  have whole := tree.size_eq
  exact mem_walkFrom (by omega)

end Tree

end SyntaxTree
