/-
# The walk and the collections

The rules that look at features, assertions, agents or quantifiers do not walk the tree.  Each kind
has a collection of its own, which goes to the places where it expects such nodes and to no others;
the walk knows of no kind and visits the children of every node.  A kind of block that a collection
forgets would be invisible to some rules and not to others.

Here each collection is extended from the tree to all nodes: what a node holds.  It then has an
equation along the children, one case for each constructor, and the walk is the only listing with
such an equation.

* `Node.filterMap_nodes`: what the walk picks at its nodes is what satisfies the equation;
* `features_eq`, `blocks_eq`, `assertions_eq`, `agents_eq`, `quantifiers_eq`: the equations;
* `walks_agree`: the walk and the collections give the same lists, for every tree.
-/
import ContractLint.Tree.Collect
import ContractLint.Tree.Node
import Mathlib.Data.List.Basic

namespace ContractLint

namespace Node

/-! ## 1. The nodes in the order of the walk -/

theorem walk_eq (depth : Nat) (n : Node) :
    n.walk depth = (depth, n) :: n.children.flatMap (walk (depth + 1)) := by
  rw [walk]
  simp

/-- A node and everything below it. -/
def nodes (n : Node) : List Node :=
  (n.walk 0).map Prod.snd

/-- The walk visits the same nodes whatever depth it starts at. -/
theorem map_snd_walk (d e : Nat) (n : Node) :
    (n.walk d).map Prod.snd = (n.walk e).map Prod.snd := by
  rw [walk_eq, walk_eq, List.map_cons, List.map_cons, List.map_flatMap, List.map_flatMap]
  exact congrArg (n :: ·) (List.flatMap_congr fun m hm => map_snd_walk (d + 1) (e + 1) m)
termination_by n.height
decreasing_by exact height_lt_of_mem_children hm

/-- A node comes before its children, and each child with everything below it before the next. -/
theorem nodes_eq (n : Node) : n.nodes = n :: n.children.flatMap nodes := by
  rw [nodes, walk_eq, List.map_cons, List.map_flatMap]
  exact congrArg (n :: ·) (List.flatMap_congr fun m _ => map_snd_walk 1 0 m)

/-- **A listing that goes along the children is the walk's**: what `pick` finds at the node itself,
then what the children hold. -/
theorem filterMap_nodes {α : Type} {pick : Node → Option α} {held : Node → List α}
    (h : ∀ n, held n = (pick n).toList ++ n.children.flatMap held) (n : Node) :
    n.nodes.filterMap pick = held n := by
  have hchildren : n.children.flatMap (fun m => m.nodes.filterMap pick) =
      n.children.flatMap held := List.flatMap_congr fun m hm => filterMap_nodes h m
  rw [nodes_eq, List.filterMap_cons, List.filterMap_flatMap, hchildren, h n]
  cases pick n <;> rfl
termination_by n.height
decreasing_by exact height_lt_of_mem_children hm

/-! ## 2. The kinds of nodes -/

def feature? : Node → Option Feature
  | feature f => some f
  | _ => none

def block? : Node → Option AssertionBlock
  | block b => some b
  | _ => none

def assertion? : Node → Option Assertion
  | assertion a => some a
  | _ => none

def agent? : Node → Option Agent
  | agent a => some a
  | _ => none

def quantifier? : Node → Option Quantifier
  | quantifier q => some q
  | _ => none

/-! ## 3. What a node holds -/

/-- The features of a node, itself included. -/
def features : Node → List Feature
  | tree t => t.features.map Prod.snd
  | classDecl c => c.features
  | clause c => c.features
  | feature f => [f]
  | _ => []

/-- The assertion blocks of a node, itself included. -/
def blocks : Node → List AssertionBlock
  | tree t => t.blocks
  | classDecl c => c.features.flatMap Feature.blocks ++ c.invariant.toList.map Invariant.block
  | clause c => c.features.flatMap Feature.blocks
  | feature f => f.blocks
  | invariant i => [i.block]
  | block b => [b]
  | _ => []

/-- The assertions of a node, itself included. -/
def assertions : Node → List Assertion
  | assertion a => [a]
  | n => n.blocks.flatMap AssertionBlock.assertions

/-- The agents of a node, itself included. -/
def agents : Node → List Agent
  | tree t => t.agents
  | classDecl c =>
    c.features.flatMap Feature.agents ++ c.invariant.toList.flatMap Invariant.agents
  | clause c => c.features.flatMap Feature.agents
  | feature f => f.agents
  | invariant i => i.agents
  | agent a => [a]
  | _ => []

/-- The quantifiers of a node, itself included. -/
def quantifiers : Node → List Quantifier
  | tree t => t.quantifiers
  | classDecl c =>
    c.features.flatMap Feature.quantifiers ++ c.invariant.toList.flatMap Invariant.quantifiers
  | clause c => c.features.flatMap Feature.quantifiers
  | feature f => f.quantifiers
  | invariant i => i.quantifiers
  | quantifier q => [q]
  | _ => []

theorem flatMap_nothing {α β : Type} (as : List α) : as.flatMap (fun _ => ([] : List β)) = [] :=
  List.flatMap_eq_nil_iff.mpr fun _ _ => rfl

theorem features_eq (n : Node) :
    n.features = n.feature?.toList ++ n.children.flatMap features := by
  cases n <;> simp [features, feature?, children, flatMap_nothing, List.flatMap_map,
    Tree.features, ClassDecl.features, List.map_flatMap, Function.comp_def]

theorem blocks_eq (n : Node) : n.blocks = n.block?.toList ++ n.children.flatMap blocks := by
  cases n <;> simp [blocks, block?, children, flatMap_nothing,
    Tree.blocks, ClassDecl.features, List.flatMap_assoc, List.map_eq_flatMap]

theorem assertions_eq (n : Node) :
    n.assertions = n.assertion?.toList ++ n.children.flatMap assertions := by
  cases n <;> simp [assertions, blocks, assertion?, children, flatMap_nothing, List.flatMap_map,
    Tree.blocks, ClassDecl.features, List.flatMap_assoc]

theorem agents_eq (n : Node) : n.agents = n.agent?.toList ++ n.children.flatMap agents := by
  cases n <;> simp [agents, agent?, children, flatMap_nothing, List.flatMap_map,
    Tree.agents, ClassDecl.features, List.flatMap_assoc]

theorem quantifiers_eq (n : Node) :
    n.quantifiers = n.quantifier?.toList ++ n.children.flatMap quantifiers := by
  cases n <;> simp [quantifiers, quantifier?, children, flatMap_nothing, List.flatMap_map,
    Tree.quantifiers, ClassDecl.features, List.flatMap_assoc]

end Node

/-- The nodes of a tree in the order of the walk. -/
def Tree.nodes (t : Tree) : List Node :=
  t.walk.map Prod.snd

/-- **The two walks over a tree agree.**  In every tree, the nodes of a kind, in the order of the
walk and as often as it visits them, are those that the collection of that kind gives. -/
theorem walks_agree (t : Tree) :
    t.nodes.filterMap Node.feature? = t.features.map Prod.snd ∧
      t.nodes.filterMap Node.block? = t.blocks ∧
      t.nodes.filterMap Node.assertion? = t.assertions ∧
      t.nodes.filterMap Node.agent? = t.agents ∧
      t.nodes.filterMap Node.quantifier? = t.quantifiers :=
  ⟨Node.filterMap_nodes Node.features_eq (.tree t), Node.filterMap_nodes Node.blocks_eq (.tree t),
    Node.filterMap_nodes Node.assertions_eq (.tree t),
    Node.filterMap_nodes Node.agents_eq (.tree t),
    Node.filterMap_nodes Node.quantifiers_eq (.tree t)⟩

end ContractLint
