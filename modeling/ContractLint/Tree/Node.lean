/-
# The nodes of a tree

Every part of a tree as a `Node`, its children, and the walk that visits a node before its children
and each child with everything below it before the next.
-/
import ContractLint.Tree

namespace ContractLint

/-- A part of a tree. -/
inductive Node where
  | tree (t : Tree)
  | classDecl (c : ClassDecl)
  | name (n : Name)
  | clause (c : Clause)
  | feature (f : Feature)
  | parameter (e : Entity)
  | localEntity (e : Entity)
  | invariant (i : Invariant)
  | block (b : AssertionBlock)
  | assertion (a : Assertion)
  | agent (a : Agent)
  | quantifier (q : Quantifier)
deriving DecidableEq, Repr, Inhabited

namespace Node

/-- The location of a node; trees and entities have none of their own. -/
def location? : Node → Option Location
  | tree _ | parameter _ | localEntity _ => none
  | classDecl c => some c.name.location
  | name n => some n.location
  | clause c => some c.location
  | feature f => some f.name.location
  | invariant i => some i.block.location
  | block b => some b.location
  | assertion a => some a.location
  | agent a => some a.location
  | quantifier q => some q.location

/-- The children of a node, in the order of the walk. -/
def children : Node → List Node
  | tree t => t.classes.map classDecl
  | classDecl c =>
    name c.name :: c.generics.map name ++ c.clauses.map clause ++
      c.invariant.toList.map invariant
  | clause c => c.features.map feature
  | feature f =>
    name f.name :: f.parameters.map parameter ++ f.locals.map localEntity ++
      f.blocks.map block ++ f.agents.map agent ++ f.quantifiers.map quantifier
  | invariant i => block i.block :: i.agents.map agent ++ i.quantifiers.map quantifier
  | block b => b.assertions.map assertion
  | parameter e | localEntity e => [name e.name]
  | name _ | assertion _ | agent _ | quantifier _ => []

/-- A bound on the number of generations below a node. -/
def height : Node → Nat
  | tree _ => 5
  | classDecl _ => 4
  | clause _ => 3
  | feature _ | invariant _ => 2
  | block _ | parameter _ | localEntity _ => 1
  | name _ | assertion _ | agent _ | quantifier _ => 0

theorem height_lt_of_mem_children {n m : Node} (h : m ∈ n.children) : m.height < n.height := by
  cases n <;> simp only [children, List.mem_append, List.mem_cons, List.mem_map,
    List.not_mem_nil, or_false] at h <;> grind [height]

/-- A node and everything below it, each with its depth, when the node itself is at `depth`. -/
def walk (depth : Nat) (n : Node) : List (Nat × Node) :=
  (depth, n) :: n.children.attach.flatMap fun ⟨m, _⟩ => m.walk (depth + 1)
termination_by n.height
decreasing_by exact height_lt_of_mem_children ‹_›

end Node

/-- The nodes of a tree in the order of the walk, with their depths. -/
def Tree.walk (t : Tree) : List (Nat × Node) :=
  (Node.tree t).walk 0

end ContractLint
