/-
# What a tree holds

The features, assertion blocks, assertions, agents and quantifiers of a tree, in the order of its
text.  The invariant of a class comes after its features.
-/
import ContractLint.Tree

namespace ContractLint.Tree

/-- The features, each with its class. -/
def features (t : Tree) : List (ClassDecl × Feature) :=
  t.classes.flatMap fun c => c.features.map fun f => (c, f)

/-- The features that are routines. -/
def routines (t : Tree) : List Feature :=
  (t.features.map Prod.snd).filter Feature.isRoutine

/-- The assertion blocks. -/
def blocks (t : Tree) : List AssertionBlock :=
  t.classes.flatMap fun c =>
    c.features.flatMap Feature.blocks ++ c.invariant.toList.map Invariant.block

/-- The assertions. -/
def assertions (t : Tree) : List Assertion :=
  t.blocks.flatMap AssertionBlock.assertions

/-- The agents. -/
def agents (t : Tree) : List Agent :=
  t.classes.flatMap fun c =>
    c.features.flatMap Feature.agents ++ c.invariant.toList.flatMap Invariant.agents

/-- The quantifiers. -/
def quantifiers (t : Tree) : List Quantifier :=
  t.classes.flatMap fun c =>
    c.features.flatMap Feature.quantifiers ++ c.invariant.toList.flatMap Invariant.quantifiers

end ContractLint.Tree
