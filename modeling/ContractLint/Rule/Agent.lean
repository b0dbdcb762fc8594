/-
# Agents

The open marker of an agent's argument stands alone, and an agent whose arguments are all open is
written without an argument list.
-/
import ContractLint.Rule.Subject

namespace ContractLint.AgentForm

/-- The finding about an agent whose arguments are all open. -/
def allOpen (s : Subject) (location : Location) (feature : String) : Diagnostic :=
  { s.report Rulebook.agentForm s!"every argument of agent {feature} is open" location
      (some s!"drop the argument list: 'agent {feature}'") with
    severity := Rulebook.allOpenSeverity }

/-- The finding about an open marker that does not stand alone. -/
def stray (s : Subject) (feature : String) (a : AgentArgument) : Diagnostic :=
  s.report Rulebook.agentForm
    s!"open-argument marker '?' must stand alone in agent {feature}" a.location none

/-- The findings about one agent.  Without arguments there are none. -/
def ofAgent (s : Subject) : Agent → List Diagnostic
  | .inline _ => []
  | .call location _ feature arguments =>
    let as := arguments.getD []
    (as.filter AgentArgument.hasStrayMarker).map (stray s feature) ++
      (if !as.isEmpty && as.all AgentArgument.isOpen then [allOpen s location feature] else [])

/-- The findings of the rule. -/
def check (s : Subject) : List Diagnostic :=
  s.tree.agents.flatMap (ofAgent s)

/-- The checker of the rule. -/
def checker : Checker :=
  .ofRules "AgentFormChecker" [Rulebook.agentForm] check

end ContractLint.AgentForm
