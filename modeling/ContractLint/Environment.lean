/-
# Environment variables

The variables that a run can see, as pairs of a name and a value.  Two of them matter: the number
of workers (`jobsVariable`) and the wish for plain reports (`noColorVariable`).
-/
import ContractLint.Settings.Error

namespace ContractLint

/-- The variables of a run. -/
abbrev Environment := List (String × String)

/-- The variable that turns colour off, whatever it holds, unless it is empty. -/
def noColorVariable : String := "NO_COLOR"

namespace Environment

/-- The value of a variable; one that is not set counts as empty. -/
def get (env : Environment) (name : String) : String :=
  (env.lookup name).getD ""

/-- Whether the environment asks for reports without colour. -/
def asksForPlain (env : Environment) : Bool :=
  env.get noColorVariable != ""

end Environment

end ContractLint
