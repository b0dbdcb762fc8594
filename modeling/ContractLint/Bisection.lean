/-
# Searching by halving

Tokens and lines are found by where they start: the starts are in order, so asking the one in the
middle leaves half of them to search.
-/

namespace ContractLint

/-- The place behind the entries up to `x`, if it is not in front of `lo` and not behind `hi`.  Each
step asks the entry in the middle. -/
def bisection {α : Type} [LT α] [DecidableLT α] (entries : List α) (x : α) (lo hi : Nat) : Nat :=
  if lo < hi then
    let middle := (lo + hi) / 2
    if entries[middle]?.any (x < ·) then bisection entries x lo middle
    else bisection entries x (middle + 1) hi
  else lo
termination_by hi - lo

end ContractLint
