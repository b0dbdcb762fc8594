/-
# Cutting text at a character

`splitAt` cuts at every occurrence of a separator and keeps the empty pieces, so a text with `n`
separators has `n + 1` pieces and `joinWith` puts it together again (`joinWith_splitAt`).
-/

namespace ContractLint.Text

/-- The pieces of `cs` between the occurrences of `sep`; never empty. -/
def splitAt (sep : Char) : List Char → List (List Char)
  | [] => [[]]
  | c :: cs =>
    if c == sep then [] :: splitAt sep cs
    else match splitAt sep cs with
      | [] => [[c]]
      | p :: ps => (c :: p) :: ps

/-- The pieces joined by `sep`. -/
def joinWith (sep : Char) : List (List Char) → List Char
  | [] => []
  | [p] => p
  | p :: ps => p ++ sep :: joinWith sep ps

theorem splitAt_ne_nil (sep : Char) (cs : List Char) : splitAt sep cs ≠ [] := by
  cases cs with
  | nil => simp [splitAt]
  | cons c cs =>
    simp only [splitAt]
    split
    · simp
    · split <;> simp

/-- Joining the pieces gives the text back. -/
theorem joinWith_splitAt (sep : Char) (cs : List Char) :
    joinWith sep (splitAt sep cs) = cs := by
  induction cs with
  | nil => rfl
  | cons c cs ih =>
    obtain ⟨p, ps, hp⟩ := List.exists_cons_of_ne_nil (splitAt_ne_nil sep cs)
    by_cases h : c = sep
    · subst h
      simp only [splitAt, beq_self_eq_true, if_true]
      rw [hp]
      simp [joinWith, ← hp, ih]
    · rw [hp] at ih
      cases ps <;> simp_all [splitAt, joinWith]

/-- The pieces of a text between the occurrences of `sep`. -/
def split (sep : Char) (s : String) : List String :=
  (splitAt sep s.toList).map String.ofList

end ContractLint.Text
