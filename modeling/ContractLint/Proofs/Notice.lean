/-
# Where a fault is noticed

A production that fails may have read far beyond the place where it started, and its error names the
token at which it gave up.  This token is never in front of the start: a reader agrees with a
production, and the failure that the production leaves in the slot is one at a token from the start
on (`Agrees.notices`).
-/
import ContractLint.Proofs.ClauseProduction

namespace ContractLint

open ContractLint.Parser

/-- If the attempt `x` fails, its fault was noticed at a token from the cursor on, the end of the text
included. -/
def Cursor.Notices {α : Type} (c : Cursor) (x : Except SyntaxError α) : Prop :=
  ∀ e, x = .error e → ∃ t ∈ c.allTokens, e.location = t.location

/-- **What agrees with a production fails from the start of the production on.** -/
theorem Parser.Agrees.notices {α γ : Type} {s : Parser} {view : γ → Outcome α}
    {x : Except SyntaxError γ} {r : Option α × Parser} (h : s.Agrees view x r) :
    s.rest.Notices x := by
  rintro e rfl
  obtain ⟨s', -, hfails⟩ := h
  obtain ⟨f, rfl, hmem, -⟩ := hfails.pending_eq
  exact ⟨f.token, hmem, rfl⟩

/-- A declaration is given up at a token from its first one on. -/
theorem readDeclaration_notices (first : Item) (c : Cursor) :
    c.Notices (readDeclaration first c) :=
  Agrees.notices (s := { text := c }) (Production.declaration_agrees first)

/-- A clause of names is given up behind its keyword. -/
theorem readNameClause_notices {readList : Cursor → Except SyntaxError (List Name × Nat)}
    {list : Production (List Name)} (hlist : ∀ s : Parser, s.Agrees .ofPair (readList s.rest) (list s))
    (c : Cursor) : c.next.Notices (readNameClause readList c) :=
  Agrees.notices (Production.nameClause_agrees hlist { text := c })

/-- A header is given up at a token from its first one on. -/
theorem readHeader_notices (c : Cursor) : c.Notices (readHeader c) :=
  Agrees.notices (s := { text := c }) Production.header_agrees

end ContractLint
