/-
# The agents that are tried

The search for agents and quantifiers tries to read an agent at each keyword `agent` that it meets,
and it goes on behind what that attempt passed.  `agentCalls` is the list of these attempts, each
with its outcome, so what the search finds can be counted: a fault among the constructs of a span is
an attempt of `agentCalls` that failed, and there are no others (`faults_constructs`).

The agents of a declaration are looked for once, however many features it introduces.  So the calls
of a declaration are those of its first feature, and its errors are the failures among them
(`errors_eq_failures`).
-/
import ContractLint.Proofs.Reach

namespace ContractLint

/-! ## 1. The calls of a span -/

/-- The outcomes of the attempts to read an agent that the search through a span makes, in order. -/
def agentCalls (ts : List Token) : List (Except SyntaxError Agent) :=
  match ts with
  | [] => []
  | t :: rest =>
    if t.isKeyword [.kwAgent] then
      let reading := readAgent t rest
      reading.1 :: agentCalls (rest.drop reading.2)
    else agentCalls rest
termination_by ts.length
decreasing_by all_goals simp only [List.length_drop, List.length_cons]; omega

/-- The errors of the calls that gave no agent. -/
def failures (calls : List (Except SyntaxError Agent)) : List SyntaxError :=
  calls.filterMap fun | .error e => some e | .ok _ => none

@[simp] theorem failures_nil : failures [] = [] := rfl

@[simp] theorem failures_append (xs ys : List (Except SyntaxError Agent)) :
    failures (xs ++ ys) = failures xs ++ failures ys :=
  List.filterMap_append

theorem failures_cons (r : Except SyntaxError Agent) (calls : List (Except SyntaxError Agent)) :
    failures (r :: calls) = failures [r] ++ failures calls :=
  failures_append [r] calls

namespace Construct

@[simp] theorem faults_append (xs ys : List Construct) :
    faults (xs ++ ys) = faults xs ++ faults ys :=
  List.filterMap_append

theorem faults_cons (x : Construct) (xs : List Construct) :
    faults (x :: xs) = faults [x] ++ faults xs :=
  faults_append [x] xs

/-- A call leaves a fault exactly when it fails. -/
theorem faults_ofAgent (r : Except SyntaxError Agent) : faults [ofAgent r] = failures [r] := by
  cases r <;> rfl

end Construct

/-- **The faults of a span are its failing calls.** -/
theorem faults_constructs (ts : List Token) :
    Construct.faults (constructs ts) = failures (agentCalls ts) := by
  fun_induction constructs ts with
  | case1 => rw [agentCalls, failures_nil, Construct.faults, List.filterMap_nil]
  | case2 t rest ht reading ih =>
    rw [agentCalls, if_pos ht, Construct.faults_cons, Construct.faults_ofAgent, ih]
    exact (failures_cons _ _).symm
  | case3 t rest ht q hq ih =>
    rw [agentCalls, if_neg ht, Construct.faults_cons, ih]
    rfl
  | case4 t rest ht hq ih => rw [agentCalls, if_neg ht, ih]

/-- What holds of each span holds of all of them. -/
theorem faults_flatMap {α : Type} {found : α → List Construct}
    {calls : α → List (Except SyntaxError Agent)}
    (h : ∀ a, Construct.faults (found a) = failures (calls a)) :
    ∀ as : List α, Construct.faults (as.flatMap found) = failures (as.flatMap calls)
  | [] => rfl
  | a :: as => by
    rw [List.flatMap_cons, List.flatMap_cons, Construct.faults_append, failures_append, h,
      faults_flatMap h as]

/-! ## 2. The calls of blocks, features and declarations -/

/-- The calls in the expressions of a block. -/
def AssertionBlock.calls (b : AssertionBlock) : List (Except SyntaxError Agent) :=
  b.assertions.flatMap fun a => agentCalls a.expression

theorem AssertionBlock.faults_constructs (b : AssertionBlock) :
    Construct.faults b.constructs = failures b.calls := by
  unfold constructs calls
  exact faults_flatMap (fun a : Assertion => ContractLint.faults_constructs a.expression) _

/-- The calls in a routine, in the order in which its agents are looked for. -/
def Routine.calls (r : Routine) : List (Except SyntaxError Agent) :=
  (statements r.body.tokens).flatMap agentCalls ++
    r.precondition.toList.flatMap AssertionBlock.calls ++
    r.postcondition.toList.flatMap AssertionBlock.calls

theorem Routine.faults_constructs (r : Routine) :
    Construct.faults r.constructs = failures r.calls := by
  unfold constructs calls
  rw [Construct.faults_append, Construct.faults_append, failures_append, failures_append,
    faults_flatMap ContractLint.faults_constructs, faults_flatMap AssertionBlock.faults_constructs,
    faults_flatMap AssertionBlock.faults_constructs]

/-- The calls in a feature: those of its body, then those of its contract. -/
def Feature.calls (f : Feature) : List (Except SyntaxError Agent) :=
  (statements f.body.tokens).flatMap agentCalls ++
    f.precondition.toList.flatMap AssertionBlock.calls ++
    f.postcondition.toList.flatMap AssertionBlock.calls

/-- The calls in a declaration.  Its features share one routine, which the first of them shows. -/
def Declaration.calls (d : Declaration) : List (Except SyntaxError Agent) :=
  d.features.head?.toList.flatMap Feature.calls

theorem readInvariant_errors (c : Cursor) :
    (readInvariant c).value.2 = failures (readInvariant c).value.1.block.calls :=
  AssertionBlock.faults_constructs _

/-- A feature without body and contract calls for no agent. -/
theorem Feature.calls_eq_nil {f : Feature} (hbody : f.body = .absent)
    (hpre : f.precondition = none) (hpost : f.postcondition = none) : f.calls = [] := by
  have hstatements : statements [] = [] := by decide
  simp [calls, hbody, hpre, hpost, Body.tokens, hstatements]

namespace Signature

variable (s : Signature) (last : Item)

theorem calls_constants : (s.constants last).calls = [] := by
  unfold Declaration.calls constants
  cases s.names with
  | nil => rfl
  | cons _ _ => simp [Feature.calls_eq_nil]

theorem calls_attributes : (s.attributes last).calls = [] := by
  unfold Declaration.calls attributes
  cases s.names with
  | nil => rfl
  | cons _ _ => simp [Feature.calls_eq_nil]

/-- The calls of routines are those of the routine, if there is a feature to show them. -/
theorem calls_routines (r : Routine) (hnames : s.names ≠ []) :
    (s.routines last r).calls = r.calls := by
  unfold Declaration.calls routines
  cases hs : s.names with
  | nil => exact absurd hs hnames
  | cons _ _ => exact List.flatMap_singleton Feature.calls _

theorem errors_routines (r : Routine) (hnames : s.names ≠ []) :
    (s.routines last r).errors = failures (s.routines last r).calls :=
  r.faults_constructs.trans (congrArg failures (s.calls_routines last r hnames).symm)

end Signature

/-! ## 3. The errors of a declaration -/

/-- A declaration that is read names a feature. -/
theorem readDeclared_ne_nil {c : Cursor} {names : Taken (List (Name × Bool))}
    (h : readDeclared c = .ok names) : names.value ≠ [] := by
  rw [readDeclared] at h
  dsimp only at h
  split at h
  · split at h
    · cases h
    · split at h
      · split at h
        · cases h
          exact List.cons_ne_nil _ _
        · cases h
      · cases h
        exact List.cons_ne_nil _ _
  · cases h

theorem readSignature_names_ne_nil {c : Cursor} {s : Taken Signature}
    (h : readSignature c = .ok s) : s.value.names ≠ [] := by
  unfold readSignature at h
  obtain ⟨names, hnames, h⟩ := exists_of_bind_eq_ok h
  obtain ⟨⟨parameters, n₁⟩, -, h⟩ := exists_of_bind_eq_ok h
  obtain ⟨⟨returnType, n₂⟩, -, h⟩ := exists_of_bind_eq_ok h
  obtain ⟨n₃, -, h⟩ := exists_of_bind_eq_ok h
  cases h
  exact readDeclared_ne_nil hnames

/-- **The errors of an accepted declaration are its failing calls.** -/
theorem readDeclaration_errors {first : Item} {c : Cursor} {d : Taken Declaration}
    (h : readDeclaration first c = .ok d) : d.value.errors = failures d.value.calls := by
  obtain ⟨signature, hsignature, last, hd | hd | ⟨n, routine, -, hd⟩⟩ := readDeclaration_cases h
  · rw [hd, Signature.calls_constants]
    rfl
  · rw [hd, Signature.calls_attributes]
    rfl
  · rw [hd]
    exact signature.value.errors_routines last _ (readSignature_names_ne_nil hsignature)

end ContractLint
