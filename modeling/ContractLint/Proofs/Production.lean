/-
# Productions of a parser with a state

The readers of the grammar return a result or an error.  A parser that goes through a text token by
token has neither: a production that fails writes what it met into a SLOT of the parser, unless an
earlier failure is still there, and returns nothing.  Whoever called it gives up as well, and far
away the slot is emptied into a report.  Nothing in the shape of such a parser keeps a failure from
being left in the slot, or a second one from being lost.

This file has the productions in that form.  A `Production` is a function on the state of the parser;
`Production.fail` is the only one that writes the slot.  Each production comes with one lemma that says
what it does in EVERY state (`Parser.Agrees`): where its reader has a result, it returns that
result, stands behind the items that were read, and has touched neither slot nor report, apart from
agents that could not be read; where its reader has an error, it returns nothing, and the slot holds
that error unless it was taken.  Agreement is closed under what productions are made of
(`Agrees.bind`, `Agrees.expect_bind`, `accept_ite`, `look_ite`, `Agrees.fail`), so the proofs follow
the definitions line by line, and the loops go by their own induction principles.

The parser also notes which of its loops pass over items without looking at them (`Parser.runs`).
The lemmas say that nothing but such a run passes over the keyword of a feature clause
(`Moves.keeps`).
-/
import ContractLint.Proofs.Call
import ContractLint.Proofs.Passage
import ContractLint.Proofs.Progress

namespace ContractLint

/-! ## 1. The state of a parser -/

/-- A failure that was met: what is wrong, and the token at which it was. -/
structure Failure where
  fault : SyntaxFault
  token : Token

/-- The failure as an error of the report. -/
def Failure.error (f : Failure) : SyntaxError :=
  ⟨f.fault, f.token.location⟩

/-- The state of a parser. -/
structure Parser where
  text : Cursor
  /-- The number of items that were read. -/
  pos : Nat := 0
  /-- The slot for a failure that was met and has not been reported. -/
  pending : Option Failure := none
  errors : List SyntaxError := []
  /-- The agents that were tried. -/
  calls : List (Except SyntaxError Agent) := []
  /-- The loops that have passed over items. -/
  runs : List Run := []

namespace Parser

/-- What is left to read. -/
def rest (s : Parser) : Cursor :=
  s.text.drop s.pos

/-- The parser `n` items further on. -/
def move (s : Parser) (n : Nat) : Parser :=
  { s with pos := s.pos + n }

@[simp] theorem rest_move (s : Parser) (n : Nat) : (s.move n).rest = s.rest.drop n :=
  s.text.drop_add s.pos n

/-- What was read keeps the feature keywords at `ls`. -/
def Keeps (s : Parser) (ls : List Location) : Prop :=
  ContractLint.Keeps s.runs [] (s.text.items.take s.pos) ls

end Parser

/-- What was read, if anything, and the parser behind it. -/
def Production (α : Type) : Type :=
  Parser → Option α × Parser

instance : Monad Production where
  pure a s := (some a, s)
  bind x f s :=
    match x s with
    | (some a, s') => f a s'
    | (none, s') => (none, s')

namespace Production

/-- Looks at what is left. -/
def look {α : Type} (view : Cursor → α) : Production α := fun s =>
  (some (view s.rest), s)

/-- Looks at the last item that was read. -/
def behind : Production (Option Item) := fun s =>
  (some (s.text.last? s.pos), s)

/-- Reads what `read` finds, which cannot fail. -/
def pass {α : Type} (read : Cursor → α × Nat) : Production α := fun s =>
  (some (read s.rest).1, s.move (read s.rest).2)

/-- Reads the next token.  The end of the text is not passed. -/
def advance : Production Token :=
  pass fun c => (c.peek, if c.atEnd then 0 else 1)

/-- Notes a failure at the next token, unless one is pending, and returns nothing. -/
def fail {α : Type} (fault : Token → SyntaxFault) : Production α := fun s =>
  (none, { s with pending := s.pending <|> some ⟨fault s.rest.peek, s.rest.peek⟩ })

/-- Reads the next token if `p` holds, and says whether it does. -/
def accept (p : Cursor → Bool) : Production Bool := do
  if ← look p then
    let _ ← advance
    return true
  else return false

/-- Reads the next token, for which `p` has to hold. -/
def expect (p : Cursor → Bool) (fault : Token → SyntaxFault) : Production Token := do
  if ← look p then advance else fail fault

/-- Notes that a loop starts that passes over items. -/
def enter (loop : SkipLoop) : Production Unit := fun s =>
  (some (), { s with runs := s.runs ++ [⟨loop, s.pos⟩] })

/-- Reports the agents that could not be read. -/
def report (calls : List (Except SyntaxError Agent)) : Production Unit := fun s =>
  (some (), { s with errors := s.errors ++ failures calls, calls := s.calls ++ calls })

/-- Passes over items up to one that satisfies `stop`; an item that satisfies `barred` must not come
first. -/
def passUntil (stop barred : Item → Bool) (fault : SyntaxFault) (s : Parser) :
    Option Unit × Parser :=
  match h : s.rest.items with
  | [] => (some (), s)
  | i :: _ =>
    have : 0 < s.rest.size := by simp [Cursor.size, h]
    if stop i then (some (), s)
    else if barred i then fail (fun _ => fault) s
    else passUntil stop barred fault (s.move 1)
termination_by s.rest.size
decreasing_by
  rw [Parser.rest_move, Cursor.size_drop]
  omega

end Production

open Production

/-! ## 2. Agreement with the readers -/

namespace Cursor

theorem peek_mem_allTokens (c : Cursor) : c.peek ∈ c.allTokens := by
  unfold peek allTokens tokens
  cases c.items <;> simp

/-- What follows the tokens further on follows the cursor. -/
theorem mem_allTokens_of_drop {c : Cursor} {n : Nat} {t : Token} (h : t ∈ (c.drop n).allTokens) :
    t ∈ c.allTokens := by
  unfold allTokens tokens drop at h
  unfold allTokens tokens
  rw [List.map_drop] at h
  rcases List.mem_append.mp h with h | h
  · exact List.mem_append_left _ (List.mem_of_mem_drop h)
  · exact List.mem_append_right _ h

theorem take_succ {c : Cursor} (h : 0 < c.size) (n : Nat) :
    c.take (1 + n) = c.peek :: c.next.take n := by
  obtain ⟨i, is, hitems⟩ := List.exists_cons_of_length_pos h
  simp [take, peek, next, drop, hitems, Nat.add_comm]

theorem token_mem_allTokens {c : Cursor} {i : Item} (h : i ∈ c.items) : i.token ∈ c.allTokens :=
  List.mem_append_left _ (List.mem_map_of_mem h)

end Cursor

/-- What an attempt is to return, how many items it is to read, and which agents it is to try. -/
structure Outcome (α : Type) where
  value : α
  taken : Nat
  calls : List (Except SyntaxError Agent) := []

namespace Outcome

abbrev ofPair {α : Type} (x : α × Nat) : Outcome α :=
  { value := x.1, taken := x.2 }

abbrev ofTaken {α : Type} (x : Taken α) : Outcome α :=
  { value := x.value, taken := x.taken }

abbrev ofNat (n : Nat) : Outcome Unit :=
  { value := (), taken := n }

end Outcome

namespace Parser

variable {s₀ s s' s'' : Parser} {m n : Nat} {calls calls' : List (Except SyntaxError Agent)}

/-- `s'` is `s` behind `n` more items, with the report on `calls`.  The slot is what it was. -/
structure Moves (s : Parser) (n : Nat) (calls : List (Except SyntaxError Agent)) (s' : Parser) :
    Prop where
  text_eq : s'.text = s.text
  pos_eq : s'.pos = s.pos + n
  pending_eq : s'.pending = s.pending
  errors_eq : s'.errors = s.errors ++ failures calls
  calls_eq : s'.calls = s.calls ++ calls
  keeps : ∀ ls, s.Keeps ls → s'.Keeps ls

/-- `s'` is what is left of `s` after the failure `e`: it was noticed at a token from `s` on and is in
the slot, unless that was taken.  Nothing was reported. -/
structure Fails (s : Parser) (e : SyntaxError) (s' : Parser) : Prop where
  text_eq : s'.text = s.text
  errors_eq : s'.errors = s.errors
  calls_eq : s'.calls = s.calls
  pending_eq : ∃ f : Failure, f.error = e ∧ f.token ∈ s.rest.allTokens ∧
    s'.pending = (s.pending <|> some f)

/-- The result of an attempt that was started in `s` is as the outcome says. -/
def Passes {α : Type} (s : Parser) (o : Outcome α) (r : Option α × Parser) : Prop :=
  ∃ s', r = (some o.value, s') ∧ s.Moves o.taken o.calls s'

/-- The result of an attempt that was started in `s` is as the reader says, whose result stands for
the outcome that `view` gives. -/
def Agrees {α γ : Type} (s : Parser) (view : γ → Outcome α) :
    Except SyntaxError γ → Option α × Parser → Prop
  | .ok y, r => s.Passes (view y) r
  | .error e, r => ∃ s', r = (none, s') ∧ s.Fails e s'

namespace Moves

theorem refl (s : Parser) : s.Moves 0 [] s where
  text_eq := rfl
  pos_eq := rfl
  pending_eq := rfl
  errors_eq := (List.append_nil _).symm
  calls_eq := (List.append_nil _).symm
  keeps _ h := h

theorem trans (h : s.Moves m calls s') (h' : s'.Moves n calls' s'') :
    s.Moves (m + n) (calls ++ calls') s'' where
  text_eq := h'.text_eq.trans h.text_eq
  pos_eq := by rw [h'.pos_eq, h.pos_eq, Nat.add_assoc]
  pending_eq := h'.pending_eq.trans h.pending_eq
  errors_eq := by rw [h'.errors_eq, h.errors_eq, failures_append, List.append_assoc]
  calls_eq := by rw [h'.calls_eq, h.calls_eq, List.append_assoc]
  keeps ls hls := h'.keeps ls (h.keeps ls hls)

theorem rest_eq (h : s.Moves n calls s') : s'.rest = s.rest.drop n := by
  rw [rest, h.text_eq, h.pos_eq, Cursor.drop_add]
  rfl

/-- Two states of one attempt, a token apart. -/
theorem next_eq (h : s.Moves n calls s') (h' : s.Moves (n + 1) calls' s'') :
    s'.rest.next = s''.rest := by
  rw [h.rest_eq, h'.rest_eq, Cursor.drop_add]
  rfl

/-- Reading items that are in a passage or start no clause. -/
theorem of_keeps {runs : List Run} (hruns : s.runs ⊆ runs)
    (h : ContractLint.Keeps runs (s.text.items.take s.pos) (s.rest.items.take n) []) :
    s.Moves n [] { s with pos := s.pos + n, runs := runs } where
  text_eq := rfl
  pos_eq := rfl
  pending_eq := rfl
  errors_eq := (List.append_nil _).symm
  calls_eq := (List.append_nil _).symm
  keeps ls hls := by
    have hboth := ContractLint.Keeps.append (ContractLint.Keeps.mono hruns hls) h
    unfold Keeps
    dsimp only
    rw [List.take_add]
    rwa [List.append_nil] at hboth

/-- Reading items that start no clause. -/
theorem of_plain (h : ∀ i ∈ s.rest.items.take n, i.opensClause = false) :
    s.Moves n [] (s.move n) :=
  .of_keeps (List.Subset.refl _) (.of_forall h)

end Moves

theorem Moves.cast (h : s.Moves m calls s') (hmn : m = n) : s.Moves n calls s' :=
  hmn ▸ h

theorem Fails.of_moves {e : SyntaxError} (h : s.Moves n [] s') (h' : s'.Fails e s'') :
    s.Fails e s'' where
  text_eq := h'.text_eq.trans h.text_eq
  errors_eq := h'.errors_eq.trans (h.errors_eq.trans (List.append_nil _))
  calls_eq := h'.calls_eq.trans (h.calls_eq.trans (List.append_nil _))
  pending_eq := by
    obtain ⟨f, hf, hmem, hpending⟩ := h'.pending_eq
    rw [h.rest_eq] at hmem
    rw [h.pending_eq] at hpending
    exact ⟨f, hf, Cursor.mem_allTokens_of_drop hmem, hpending⟩

theorem Fails.of_move {e : SyntaxError} (h : (s.move n).Fails e s') : s.Fails e s' where
  text_eq := h.text_eq
  errors_eq := h.errors_eq
  calls_eq := h.calls_eq
  pending_eq := by
    obtain ⟨f, hf, hmem, hpending⟩ := h.pending_eq
    rw [rest_move] at hmem
    exact ⟨f, hf, Cursor.mem_allTokens_of_drop hmem, hpending⟩

/-- The last item that was read is the last of those that were taken. -/
theorem last?_eq (htext : s'.text = s.text) (hpos : s'.pos = s.pos + n) (hn : 0 < n)
    (hrest : s.rest.items ≠ []) : s'.text.last? s'.pos = s.rest.last? n := by
  have htaken : s.rest.items.take n ≠ [] := by
    rw [ne_eq, List.take_eq_nil_iff, not_or]
    exact ⟨Nat.ne_of_gt hn, hrest⟩
  rw [Cursor.last?, htext, hpos, List.take_add]
  exact List.getLast?_append_of_ne_nil _ htaken

/-- The number of items in front of the parser, when an item is left. -/
theorem length_before (h : s.rest.items ≠ []) : (s.text.items.take s.pos).length = s.pos := by
  refine List.length_take_of_le ?_
  by_contra hlt
  exact h (List.drop_eq_nil_of_le (by omega))

end Parser

/-- Where the test holds there is an item, and it starts no clause. -/
def Harmless (p : Cursor → Bool) : Prop :=
  ∀ c, p c = true → ∃ i is, c.items = i :: is ∧ i.opensClause = false

theorem harmless_test {p : Token → Bool}
    (hp : ∀ t : Token, p t = true → t.isKeyword [.kwFeature] = false) :
    Harmless fun c => c.test p := by
  intro c h
  replace h : c.test p = true := h
  unfold Cursor.test at h
  cases hc : c.items with
  | nil => simp [hc] at h
  | cons i is =>
    rw [hc] at h
    exact ⟨i, is, rfl, hp i.token h⟩

theorem harmless_keyword {ws : List Keyword} (hws : ∀ w ∈ ws, w ∉ [Keyword.kwFeature]) :
    Harmless fun c => c.atKeyword ws :=
  harmless_test fun _ ht => Token.isKeyword_of_disjoint ht hws

theorem items_ne_nil_of_test {p : Token → Bool} {c : Cursor} (h : c.test p = true) :
    c.items ≠ [] :=
  List.ne_nil_of_length_pos (Cursor.size_pos_of_test h)

theorem harmless_symbol (ss : List Symbol) : Harmless fun c => c.atSymbol ss :=
  harmless_test fun _ ht => Token.isKeyword_of_isSymbol ht _

theorem harmless_identifier : Harmless Cursor.atIdentifier :=
  harmless_test fun _ ht => Token.isKeyword_of_kind ht nofun _

theorem harmless_string : Harmless Cursor.atString :=
  harmless_test fun _ ht => Token.isKeyword_of_kind ht nofun _

theorem Harmless.or {p q : Cursor → Bool} (hp : Harmless p) (hq : Harmless q) :
    Harmless fun c => p c || q c := by
  intro c h
  rcases (Bool.or_eq_true _ _).mp h with h | h
  · exact hp c h
  · exact hq c h

namespace Parser

variable {α β γ δ : Type} {s₀ s s' : Parser} {m n : Nat} {p : Cursor → Bool}
  {calls : List (Except SyntaxError Agent)}
  {view : γ → Outcome α} {view' : δ → Outcome β}

/-! ### What each step of a production does -/

theorem size_pos_of_harmless {c : Cursor} (hp : Harmless p) (h : p c = true) : 0 < c.size := by
  obtain ⟨i, is, hitems, -⟩ := hp c h
  rw [Cursor.size, hitems]
  exact Nat.succ_pos _

theorem Moves.of_harmless (hp : Harmless p) (h : p s.rest = true) :
    s.Moves 1 [] (s.move 1) := by
  obtain ⟨i, is, hitems, hi⟩ := hp s.rest h
  refine .of_plain fun j hj => ?_
  rw [hitems, List.take_succ_cons, List.take_zero] at hj
  rwa [List.mem_singleton.mp hj]

theorem advance_of_cons {i : Item} {is : List Item} (hrest : s.rest.items = i :: is) :
    advance s = (some s.rest.peek, s.move 1) := by
  have hend : s.rest.atEnd = false := by simp [Cursor.atEnd, hrest]
  change (some s.rest.peek, s.move (if s.rest.atEnd then 0 else 1)) = _
  rw [hend]
  rfl

theorem advance_of_harmless (hp : Harmless p) (h : p s.rest = true) :
    advance s = (some s.rest.peek, s.move 1) := by
  obtain ⟨i, is, hitems, -⟩ := hp s.rest h
  exact advance_of_cons hitems

theorem advance_passes (hp : Harmless p) (h : p s.rest = true) :
    s.Passes ⟨s.rest.peek, 1, []⟩ (advance s) := by
  rw [advance_of_harmless hp h]
  exact ⟨_, rfl, .of_harmless hp h⟩

theorem bind_of_some {P : Production α} {Q : α → Production β} {a : α} (h : P s = (some a, s')) :
    (P >>= Q) s = Q a s' := by
  change (match P s with
    | (some a, s') => Q a s'
    | (none, s') => (none, s')) = _
  rw [h]

theorem bind_of_none {P : Production α} {Q : α → Production β} (h : P s = (none, s')) :
    (P >>= Q) s = (none, s') := by
  change (match P s with
    | (some a, s') => Q a s'
    | (none, s') => (none, s')) = _
  rw [h]

theorem look_bind (f : Cursor → α) (Q : α → Production β) (s : Parser) :
    (look f >>= Q) s = Q (f s.rest) s := rfl

/-- A token that is looked at. -/
theorem look_ite {T : Option α × Parser → Prop} {A B : Production α}
    (hA : p s.rest = true → T (A s)) (hB : p s.rest = false → T (B s)) :
    T ((look p >>= fun b => if b then A else B) s) := by
  rw [look_bind]
  cases h : p s.rest with
  | true => exact hA h
  | false => exact hB h

/-- First what passes, then the rest. -/
theorem Passes.bind {T : Option β × Parser → Prop} {o : Outcome α} {P : Production α}
    {Q : α → Production β} (hs : s₀.Moves n [] s) (hP : s.Passes o (P s))
    (hQ : ∀ s', s₀.Moves (n + o.taken) o.calls s' → T (Q o.value s')) : T ((P >>= Q) s) := by
  obtain ⟨s', hr, hmoves⟩ := hP
  rw [bind_of_some hr]
  exact hQ s' (hs.trans hmoves)

theorem Agrees.bind {x : Except SyntaxError γ} {f : γ → Except SyntaxError δ} {P : Production α}
    {Q : α → Production β} (hs : s₀.Moves n [] s) (hx : s.Agrees view x (P s))
    (hf : ∀ y s', x = .ok y → s₀.Moves (n + (view y).taken) (view y).calls s' →
      s₀.Agrees view' (f y) (Q (view y).value s')) :
    s₀.Agrees view' (x >>= f) ((P >>= Q) s) := by
  cases x with
  | ok y => exact Passes.bind hs hx fun s' hs' => hf y s' rfl hs'
  | error e =>
    obtain ⟨s', hr, hfails⟩ := hx
    exact ⟨s', bind_of_none hr, hfails.of_moves hs⟩

/-- The first step of a production. -/
theorem Passes.bind_first {T : Option β × Parser → Prop} {o : Outcome α} {P : Production α}
    {Q : α → Production β} (hP : s.Passes o (P s))
    (hQ : ∀ s', s.Moves o.taken o.calls s' → T (Q o.value s')) : T ((P >>= Q) s) :=
  Passes.bind (.refl s) hP fun s' hs' => hQ s' (hs'.cast (Nat.zero_add _))

theorem Agrees.bind_first {x : Except SyntaxError γ} {f : γ → Except SyntaxError δ}
    {P : Production α} {Q : α → Production β} (hx : s.Agrees view x (P s))
    (hf : ∀ y s', x = .ok y → s.Moves (view y).taken (view y).calls s' →
      s.Agrees view' (f y) (Q (view y).value s')) :
    s.Agrees view' (x >>= f) ((P >>= Q) s) :=
  Agrees.bind (.refl s) hx fun y s' hy hs' => hf y s' hy (hs'.cast (Nat.zero_add _))

/-- The last step returns a result. -/
theorem Agrees.ok {y : γ} {a : α} (hs : s₀.Moves n calls s) (hview : view y = ⟨a, n, calls⟩) :
    s₀.Agrees view (.ok y) ((pure a : Production α) s) :=
  ⟨s, by rw [hview]; rfl, hview ▸ hs⟩

/-- A result of further reading that goes into one of the whole. -/
theorem Agrees.map {x : Except SyntaxError γ} {x' : Except SyntaxError δ} {g : γ → δ} {f : α → β}
    {r : Option α × Parser} (hs : s₀.Moves n [] s) (hx : s.Agrees view x r)
    (hx' : x' = x.map g) (hview : ∀ y, x = .ok y →
      view' (g y) = ⟨f (view y).value, n + (view y).taken, (view y).calls⟩) :
    s₀.Agrees view' x' (Prod.map (Option.map f) id r) := by
  subst hx'
  cases x with
  | ok y =>
    obtain ⟨s', rfl, hmoves⟩ := hx
    exact ⟨s', by rw [hview y rfl]; rfl, hview y rfl ▸ hs.trans hmoves⟩
  | error e =>
    obtain ⟨s', rfl, hfails⟩ := hx
    exact ⟨s', rfl, hfails.of_moves hs⟩

/-- The result of the last step, which the reader puts into one of the whole. -/
theorem Agrees.last {view' : δ → Outcome α} {x : Except SyntaxError γ}
    {f : γ → Except SyntaxError δ} {r : Option α × Parser} (hs : s₀.Moves n [] s)
    (hx : s.Agrees view x r) (hf : ∀ y, x = .ok y → ∃ z, f y = .ok z ∧
      view' z = ⟨(view y).value, n + (view y).taken, (view y).calls⟩) :
    s₀.Agrees view' (x >>= f) r := by
  cases x with
  | ok y =>
    obtain ⟨s', rfl, hmoves⟩ := hx
    obtain ⟨z, hz, hview⟩ := hf y rfl
    have hbind : (Except.ok y >>= f) = .ok z := hz
    rw [hbind]
    exact ⟨s', by rw [hview], hview ▸ hs.trans hmoves⟩
  | error e =>
    obtain ⟨s', rfl, hfails⟩ := hx
    exact ⟨s', rfl, hfails.of_moves hs⟩

/-- An attempt that returned something had a result to return. -/
theorem Agrees.exists_ok {x : Except SyntaxError γ} {a : α} (h : s.Agrees view x (some a, s')) :
    ∃ y, x = .ok y ∧ (view y).value = a ∧ s.Moves (view y).taken (view y).calls s' := by
  cases x with
  | ok y =>
    obtain ⟨s'', hr, hmoves⟩ := h
    cases hr
    exact ⟨y, rfl, rfl, hmoves⟩
  | error e =>
    obtain ⟨s'', hr, -⟩ := h
    cases hr

/-- An attempt that returned nothing had an error. -/
theorem Agrees.exists_error {x : Except SyntaxError γ} (h : s.Agrees view x (none, s')) :
    ∃ e, x = .error e ∧ s.Fails e s' := by
  cases x with
  | ok y =>
    obtain ⟨s'', hr, -⟩ := h
    cases hr
  | error e =>
    obtain ⟨s'', hr, hfails⟩ := h
    cases hr
    exact ⟨e, rfl, hfails⟩

theorem fails_fail (fault : Token → SyntaxFault) (s : Parser) :
    s.Fails ⟨fault s.rest.peek, s.rest.peek.location⟩
      { s with pending := s.pending <|> some ⟨fault s.rest.peek, s.rest.peek⟩ } :=
  ⟨rfl, rfl, rfl, _, rfl, s.rest.peek_mem_allTokens, rfl⟩

theorem Agrees.fail (fault : Token → SyntaxFault) (hs : s₀.Moves n [] s) :
    s₀.Agrees view (s.rest.fail (fault s.rest.peek)) (Production.fail fault s) :=
  ⟨_, rfl, .of_moves hs (fails_fail fault s)⟩

section

variable {stop barred : Item → Bool} (fault : SyntaxFault)

theorem passUntil_of_none
    (h : (s.rest.items.takeWhile fun i => !stop i).find? barred = none) :
    passUntil stop barred fault s =
      (some (), s.move (s.rest.items.takeWhile fun i => !stop i).length) := by
  fun_induction passUntil stop barred fault s with
  | case1 s hitems => rw [hitems]; rfl
  | case2 s i is hitems _ hstop => rw [hitems, List.takeWhile_cons_of_neg (by simp [hstop])]; rfl
  | case3 s i is hitems _ hstop hbarred =>
    rw [hitems, List.takeWhile_cons_of_pos (by simp [hstop])] at h
    exact absurd hbarred (List.find?_eq_none.mp h i List.mem_cons_self)
  | case4 s i is hitems _ hstop hbarred ih =>
    have hnext : (s.move 1).rest.items = is := by
      rw [rest_move, Cursor.drop, hitems]
      rfl
    have htaken : s.rest.items.takeWhile (fun i => !stop i) = i :: is.takeWhile fun i => !stop i := by
      rw [hitems, List.takeWhile_cons_of_pos (by simp [hstop])]
    rw [htaken, List.find?_cons_of_neg hbarred] at h
    rw [hnext] at ih
    rw [ih h, htaken, List.length_cons]
    change _ = (some (), { s with pos := s.pos + _ })
    rw [Nat.add_comm _ 1, ← Nat.add_assoc]
    rfl

/-- The failure names the first item that is barred. -/
theorem passUntil_of_some {i : Item}
    (h : (s.rest.items.takeWhile fun i => !stop i).find? barred = some i) :
    ∃ s', passUntil stop barred fault s = (none, s') ∧
      s.Fails ⟨fault, i.token.location⟩ s' := by
  fun_induction passUntil stop barred fault s with
  | case1 s hitems =>
    rw [hitems] at h
    cases h
  | case2 s j is hitems _ hstop =>
    rw [hitems, List.takeWhile_cons_of_neg (by simp [hstop])] at h
    cases h
  | case3 s j is hitems _ hstop hbarred =>
    rw [hitems, List.takeWhile_cons_of_pos (by simp [hstop]), List.find?_cons_of_pos hbarred] at h
    cases h
    have hpeek : s.rest.peek = i.token := by simp [Cursor.peek, hitems]
    rw [← hpeek]
    exact ⟨_, rfl, fails_fail (fun _ => fault) s⟩
  | case4 s j is hitems _ hstop hbarred ih =>
    have hnext : (s.move 1).rest.items = is := by
      rw [rest_move, Cursor.drop, hitems]
      rfl
    rw [hitems, List.takeWhile_cons_of_pos (by simp [hstop]), List.find?_cons_of_neg hbarred] at h
    obtain ⟨s', hr, hfails⟩ := ih (by rwa [hnext])
    exact ⟨s', hr, hfails.of_move⟩

end

theorem accept_eq (p : Cursor → Bool) (s : Parser) : accept p s =
    if p s.rest then (some true, (advance s).2) else (some false, s) := by
  unfold accept
  rw [look_bind]
  split <;> rfl

theorem expect_eq (p : Cursor → Bool) (fault : Token → SyntaxFault) (s : Parser) :
    expect p fault s = if p s.rest then advance s else Production.fail fault s := by
  unfold expect
  rw [look_bind]
  split <;> rfl

/-- A token that may be there. -/
theorem accept_ite {T : Option α × Parser → Prop} {A B : Production α} (hp : Harmless p)
    (hs : s₀.Moves n [] s)
    (hA : p s.rest = true → ∀ s', s₀.Moves (n + 1) [] s' → T (A s'))
    (hB : p s.rest = false → T (B s)) :
    T ((accept p >>= fun b => if b then A else B) s) := by
  cases h : p s.rest with
  | true =>
    have haccept : accept p s = (some true, s.move 1) := by
      rw [accept_eq, h, if_pos rfl, advance_of_harmless hp h]
    have hbind : (accept p >>= fun b => if b then A else B) s = A (s.move 1) := by
      rw [bind_of_some haccept]
      rfl
    rw [hbind]
    exact hA h _ (hs.trans (.of_harmless hp h))
  | false =>
    have haccept : accept p s = (some false, s) := by
      rw [accept_eq, h]
      rfl
    have hbind : (accept p >>= fun b => if b then A else B) s = B s := by
      rw [bind_of_some haccept]
      rfl
    rw [hbind]
    exact hB h

theorem Agrees.expect_bind {x : Except SyntaxError γ} {Q : Token → Production α}
    (fault : Token → SyntaxFault) (hp : Harmless p) (hs : s₀.Moves n [] s)
    (hQ : p s.rest = true → ∀ s', s₀.Moves (n + 1) [] s' → s₀.Agrees view x (Q s.rest.peek s')) :
    s₀.Agrees view (if p s.rest then x else s.rest.fail (fault s.rest.peek))
      ((expect p fault >>= Q) s) := by
  split
  · rename_i h
    have hexpect : expect p fault s = (some s.rest.peek, s.move 1) := by
      rw [expect_eq, if_pos h, advance_of_harmless hp h]
    rw [bind_of_some hexpect]
    exact hQ h _ (hs.trans (.of_harmless hp h))
  · rename_i h
    have hexpect : expect p fault s = (none, (Production.fail (α := Token) fault s).2) := by
      rw [expect_eq, if_neg h]
      rfl
    exact ⟨_, bind_of_none hexpect, .of_moves hs (fails_fail fault s)⟩

theorem accept_passes (hp : Harmless p) :
    s.Passes ⟨p s.rest, if p s.rest then 1 else 0, []⟩ (accept p s) := by
  rw [accept_eq]
  cases h : p s.rest with
  | true =>
    rw [if_pos rfl, advance_of_harmless hp h]
    exact ⟨_, rfl, .of_harmless hp h⟩
  | false => exact ⟨_, rfl, .refl s⟩

theorem acceptKeyword_passes {ws : List Keyword} (hws : ∀ w ∈ ws, w ∉ [Keyword.kwFeature]) :
    s.Passes ⟨s.rest.atKeyword ws, s.rest.optKeyword ws, []⟩ (accept (·.atKeyword ws) s) :=
  accept_passes (harmless_keyword hws)

theorem acceptSymbol_passes (ss : List Symbol) :
    s.Passes ⟨s.rest.atSymbol ss, s.rest.optSymbol ss, []⟩ (accept (·.atSymbol ss) s) :=
  accept_passes (harmless_symbol ss)

theorem report_passes (calls : List (Except SyntaxError Agent)) :
    s.Passes ⟨(), 0, calls⟩ (report calls s) :=
  ⟨_, rfl, rfl, rfl, rfl, rfl, rfl, fun _ h => h⟩

/-- A loop that passes over items in a run of its own. -/
theorem enter_passes {loop : SkipLoop} {read : Cursor → α × Nat} (hrest : s.rest.items ≠ [])
    (hkeeps : ∀ runs before, ⟨loop, before.length⟩ ∈ runs →
      ContractLint.Keeps runs before (s.rest.items.take (read s.rest).2) []) :
    s.Passes (.ofPair (read s.rest)) ((enter loop >>= fun _ => pass read) s) := by
  refine ⟨_, rfl, .of_keeps (List.subset_append_left _ _) (hkeeps _ _ ?_)⟩
  rw [length_before hrest]
  exact List.mem_append_right _ (List.mem_singleton_self _)

/-- What is passed without a run starts no clause. -/
theorem pass_passes {read : Cursor → α × Nat}
    (h : ∀ i ∈ s.rest.items.take (read s.rest).2, i.opensClause = false) :
    s.Passes (.ofPair (read s.rest)) (pass read s) :=
  ⟨_, rfl, .of_plain h⟩

end Parser

end ContractLint
