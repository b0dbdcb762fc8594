/-
# Void tests in either order

A test against `Void` is recognised by the tokens around one of its two words: from the operand it
looks ahead to the comparison and back for a dot, and from `Void` it looks ahead over the comparison
to the operand and one token further.  Neither sees a whole operand.  With the operand in front, the
token that decides is its LAST one, which is the identifier only if nothing is applied to it.  With
`Void` in front it is the FIRST token behind the identifier, and there a dot and a parenthesis are
looked for but no bracket.

* `testsAfter_free`: where neither `Void` nor `attached` stands, nothing is tested;
* `testsAfter_compared`: in front of a comparison with `Void`, only the last token can be tested;
* `voidTests_orders`: so the two orders agree exactly on the operands whose first part is no index;
* `index_tested_behind_void`: an operand on which they differ.
-/
import ContractLint.Proofs.Follow
import ContractLint.Rule.Attachment

namespace ContractLint.Attachment

/-! ## 1. Operands -/

/-- Whether the tokens hold neither `Void` nor `attached`. -/
def Free (ts : List Token) : Prop :=
  ∀ t ∈ ts, t.isKeyword [.kwVoid, .kwAttached] = false

/-- What stands between two brackets, and the brackets. -/
structure BracketGroup (opening closing : Symbol) where
  first : Token
  inside : List Token
  last : Token
  opens : first.isSymbol [opening] = true
  closes : last.isSymbol [closing] = true
  free : Free inside

/-- What may be applied to an operand. -/
inductive Postfix where
  | selection (dot name : Token) (hdot : dot.isSymbol [.dot] = true)
      (hname : name.isIdentifier = true)
  | call (group : BracketGroup .openParen .closeParen)
  | index (group : BracketGroup .openBracket .closeBracket)

/-- An identifier and what is applied to it, one after the other. -/
structure Operand where
  name : Token
  parts : List Postfix
  isName : name.isIdentifier = true

def BracketGroup.tokens {opening closing : Symbol} (g : BracketGroup opening closing) :
    List Token :=
  g.first :: g.inside ++ [g.last]

namespace Postfix

def tokens : Postfix → List Token
  | selection dot name _ _ => [dot, name]
  | call g => g.tokens
  | index g => g.tokens

/-- Whether the part is a group of square brackets. -/
def isIndex : Postfix → Bool
  | index _ => true
  | _ => false

end Postfix

def Operand.tokens (e : Operand) : List Token :=
  e.name :: e.parts.flatMap Postfix.tokens

/-- The names that the tests of an expression are about. -/
def testedNames (expression : List Token) : List String :=
  (tests expression).map VoidTest.name

/-! ## 2. Tokens that are neither of the two words -/

theorem isKeyword_of_isIdentifier {t : Token} (h : t.isIdentifier = true) (ws : List Keyword) :
    t.isKeyword ws = false :=
  Token.isKeyword_of_kind h (fun _ => Kind.noConfusion) ws

theorem isIdentifier_of_isSymbol {t : Token} {ss : List Symbol} (h : t.isSymbol ss = true) :
    t.isIdentifier = false := by
  unfold Token.isSymbol at h
  split at h
  · rename_i s hs
    rw [Token.isIdentifier, hs]
    rfl
  · cases h

theorem isIdentifier_of_isKeyword {t : Token} {ws : List Keyword} (h : t.isKeyword ws = true) :
    t.isIdentifier = false := by
  cases hname : t.isIdentifier with
  | false => rfl
  | true =>
    rw [isKeyword_of_isIdentifier hname] at h
    cases h

namespace Free

theorem nil : Free [] := fun _ ht => absurd ht List.not_mem_nil

theorem cons {t : Token} {ts : List Token} (ht : t.isKeyword [.kwVoid, .kwAttached] = false)
    (hts : Free ts) : Free (t :: ts) :=
  List.forall_mem_cons.mpr ⟨ht, hts⟩

theorem tail {t : Token} {ts : List Token} (h : Free (t :: ts)) : Free ts :=
  (List.forall_mem_cons.mp h).2

theorem append {ts us : List Token} (hts : Free ts) (hus : Free us) : Free (ts ++ us) :=
  List.forall_mem_append.mpr ⟨hts, hus⟩

theorem isKeyword_eq_false {ts : List Token} (h : Free ts) {t : Token} (ht : t ∈ ts)
    {w : Keyword} (hw : w ∈ [.kwVoid, .kwAttached]) : t.isKeyword [w] = false := by
  cases hword : t.isKeyword [w] with
  | false => rfl
  | true =>
    have hboth := Token.isKeyword_mono hword (List.forall_mem_singleton.mpr hw)
    rw [h t ht] at hboth
    cases hboth

end Free

theorem BracketGroup.free_tokens {opening closing : Symbol} (g : BracketGroup opening closing) :
    Free g.tokens := by
  have hlast : Free [g.last] := .cons (Token.isKeyword_of_isSymbol g.closes _) .nil
  exact .cons (Token.isKeyword_of_isSymbol g.opens _) (g.free.append hlast)

theorem Postfix.free_tokens : ∀ p : Postfix, Free p.tokens
  | selection _ _ hdot hname =>
    .cons (Token.isKeyword_of_isSymbol hdot _) (.cons (isKeyword_of_isIdentifier hname _) .nil)
  | call g => g.free_tokens
  | index g => g.free_tokens

theorem free_parts (ps : List Postfix) : Free (ps.flatMap Postfix.tokens) := by
  intro t ht
  obtain ⟨p, -, ht⟩ := List.mem_flatMap.mp ht
  exact p.free_tokens t ht

theorem Operand.free_tokens (e : Operand) : Free e.tokens :=
  .cons (isKeyword_of_isIdentifier e.isName _) (free_parts e.parts)

/-! ## 3. The tests of an operand -/

/-- The token before is not `attached`. -/
def Unattached (prev : Option Token) : Prop :=
  ∀ p ∈ prev, p.isKeyword [.kwAttached] = false

theorem Unattached.filter_eq_none {prev : Option Token} (h : Unattached prev) :
    prev.filter (·.isKeyword [.kwAttached]) = none := by
  cases prev with
  | none => rfl
  | some p => rw [Option.filter_some, h p rfl, if_neg Bool.false_ne_true]

theorem Free.unattached {ts : List Token} (h : Free ts) {t : Token} (ht : t ∈ ts) :
    Unattached (some t) := by
  intro p hp
  obtain rfl := Option.some.inj hp
  exact h.isKeyword_eq_false ht (by simp)

/-- A token other than `Void` is tested only as an identifier with a comparison and `Void` behind
it, if no `attached` stands in front. -/
theorem testAt?_eq_none {prev : Option Token} {t : Token} {rest : List Token}
    (hprev : Unattached prev) (ht : t.isKeyword [.kwVoid] = false)
    (hrest : (rest[1]?).any (·.isKeyword [.kwVoid]) = false) : testAt? prev t rest = none := by
  unfold testAt?
  simp [hprev.filter_eq_none, ht, hrest]

/-- **Where neither of the two words stands, nothing is tested.** -/
theorem testsAfter_free {prev : Option Token} {ts : List Token} (hprev : Unattached prev)
    (hts : Free ts) : testsAfter prev ts = [] := by
  induction ts generalizing prev with
  | nil => rfl
  | cons t ts ih =>
    have hrest : (ts[1]?).any (·.isKeyword [.kwVoid]) = false := by
      cases hget : ts[1]? with
      | none => rfl
      | some u =>
        have hmem := List.mem_cons_of_mem t (List.mem_of_getElem? hget)
        exact hts.isKeyword_eq_false hmem (by simp)
    have ht := hts.isKeyword_eq_false List.mem_cons_self (w := .kwVoid) (by simp)
    rw [testsAfter, testAt?_eq_none hprev ht hrest,
      ih (hts.unattached List.mem_cons_self) hts.tail]
    rfl

section Comparison

variable {op void : Token} (hop : isComparison op = true) (hvoid : void.isKeyword [.kwVoid] = true)
include hop hvoid

/-- The comparison and a `Void` behind it are not tested themselves. -/
theorem testsAfter_comparison {prev : Option Token} : testsAfter prev [op, void] = [] := by
  have hword : op.isKeyword [.kwVoid] = false := Token.isKeyword_of_isSymbol hop _
  have hname : void.isIdentifier = false := isIdentifier_of_isKeyword hvoid
  simp [testsAfter, testAt?, isIdentifier_of_isSymbol hop, hword, hname]

/-- A token right in front of the comparison is tested if it is an identifier that is not selected
from something. -/
theorem testAt?_compared {prev : Option Token} {t : Token} (hprev : Unattached prev)
    (ht : Free [t]) : testAt? prev t [op, void] =
      if t.isIdentifier && !prev.any (·.isSymbol [.dot]) then some ⟨t.text, t⟩ else none := by
  have hword := ht.isKeyword_eq_false List.mem_cons_self (w := .kwVoid) (by simp)
  simp only [testAt?, hprev.filter_eq_none, hword, List.head?_cons, Option.any_some, hop, hvoid,
    List.getElem?_cons_succ, List.getElem?_cons_zero, Bool.and_true, if_true, Option.isSome_none,
    Bool.false_eq_true, if_false]

/-- **In front of a comparison with `Void`, only the last token can be tested**: it is if it is an
identifier that is not selected from something. -/
theorem testsAfter_compared {prev : Option Token} {ts : List Token} {t : Token}
    (hprev : Unattached prev) (hts : Free ts) (ht : Free [t]) :
    testsAfter prev (ts ++ [t, op, void]) =
      if t.isIdentifier && !(ts.getLast?.or prev).any (·.isSymbol [.dot]) then [⟨t.text, t⟩]
      else [] := by
  induction ts generalizing prev with
  | nil =>
    rw [List.nil_append, testsAfter, testAt?_compared hop hvoid hprev ht,
      testsAfter_comparison hop hvoid, List.append_nil]
    change _ = if t.isIdentifier && !prev.any (·.isSymbol [.dot]) then _ else _
    split <;> rfl
  | cons u ts ih =>
    have hrest : ((ts ++ [t, op, void])[1]?).any (·.isKeyword [.kwVoid]) = false := by
      match ts with
      | [] => exact Token.isKeyword_of_isSymbol hop _
      | [_] => exact ht.isKeyword_eq_false List.mem_cons_self (by simp)
      | _ :: v :: _ => exact hts.isKeyword_eq_false (t := v) (by simp) (by simp)
    have hword := hts.isKeyword_eq_false List.mem_cons_self (w := .kwVoid) (by simp)
    have hlast : (u :: ts).getLast?.or prev = ts.getLast?.or (some u) := by
      rw [List.getLast?_cons]
      cases ts.getLast? <;> rfl
    rw [List.cons_append, testsAfter, testAt?_eq_none hprev hword hrest,
      ih (hts.unattached List.mem_cons_self) hts.tail, hlast]
    rfl

end Comparison

/-- The last token of a part is a selected name or a bracket, and there is one in front of it. -/
theorem Postfix.exists_last (p : Postfix) : ∃ front t, p.tokens = front ++ [t] ∧ front ≠ [] ∧
    (t.isIdentifier && !front.getLast?.any (·.isSymbol [.dot])) = false := by
  cases p with
  | selection dot name hdot hname =>
    refine ⟨[dot], name, rfl, List.cons_ne_nil _ _, ?_⟩
    rw [List.getLast?_singleton, Option.any_some, hdot, Bool.not_true, Bool.and_false]
  | call g | index g =>
    refine ⟨g.first :: g.inside, g.last, rfl, List.cons_ne_nil _ _, ?_⟩
    rw [isIdentifier_of_isSymbol g.closes, Bool.false_and]

/-- A call goes on with the operand at a selection or an argument list, but not at an index. -/
theorem Postfix.isCallTail_head (p : Postfix) (rest : List Token) :
    (p.tokens ++ rest).head?.any isCallTail = !p.isIndex := by
  have hmono {t : Token} {s : Symbol} (h : t.isSymbol [s] = true) :
      isCallTail t = [Symbol.dot, .openParen].contains s := by
    unfold Token.isSymbol at h
    split at h
    · rename_i s' hs
      rw [List.contains_iff_mem, List.mem_singleton] at h
      rw [isCallTail, Token.isSymbol, hs, h]
    · cases h
  cases p with
  | selection dot name hdot hname => exact hmono hdot
  | call g => exact hmono g.opens
  | index g => exact hmono g.opens

section Orders

variable (e : Operand) {op void : Token} (hop : isComparison op = true)
  (hvoid : void.isKeyword [.kwVoid] = true)
include hop hvoid

theorem testedNames_in_front :
    testedNames (e.tokens ++ [op, void]) = if e.parts.isEmpty then [e.name.text] else [] := by
  have hname : Free [e.name] := .cons (isKeyword_of_isIdentifier e.isName _) .nil
  have hstart : Unattached none := fun p hp => by cases hp
  unfold testedNames tests Operand.tokens
  rcases List.eq_nil_or_concat e.parts with hparts | ⟨parts, p, hparts⟩
  · have htests := testsAfter_compared hop hvoid hstart .nil hname
    rw [hparts, List.flatMap_nil, List.singleton_append]
    rw [List.nil_append] at htests
    rw [htests]
    simp [e.isName]
  · obtain ⟨front, t, hp, hne, huntested⟩ := p.exists_last
    have hlast : Free (front ++ [t]) := hp ▸ p.free_tokens
    have hfront : Free (e.name :: (parts.flatMap Postfix.tokens ++ front)) :=
      hname.append ((free_parts parts).append fun u hu => hlast u (List.mem_append_left _ hu))
    have htests := testsAfter_compared hop hvoid hstart hfront
      fun u hu => hlast u (List.mem_append_right _ hu)
    have hlook : (e.name :: (parts.flatMap Postfix.tokens ++ front)).getLast?.or none =
        front.getLast? := by
      rw [Option.or_none, ← List.cons_append, List.getLast?_append,
        List.getLast?_eq_some_getLast hne]
      rfl
    rw [hlook, huntested, if_neg Bool.false_ne_true] at htests
    have hsplit : e.name :: e.parts.flatMap Postfix.tokens ++ [op, void] =
        e.name :: (parts.flatMap Postfix.tokens ++ front) ++ [t, op, void] := by
      simp [hparts, hp]
    rw [hsplit, htests, hparts]
    simp

theorem testedNames_behind : testedNames (void :: op :: e.tokens) =
    if e.parts.head?.all Postfix.isIndex then [e.name.text] else [] := by
  have hrest : testsAfter (some op) e.tokens = [] := by
    refine testsAfter_free (fun p hp => ?_) e.free_tokens
    obtain rfl := Option.some.inj hp
    exact Token.isKeyword_of_isSymbol hop _
  have hsymbol : testAt? (some void) op e.tokens = none := by
    have hword : op.isKeyword [.kwVoid] = false := Token.isKeyword_of_isSymbol hop _
    simp [testAt?, isIdentifier_of_isSymbol hop, hword]
  have hfirst : (e.parts.flatMap Postfix.tokens).head?.any isCallTail =
      !e.parts.head?.all Postfix.isIndex := by
    cases e.parts with
    | nil => rfl
    | cons p ps => exact p.isCallTail_head _
  have htest : testAt? none void (op :: e.tokens) =
      if e.parts.head?.all Postfix.isIndex then some ⟨e.name.text, void⟩ else none := by
    have hget : (op :: e.tokens)[2]? = (e.parts.flatMap Postfix.tokens).head? := by
      rw [Operand.tokens, List.head?_eq_getElem?]
      rfl
    simp only [testAt?, isIdentifier_of_isKeyword hvoid, Bool.false_and, Bool.false_eq_true,
      if_false, hvoid, List.head?_cons, Option.any_some, hop, Bool.and_true, if_true, hget, hfirst,
      Bool.not_not]
    simp [Operand.tokens, e.isName]
  rw [testedNames, tests, testsAfter, testsAfter, hsymbol, hrest, htest]
  split <;> rfl

/-- **A test against `Void` is recognised in both orders, unless an index comes first.**  In front
of the comparison an operand is tested exactly if nothing is applied to its identifier.  Behind it,
so it is, but an operand whose first part is an index is tested as well, under the name of its
identifier.  So the two orders report the same names exactly if the first part is no index. -/
theorem voidTests_orders :
    testedNames (e.tokens ++ [op, void]) = (if e.parts.isEmpty then [e.name.text] else []) ∧
      testedNames (void :: op :: e.tokens) =
        (if e.parts.head?.all Postfix.isIndex then [e.name.text] else []) ∧
      (testedNames (e.tokens ++ [op, void]) = testedNames (void :: op :: e.tokens) ↔
        ¬ e.parts.head?.any Postfix.isIndex) := by
  have hfront := testedNames_in_front e hop hvoid
  have hbehind := testedNames_behind e hop hvoid
  refine ⟨hfront, hbehind, ?_⟩
  rw [hfront, hbehind]
  cases e.parts with
  | nil => simp
  | cons p ps => cases hindex : p.isIndex <;> simp [hindex]

end Orders

/-- A token without a place. -/
def unplaced (kind : Kind) (text : String) : Token :=
  { kind := kind, text := text, location := default }

/-- `[1]`. -/
def sampleIndex : BracketGroup .openBracket .closeBracket where
  first := unplaced (.operator .openBracket) "["
  inside := [unplaced .number "1"]
  last := unplaced (.operator .closeBracket) "]"
  opens := rfl
  closes := rfl
  free := List.forall_mem_singleton.mpr rfl

/-- `a.b [1]`. -/
def sampleSelected : Operand where
  name := unplaced .identifier "a"
  parts := [.selection (unplaced (.operator .dot) ".") (unplaced .identifier "b") rfl rfl,
    .index sampleIndex]
  isName := rfl

/-- `a [1]`. -/
def sampleIndexed : Operand where
  name := unplaced .identifier "a"
  parts := [.index sampleIndex]
  isName := rfl

/-- An index behind a selection is not tested in either order. -/
theorem voidTests_orders_selected :
    let op := unplaced (.operator .notEqual) "/="
    let void := unplaced (.keyword .kwVoid) "Void"
    isComparison op = true ∧ void.isKeyword [.kwVoid] = true ∧
      testedNames (sampleSelected.tokens ++ [op, void]) = [] ∧
      testedNames (void :: op :: sampleSelected.tokens) = [] := by
  intro op void
  have hop : isComparison op = true := rfl
  have hvoid : void.isKeyword [.kwVoid] = true := rfl
  obtain ⟨hfront, hbehind, -⟩ := voidTests_orders sampleSelected hop hvoid
  exact ⟨hop, hvoid, hfront, hbehind⟩

/-- **An indexed operand is tested behind `Void` only.**  There a test of an element of `a` counts
as one of `a` itself. -/
theorem index_tested_behind_void :
    let op := unplaced (.operator .notEqual) "/="
    let void := unplaced (.keyword .kwVoid) "Void"
    isComparison op = true ∧ void.isKeyword [.kwVoid] = true ∧
      testedNames (sampleIndexed.tokens ++ [op, void]) = [] ∧
      testedNames (void :: op :: sampleIndexed.tokens) = ["a"] := by
  decide

end ContractLint.Attachment
