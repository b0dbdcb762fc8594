/-
# A malformed declaration costs nothing but itself

A declaration that cannot be read may have been read far into its siblings before it was given up.
So the place where reading resumes is not found by the attempt but by passing over items from the
start of the declaration, with blocks balanced.  This file says when that place is exactly the end
of the declaration.

* **What can be passed over.**  `Passable column d`: outside all blocks, the items of `d` look
  neither like a boundary nor like a sibling, and `d` opens no block (`Flat`) or ends with the `end`
  of the one that it opened (`OneBlock`).  Such a `d` is passed over as a whole
  (`passLength_passable`).
* **Siblings.**  `Siblings column e rest ds`: the declarations `ds` start lines in the same column,
  in front of `rest`; each is accepted where it stands, or it is rejected there and can be passed
  over.

`readFeatures_isolates` is the result: the features are those of the accepted declarations in order,
and each rejected one costs one error and one resumption.
-/
import ContractLint.Proofs.Follow
import Mathlib

namespace ContractLint

/-! ## 1. What can be passed over -/

namespace Nesting

/-- The items `is` that are passed over from the nesting `n` on, each with the nesting in front of
it. -/
def met (n : Nesting) : List Item → List (Nesting × Item)
  | [] => []
  | i :: is => (n, i) :: (n.passOver i is.head?).met is

/-- The nesting behind all of the items. -/
def passAll (n : Nesting) : List Item → Nesting
  | [] => n
  | i :: is => (n.passOver i is.head?).passAll is

end Nesting

/-- No block is opened: the items are met outside all blocks, and so is what follows them. -/
def Flat (n : Nesting) (is : List Item) : Prop :=
  (∀ m ∈ n.met is, m.1.depth = 0) ∧ (n.passAll is).depth = 0

/-- One block is opened, and the last item is the `end` that closes it. -/
def OneBlock (n : Nesting) (is : List Item) : Prop :=
  ∃ outside inside last, n.met is = outside ++ (inside ++ [last]) ∧
    (∀ m ∈ outside, m.1.depth = 0) ∧ (∀ m ∈ inside, 0 < m.1.depth) ∧
    last.1.depth = 1 ∧ last.2.token.isKeyword [.kwEnd] = true

/-- The items `d` of a declaration can be passed over as a whole. -/
structure Passable (column : Int) (d : List Item) : Prop where
  starts : ∀ i ∈ d.head?, i.startsDeclaration = true
  soft : ∀ i ∈ d, i.token.isKeyword [.kwFeature, .kwInherit, .kwConvert] = false
  inner : ∀ m ∈ ({} : Nesting).met d, m.1.depth = 0 →
    m.2.token.isKeyword boundaryKeywords = false
  alone : ∀ m ∈ (({} : Nesting).met d).tail, m.1.depth = 0 → m.2.isSibling (some column) = false
  blocks : Flat {} d ∨ OneBlock {} d

/-! ## 2. Passing over -/

theorem Nesting.passOver_congr (n : Nesting) (i : Item) {next next' : Option Item}
    (h : isManifest (next.map Item.token) = isManifest (next'.map Item.token)) :
    n.passOver i next = n.passOver i next' := by
  unfold passOver
  rw [n.feed_congr i.token h]

/-- Reading resumes at what follows: a boundary or a sibling. -/
def ResumesAt (column : Int) (rest : List Item) : Prop :=
  ∀ i ∈ rest.head?, i.token.isKeyword boundaryKeywords = true ∨ i.isSibling (some column) = true

theorem ResumesAt.isManifest_head {column : Int} {rest : List Item} (h : ResumesAt column rest) :
    isManifest (rest.head?.map Item.token) = false := by
  cases rest with
  | nil => rfl
  | cons i is =>
    have hi : i.token.isString = false := by
      have hi := h i rfl
      cases hk : i.token.kind with
      | string =>
        simp [Item.isSibling, Item.startsDeclaration, Token.isIdentifier, Token.isKeyword, hk] at hi
      | _ => simp [Token.isString, hk]
    exact hi

/-- Items are passed over in the same way whether or not something follows at which reading
resumes. -/
theorem ResumesAt.passOver_append {column : Int} {rest : List Item} (h : ResumesAt column rest)
    (n : Nesting) (i : Item) (is : List Item) :
    n.passOver i (is ++ rest).head? = n.passOver i is.head? := by
  refine n.passOver_congr i ?_
  cases is with
  | nil => exact h.isManifest_head
  | cons j js => rfl

theorem ResumesAt.skipLength_eq_zero {column : Int} {rest : List Item} (h : ResumesAt column rest)
    {n : Nesting} (hn : n.depth = 0) : skipLength (some column) n rest = 0 := by
  cases rest with
  | nil => rfl
  | cons i is =>
    have hi : resumesAt (some column) n i = true := by
      simp only [resumesAt, hn]
      rcases h i rfl with hi | hi <;> simp [hi]
    rw [skipLength, if_pos hi]

section Skip

variable {column : Int} {rest : List Item}

/-- Without blocks, items are passed over up to where reading resumes. -/
theorem skipLength_flat (hrest : ResumesAt column rest) : ∀ (is : List Item) (n : Nesting),
    (∀ m ∈ n.met is, resumesAt (some column) m.1 m.2 = false) → Flat n is →
    skipLength (some column) n (is ++ rest) = is.length
  | [], _, _, hflat => hrest.skipLength_eq_zero hflat.2
  | i :: is, n, hquiet, hflat => by
    have hdepth : n.depth = 0 := hflat.1 (n, i) List.mem_cons_self
    have hi : resumesAt (some column) n i = false := hquiet (n, i) List.mem_cons_self
    have hlast : closesLast n i = false := by simp [closesLast, hdepth]
    have ih := skipLength_flat hrest is (n.passOver i is.head?)
      (fun m hm => hquiet m (List.mem_cons_of_mem _ hm))
      ⟨fun m hm => hflat.1 m (List.mem_cons_of_mem _ hm), hflat.2⟩
    simp only [List.cons_append, skipLength, hi, hlast, hrest.passOver_append, ih, List.length_cons,
      Bool.false_eq_true, if_false]

/-- Behind the `end` of the last open block, no block is open. -/
theorem depth_passOver_of_closesLast {n : Nesting} {i : Item} (h : closesLast n i = true)
    (next : Option Item) : (n.passOver i next).depth = 0 := by
  obtain ⟨hend, hdepth⟩ : i.token.isKeyword [.kwEnd] = true ∧ n.depth = 1 := by
    simpa [closesLast] using h
  have hkind : i.token.kind = .keyword .kwEnd := by
    unfold Token.isKeyword at hend
    split at hend
    · rename_i w hw
      have hw' : w = .kwEnd := by simpa using hend
      rw [hw, hw']
    · cases hend
  have hpop : n.pop.depth = 0 := by
    rw [Nesting.depth, Nesting.pop, List.length_tail]
    exact Nat.sub_eq_zero_of_le (Nat.le_of_eq hdepth)
  simpa [Nesting.passOver, hdepth, Nesting.feed, hkind, Nesting.feedKeyword, Compound.ofKeyword?]
    using hpop

theorem OneBlock.ne_nil {n : Nesting} {is : List Item} (h : OneBlock n is) : is ≠ [] := by
  obtain ⟨outside, inside, last, hmet, -⟩ := h
  rintro rfl
  simp [Nesting.met] at hmet

/-- An item of one block is its `end`, or the `end` is still to come. -/
theorem OneBlock.cases_cons {n : Nesting} {i : Item} {is : List Item} (h : OneBlock n (i :: is)) :
    (is = [] ∧ closesLast n i = true) ∨
      (closesLast n i = false ∧ OneBlock (n.passOver i is.head?) is) := by
  obtain ⟨outside, inside, last, hmet, houtside, hinside, hdepth, hend⟩ := h
  cases outside with
  | cons m outside =>
    obtain ⟨rfl, htail⟩ := List.cons.inj hmet
    have hn : n.depth = 0 := houtside (n, i) List.mem_cons_self
    exact .inr ⟨by simp [closesLast, hn], outside, inside, last, htail,
      fun m hm => houtside m (List.mem_cons_of_mem _ hm), hinside, hdepth, hend⟩
  | nil =>
    cases inside with
    | nil =>
      obtain ⟨rfl, htail⟩ := List.cons.inj hmet
      have his : is = [] := by
        cases is with
        | nil => rfl
        | cons j js => cases htail
      exact .inl ⟨his, by simp_all [closesLast]⟩
    | cons m inside =>
      obtain ⟨rfl, htail⟩ := List.cons.inj hmet
      have hblock : OneBlock (n.passOver i is.head?) is :=
        ⟨[], inside, last, htail, houtside, fun m hm => hinside m (List.mem_cons_of_mem _ hm),
          hdepth, hend⟩
      -- The next item is met inside the block, so `i` did not close it.
      have hopen : 0 < (n.passOver i is.head?).depth := by
        cases is with
        | nil => exact absurd rfl hblock.ne_nil
        | cons j js =>
          have hj : (n.passOver i (some j), j) ∈ inside ++ [last] := by
            rw [← show _ = inside ++ [last] from htail]
            exact List.mem_cons_self
          rcases List.mem_append.mp hj with hj | hj
          · exact hinside _ (List.mem_cons_of_mem _ hj)
          · rw [← List.mem_singleton.mp hj] at hdepth
            exact Nat.lt_of_lt_of_eq Nat.zero_lt_one hdepth.symm
      refine .inr ⟨?_, hblock⟩
      cases hlast : closesLast n i with
      | false => rfl
      | true =>
        rw [depth_passOver_of_closesLast hlast] at hopen
        exact absurd hopen (Nat.lt_irrefl 0)

/-- With one block, items are passed over up to its `end`. -/
theorem skipLength_oneBlock (hrest : ResumesAt column rest) : ∀ (is : List Item) (n : Nesting),
    (∀ m ∈ n.met is, resumesAt (some column) m.1 m.2 = false) → OneBlock n is →
    skipLength (some column) n (is ++ rest) = is.length
  | [], _, _, hblock => absurd rfl hblock.ne_nil
  | i :: is, n, hquiet, hblock => by
    have hi : resumesAt (some column) n i = false := hquiet (n, i) List.mem_cons_self
    rcases hblock.cases_cons with ⟨rfl, hlast⟩ | ⟨hlast, hblock⟩
    · simp [skipLength, hi, hlast]
    · have ih := skipLength_oneBlock hrest is (n.passOver i is.head?)
        (fun m hm => hquiet m (List.mem_cons_of_mem _ hm)) hblock
      simp only [List.cons_append, skipLength, hi, hlast, hrest.passOver_append, ih,
        List.length_cons, Bool.false_eq_true, if_false]

end Skip

theorem mem_of_mem_met {m : Nesting × Item} : ∀ {is : List Item} {n : Nesting},
    m ∈ n.met is → m.2 ∈ is
  | [], _, h => absurd h List.not_mem_nil
  | i :: is, n, h => by
    rcases List.mem_cons.mp h with rfl | h
    · exact List.mem_cons_self
    · exact List.mem_cons_of_mem _ (mem_of_mem_met h)

/-- Behind its first item, reading resumes nowhere inside a declaration that can be passed over. -/
theorem Passable.not_resumesAt {column : Int} {i : Item} {is : List Item}
    (hd : Passable column (i :: is)) :
    ∀ m ∈ (({} : Nesting).passOver i is.head?).met is,
      resumesAt (some column) m.1 m.2 = false := by
  intro m hm
  have hhard : m.2.token.isKeyword hardBoundaries = false :=
    hd.soft m.2 (List.mem_cons_of_mem _ (mem_of_mem_met hm))
  rw [resumesAt, hhard, Bool.false_or]
  by_cases hdepth : m.1.depth = 0
  · rw [hd.inner m (List.mem_cons_of_mem _ hm) hdepth, hd.alone m hm hdepth]
    exact Bool.and_false _
  · simp [hdepth]

/-- **A declaration that can be passed over is passed over as a whole**, and reading resumes right
behind it. -/
theorem passLength_passable {column : Int} {i : Item} {is rest : List Item}
    (hd : Passable column (i :: is)) (hrest : ResumesAt column rest) :
    passLength (some column) i (is ++ rest) = (i :: is).length := by
  have hquiet := hd.not_resumesAt
  have hskip : skipLength (some column) (({} : Nesting).passOver i is.head?) (is ++ rest) =
      is.length := by
    rcases hd.blocks with hflat | hblock
    · exact skipLength_flat hrest is _ hquiet
        ⟨fun m hm => hflat.1 m (List.mem_cons_of_mem _ hm), hflat.2⟩
    · rcases hblock.cases_cons with ⟨-, hlast⟩ | ⟨-, hblock⟩
      · simp [closesLast, Nesting.depth] at hlast
      · exact skipLength_oneBlock hrest is _ hquiet hblock
  rw [passLength, hrest.passOver_append, hskip, List.length_cons]

/-! ## 3. Siblings -/

/-- A declaration of a list, with what became of it. -/
inductive Sibling where
  | accepted (items : List Item) (features : List Feature)
  | rejected (items : List Item) (error : SyntaxError)

namespace Sibling

def items : Sibling → List Item
  | accepted items _ => items
  | rejected items _ => items

def features : Sibling → List Feature
  | accepted _ features => features
  | rejected _ _ => []

def errors : Sibling → List SyntaxError
  | accepted _ _ => []
  | rejected _ error => [error]

def isRejected : Sibling → Bool
  | accepted _ _ => false
  | rejected _ _ => true

end Sibling

/-- The declarations `ds` start lines in the same column, in front of `rest`.  Each is accepted
where it stands, without a fault and with all of its items, or it is rejected there and can be
passed over. -/
inductive Siblings (column : Int) (e : Token) (rest : List Item) : List Sibling → Prop
  | nil : Siblings column e rest []
  | accepted {i : Item} {is : List Item} {d : Taken Declaration} {ds : List Sibling}
      (hline : i.startsLine = true) (hcolumn : i.token.column = column)
      (hd : readDeclaration i ⟨i :: is ++ (ds.flatMap Sibling.items ++ rest), e⟩ = .ok d)
      (htaken : d.taken = (i :: is).length) (hclean : d.value.errors = [])
      (hds : Siblings column e rest ds) :
      Siblings column e rest (.accepted (i :: is) d.value.features :: ds)
  | rejected {i : Item} {is : List Item} {error : SyntaxError} {ds : List Sibling}
      (hline : i.startsLine = true) (hcolumn : i.token.column = column)
      (hd : readDeclaration i ⟨i :: is ++ (ds.flatMap Sibling.items ++ rest), e⟩ = .error error)
      (hpass : Passable column (i :: is)) (hds : Siblings column e rest ds) :
      Siblings column e rest (.rejected (i :: is) error :: ds)

theorem startsDeclaration_of_ok {i : Item} {c : Cursor} {d : Taken Declaration}
    (h : readDeclaration i c = .ok d) : i.startsDeclaration = true := by
  cases hi : i.startsDeclaration with
  | true => rfl
  | false =>
    rw [readDeclaration, hi] at h
    cases h

theorem isSibling_of_starts {i : Item} {column : Int} (hline : i.startsLine = true)
    (hcolumn : i.token.column = column) (hstarts : i.startsDeclaration = true) :
    i.isSibling (some column) = true := by
  simp [Item.isSibling, hline, hcolumn, hstarts]

/-- Reading resumes at siblings, and behind the last of them. -/
theorem Siblings.resumesAt {column : Int} {e : Token} {rest : List Item} {ds : List Sibling}
    (h : Siblings column e rest ds)
    (hrest : ∀ i ∈ rest.head?, i.token.isKeyword boundaryKeywords = true) :
    ResumesAt column (ds.flatMap Sibling.items ++ rest) := by
  cases h with
  | nil => exact fun i hi => .inl (hrest i hi)
  | accepted hline hcolumn hd _ _ _ =>
    intro j hj
    cases Option.some.inj hj
    exact .inr (isSibling_of_starts hline hcolumn (startsDeclaration_of_ok hd))
  | rejected hline hcolumn _ hpass _ =>
    intro j hj
    cases Option.some.inj hj
    exact .inr (isSibling_of_starts hline hcolumn (hpass.starts _ rfl))

/-- **Malformed declarations are isolated.**  In front of a boundary or the end of the text, a list
of declarations that start lines in the same column is read to its end.  The features are those of
the accepted declarations, in order; each rejected declaration costs one error, its own, and one
resumption. -/
theorem readFeatures_isolates (column : Int) (e : Token) (rest : List Item) (ds : List Sibling)
    (hrest : ∀ i ∈ rest.head?, i.token.isKeyword boundaryKeywords = true)
    (hds : Siblings column e rest ds) :
    let r := readFeatures ⟨ds.flatMap Sibling.items ++ rest, e⟩
    r.value = ds.flatMap Sibling.features ∧ r.errors = ds.flatMap Sibling.errors ∧
      r.errors.length = ds.countP Sibling.isRejected ∧
      r.resumed.length = ds.countP Sibling.isRejected ∧
      r.taken = (ds.flatMap Sibling.items).length := by
  induction hds with
  | nil =>
    rw [List.flatMap_nil, List.nil_append, readFeatures_of_boundary hrest]
    exact ⟨rfl, rfl, rfl, rfl, rfl⟩
  | @accepted i is d ds hline hcolumn hd htaken hclean hds ih =>
    have hstarts := startsDeclaration_of_ok hd
    have hread := readFeatures_of_ok rfl (not_boundary_of_startsDeclaration hstarts) hd
    rw [htaken, Cursor.drop_append, hclean, List.nil_append] at hread
    obtain ⟨hvalue, herrors, hlength, hresumed, htaken'⟩ := ih
    rw [List.flatMap_cons, List.append_assoc]
    dsimp only [Sibling.items]
    rw [hread]
    refine ⟨?_, ?_, ?_, ?_, ?_⟩
    · exact congrArg (d.value.features ++ ·) hvalue
    · exact herrors
    · exact hlength
    · exact hresumed
    · rw [List.length_append]
      exact congrArg ((i :: is).length + ·) htaken'
  | @rejected i is error ds hline hcolumn hd hpass hds ih =>
    have hstarts : i.startsDeclaration = true := hpass.starts i rfl
    -- However far the attempt went, reading resumes at the next sibling.
    have hpassed : passLength (some i.token.column) i (is ++ (ds.flatMap Sibling.items ++ rest)) =
        (i :: is).length := by
      rw [hcolumn]
      exact passLength_passable hpass (hds.resumesAt hrest)
    have hread := readFeatures_of_error rfl (not_boundary_of_startsDeclaration hstarts) hd hpassed
    rw [Cursor.drop_append] at hread
    obtain ⟨hvalue, herrors, hlength, hresumed, htaken⟩ := ih
    rw [List.flatMap_cons, List.append_assoc]
    dsimp only [Sibling.items]
    rw [hread]
    refine ⟨?_, ?_, ?_, ?_, ?_⟩
    · exact hvalue
    · exact congrArg (error :: ·) herrors
    · rw [List.countP_cons_of_pos rfl]
      exact congrArg Nat.succ hlength
    · rw [List.countP_cons_of_pos rfl]
      exact congrArg Nat.succ hresumed
    · rw [List.length_append]
      exact congrArg ((i :: is).length + ·) htaken

/-! ## 4. Two malformed declarations among two others -/

/-- An item in a given line and column. -/
def itemAt (kind : Kind) (text : String) (line column : Int) (startsLine : Bool) : Item where
  token := { kind, text, location := ⟨line, column, 0⟩ }
  startsLine := startsLine
  comments := []

/-- An attribute in a given line. -/
def attributeAt (name : String) (line : Int) : List Item :=
  [itemAt .identifier name line 2 true, itemAt (.operator .colon) ":" line 3 false,
    itemAt .identifier "INTEGER" line 5 false]

/-- The feature of such an attribute. -/
def attributeFeature (name : String) (line : Int) : Feature where
  name := ⟨name, ⟨line, 2, 0⟩⟩
  returnType := some ⟨"INTEGER", .unmarked, ⟨line, 5, 0⟩⟩
  endLocation := ⟨line, 5, 0⟩

/-- A name without a type. -/
def bareItems : List Item :=
  [itemAt .identifier "y" 4 2 true]

/-- A constant that is a routine. -/
def constantItems : List Item :=
  [itemAt .identifier "z" 5 2 true, itemAt (.operator .equal) "=" 5 4 false,
    itemAt (.keyword .kwDo) "do" 5 6 false, itemAt .identifier "x" 5 9 false,
    itemAt (.keyword .kwEnd) "end" 5 11 false]

theorem passable_bareItems : Passable 2 bareItems where
  starts := by decide
  soft := by decide
  inner := by decide
  alone := by decide
  blocks := .inl ⟨by decide, by decide⟩

theorem passable_constantItems : Passable 2 constantItems where
  starts := by decide
  soft := by decide
  inner := by decide
  alone := by decide
  blocks := .inr ⟨(({} : Nesting).met constantItems).take 3,
    [({ frames := [.routineBody] }, itemAt .identifier "x" 5 9 false)],
    ({ frames := [.routineBody] }, itemAt (.keyword .kwEnd) "end" 5 11 false),
    by decide, by decide, by decide, by decide, by decide⟩

/-- The `end` of the class. -/
def sampleEnd : Item :=
  itemAt (.keyword .kwEnd) "end" 7 1 true

/-- Two attributes, and between them the two malformed declarations. -/
def sampleSiblings : List Sibling :=
  [.accepted (attributeAt "x" 3) [attributeFeature "x" 3],
   .rejected bareItems ⟨.bareFeature "y" (itemAt .identifier "z" 5 2 true).token, ⟨5, 2, 0⟩⟩,
   .rejected constantItems ⟨.untypedConstant, ⟨5, 6, 0⟩⟩,
   .accepted (attributeAt "v" 6) [attributeFeature "v" 6]]

theorem siblings_sample (e : Token) : Siblings 2 e [sampleEnd] sampleSiblings := by
  refine .accepted (d := ⟨⟨[attributeFeature "x" 3], []⟩, 3, by decide⟩) rfl rfl (by cbv) rfl rfl ?_
  refine .rejected rfl rfl (by cbv) passable_bareItems ?_
  refine .rejected rfl rfl (by cbv) passable_constantItems ?_
  refine .accepted (d := ⟨⟨[attributeFeature "v" 6], []⟩, 3, by decide⟩) rfl rfl (by cbv) rfl rfl ?_
  exact .nil

theorem readFeatures_sampleSiblings :
    let r := readFeatures ⟨sampleSiblings.flatMap Sibling.items ++ [sampleEnd], default⟩
    r.value = [attributeFeature "x" 3, attributeFeature "v" 6] ∧ r.errors.length = 2 ∧
      r.resumed.length = 2 := by
  obtain ⟨hvalue, -, herrors, hresumed, -⟩ := readFeatures_isolates 2 default [sampleEnd]
    sampleSiblings (by decide) (siblings_sample default)
  exact ⟨hvalue, herrors, hresumed⟩

end ContractLint
