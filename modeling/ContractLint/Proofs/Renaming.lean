/-
# Renames are acceptable

A finding of the naming rule proposes another name.  The proposal is computed from the characters of
the name alone: in upper case, or separated at the changes of letter case, its underscores squeezed,
and lowered.  Nothing checks the outcome, so it has to be right by the shape of what goes in, which is
a word that is no keyword (`IsName`):

* spacing keeps a word a word (`Naming.isWord_spaced`), so both proposals are in their style;
* folding letter case cannot make a keyword of a name, since keywords are recognised in any letter
  case (`Keyword.ofText?_map_toLower`).  If the spacing changed the name, the proposal has an
  underscore, and no keyword has one (`Keyword.underscore_notMem`); if it did not, only the letter
  case changed;
* a name without capitals and without runs of underscores is its own proposal
  (`Naming.snakeCase_snakeCase`).

`renames_acceptable` puts this together with the names that a text declares.
-/
import ContractLint.Proofs.DeclaredName
import Mathlib

namespace ContractLint

/-! ## 1. Letter case -/

theorem toLower_eq_underscore_iff {c : Char} : c.toLower = '_' ↔ c = '_' := by
  constructor
  · intro h
    have halpha : c.isAlpha = false := by
      rw [← Char.isLower_toLower_eq_isAlpha, h]
      rfl
    have hupper : ¬ c.isUpper := by
      intro hupper
      simp [Char.isAlpha, hupper] at halpha
    rwa [Char.toLower_eq_of_not_isUpper hupper] at h
  · rintro rfl
    rfl

/-- A character of a word is a letter, or letter case does not matter to it. -/
theorem isWordTail_cases {c : Char} (h : Lexeme.isWordTail c = true) :
    c.isAlpha = true ∨ (c.isDigit = true ∨ c = '_') ∧ c.toLower = c ∧ c.toUpper = c := by
  by_cases halpha : c.isAlpha = true
  · exact .inl halpha
  · have hcase : ¬ c.isUpper = true ∧ ¬ c.isLower = true := by simpa [Char.isAlpha] using halpha
    refine .inr ⟨?_, Char.toLower_eq_of_not_isUpper hcase.1, Char.toUpper_eq_of_not_isLower hcase.2⟩
    simpa [Lexeme.isWordTail, Char.isAlphanum, halpha] using h

namespace Keyword

/-- A keyword is one in any letter case. -/
theorem ofText?_map_toLower (cs : List Char) : ofText? (cs.map Char.toLower) = ofText? cs := by
  simp [ofText?, Function.comp_def]

theorem ofText?_map_toUpper (cs : List Char) : ofText? (cs.map Char.toUpper) = ofText? cs := by
  simp [ofText?, Function.comp_def]

/-- No keyword has an underscore. -/
theorem underscore_notMem {cs : List Char} {w : Keyword} (h : ofText? cs = some w) : '_' ∉ cs := by
  have hwords : ∀ w ∈ all, '_' ∉ w.word.toList := by decide +kernel
  have hfind : all.find? (·.word == String.ofList (cs.map Char.toLower)) = some w := h
  have hbeq := List.find?_some hfind
  have hword : w.word = String.ofList (cs.map Char.toLower) := beq_iff_eq.mp hbeq
  intro hmem
  refine hwords w (List.mem_of_find?_eq_some hfind) ?_
  rw [hword, String.toList_ofList]
  exact List.mem_map.mpr ⟨'_', hmem, rfl⟩

end Keyword

namespace Naming

/-! ## 2. Spacing -/

theorem mem_separateWords {c : Char} {cs : List Char} (h : c ∈ separateWords cs) :
    c ∈ cs ∨ c = '_' := by
  fun_induction separateWords cs with
  | case1 d e cs hchange ih =>
    rcases List.mem_cons.mp h with rfl | h
    · exact .inl List.mem_cons_self
    rcases List.mem_cons.mp h with rfl | h
    · exact .inr rfl
    · exact (ih h).imp_left (List.mem_cons_of_mem d)
  | case2 d e cs hchange ih =>
    rcases List.mem_cons.mp h with rfl | h
    · exact .inl List.mem_cons_self
    · exact (ih h).imp_left (List.mem_cons_of_mem d)
  | case3 => exact .inl h

theorem head?_separateWords (cs : List Char) : (separateWords cs).head? = cs.head? := by
  fun_cases separateWords cs <;> rfl

/-- Where no underscore was put in, nothing changed. -/
theorem separateWords_eq_self {cs : List Char} (h : '_' ∉ separateWords cs) :
    separateWords cs = cs := by
  fun_induction separateWords cs with
  | case1 c d cs hchange ih => exact absurd (by simp) h
  | case2 c d cs hchange ih => rw [ih fun hmem => h (List.mem_cons_of_mem c hmem)]
  | case3 => rfl

/-- Without capitals there is nothing to separate. -/
theorem separateWords_of_not_isUpper {cs : List Char} (h : ∀ c ∈ cs, c.isUpper = false) :
    separateWords cs = cs := by
  fun_induction separateWords cs with
  | case1 c d cs hchange ih =>
    rw [h d (by simp), Bool.and_false] at hchange
    cases hchange
  | case2 c d cs hchange ih => rw [ih fun e he => h e (List.mem_cons_of_mem c he)]
  | case3 => rfl

theorem mem_squeezeUnderscores {c : Char} {cs : List Char} :
    c ∈ squeezeUnderscores cs ↔ c ∈ cs := by
  fun_induction squeezeUnderscores cs with
  | case1 d e cs hrun ih =>
    obtain ⟨rfl, rfl⟩ : d = '_' ∧ e = '_' := by simpa using hrun
    rw [ih, List.mem_cons, List.mem_cons, List.mem_cons, or_self_left]
  | case2 d e cs hrun ih => rw [List.mem_cons, ih, ← List.mem_cons]
  | case3 => rfl

theorem head?_squeezeUnderscores (cs : List Char) :
    (squeezeUnderscores cs).head? = cs.head? := by
  fun_induction squeezeUnderscores cs with
  | case1 c d cs hrun ih =>
    obtain ⟨rfl, rfl⟩ : c = '_' ∧ d = '_' := by simpa using hrun
    exact ih
  | case2 => rfl
  | case3 => rfl

/-- Squeezing looks for underscores only. -/
theorem squeezeUnderscores_map {f : Char → Char} (hf : ∀ c, f c = '_' ↔ c = '_')
    (cs : List Char) : squeezeUnderscores (cs.map f) = (squeezeUnderscores cs).map f := by
  have hbeq : ∀ c, (f c == '_') = (c == '_') := fun c => by
    rw [Bool.eq_iff_iff, beq_iff_eq, beq_iff_eq, hf]
  fun_induction squeezeUnderscores cs with
  | case1 c d cs hrun ih =>
    rw [List.map_cons, List.map_cons, squeezeUnderscores, hbeq, hbeq, if_pos hrun]
    exact ih
  | case2 c d cs hrun ih =>
    rw [List.map_cons, List.map_cons, squeezeUnderscores, hbeq, hbeq, if_neg hrun]
    exact congrArg (f c :: ·) ih
  | case3 cs hshort =>
    cases cs with
    | nil => rfl
    | cons c cs =>
      cases cs with
      | nil => rfl
      | cons d cs => exact absurd rfl (hshort c d cs)

/-- No run is left. -/
theorem squeezeUnderscores_idem (cs : List Char) :
    squeezeUnderscores (squeezeUnderscores cs) = squeezeUnderscores cs := by
  fun_induction squeezeUnderscores cs with
  | case1 c d cs hrun ih => exact ih
  | case2 c d cs hrun ih =>
    have hhead := head?_squeezeUnderscores (d :: cs)
    obtain ⟨rest, hrest⟩ := List.head?_eq_some_iff.mp hhead
    rw [hrest] at ih ⊢
    rw [squeezeUnderscores, if_neg hrun, ih]
  | case3 cs hshort =>
    rw [squeezeUnderscores]
    exact hshort

theorem squeezeUnderscores_eq_self {cs : List Char} (h : '_' ∉ cs) :
    squeezeUnderscores cs = cs := by
  fun_induction squeezeUnderscores cs with
  | case1 c d cs hrun ih =>
    obtain ⟨rfl, rfl⟩ : c = '_' ∧ d = '_' := by simpa using hrun
    exact absurd List.mem_cons_self h
  | case2 c d cs hrun ih => rw [ih fun hmem => h (List.mem_cons_of_mem c hmem)]
  | case3 => rfl

/-! ## 3. Proposals -/

/-- The letter case of a style. -/
def Style.fold : Style → Char → Char
  | upper => Char.toUpper
  | lowerSnake => Char.toLower

/-- A word in the letter case of a style has the style. -/
theorem Style.accepts_map_fold (style : Style) {cs : List Char} (h : IsWord cs) :
    style.accepts (cs.map style.fold) = true := by
  obtain ⟨c, tail, rfl, hc, htail⟩ := h
  rw [List.map_cons, accepts, Bool.and_eq_true, List.all_map, List.all_eq_true]
  refine ⟨?_, fun d hd => ?_⟩
  · cases style
    · exact (Char.isUpper_toUpper_eq_isAlpha c).trans hc
    · exact (Char.isLower_toLower_eq_isAlpha c).trans hc
  · rcases isWordTail_cases (htail d hd) with halpha | ⟨hplain, hlower, hupper⟩
    · cases style <;> simp [fold, admits, halpha]
    · have hfold : style.fold d = d := by
        cases style
        · exact hupper
        · exact hlower
      rw [Function.comp_apply, hfold]
      rcases hplain with hdigit | rfl
      · simp [admits, hdigit]
      · rfl

/-- **Spacing keeps a word a word.** -/
theorem isWord_spaced {cs : List Char} (h : IsWord cs) :
    IsWord (squeezeUnderscores (separateWords cs)) := by
  obtain ⟨c, tail, rfl, hc, htail⟩ := h
  have hhead : (squeezeUnderscores (separateWords (c :: tail))).head? = some c := by
    rw [head?_squeezeUnderscores, head?_separateWords]
    rfl
  obtain ⟨rest, hrest⟩ := List.head?_eq_some_iff.mp hhead
  refine ⟨c, rest, hrest, hc, fun d hd => ?_⟩
  have hmem : d ∈ separateWords (c :: tail) := by
    rw [← mem_squeezeUnderscores, hrest]
    exact List.mem_cons_of_mem c hd
  rcases mem_separateWords hmem with hmem | rfl
  · rcases List.mem_cons.mp hmem with rfl | hmem
    · simp [Lexeme.isWordTail, Char.isAlphanum, hc]
    · exact htail d hmem
  · rfl

/-- **Spacing makes no keyword of a name.** -/
theorem ofText?_snakeCase {cs : List Char} (h : Keyword.ofText? cs = none) :
    Keyword.ofText? (snakeCase cs) = none := by
  rw [snakeCase, Keyword.ofText?_map_toLower]
  by_cases hspaced : '_' ∈ squeezeUnderscores (separateWords cs)
  · cases hw : Keyword.ofText? (squeezeUnderscores (separateWords cs)) with
    | none => rfl
    | some w => exact absurd hspaced (Keyword.underscore_notMem hw)
  · rw [mem_squeezeUnderscores] at hspaced
    rw [squeezeUnderscores_eq_self hspaced, separateWords_eq_self hspaced, h]

/-- **A proposal in lower snake case stays as it is.** -/
theorem snakeCase_snakeCase (cs : List Char) : snakeCase (snakeCase cs) = snakeCase cs := by
  have hlower : ∀ c ∈ snakeCase cs, c.isUpper = false := by
    intro c hc
    obtain ⟨d, -, rfl⟩ := List.mem_map.mp hc
    exact Char.isUpper_toLower_eq_false d
  calc snakeCase (snakeCase cs)
      = (squeezeUnderscores (snakeCase cs)).map Char.toLower := by
        rw [snakeCase, separateWords_of_not_isUpper hlower]
    _ = ((squeezeUnderscores (squeezeUnderscores (separateWords cs))).map Char.toLower).map
          Char.toLower := by
        rw [snakeCase, squeezeUnderscores_map fun c => toLower_eq_underscore_iff]
    _ = snakeCase cs := by
        rw [squeezeUnderscores_idem, List.map_map, snakeCase]
        simp only [Function.comp_def, Char.toLower_toLower_eq_toLower]

/-- The proposal for a name has the style and is a name again. -/
theorem Style.propose_acceptable (style : Style) {cs : List Char} (h : IsName cs) :
    style.accepts (style.propose cs) = true ∧ Keyword.ofText? (style.propose cs) = none := by
  cases style with
  | upper => exact ⟨upper.accepts_map_fold h.word, (Keyword.ofText?_map_toUpper cs).trans h.free⟩
  | lowerSnake => exact ⟨lowerSnake.accepts_map_fold (isWord_spaced h.word), ofText?_snakeCase h.free⟩

/-! ## 4. Findings -/

/-- What a class declares, and the style that each is to have. -/
def declarations : List (String × Style) :=
  [("class", .upper), ("formal generic", .upper), ("feature", .lowerSnake),
    ("argument", .lowerSnake), ("local", .lowerSnake), ("quantifier cursor", .lowerSnake)]

theorem declarations_cursors (qs : List Quantifier) :
    ∀ n ∈ cursors qs, (n.role, n.style) ∈ declarations := by
  intro n hn
  obtain ⟨q, -, hsome⟩ := List.mem_filterMap.mp hn
  obtain ⟨name, -, rfl⟩ := Option.map_eq_some_iff.mp hsome
  show ("quantifier cursor", Style.lowerSnake) ∈ declarations
  decide

theorem declarations_ofFeature (f : Feature) :
    ∀ n ∈ ofFeature f, (n.role, n.style) ∈ declarations := by
  refine List.forall_mem_append.mpr ⟨List.forall_mem_append.mpr
    ⟨List.forall_mem_cons.mpr ⟨?_, ?_⟩, ?_⟩, declarations_cursors _⟩
  · show ("feature", Style.lowerSnake) ∈ declarations
    decide
  · have hargument : ("argument", Style.lowerSnake) ∈ declarations := by decide
    exact List.forall_mem_map.mpr fun _ _ => hargument
  · have hlocal : ("local", Style.lowerSnake) ∈ declarations := by decide
    exact List.forall_mem_map.mpr fun _ _ => hlocal

theorem declarations_ofClass (c : ClassDecl) :
    ∀ n ∈ ofClass c, (n.role, n.style) ∈ declarations := by
  refine List.forall_mem_append.mpr ⟨List.forall_mem_append.mpr
    ⟨List.forall_mem_append.mpr ⟨?_, ?_⟩, ?_⟩, declarations_cursors _⟩
  · have hclass : ("class", Style.upper) ∈ declarations := by decide
    split
    · exact List.forall_mem_nil _
    · exact List.forall_mem_singleton.mpr hclass
  · have hgeneric : ("formal generic", Style.upper) ∈ declarations := by decide
    exact List.forall_mem_map.mpr fun _ _ => hgeneric
  · exact List.forall_mem_flatMap.mpr fun f _ => declarations_ofFeature f

end Naming

/-- **Suggested renames are always acceptable.**  Every finding of the naming rule is about a name
that the text declares and that violates the style for what it names: upper case for classes and
formal generics, lower snake case for all else.  The name that it proposes differs from the declared
one, has that style, is no keyword in any letter case, and, where the style is lower snake case,
would not be changed by another proposal. -/
theorem renames_acceptable (raw path : String) :
    let s := Source.ofString raw path
    ∀ d ∈ Naming.check ⟨s.lex, s.lex.parse.tree⟩,
      ∃ n ∈ s.lex.parse.tree.classes.flatMap Naming.ofClass, ∃ proposed : String,
        d.location = n.name.location ∧
        d.message = s!"{n.role} name '{n.name.text}' should be {n.style.label}" ∧
        d.fix = some s!"rename to '{proposed}'" ∧
        (n.role, n.style) ∈ Naming.declarations ∧
        n.style.accepts n.name.text.toList = false ∧
        proposed ≠ n.name.text ∧
        n.style.accepts proposed.toList = true ∧
        Keyword.ofText? proposed.toList = none ∧
        (n.style = .lowerSnake → Naming.snakeCase proposed.toList = proposed.toList) := by
  intro s d hd
  obtain ⟨n, hn, hsome⟩ := List.mem_filterMap.mp hd
  have hname := s.isName_of_declared n hn
  obtain ⟨c, -, hclass⟩ := List.mem_flatMap.mp hn
  obtain ⟨haccepts, hfree⟩ := n.style.propose_acceptable hname
  unfold Naming.finding? at hsome
  dsimp only at hsome
  split at hsome
  · cases hsome
  rename_i hviolates
  obtain rfl := Option.some.inj hsome
  refine ⟨n, hn, String.ofList (n.style.propose n.name.text.toList), rfl, rfl, rfl,
    Naming.declarations_ofClass c n hclass, by simpa using hviolates, ?_, ?_, ?_, ?_⟩
  · intro heq
    have hsame : n.style.propose n.name.text.toList = n.name.text.toList := by
      rw [← String.toList_ofList (l := n.style.propose n.name.text.toList), heq]
    rw [hsame] at haccepts
    exact hviolates haccepts
  · rwa [String.toList_ofList]
  · rwa [String.toList_ofList]
  · intro hstyle
    rw [String.toList_ofList, hstyle]
    exact Naming.snakeCase_snakeCase _

def sampleRuns : Lexed :=
  (Source.ofString "class A feature aB__C do end end" "a.e").lex

def sampleName : Naming.Declared :=
  ⟨"feature", ⟨"aB__C", ⟨1, 17, 16⟩⟩, .lowerSnake⟩

def sampleRename : Diagnostic where
  rule := .naming
  severity := .warning
  message := "feature name 'aB__C' should be lower snake case"
  location := ⟨1, 17, 16⟩
  fix := some "rename to 'a_b_c'"
  path := "a.e"

theorem declared_sampleRuns : sampleRuns.parse.tree.classes.flatMap Naming.ofClass =
    [⟨"class", ⟨"A", ⟨1, 7, 6⟩⟩, .upper⟩, sampleName] := by
  cbv

/-- A name with a change of letter case and a run of underscores. -/
theorem renames_acceptable_runs :
    sampleRename ∈ Naming.check ⟨sampleRuns, sampleRuns.parse.tree⟩ ∧
      ∃ proposed : String, sampleRename.fix = some s!"rename to '{proposed}'" ∧
        Keyword.ofText? proposed.toList = none := by
  have hfinding : Naming.finding? ⟨sampleRuns, sampleRuns.parse.tree⟩ sampleName =
      some sampleRename := by
    decide +kernel
  have hmem : sampleRename ∈ Naming.check ⟨sampleRuns, sampleRuns.parse.tree⟩ := by
    refine List.mem_filterMap.mpr ⟨sampleName, ?_, hfinding⟩
    rw [declared_sampleRuns]
    exact List.mem_cons_of_mem _ List.mem_cons_self
  obtain ⟨n, -, proposed, -, -, hfix, -, -, -, -, hfree, -⟩ :=
    renames_acceptable "class A feature aB__C do end end" "a.e" sampleRename hmem
  exact ⟨hmem, proposed, hfix, hfree⟩

end ContractLint
