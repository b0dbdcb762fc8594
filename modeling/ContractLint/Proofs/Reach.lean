/-
# No production reads past the end of the text

A production answers how many items belong to what it read, and reading goes on at `Cursor.drop` of
that number.  Dropping stops at the end of the text whatever the number is, so a count that is too
large would go unnoticed and every place computed from it would be wrong.

This file proves that no count is too large.  For every production there is a lemma `*_le`: at ANY
cursor, what it takes is at most `Cursor.size`.  The loops are done by the induction principles of
the readers themselves; everything else is the sum of the parts.
-/
import ContractLint.Grammar.Class

namespace ContractLint

/-! ## 1. Cursors and optional items -/

/-- A computation that succeeds after a first step did so with the result of that step. -/
theorem exists_of_bind_eq_ok {ε α β : Type} {x : Except ε α} {f : α → Except ε β} {b : β}
    (h : x >>= f = .ok b) : ∃ a, x = .ok a ∧ f a = .ok b := by
  cases x with
  | error e => cases h
  | ok a => exact ⟨a, rfl, h⟩

namespace Cursor

@[simp] theorem size_next (c : Cursor) : c.next.size = c.size - 1 := size_drop c 1

@[simp] theorem size_mk (items : List Item) (eof : Token) :
    (⟨items, eof⟩ : Cursor).size = items.length := rfl

theorem size_eq {c : Cursor} {i : Item} {is : List Item} (h : c.items = i :: is) :
    c.size = is.length + 1 := by
  simp [size, h]

theorem size_pos_of_atKeyword {c : Cursor} {ws : List Keyword} (h : c.atKeyword ws = true) :
    0 < c.size :=
  size_pos_of_test h

theorem size_pos_of_atSymbol {c : Cursor} {ss : List Symbol} (h : c.atSymbol ss = true) :
    0 < c.size :=
  size_pos_of_test h

theorem size_pos_of_atIdentifier {c : Cursor} (h : c.atIdentifier = true) : 0 < c.size :=
  size_pos_of_test h

theorem size_pos_of_atString {c : Cursor} (h : c.atString = true) : 0 < c.size :=
  size_pos_of_test h

theorem optKeyword_le (c : Cursor) (ws : List Keyword) : c.optKeyword ws ≤ c.size := by
  unfold optKeyword
  split
  · exact size_pos_of_atKeyword ‹_›
  · exact Nat.zero_le _

theorem optSymbol_le (c : Cursor) (ss : List Symbol) : c.optSymbol ss ≤ c.size := by
  unfold optSymbol
  split
  · exact size_pos_of_atSymbol ‹_›
  · exact Nat.zero_le _

theorem length_takeWhile_le (c : Cursor) (p : Item → Bool) :
    (c.items.takeWhile p).length ≤ c.size :=
  (List.takeWhile_sublist p).length_le

end Cursor

/-! ## 2. Brackets, spans and what is passed over -/

theorem bracketLengthFrom_le : ∀ (depth : Nat) (is : List Item),
    bracketLengthFrom depth is ≤ is.length
  | _, [] => Nat.le_refl _
  | depth, i :: is => by
    have h₁ := bracketLengthFrom_le (depth + 1) is
    have h₂ := bracketLengthFrom_le (depth - 1) is
    have h₃ := bracketLengthFrom_le depth is
    simp only [bracketLengthFrom, List.length_cons]
    repeat' split
    all_goals omega

namespace Cursor

theorem bracketLength_le (c : Cursor) : c.bracketLength ≤ c.size := by
  unfold bracketLength
  split
  · exact bracketLengthFrom_le 0 c.items
  · exact Nat.zero_le _

theorem enclosed_le {c : Cursor} (hc : 0 < c.size) (close : Symbol) :
    (c.enclosed close).2 ≤ c.size := by
  have h₁ := length_takeWhile_le c.next fun i => !i.token.isSymbol [close]
  have h₂ := optSymbol_le
    (c.next.drop (c.next.items.takeWhile fun i => !i.token.isSymbol [close]).length) [close]
  simp only [enclosed, size_next, size_drop] at h₁ h₂ ⊢
  omega

end Cursor

/-- A span lasts at most as long as its text. -/
theorem spanLengthFrom_le (stops hard : List Keyword) : ∀ (n : Nesting) (ts : List Token),
    spanLengthFrom stops hard n ts ≤ ts.length
  | _, [] => Nat.le_refl _
  | n, t :: ts => by
    have ih := spanLengthFrom_le stops hard (n.feed t ts.head?) ts
    simp only [spanLengthFrom, List.length_cons]
    repeat' split
    all_goals omega

namespace Cursor

theorem spanLength_le (c : Cursor) (stops hard : List Keyword) :
    spanLength stops hard c.tokens ≤ c.size := by
  have h := spanLengthFrom_le stops hard {} c.tokens
  rwa [tokens, List.length_map] at h

theorem bodyLength_le (c : Cursor) : c.bodyLength ≤ c.size :=
  c.spanLength_le bodyStops [.kwFeature]

end Cursor

theorem skipLength_le (column : Option Int) : ∀ (n : Nesting) (is : List Item),
    skipLength column n is ≤ is.length
  | _, [] => Nat.le_refl _
  | n, i :: is => by
    have ih := skipLength_le column (n.passOver i is.head?) is
    simp only [skipLength, List.length_cons]
    repeat' split
    all_goals omega

/-- Passing over an item in any case, and over what follows it, stays inside the text. -/
theorem passLength_le (column : Option Int) {c : Cursor} {i : Item} {is : List Item}
    (h : c.items = i :: is) : passLength column i is ≤ c.size := by
  have h₁ := skipLength_le column (({} : Nesting).passOver i is.head?) is
  rw [Cursor.size_eq h, passLength]
  omega

namespace Cursor

theorem resumeLength_le (c : Cursor) (column : Option Int) : c.resumeLength column ≤ c.size := by
  unfold resumeLength
  split
  · exact Nat.zero_le _
  · rename_i i is h
    split
    · exact Nat.zero_le _
    · exact passLength_le column h

end Cursor

/-! ## 3. Types and entities -/

theorem readTypeMark_le (c : Cursor) : (readTypeMark c).2 ≤ c.size := by
  unfold readTypeMark
  split
  · rename_i h
    rcases (Bool.or_eq_true _ _).mp h with h | h
    · exact Cursor.size_pos_of_atKeyword h
    · exact Cursor.size_pos_of_atSymbol h
  · split
    · rename_i h
      rcases (Bool.or_eq_true _ _).mp h with h | h
      · exact Cursor.size_pos_of_atKeyword h
      · exact Cursor.size_pos_of_atSymbol h
    · exact Nat.zero_le _

theorem qualifierLength_le : ∀ is : List Item, qualifierLength is ≤ is.length
  | [] => Nat.le_refl _
  | [_] => Nat.zero_le _
  | _ :: _ :: rest => by
    have ih := qualifierLength_le rest
    simp only [qualifierLength, List.length_cons]
    split <;> omega

theorem typeLength_le {c : Cursor} {n : Nat} (h : typeLength c = .ok n) : n ≤ c.size := by
  unfold typeLength at h
  split at h
  · split at h
    · rename_i hl hn
      have hpos : 0 < c.next.size := by
        rcases (Bool.or_eq_true _ _).mp hn with hn | hn
        · exact Cursor.size_pos_of_atIdentifier hn
        · exact Cursor.size_pos_of_atKeyword hn
      have hq : qualifierLength (c.drop 2).items ≤ (c.drop 2).size :=
        qualifierLength_le (c.drop 2).items
      cases h
      simp only [Cursor.size_next, Cursor.size_drop] at hpos hq
      omega
    · cases h
  · split at h
    · rename_i hn
      have hpos : 0 < c.size := by
        rcases (Bool.or_eq_true _ _).mp hn with hn | hn
        · exact Cursor.size_pos_of_atIdentifier hn
        · exact Cursor.size_pos_of_atKeyword hn
      have hb := c.next.bracketLength_le
      cases h
      simp only [Cursor.size_next] at hb
      omega
    · cases h

/-- The number of items of a type before its core: the mark, `separate` and `frozen`. -/
def typeSkipped (c : Cursor) : Nat :=
  let marks := (readTypeMark c).2
  let separate := (c.drop marks).optKeyword [.kwSeparate]
  marks + separate + (c.drop (marks + separate)).optKeyword [.kwFrozen]

theorem typeSkipped_le (c : Cursor) : typeSkipped c ≤ c.size := by
  have h₁ := readTypeMark_le c
  have h₂ := (c.drop (readTypeMark c).2).optKeyword_le [.kwSeparate]
  have h₃ := (c.drop ((readTypeMark c).2 +
    (c.drop (readTypeMark c).2).optKeyword [.kwSeparate])).optKeyword_le [.kwFrozen]
  simp only [typeSkipped, Cursor.size_drop] at h₂ h₃ ⊢
  omega

theorem readType_le {c : Cursor} {type : TypeRef} {n : Nat} (h : readType c = .ok (type, n)) :
    n ≤ c.size := by
  obtain ⟨k, hk, h⟩ := exists_of_bind_eq_ok h
  have hn : typeSkipped c + k = n := congrArg Prod.snd (Except.ok.inj h)
  have h₁ := typeSkipped_le c
  have h₂ : k ≤ (c.drop (typeSkipped c)).size := typeLength_le hk
  rw [Cursor.size_drop] at h₂
  omega

/-- Names and the commas between them stay inside the text. -/
theorem readNames_le {role : NameRole} {c : Cursor} {names : List Name}
    (h : readNames role c = .ok names) : 2 * names.length - 1 ≤ c.size := by
  induction c using readNames.induct role generalizing names with
  | case1 c hc _ hcomma rest hrest ih =>
    rw [readNames, dif_pos hc, if_pos hcomma, hrest] at h
    cases h
    have h₁ := ih hrest
    have h₂ := Cursor.size_pos_of_atSymbol hcomma
    simp only [Cursor.size_next, Cursor.size_drop, List.length_cons] at h₁ h₂ ⊢
    omega
  | case2 c hc _ hcomma e he ih =>
    rw [readNames, dif_pos hc, if_pos hcomma, he] at h
    cases h
  | case3 c hc _ hcomma =>
    rw [readNames, dif_pos hc, if_neg hcomma] at h
    cases h
    exact Cursor.size_pos_of_atIdentifier hc
  | case4 c hc =>
    rw [readNames, dif_neg hc] at h
    cases h

theorem readEntities_le {role : NameRole} {c : Cursor} {group : Taken (List Entity)}
    (h : readEntities role c = .ok group) : group.taken ≤ c.size := by
  obtain ⟨names, hnames, h⟩ := exists_of_bind_eq_ok h
  have h₁ := readNames_le hnames
  dsimp only at h
  split at h
  · rename_i hcolon
    obtain ⟨⟨type, k⟩, htype, h⟩ := exists_of_bind_eq_ok h
    have h₂ := Cursor.size_pos_of_atSymbol hcolon
    have h₃ := readType_le htype
    have h₄ := (c.drop (2 * names.length - 1 + 1 + k)).optSymbol_le [.semicolon]
    cases h
    simp only [Cursor.size_next, Cursor.size_drop] at h₂ h₃ h₄ ⊢
    omega
  · cases h

/-- The groups of arguments end in front of a parenthesis, so there is room for it. -/
theorem readArgumentGroups_lt {c : Cursor} {entities : List Entity} {n : Nat}
    (h : readArgumentGroups c = .ok (entities, n)) : n < c.size := by
  induction c using readArgumentGroups.induct generalizing entities n with
  | case1 c hclose =>
    rw [readArgumentGroups, if_pos hclose] at h
    cases h
    exact Cursor.size_pos_of_atSymbol hclose
  | case2 c hclose hc _ ih =>
    rw [readArgumentGroups, if_neg hclose, dif_pos hc] at h
    obtain ⟨group, hgroup, h⟩ := exists_of_bind_eq_ok h
    obtain ⟨⟨rest, k⟩, hrest, h⟩ := exists_of_bind_eq_ok h
    have h₁ := readEntities_le hgroup
    have h₂ := ih group hrest
    cases h
    rw [Cursor.size_drop] at h₂
    omega
  | case3 c hclose hc =>
    rw [readArgumentGroups, if_neg hclose, dif_neg hc] at h
    cases h

theorem readArguments_le {c : Cursor} {entities : List Entity} {n : Nat}
    (h : readArguments c = .ok (entities, n)) : n ≤ c.size := by
  unfold readArguments at h
  split at h
  · obtain ⟨⟨groups, k⟩, hgroups, h⟩ := exists_of_bind_eq_ok h
    have h₁ := readArgumentGroups_lt hgroups
    cases h
    rw [Cursor.size_next] at h₁
    omega
  · cases h
    exact Nat.zero_le _

theorem readLocalGroups_le {c : Cursor} {entities : List Entity} {n : Nat}
    (h : readLocalGroups c = .ok (entities, n)) : n ≤ c.size := by
  induction c using readLocalGroups.induct generalizing entities n with
  | case1 c hc _ ih =>
    rw [readLocalGroups, dif_pos hc] at h
    obtain ⟨group, hgroup, h⟩ := exists_of_bind_eq_ok h
    obtain ⟨⟨rest, k⟩, hrest, h⟩ := exists_of_bind_eq_ok h
    have h₁ := readEntities_le hgroup
    have h₂ := ih group hrest
    cases h
    rw [Cursor.size_drop] at h₂
    omega
  | case2 c hc =>
    rw [readLocalGroups, dif_neg hc] at h
    cases h
    exact Nat.zero_le _

theorem readLocals_le {c : Cursor} {entities : List Entity} {n : Nat}
    (h : readLocals c = .ok (entities, n)) : n ≤ c.size := by
  unfold readLocals at h
  split at h
  · rename_i hlocal
    obtain ⟨⟨groups, k⟩, hgroups, h⟩ := exists_of_bind_eq_ok h
    have h₁ := Cursor.size_pos_of_atKeyword hlocal
    have h₂ := readLocalGroups_le hgroups
    cases h
    rw [Cursor.size_next] at h₂
    omega
  · cases h
    exact Nat.zero_le _

/-! ## 4. Assertions and routines -/

theorem readBlock_le (g : BlockGrammar) {c : Cursor} (hc : 0 < c.size) :
    (readBlock g c).taken ≤ c.size := by
  have h₁ := c.next.optKeyword_le g.extension
  have h₂ := (c.drop (1 + c.next.optKeyword g.extension)).spanLength_le g.stops [.kwFeature]
  simp only [readBlock, Cursor.size_next, Cursor.size_drop] at h₁ h₂ ⊢
  omega

theorem readBlock?_le (g : BlockGrammar) (keyword : Keyword) (c : Cursor) :
    (readBlock? g keyword c).2 ≤ c.size := by
  unfold readBlock?
  split
  · exact readBlock_le g (Cursor.size_pos_of_atKeyword ‹_›)
  · exact Nat.zero_le _

theorem readOnceKeys_le (c : Cursor) : (readOnceKeys c).2 ≤ c.size := by
  unfold readOnceKeys
  split
  · exact Cursor.enclosed_le (Cursor.size_pos_of_atSymbol ‹_›) .closeParen
  · exact Nat.zero_le _

theorem externalLength_le {c : Cursor} {n : Nat} (h : externalLength c = .ok n) :
    n ≤ c.size := by
  unfold externalLength at h
  split at h
  · split at h
    · split at h
      · rename_i hstring
        have h₁ := Cursor.size_pos_of_atString hstring
        cases h
        rw [Cursor.size_drop] at h₁
        omega
      · cases h
    · cases h
      exact Cursor.size_pos_of_atString ‹_›
  · cases h

theorem readBody_le {c : Cursor} {body : Taken Body} (h : readBody c = .ok body) :
    body.taken ≤ c.size := by
  have hspan := c.next.bodyLength_le
  rw [Cursor.size_next] at hspan
  cases readBody_cases h with
  | instructions hat | attributive hat =>
    have hpos := Cursor.size_pos_of_atKeyword hat
    dsimp only
    omega
  | @once keys k hat hkeys =>
    have hpos := Cursor.size_pos_of_atKeyword hat
    have h₁ := hkeys ▸ readOnceKeys_le c.next
    have h₂ := (c.drop (1 + k)).bodyLength_le
    rw [Cursor.size_next] at h₁
    rw [Cursor.size_drop] at h₂
    dsimp only at h₁ ⊢
    omega
  | deferred hat => exact Cursor.size_pos_of_atKeyword hat
  | external hat hn =>
    have hpos := Cursor.size_pos_of_atKeyword hat
    have h₁ := externalLength_le hn
    rw [Cursor.size_next] at h₁
    dsimp only
    omega

theorem rescueLength_le (c : Cursor) : rescueLength c ≤ c.size := by
  unfold rescueLength
  split
  · have h₁ := Cursor.size_pos_of_atKeyword ‹_›
    have h₂ := c.next.bodyLength_le
    rw [Cursor.size_next] at h₂
    omega
  · exact Nat.zero_le _

/-- The parts of a routine, each read where the one before it ends. -/
theorem readRoutine_cases {c : Cursor} {routine : Taken Routine}
    (h : readRoutine c = .ok routine) : ∃ (n₁ n₂ n₄ n₅ : Nat) (body : Taken Body),
      readBlock? .precondition .kwRequire c = (routine.value.precondition, n₁) ∧
      readLocals (c.drop n₁) = .ok (routine.value.locals, n₂) ∧
      readBody (c.drop (n₁ + n₂)) = .ok body ∧ routine.value.body = body.value ∧
      readBlock? .postcondition .kwEnsure (c.drop (n₁ + n₂ + body.taken)) =
        (routine.value.postcondition, n₄) ∧
      rescueLength (c.drop (n₁ + n₂ + body.taken + n₄)) = n₅ ∧
      (c.drop (n₁ + n₂ + body.taken + n₄ + n₅)).atKeyword [.kwEnd] = true ∧
      routine.taken = n₁ + n₂ + body.taken + n₄ + n₅ + 1 := by
  unfold readRoutine at h
  generalize hrequire : readBlock? .precondition .kwRequire c = precondition at h
  obtain ⟨precondition, n₁⟩ := precondition
  obtain ⟨⟨locals, n₂⟩, hlocals, h⟩ := exists_of_bind_eq_ok h
  obtain ⟨body, hbody, h⟩ := exists_of_bind_eq_ok h
  dsimp only at h
  generalize hensure : readBlock? .postcondition .kwEnsure (c.drop (n₁ + n₂ + body.taken)) =
    postcondition at h
  obtain ⟨postcondition, n₄⟩ := postcondition
  dsimp only at h
  split at h
  · rename_i hend
    cases h
    exact ⟨n₁, n₂, n₄, _, body, rfl, hlocals, hbody, rfl, hensure, rfl, hend, rfl⟩
  · cases h

/-- The location at which a routine ends is that of its last item. -/
theorem readRoutine_endLocation {c : Cursor} {routine : Taken Routine}
    (h : readRoutine c = .ok routine) : ∃ n, routine.taken = n + 1 ∧ 0 < (c.drop n).size ∧
      routine.value.endLocation = (c.drop n).peek.location := by
  unfold readRoutine at h
  obtain ⟨⟨locals, n₂⟩, -, h⟩ := exists_of_bind_eq_ok h
  obtain ⟨body, -, h⟩ := exists_of_bind_eq_ok h
  dsimp only at h
  split at h
  · rename_i hend
    cases h
    exact ⟨_, rfl, Cursor.size_pos_of_atKeyword hend, rfl⟩
  · cases h

theorem readRoutine_le {c : Cursor} {routine : Taken Routine}
    (h : readRoutine c = .ok routine) : routine.taken ≤ c.size := by
  obtain ⟨n₁, n₂, n₄, n₅, body, hrequire, hlocals, hbody, -, hensure, hrescue, hend, htaken⟩ :=
    readRoutine_cases h
  have h₁ : n₁ ≤ c.size := by simpa [hrequire] using readBlock?_le .precondition .kwRequire c
  have h₂ := readLocals_le hlocals
  have h₃ := readBody_le hbody
  have h₄ : n₄ ≤ (c.drop (n₁ + n₂ + body.taken)).size := by
    simpa [hensure] using readBlock?_le .postcondition .kwEnsure (c.drop (n₁ + n₂ + body.taken))
  have h₅ := hrescue ▸ rescueLength_le (c.drop (n₁ + n₂ + body.taken + n₄))
  have h₆ := Cursor.size_pos_of_atKeyword hend
  simp only [Cursor.size_drop] at h₂ h₃ h₄ h₅ h₆
  omega

/-! ## 5. Declarations -/

theorem aliasLength_le {c : Cursor} {n : Nat} (h : aliasLength c = .ok n) : n ≤ c.size := by
  unfold aliasLength at h
  split at h
  · split at h
    · rename_i hstring
      have h₁ := Cursor.size_pos_of_atString hstring
      have h₂ := (c.drop 2).optKeyword_le [.kwConvert]
      cases h
      simp only [Cursor.size_next, Cursor.size_drop] at h₁ h₂
      omega
    · cases h
  · cases h
    exact Nat.zero_le _

theorem readDeclared_le {c : Cursor} {names : Taken (List (Name × Bool))}
    (h : readDeclared c = .ok names) : names.taken ≤ c.size := by
  fun_induction readDeclared c generalizing names with
  | case1 => cases h
  | case2 c frozen name hname hpos k hk declared hcomma rest hrest =>
    rename_i ih
    cases h
    have h₁ := ih hrest
    have h₂ := Cursor.size_pos_of_atSymbol hcomma
    rw [Cursor.size_drop] at h₁ h₂
    dsimp only
    omega
  | case3 => cases h
  | case4 c frozen name hname hpos k hk =>
    cases h
    have h₁ := aliasLength_le hk
    simp only [name, Cursor.size_next, Cursor.size_drop] at hpos h₁ ⊢
    omega
  | case5 => cases h

theorem readResult_le {c : Cursor} {type : Option TypeRef} {n : Nat}
    (h : readResult c = .ok (type, n)) : n ≤ c.size := by
  unfold readResult at h
  split at h
  · rename_i hcolon
    obtain ⟨⟨type, k⟩, htype, h⟩ := exists_of_bind_eq_ok h
    have h₁ := Cursor.size_pos_of_atSymbol hcolon
    have h₂ := readType_le htype
    cases h
    rw [Cursor.size_next] at h₂
    omega
  · cases h
    exact Nat.zero_le _

theorem assignerLength_le {c : Cursor} {n : Nat} (h : assignerLength c = .ok n) :
    n ≤ c.size := by
  unfold assignerLength at h
  split at h
  · split at h
    · rename_i hname
      have h₁ := Cursor.size_pos_of_atIdentifier hname
      cases h
      rw [Cursor.size_next] at h₁
      omega
    · cases h
  · cases h
    exact Nat.zero_le _

theorem obsoleteLength_le (c : Cursor) : obsoleteLength c ≤ c.size := by
  unfold obsoleteLength
  split
  · split
    · rename_i hstring
      have h₁ := Cursor.size_pos_of_atString hstring
      rw [Cursor.size_next] at h₁
      omega
    · exact Cursor.size_pos_of_atKeyword ‹_›
  · exact Nat.zero_le _

theorem noteLength_le {c : Cursor} {n : Nat} (h : noteLength c = .ok n) : n ≤ c.size := by
  unfold noteLength at h
  split at h
  · rename_i hnote
    dsimp only at h
    split at h
    · cases h
    · have h₁ := Cursor.size_pos_of_atKeyword hnote
      have h₂ := c.next.length_takeWhile_le fun i => !i.token.isKeyword routineKeywords
      cases h
      rw [Cursor.size_next] at h₂
      omega
  · cases h
    exact Nat.zero_le _

theorem readSignature_le {c : Cursor} {signature : Taken Signature}
    (h : readSignature c = .ok signature) : signature.taken ≤ c.size := by
  obtain ⟨names, hnames, h⟩ := exists_of_bind_eq_ok h
  obtain ⟨⟨parameters, n₁⟩, hparameters, h⟩ := exists_of_bind_eq_ok h
  obtain ⟨⟨returnType, n₂⟩, hresult, h⟩ := exists_of_bind_eq_ok h
  obtain ⟨n₃, hassigner, h⟩ := exists_of_bind_eq_ok h
  have h₀ := readDeclared_le hnames
  have h₁ := readArguments_le hparameters
  have h₂ := readResult_le hresult
  have h₃ := assignerLength_le hassigner
  cases h
  simp only [Cursor.size_drop] at h₁ h₂ h₃ ⊢
  omega

/-- The last item of a constant is its value. -/
theorem readConstant_cases {s : Signature} {c : Cursor} {declared : Taken Declaration}
    (h : readConstant s c = .ok declared) : ∃ last is,
      (c.drop (c.optSymbol [.minus, .plus])).items = last :: is ∧ isConstant last.token = true ∧
        declared.value = s.constants last ∧
        declared.taken = c.optSymbol [.minus, .plus] + 1 := by
  unfold readConstant at h
  split at h
  · cases h
  dsimp only at h
  split at h
  · rename_i last is hitems
    split at h
    · rename_i hconstant
      cases h
      exact ⟨last, is, hitems, hconstant, rfl, rfl⟩
    · cases h
  · cases h

theorem readConstant_le {s : Signature} {c : Cursor} {declared : Taken Declaration}
    (h : readConstant s c = .ok declared) : declared.taken ≤ c.size := by
  obtain ⟨last, is, hitems, -, -, htaken⟩ := readConstant_cases h
  have h₁ := Cursor.size_eq hitems
  rw [Cursor.size_drop] at h₁
  omega

theorem readFeatureBody_le {s : Signature} {last : Item} {c : Cursor} {declared : Declaration}
    {n : Nat} (h : readFeatureBody s last c = .ok (declared, n)) : n ≤ c.size := by
  obtain ⟨n₂, hnote, h⟩ := exists_of_bind_eq_ok h
  have h₁ := obsoleteLength_le c
  have h₂ := noteLength_le hnote
  rw [Cursor.size_drop] at h₂
  dsimp only at h
  split at h
  · obtain ⟨routine, hroutine, h⟩ := exists_of_bind_eq_ok h
    have h₃ := readRoutine_le hroutine
    cases h
    rw [Cursor.size_drop] at h₃
    omega
  · split at h
    · cases h
    · cases h
      omega

theorem readDeclaration_le {first : Item} {c : Cursor} {d : Taken Declaration}
    (h : readDeclaration first c = .ok d) : d.taken ≤ c.size := by
  unfold readDeclaration at h
  split at h
  · cases h
  · obtain ⟨signature, hsignature, h⟩ := exists_of_bind_eq_ok h
    have h₁ := readSignature_le hsignature
    dsimp only at h
    split at h
    · rename_i hequal
      obtain ⟨declared, hdeclared, h⟩ := exists_of_bind_eq_ok h
      have h₂ := Cursor.size_pos_of_atSymbol hequal
      have h₃ := readConstant_le hdeclared
      cases h
      simp only [Cursor.size_next, Cursor.size_drop] at h₂ h₃ ⊢
      omega
    · obtain ⟨⟨declared, k⟩, hbody, h⟩ := exists_of_bind_eq_ok h
      have h₂ := (c.drop signature.taken).optKeyword_le [.kwIs]
      have h₃ := readFeatureBody_le hbody
      cases h
      simp only [Cursor.size_drop] at h₂ h₃ ⊢
      omega

/-- The first items of a cursor have a last one. -/
theorem Cursor.exists_last? {c : Cursor} {n : Nat} (hn : 0 < n) (hle : n ≤ c.size) :
    ∃ last, c.last? n = some last := by
  have hne : c.items.take n ≠ [] := by
    intro h
    have hlength := congrArg List.length h
    rw [List.length_take, List.length_nil, ← Cursor.size] at hlength
    omega
  exact ⟨_, List.getLast?_eq_some_getLast hne⟩

/-- The parts of a declaration.  After the signature, `n` items on, stands the value of a constant
or a routine; an attribute ends with its signature. -/
theorem readDeclaration_parts {first : Item} {c : Cursor} {d : Taken Declaration}
    (h : readDeclaration first c = .ok d) :
    ∃ signature, readSignature c = .ok signature ∧ ∃ n, signature.taken ≤ n ∧ ∃ last,
      ((∃ is, (c.drop n).items = last :: is ∧ d.value = signature.value.constants last ∧
          d.taken = n + 1) ∨
        (c.last? n = some last ∧ d.value = signature.value.attributes last ∧
          signature.value.returnType.isNone = false ∧ n ≤ d.taken) ∨
        ∃ routine, readRoutine (c.drop n) = .ok routine ∧
          d.value = signature.value.routines last routine.value ∧
          d.taken = n + routine.taken) := by
  unfold readDeclaration at h
  split at h
  · cases h
  obtain ⟨signature, hsignature, h⟩ := exists_of_bind_eq_ok h
  refine ⟨signature, hsignature, ?_⟩
  dsimp only at h
  split at h
  · obtain ⟨declared, hdeclared, h⟩ := exists_of_bind_eq_ok h
    obtain ⟨last, is, hitems, -, hvalue, htaken⟩ := readConstant_cases hdeclared
    generalize (c.drop signature.taken).next.optSymbol [.minus, .plus] = k at hitems htaken
    cases h
    refine ⟨signature.taken + 1 + k, by omega, last, .inl ⟨is, ?_, hvalue, ?_⟩⟩
    · rw [Cursor.next, ← Cursor.drop_add, ← Cursor.drop_add] at hitems
      rwa [Nat.add_assoc]
    · dsimp only
      omega
  · obtain ⟨⟨declared, k⟩, hbody, h⟩ := exists_of_bind_eq_ok h
    cases h
    -- the signature is not empty, so the item at which it ends is one of its own
    have hle := readSignature_le hsignature
    have his := (c.drop signature.taken).optKeyword_le [.kwIs]
    rw [Cursor.size_drop] at his
    obtain ⟨last, hlast⟩ := Cursor.exists_last? (c := c)
      (n := signature.taken + (c.drop signature.taken).optKeyword [.kwIs])
      (Nat.add_pos_left signature.taken_pos _) (by omega)
    rw [hlast, Option.getD_some] at hbody
    obtain ⟨n₂, -, hbody⟩ := exists_of_bind_eq_ok hbody
    dsimp only at hbody
    split at hbody
    · obtain ⟨routine, hroutine, hbody⟩ := exists_of_bind_eq_ok hbody
      cases hbody
      rw [← Cursor.drop_add] at hroutine
      refine ⟨_, ?_, last, .inr (.inr ⟨routine, hroutine, rfl, ?_⟩)⟩
      · omega
      · dsimp only
        omega
    · split at hbody
      · cases hbody
      · rename_i htyped
        cases hbody
        refine ⟨_, Nat.le_add_right _ _, last, .inr (.inl ⟨hlast, rfl, ?_, ?_⟩)⟩
        · exact Bool.eq_false_iff.mpr htyped
        · exact Nat.le_add_right _ _

/-- What a declaration adds to its signature: a constant, an attribute or a routine. -/
theorem readDeclaration_cases {first : Item} {c : Cursor} {d : Taken Declaration}
    (h : readDeclaration first c = .ok d) :
    ∃ signature, readSignature c = .ok signature ∧ ∃ last,
      d.value = signature.value.constants last ∨ d.value = signature.value.attributes last ∨
        ∃ n routine, readRoutine (c.drop n) = .ok routine ∧
          d.value = signature.value.routines last routine.value := by
  obtain ⟨signature, hsignature, n, -, last, h⟩ := readDeclaration_parts h
  refine ⟨signature, hsignature, last, ?_⟩
  rcases h with ⟨-, -, hd, -⟩ | ⟨-, hd, -⟩ | ⟨routine, hroutine, hd, -⟩
  · exact .inl hd
  · exact .inr (.inl hd)
  · exact .inr (.inr ⟨n, routine, hroutine, hd⟩)

theorem readFeatures_le (c : Cursor) : (readFeatures c).taken ≤ c.size := by
  fun_induction readFeatures c with
  | case1 => exact Nat.zero_le _
  | case2 => exact Nat.zero_le _
  | case3 c i is hc hpos hi d hd rest ih =>
    have h₁ := readDeclaration_le hd
    have h₂ : rest.taken ≤ (c.drop d.taken).size := ih
    rw [Cursor.size_drop] at h₂
    dsimp only
    omega
  | case4 c i is hc hpos hi e he n rest ih =>
    have h₁ : n ≤ c.size := passLength_le (some i.token.column) hc
    have h₂ : rest.taken ≤ (c.drop n).size := ih
    rw [Cursor.size_drop] at h₂
    dsimp only
    omega

/-! ## 6. Clauses and the class -/

theorem readClients_le (c : Cursor) : (readClients c).2 ≤ c.size := by
  unfold readClients
  split
  · exact Cursor.enclosed_le (Cursor.size_pos_of_atSymbol ‹_›) .closeBrace
  · exact Nat.zero_le _

theorem adaptationLength_le {c : Cursor} {n : Nat} (h : adaptationLength c = .ok n) :
    n ≤ c.size := by
  unfold adaptationLength at h
  split at h
  · dsimp only at h
    split at h
    · cases h
    · split at h
      · rename_i hend
        have h₁ := Cursor.size_pos_of_atKeyword hend
        cases h
        rw [Cursor.size_drop] at h₁
        omega
      · cases h
  · cases h
    exact Nat.zero_le _

theorem readParents_le {c : Cursor} {parents : List Name} {n : Nat}
    (h : readParents c = .ok (parents, n)) : n ≤ c.size := by
  fun_induction readParents c generalizing parents n with
  | case1 =>
    cases h
    exact Nat.zero_le _
  | case2 c hend hpos hname k =>
    rename_i ih
    obtain ⟨m, hm, h⟩ := exists_of_bind_eq_ok h
    obtain ⟨⟨rest, l⟩, hrest, h⟩ := exists_of_bind_eq_ok h
    have h₁ := c.next.bracketLength_le
    have h₂ := adaptationLength_le hm
    have h₃ := ih m hrest
    cases h
    simp only [k, Cursor.size_next, Cursor.size_drop] at h₁ h₂ h₃ ⊢
    omega
  | case3 c hend hpos hname hsemicolon ih =>
    obtain ⟨⟨rest, l⟩, hrest, h⟩ := exists_of_bind_eq_ok h
    have h₁ := ih hrest
    cases h
    rw [Cursor.size_next] at h₁
    omega
  | case4 =>
    cases h
    exact Nat.zero_le _
  | case5 => cases h

theorem readCreators_le {c : Cursor} {names : List Name} {n : Nat}
    (h : readCreators c = .ok (names, n)) : n ≤ c.size := by
  fun_induction readCreators c generalizing names n with
  | case1 c hname hpos hcomma hnext rest k hrest ih =>
    have h₁ := ih hrest
    have h₂ := Cursor.size_pos_of_atIdentifier hnext
    cases h
    rw [Cursor.size_drop] at h₁ h₂
    omega
  | case2 => cases h
  | case3 => cases h
  | case4 c hname hpos hcomma =>
    cases h
    exact hpos
  | case5 =>
    cases h
    exact Nat.zero_le _

theorem readNameClause_le {readList : Cursor → Except SyntaxError (List Name × Nat)}
    (hlist : ∀ {c names n}, readList c = .ok (names, n) → n ≤ c.size) {c : Cursor}
    (hc : 0 < c.size) {names : Taken (List Name)} (h : readNameClause readList c = .ok names) :
    names.taken ≤ c.size := by
  obtain ⟨⟨list, k⟩, hk, h⟩ := exists_of_bind_eq_ok h
  have h₁ := readClients_le c.next
  have h₂ : k ≤ (c.drop (1 + (readClients c.next).2)).size := hlist hk
  have hn : 1 + (readClients c.next).2 + k = names.taken := congrArg Taken.taken (Except.ok.inj h)
  simp only [Cursor.size_next, Cursor.size_drop] at h₁ h₂
  omega

theorem readFeatureClause_le {c : Cursor} (hc : 0 < c.size) :
    (readFeatureClause c).taken ≤ c.size := by
  have h₁ := readClients_le c.next
  have h₂ := readFeatures_le (c.drop (1 + (readClients c.next).2))
  simp only [readFeatureClause, Cursor.size_next, Cursor.size_drop] at h₁ h₂ ⊢
  omega

theorem conversionLength_le {c : Cursor} (hc : 0 < c.size) : conversionLength c ≤ c.size := by
  have h₁ := c.next.length_takeWhile_le fun i => !i.token.isKeyword boundaryKeywords
  rw [Cursor.size_next] at h₁
  rw [conversionLength]
  omega

theorem classNoteLength_le {c : Cursor} (hc : 0 < c.size) : classNoteLength c ≤ c.size := by
  have h₁ := c.next.length_takeWhile_le fun i =>
    !(i.startsLine && i.token.isKeyword (classMarks ++ [.kwClass, .kwEnd] ++ clauseKeywords))
  rw [Cursor.size_next] at h₁
  simp only [classNoteLength]
  omega

/-- What is passed over behind the keyword of a faulty clause, the keyword included. -/
theorem resumeBehind_le {c : Cursor} (hc : 0 < c.size) :
    1 + c.next.resumeLength none ≤ c.size := by
  have h₁ := c.next.resumeLength_le none
  rw [Cursor.size_next] at h₁
  omega

theorem readPart_le {c : Cursor} {i : Item} {is : List Item} (hc : c.items = i :: is) :
    (readPart i is c).taken ≤ c.size := by
  have hpos : 0 < c.size := by rw [Cursor.size_eq hc]; exact Nat.succ_pos _
  generalize hr : readPart i is c = r
  cases readPart_cases hr with
  | parents _ hnames => exact readNameClause_le readParents_le hpos hnames
  | creators _ hnames => exact readNameClause_le readCreators_le hpos hnames
  | faultyParents | faultyCreators => exact resumeBehind_le hpos
  | conversion => exact conversionLength_le hpos
  | features => exact readFeatureClause_le hpos
  | invariant => exact readBlock_le .classInvariant hpos
  | note => exact classNoteLength_le hpos
  | loose => exact readFeatures_le c
  | unexpected => exact passLength_le none hc

theorem readParts_le (c : Cursor) : (readParts c).taken ≤ c.size := by
  fun_induction readParts c with
  | case1 => exact Nat.zero_le _
  | case2 => exact Nat.zero_le _
  | case3 c i is hc hend hpos htaken part rest ih =>
    have h₁ : part.taken ≤ c.size := readPart_le hc
    have h₂ : rest.taken ≤ (c.drop part.taken).size := ih
    rw [Cursor.size_drop] at h₂
    dsimp only
    omega

theorem readHeader_le {c : Cursor} {header : Header} {n : Nat}
    (h : readHeader c = .ok (header, n)) : n ≤ c.size := by
  unfold readHeader at h
  dsimp only at h
  split at h
  · split at h
    · rename_i hname
      have h₁ := Cursor.size_pos_of_atIdentifier hname
      cases h
      rw [Cursor.size_next, Cursor.size_drop] at h₁
      omega
    · cases h
  · cases h

theorem recoverHeader_le (c : Cursor) : (recoverHeader c).taken ≤ c.size := by
  unfold recoverHeader
  split
  · exact readHeader_le ‹_›
  · exact c.resumeLength_le none

/-! ## 7. Agents -/

theorem matchingFrom_lt {opening close : Symbol} : ∀ {depth : Nat} {ts : List Token} {n : Nat},
    matchingFrom opening close depth ts = some n → n < ts.length
  | _, [], _, h => by cases h
  | depth, t :: ts, n, h => by
    simp only [matchingFrom] at h
    split at h
    · obtain ⟨m, hm, rfl⟩ := Option.map_eq_some_iff.mp h
      exact Nat.succ_lt_succ (matchingFrom_lt hm)
    split at h
    · split at h
      · cases h
        exact Nat.succ_pos _
      · obtain ⟨m, hm, rfl⟩ := Option.map_eq_some_iff.mp h
        exact Nat.succ_lt_succ (matchingFrom_lt hm)
    · obtain ⟨m, hm, rfl⟩ := Option.map_eq_some_iff.mp h
      exact Nat.succ_lt_succ (matchingFrom_lt hm)

/-- A chain and the dots between its parts stay inside the span. -/
theorem length_chain_le (ts : List Token) : 2 * (chain ts).length - 1 ≤ ts.length := by
  fun_induction chain ts with
  | case1 p d q ts hp hd ih =>
    simp only [List.length_cons] at ih ⊢
    omega
  | case2 => simp
  | case3 => simp
  | case4 => simp
  | case5 => simp
  | case6 => simp

theorem readCall_le (keyword : Token) (target : Target) {ts : List Token} {skip : Nat}
    (hskip : skip ≤ ts.length) : (readCall keyword target ts skip).2 ≤ ts.length := by
  have hchain := length_chain_le (ts.drop skip)
  rw [List.length_drop] at hchain
  have hpassed : skip + (2 * (chain (ts.drop skip)).length - 1) ≤ ts.length := by omega
  unfold readCall
  dsimp only
  split
  · exact hpassed
  split
  · exact hpassed
  split
  · exact hpassed
  rename_i paren inner hrest
  split
  · split
    · exact Nat.le_refl _
    · rename_i close hclose
      have h₁ := matchingFrom_lt hclose
      rw [← hrest, List.length_drop] at h₁
      dsimp only
      omega
  · exact hpassed

/-- **An agent takes no more tokens than its span has.** -/
theorem readAgent_le (keyword : Token) (ts : List Token) :
    (readAgent keyword ts).2 ≤ ts.length := by
  unfold readAgent
  split
  · exact Nat.le_refl _
  rename_i t rest
  split
  · exact Nat.zero_le _
  split
  · split
    · exact Nat.succ_le_succ (Nat.zero_le _)
    · rename_i close hclose
      have h₁ := matchingFrom_lt hclose
      split
      · exact h₁
      · rename_i after hafter
        obtain ⟨h₂, -⟩ := List.getElem?_eq_some_iff.mp hafter
        split
        · exact h₁
        split
        · exact readCall_le _ _ h₂
        · exact h₁
  split
  · split
    · exact Nat.succ_le_succ (Nat.zero_le _)
    · rename_i close hclose
      split
      · rename_i hdot
        obtain ⟨after, hafter, -⟩ := (Option.any_eq_true _ _).mp hdot
        obtain ⟨h₂, -⟩ := List.getElem?_eq_some_iff.mp hafter
        exact readCall_le _ _ h₂
      · exact Nat.succ_le_succ (Nat.zero_le _)
  · exact readCall_le _ _ (Nat.zero_le _)

end ContractLint
