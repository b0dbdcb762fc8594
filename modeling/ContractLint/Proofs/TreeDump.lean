/-
# The tree dump reads back

A dump writes names as bare symbols and all other text in quotes.  A name that is no word would break
it: an empty one would vanish, `12` would come back as a number, and a space or a bracket would change
the shape of the form around it.  A tree can hold such names, a tree that was read from a text cannot,
however often reading resumed.  All that the grammar copies as a name is the text of an identifier, or
of the one keyword that may stand for a parent, and both are words (`Source.isWord_text`).  Only a
missing name is no word, and it is dumped as an empty text.

`Source.words` says this as a likeness of a text to itself, so `parse_alike` brings it to every name
of the tree, in every production.  The lemmas of section 2 go through the dump form by form, and
`dump_reads_back` reads the whole.
-/
import ContractLint.Proofs.LikeReadings
import ContractLint.Proofs.SexpReader
import ContractLint.Proofs.Spelling
import ContractLint.Tree.Dump

namespace ContractLint

open Sexp (Readable isSymbolName)

/-! ## 1. The names of a tree -/

/-- A name that is a word, or missing. -/
def IsWordOrEmpty (text : String) : Prop :=
  text = "" ∨ IsWord text.toList

/-- Every token of a text is like itself, and what names are copied from is a word. -/
def Source.words (s : Source) : Likeness where
  token t u := t ∈ s.lex.tokens ∧ t = u
  place _ _ := True
  name a b := a = b ∧ IsWordOrEmpty a
  parent a b := a = b ∧ IsWordOrEmpty a
  -- All other text is dumped in quotes.
  text _ _ := True
  remark _ _ := True
  kind_eq := fun h => h.2 ▸ rfl
  fault_eq := fun h => h.2 ▸ rfl
  column_eq := fun h => h.2 ▸ rfl
  line_lt_iff := fun h h' => h.2 ▸ h'.2 ▸ Iff.rfl
  commentText_eq := fun h _ => h.2 ▸ rfl
  value_eq := fun h _ => h.2 ▸ rfl
  place_token := fun _ => trivial
  name_token := fun h hkind =>
    ⟨h.2 ▸ rfl, .inr (isWord_text _ h.1 (by rw [hkind]; rfl))⟩
  name_empty := ⟨rfl, .inl rfl⟩
  parent_token := fun h hkind =>
    ⟨h.2 ▸ rfl, .inr (isWord_text _ h.1 (by rcases hkind with hkind | hkind <;> rw [hkind] <;> rfl))⟩
  text_token := fun _ => trivial
  text_render := fun _ => trivial
  text_dot := fun _ _ => trivial
  remark_token := fun _ _ => trivial

/-! ## 2. The forms of a dump -/

theorem isSymbolName_of_isWord {cs : List Char} (h : IsWord cs) : isSymbolName cs = true := by
  obtain ⟨c, tail, rfl, hc, htail⟩ := h
  rw [isSymbolName, hc, Bool.true_and, List.all_eq_true]
  intro d hd
  rw [Sexp.isBare, htail d hd, Bool.true_or]

namespace Dump

variable {s : Source}

theorem readable_name {text : String} (h : IsWordOrEmpty text) : (name text).Readable := by
  unfold name
  split
  · exact .text _
  · rename_i hne
    exact .symbol (isSymbolName_of_isWord (h.resolve_left fun heq => hne (beq_iff_eq.mpr heq)))

theorem readable_form {head : String} (hhead : isSymbolName head.toList = true) {parts : List Sexp}
    (h : ∀ e ∈ parts, e.Readable) : (form head parts).Readable :=
  .list (List.forall_mem_cons.mpr ⟨.symbol hhead, h⟩)

theorem readable_optional {head : String} (hhead : isSymbolName head.toList = true)
    {parts : List Sexp} (h : ∀ e ∈ parts, e.Readable) : ∀ e ∈ optional head parts, e.Readable := by
  unfold optional
  split
  · exact List.forall_mem_nil _
  · exact List.forall_mem_singleton.mpr (readable_form hhead h)

theorem readable_place (l : Location) : (place l).Readable :=
  readable_form (by decide) (List.forall_mem_cons.mpr
    ⟨.number _, List.forall_mem_singleton.mpr (.number _)⟩)

theorem readable_tagged {head value : String} (hhead : isSymbolName head.toList = true)
    (hvalue : isSymbolName value.toList = true) : (tagged head value).Readable :=
  readable_form hhead (List.forall_mem_singleton.mpr (.symbol hvalue))

theorem readable_block (b : AssertionBlock) : (block b).Readable := by
  have hkind : isSymbolName b.kind.label.toList = true := by
    cases b.kind <;> decide
  refine readable_form hkind (List.forall_mem_append.mpr ⟨?_, List.forall_mem_map.mpr fun a _ => ?_⟩)
  · split
    · exact List.forall_mem_singleton.mpr (.symbol (by decide))
    · exact List.forall_mem_nil _
  · exact readable_form (by decide) (List.forall_mem_cons.mpr
      ⟨.text _, List.forall_mem_singleton.mpr (readable_place _)⟩)

theorem readable_target (t : Target) : (target t).Readable := by
  have hpair : ∀ kind text, isSymbolName kind.toList = true →
      (form "target" [.symbol kind, Sexp.ofString text]).Readable :=
    fun kind text hkind => readable_form (by decide) (List.forall_mem_cons.mpr
      ⟨.symbol hkind, List.forall_mem_singleton.mpr (.text _)⟩)
  cases t with
  | implicit => exact hpair _ _ (by decide)
  | closed text => exact hpair _ _ (by decide)
  | ofType text => exact hpair _ _ (by decide)

theorem readable_arguments (as : Option (List AgentArgument)) : (arguments as).Readable := by
  cases as with
  | none => exact .symbol (by decide)
  | some as =>
    refine readable_form (by decide) (List.forall_mem_map.mpr fun a _ => .symbol ?_)
    cases a.isOpen <;> decide

theorem readable_agent {a : Agent} (h : Agent.Alike s.words a a) : (agent a).Readable := by
  cases h with
  | inline =>
    exact readable_form (by decide) (List.forall_mem_cons.mpr
      ⟨readable_place _, List.forall_mem_singleton.mpr (.symbol (by decide))⟩)
  | call _ _ feature _ =>
    exact readable_form (by decide) (List.forall_mem_cons.mpr
      ⟨readable_place _, List.forall_mem_cons.mpr ⟨readable_target _, List.forall_mem_cons.mpr
        ⟨readable_name feature.2, List.forall_mem_singleton.mpr (readable_arguments _)⟩⟩⟩)

theorem readable_quantifier {q : Quantifier} (h : Quantifier.Alike s.words q q) :
    (quantifier q).Readable := by
  have hcursor : IsWordOrEmpty ((q.cursor.map Name.text).getD "") := by
    cases hq : q.cursor with
    | none => exact .inl rfl
    | some n => exact (rel_self_of_mem h.cursor n hq).text.2
  have hform : isSymbolName
      (if q.isWellFormed then "well-formed" else "malformed").toList = true := by
    cases q.isWellFormed <;> decide
  exact readable_form (by decide) (List.forall_mem_cons.mpr
    ⟨.text _, List.forall_mem_cons.mpr ⟨readable_name hcursor, List.forall_mem_cons.mpr
      ⟨.symbol hform, List.forall_mem_singleton.mpr (readable_place _)⟩⟩⟩)

theorem readable_feature {f : Feature} (h : Feature.Alike s.words f f) : (feature f).Readable := by
  have hkind : isSymbolName (if f.isQuery then "query" else "command").toList = true := by
    cases f.isQuery <;> decide
  have hbody : isSymbolName f.body.label.toList = true := by
    cases f.body <;> simp only [Body.label] <;> decide
  refine readable_form (by decide) ?_
  simp only [List.forall_mem_append]
  refine ⟨⟨⟨⟨⟨⟨⟨?_, ?_⟩, ?_⟩, ?_⟩, ?_⟩, ?_⟩, ?_⟩, ?_⟩
  · simp only [List.forall_mem_cons]
    exact ⟨readable_name h.name.text.2, readable_tagged (by decide) hkind,
      readable_tagged (by decide) hbody, readable_place _, List.forall_mem_nil _⟩
  · refine readable_optional (by decide) (List.forall_mem_map.mpr fun p hp => .list ?_)
    have hname := (List.forall₂_same.mp h.parameters p hp).name.text.2
    exact List.forall_mem_cons.mpr
      ⟨readable_name hname, List.forall_mem_singleton.mpr (.text _)⟩
  · exact List.forall_mem_map.mpr fun t _ =>
      readable_form (by decide) (List.forall_mem_singleton.mpr (.text _))
  · exact readable_optional (by decide) (List.forall_mem_map.mpr fun k _ => .text k)
  · split
    · exact List.forall_mem_nil _
    · exact List.forall_mem_singleton.mpr
        (readable_form (by decide) (List.forall_mem_singleton.mpr (.number _)))
  · exact List.forall_mem_map.mpr fun b _ => readable_block b
  · exact List.forall_mem_map.mpr fun a ha => readable_agent (List.forall₂_same.mp h.agents a ha)
  · exact List.forall_mem_map.mpr fun q hq =>
      readable_quantifier (List.forall₂_same.mp h.quantifiers q hq)

theorem readable_clause {c : Clause} (h : Clause.Alike s.words c c) : (clause c).Readable := by
  have hkind : isSymbolName c.kind.label.toList = true := by
    cases c.kind <;> decide
  refine readable_form (by decide) (List.forall_mem_append.mpr
    ⟨List.forall_mem_cons.mpr ⟨.symbol hkind, ?_⟩, ?_⟩)
  · exact List.forall_mem_map.mpr fun text _ => .text _
  · exact List.forall_mem_map.mpr fun f hf =>
      readable_feature (List.forall₂_same.mp h.features f hf)

/-- Names that are words, or missing, are dumped as such. -/
theorem readable_names {ns : List Name} (h : ∀ n ∈ ns, IsWordOrEmpty n.text) :
    ∀ e ∈ ns.map fun n => name n.text, e.Readable :=
  List.forall_mem_map.mpr fun n hn => readable_name (h n hn)

theorem readable_classDecl {c : ClassDecl} (h : ClassDecl.Alike s.words c c) :
    (classDecl c).Readable := by
  have hkind : isSymbolName c.kind.label.toList = true := by
    cases c.kind <;> decide
  have hnames {ns : List Name} {spelled : String → String → Prop}
      (hspelled : ∀ a, spelled a a → IsWordOrEmpty a)
      (hns : List.Forall₂ (Name.Alike s.words spelled) ns ns) :
      ∀ e ∈ ns.map fun n => name n.text, e.Readable :=
    readable_names fun n hn => hspelled _ (List.forall₂_same.mp hns n hn).text
  refine readable_form (by decide) ?_
  simp only [List.forall_mem_append]
  refine ⟨⟨⟨⟨⟨?_, ?_⟩, ?_⟩, ?_⟩, ?_⟩, ?_⟩
  · simp only [List.forall_mem_cons]
    exact ⟨readable_name h.name.text.2, readable_tagged (by decide) hkind, readable_place _,
      List.forall_mem_nil _⟩
  · exact readable_optional (by decide) (hnames (fun _ ha => ha.2) h.generics)
  · exact readable_optional (by decide) (hnames (fun _ ha => ha.2) h.parents)
  · exact readable_optional (by decide) (hnames (fun _ ha => ha.2) h.creators)
  · exact List.forall_mem_map.mpr fun clause hclause =>
      readable_clause (List.forall₂_same.mp h.clauses clause hclause)
  · exact List.forall_mem_map.mpr fun i _ => readable_block i.block

end Dump

/-! ## 3. The dump of a text -/

/-- The tree of every text is dumped with words as symbols. -/
theorem Source.readable_toSexp (s : Source) : s.lex.parse.tree.toSexp.Readable := by
  have halike : Parsed.Alike s.words s.lex.parse s.lex.parse :=
    parse_alike (List.forall₂_same.mpr fun _ ht => ⟨ht, rfl⟩)
  refine Dump.readable_form (by decide) (List.forall_mem_cons.mpr ⟨.text _, ?_⟩)
  exact List.forall_mem_map.mpr fun c hc =>
    Dump.readable_classDecl (List.forall₂_same.mp halike.classes c hc)

/-- **The tree dump reads back.**  The dump of the tree of every text is one S-expression.  Its
symbols are words, and a reader of lists, bare symbols, decimal integers and quoted texts with their
seven escapes recovers the very expression that was written. -/
theorem dump_reads_back (raw path : String) :
    let t := (Source.ofString raw path).lex.parse.tree
    t.toSexp.Readable ∧ Sexp.read t.dump = some t.toSexp := by
  intro t
  have hreadable := (Source.ofString raw path).readable_toSexp
  exact ⟨hreadable, Sexp.read_render hreadable⟩

end ContractLint
