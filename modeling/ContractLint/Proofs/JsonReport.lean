/-
# The JSON report is faithful

A report is made for other programs, and these see nothing of a finding but its object.  So what has
to hold is said of a reader (`Json.read`): it gets back an array with one object for each finding, the
object has the keys that it should have and no others, and their values are those of the finding
(`told`).  Objects have no order, and a key that comes twice would have two values; so an object is
right when its members are those of `told` in some order, and no key comes twice.

The layout is spaces and line ends between signs, which the lexer passes over.  They matter at one
place: a number is pending until the comma or the line end behind it (`lexes_joinLines`).

Two reports that are equal are read alike, so nothing of a finding is lost (`json_faithful`).
-/
import ContractLint.Proofs.JsonReader

namespace ContractLint

open List (Forall₂)
open Json (Sign Lexes Parses commas)

/-- What a finding tells, under the keys of its object. -/
def Diagnostic.told (d : Diagnostic) : List (String × Json) :=
  [("file", Json.text d.path), ("line", Json.number d.location.line),
    ("column", Json.number d.location.column), ("severity", Json.text d.severity.label),
    ("rule", Json.text d.rule), ("message", Json.text d.message)] ++
  match d.fix with
  | some fix => if fix = "" then [] else [("fix", Json.text fix)]
  | none => []

namespace Report

/-! ## 1. Objects -/

/-- The value of a key as a value of JSON. -/
def Scalar.toJson : Scalar → Json
  | number n => .number n
  | text s => .text s

/-- The members of the object of a finding, as they are written. -/
def members (d : Diagnostic) : List (String × Json) :=
  (fields d).map fun field => (field.1, field.2.toJson)

theorem members_eq (d : Diagnostic) : members d =
    [("column", Json.number d.location.column), ("file", Json.text d.path)] ++
      d.advice?.toList.map (fun fix => ("fix", Json.text fix)) ++
      [("line", Json.number d.location.line), ("message", Json.text d.message),
        ("rule", Json.text d.rule), ("severity", Json.text d.severity.label)] := by
  cases h : d.advice? <;> simp [members, fields, h, Scalar.toJson]

theorem told_eq (d : Diagnostic) : d.told =
    [("file", Json.text d.path), ("line", Json.number d.location.line),
      ("column", Json.number d.location.column), ("severity", Json.text d.severity.label),
      ("rule", Json.text d.rule), ("message", Json.text d.message)] ++
    d.advice?.toList.map (fun fix => ("fix", Json.text fix)) := by
  unfold Diagnostic.told Diagnostic.advice?
  cases d.fix with
  | none => rfl
  | some fix => by_cases h : fix = "" <;> simp [h, Option.filter]

theorem nodup_keys_members (d : Diagnostic) : ((members d).map Prod.fst).Nodup := by
  rw [members_eq]
  cases d.advice? <;> simp

/-- **An object has the members that it should have.** -/
theorem members_perm_told (d : Diagnostic) : (members d).Perm d.told := by
  have htold : (d.told.map Prod.fst).Nodup := by
    rw [told_eq]
    cases d.advice? <;> simp
  refine (List.perm_ext_iff_of_nodup (nodup_keys_members d).of_map htold.of_map).mpr fun m => ?_
  rw [members_eq, told_eq]
  simp only [List.mem_append, List.mem_cons, List.not_mem_nil, or_false]
  tauto

/-- The members of an object say what the finding tells. -/
theorem told_eq_of_members_eq {d e : Diagnostic} (h : members d = members e) : d.told = e.told := by
  rw [members_eq, members_eq] at h
  rw [told_eq, told_eq]
  cases hd : d.advice? <;> cases he : e.advice? <;> simp_all

/-! ## 2. Reading a report -/

theorem lexes_scalar (v : Scalar) : Lexes v.render [.scalar v.toJson] := by
  cases v with
  | number n => exact Json.lexes_number n
  | text s => exact Json.lexes_string s

theorem lexes_fieldLine (field : String × Scalar) :
    Lexes (fieldLine field) (Parses.member (field.1, field.2.toJson)) := by
  have hindent : ∀ c ∈ List.replicate 4 ' ', Json.isSpace c = true := fun c hc => by
    rw [List.eq_of_mem_replicate hc]
    rfl
  have hkey := (Json.lexes_string field.1).spaces hindent
  have hvalue : Lexes (':' :: ' ' :: field.2.render) [.colon, .scalar field.2.toJson] :=
    ((lexes_scalar field.2).space rfl).sign rfl
  exact hkey.append hvalue fun c hc => Option.some.inj hc ▸ rfl

/-- Pieces with a comma and a line end between them. -/
theorem lexes_joinLines {pieces : List (List Char)} {parts : List (List Sign)}
    (h : Forall₂ Lexes pieces parts) : Lexes (joinLines pieces) (commas parts) := by
  induction h with
  | nil => exact .nil
  | @cons piece part pieces parts hpiece hrest ih =>
    cases hrest with
    | nil => exact hpiece
    | @cons next part' pieces parts hnext hrest =>
      have hbehind : Lexes (',' :: '\n' :: joinLines (next :: pieces))
          (.comma :: commas (part' :: parts)) := (ih.space rfl).sign rfl
      exact hpiece.append hbehind fun c hc => Option.some.inj hc ▸ rfl

/-- The signs of the object of a finding. -/
def objectSigns (d : Diagnostic) : List Sign :=
  Sign.openObject :: commas ((members d).map Parses.member) ++ [Sign.closeObject]

theorem lexes_object (d : Diagnostic) : Lexes (object d) (objectSigns d) := by
  have hmembers : Lexes (joinLines ((fields d).map fieldLine))
      (commas ((members d).map Parses.member)) := by
    refine lexes_joinLines ?_
    rw [members, List.map_map]
    exact List.forall₂_map_left_iff.mpr (List.forall₂_map_right_iff.mpr
      (List.forall₂_same.mpr fun field _ => lexes_fieldLine field))
  have hclosing : Lexes "\n  \x7d".toList [.closeObject] :=
    (((Lexes.nil.sign rfl).space rfl).space rfl).space rfl
  have hinside := hmembers.append hclosing fun c hc => Option.some.inj hc ▸ rfl
  have hobject := (((hinside.space (c := '\n') rfl).sign (c := '\x7b') rfl).space
    (c := ' ') rfl).space (c := ' ') rfl
  unfold object
  rw [List.append_assoc]
  exact hobject

/-- The signs of a report. -/
def signs (ds : List Diagnostic) : List Sign :=
  Sign.openArray :: commas (ds.map objectSigns) ++ [Sign.closeArray]

theorem lexes_jsonChars (ds : List Diagnostic) : Lexes (jsonChars ds) (signs ds) := by
  cases ds with
  | nil =>
    have hreport : Lexes "[]\n".toList [.openArray, .closeArray] :=
      ((Lexes.nil.space rfl).sign rfl).sign rfl
    exact hreport
  | cons d ds =>
    have hobjects : Lexes (joinLines ((d :: ds).map object))
        (commas ((d :: ds).map objectSigns)) :=
      lexes_joinLines (List.forall₂_map_left_iff.mpr (List.forall₂_map_right_iff.mpr
        (List.forall₂_same.mpr fun d _ => lexes_object d)))
    have hclosing : Lexes "\n]\n".toList [.closeArray] :=
      ((Lexes.nil.space rfl).sign rfl).space rfl
    have hinside := hobjects.append hclosing fun c hc => Option.some.inj hc ▸ rfl
    have hreport := (hinside.space (c := '\n') rfl).sign (c := '[') rfl
    rw [jsonChars, if_neg (by simp), List.append_assoc]
    exact hreport

/-- **A report is read as the array of its objects.** -/
theorem read_jsonChars (ds : List Diagnostic) :
    Json.read (jsonChars ds) = some (.array (ds.map fun d => .object (members d))) := by
  have hparses : Parses (signs ds) (.array (ds.map fun d => .object (members d))) :=
    Parses.array (List.forall₂_map_left_iff.mpr (List.forall₂_map_right_iff.mpr
      (List.forall₂_same.mpr fun d _ => Parses.object (members d))))
  rw [Json.read, lexes_jsonChars ds [], Option.bind_some, Json.parse, List.nil_append, hparses []]

/-! ## 3. ASCII -/

/-- Whether all characters are ASCII. -/
def IsAscii (cs : List Char) : Prop :=
  ∀ c ∈ cs, c.toNat < 128

namespace IsAscii

variable {cs ds : List Char}

theorem append (hcs : IsAscii cs) (hds : IsAscii ds) : IsAscii (cs ++ ds) :=
  List.forall_mem_append.mpr ⟨hcs, hds⟩

theorem cons {c : Char} (hc : c.toNat < 128) (h : IsAscii cs) : IsAscii (c :: cs) :=
  List.forall_mem_cons.mpr ⟨hc, h⟩

theorem joinLines {pieces : List (List Char)} (h : ∀ p ∈ pieces, IsAscii p) :
    IsAscii (joinLines pieces) := by
  induction pieces with
  | nil => exact List.forall_mem_nil _
  | cons p ps ih =>
    obtain ⟨hp, hps⟩ := List.forall_mem_cons.mp h
    cases ps with
    | nil => exact hp
    | cons q qs => exact hp.append (.cons (by decide) (.cons (by decide) (ih hps)))

end IsAscii

theorem lt_of_mem_units16 {c : Char} {u : Nat} (hu : u ∈ units16 c) : u < 0x10000 := by
  have hvalid : c.toNat.isValidChar := c.valid
  simp only [Nat.isValidChar] at hvalid
  unfold units16 at hu
  split at hu
  · rename_i hbasic
    rw [List.mem_singleton.mp hu]
    exact hbasic
  · simp only [List.mem_cons, List.not_mem_nil, or_false] at hu
    omega

theorem isAscii_hexDigits {u : Nat} (hu : u < 0x10000) : IsAscii (Text.hexDigits 4 u) := by
  have hdigit : ∀ d < 16, d.digitChar.toNat < 128 := by decide
  rw [Json.hexDigits_four hu]
  refine List.forall_mem_map.mpr fun d hd => hdigit d ?_
  simp only [List.mem_cons, List.not_mem_nil, or_false] at hd
  omega

/-- A character is ASCII itself, or it stands there by a letter or by digits. -/
theorem isAscii_jsonChar (c : Char) : IsAscii (jsonChar c) := by
  unfold jsonChar
  split
  · rename_i letter hletter
    refine .cons (by decide) (.cons ?_ (List.forall_mem_nil _))
    unfold jsonLetter? at hletter
    repeat' split at hletter
    all_goals cases hletter
    all_goals decide
  split
  · rename_i hplain
    simp only [isPlainAscii, Bool.and_eq_true, decide_eq_true_eq] at hplain
    have hle : c.toNat ≤ 126 := hplain.2
    exact .cons (by omega) (List.forall_mem_nil _)
  · refine List.forall_mem_flatMap.mpr fun u hu => ?_
    exact IsAscii.append (.cons (by decide) (.cons (by decide) (List.forall_mem_nil _)))
      (isAscii_hexDigits (lt_of_mem_units16 hu))

theorem isAscii_jsonString (cs : List Char) : IsAscii (jsonString cs) := by
  refine .append (.cons (by decide) ?_) (.cons (by decide) (List.forall_mem_nil _))
  exact List.forall_mem_flatMap.mpr fun c _ => isAscii_jsonChar c

theorem isAscii_scalar (v : Scalar) : IsAscii v.render := by
  cases v with
  | number n =>
    intro c hc
    have hsign := Numeral.isSign_of_mem_toString hc
    simp only [Numeral.isSign, Char.isDigit, Bool.or_eq_true, Bool.and_eq_true, decide_eq_true_eq,
      beq_iff_eq] at hsign
    rcases hsign with ⟨-, hnine⟩ | rfl
    · have hle : c.toNat ≤ 57 := hnine
      omega
    · decide
  | text s => exact isAscii_jsonString s.toList

theorem isAscii_object (d : Diagnostic) : IsAscii (object d) := by
  have hline : ∀ p ∈ (fields d).map fieldLine, IsAscii p := by
    refine List.forall_mem_map.mpr fun field _ => ?_
    exact .append (.append (by simp [IsAscii]) (isAscii_jsonString _))
      (.cons (by decide) (.cons (by decide) (isAscii_scalar _)))
  exact .append (.append (by simp [IsAscii]) (.joinLines hline)) (by simp [IsAscii])

theorem isAscii_jsonChars (ds : List Diagnostic) : IsAscii (jsonChars ds) := by
  unfold jsonChars
  split
  · simp [IsAscii]
  · exact .append (.append (by simp [IsAscii])
      (.joinLines (List.forall_mem_map.mpr fun d _ => isAscii_object d))) (by simp [IsAscii])

theorem getLast?_jsonChars (ds : List Diagnostic) : (jsonChars ds).getLast? = some '\n' := by
  unfold jsonChars
  split
  · rfl
  · rw [List.getLast?_append]
    rfl

end Report

/-- **The JSON report is faithful.**  Whatever the findings hold, the report is ASCII and ends with a
line feed.  It is read as an array with one object for each finding, in order; the object has each key
once, the keys are those of what the finding tells, with a fix where there is one that is not empty,
and so are the values.  So findings with the same report tell the same. -/
theorem json_faithful (ds : List Diagnostic) :
    (∀ c ∈ (Report.json ds).toList, c.toNat < 128) ∧
    (Report.json ds).toList.getLast? = some '\n' ∧
    (∃ objects : List (List (String × Json)),
      Json.read (Report.json ds).toList = some (.array (objects.map .object)) ∧
      Forall₂ (fun d members => (members.map Prod.fst).Nodup ∧ members.Perm d.told) ds objects) ∧
    ∀ es, Report.json ds = Report.json es → ds.map Diagnostic.told = es.map Diagnostic.told := by
  have hread : ∀ ds, Json.read (Report.json ds).toList =
      some (.array (ds.map fun d => .object (Report.members d))) := by
    intro ds
    rw [Report.json, String.toList_ofList]
    exact Report.read_jsonChars ds
  refine ⟨?_, ?_, ⟨ds.map Report.members, ?_, ?_⟩, ?_⟩
  · rw [Report.json, String.toList_ofList]
    exact Report.isAscii_jsonChars ds
  · rw [Report.json, String.toList_ofList]
    exact Report.getLast?_jsonChars ds
  · rw [hread, List.map_map]
    rfl
  · exact List.forall₂_map_right_iff.mpr (List.forall₂_same.mpr fun d _ =>
      ⟨Report.nodup_keys_members d, Report.members_perm_told d⟩)
  · intro es hsame
    have harrays := hread es
    rw [← hsame, hread ds] at harrays
    have hobjects : ds.map (fun d => Json.object (Report.members d)) =
        es.map fun d => Json.object (Report.members d) :=
      Json.array.inj (Option.some.inj harrays)
    -- what a finding tells is a function of its object
    have hfactors : Function.FactorsThrough Diagnostic.told
        fun d => Json.object (Report.members d) :=
      fun d e h => Report.told_eq_of_members_eq (Json.object.inj h)
    obtain ⟨tell, htell⟩ := (Function.factorsThrough_iff _).mp hfactors
    rw [htell, ← List.map_map, ← List.map_map, hobjects]

end ContractLint
