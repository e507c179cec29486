import ApiDecl.Proofs.FileOrder
import ApiDecl.Proofs.ShallowTypes

/-!
# Proofs: wrappers

A type is classified by some of its parts: itself, what is behind a reference, a pointer or a
bracket or in a wrapper, the elements of a sequence, the values of a dictionary, and the types of the
fields of a struct in place. Wrappers around such a part change nothing (`TypeExpr.Wraps.classify_eq`): the
type means the same or is refused for the same reason, and the same is reported. So wrappers around
the types of fields do not matter to a compilation (`wrappers_change_nothing`).
-/

namespace ApiDecl

open Compile Syntax

namespace Syntax

/-! ## Adding wrappers -/

/-- A path that ends in this name is classified by the type argument at this index. -/
inductive ClassifiedBy (name : String) : Nat → Prop
  | wrapper (h : name ∈ wrapperNames) : ClassifiedBy name 0
  | sequence (h : name ∈ sequenceNames) : ClassifiedBy name 0
  | map (h : name ∈ mapNames) : ClassifiedBy name 1

/-- The second type is the first one with references, pointers, round brackets and wrappers around
one of the parts that it is classified by. -/
inductive TypeExpr.Wraps : TypeExpr → TypeExpr → Prop
  | here {t t' : TypeExpr} (h : t'.Covers t) : TypeExpr.Wraps t t'
  | reference {lifetime : Option String} {mutable : Bool} {t t' : TypeExpr}
      (h : TypeExpr.Wraps t t') :
      TypeExpr.Wraps (.reference lifetime mutable t) (.reference lifetime mutable t')
  | pointer {mutable : Bool} {t t' : TypeExpr} (h : TypeExpr.Wraps t t') :
      TypeExpr.Wraps (.pointer mutable t) (.pointer mutable t')
  | paren {t t' : TypeExpr} (h : TypeExpr.Wraps t t') : TypeExpr.Wraps (.paren t) (.paren t')
  | array {t t' : TypeExpr} {length : List Token} (h : TypeExpr.Wraps t t') :
      TypeExpr.Wraps (.array t length) (.array t' length)
  | slice {t t' : TypeExpr} (h : TypeExpr.Wraps t t') : TypeExpr.Wraps (.slice t) (.slice t')
  | argument {absolute : Bool} {qualifiers : List PathSegment} {name : String}
      {turbofish trailingComma : Bool} {before after : List GenericArgument} {t t' : TypeExpr}
      (hindex : ClassifiedBy name (typesAmong before).length) (h : TypeExpr.Wraps t t') :
      TypeExpr.Wraps
        (.path absolute
          (qualifiers ++ [.generic name turbofish (before ++ .type t :: after) trailingComma]))
        (.path absolute
          (qualifiers ++ [.generic name turbofish (before ++ .type t' :: after) trailingComma]))
  | field {delimiter : Delimiter} {body body' : List Token} {before after : List FieldDecl}
      {attributes : List Attribute} {name : String} {isPublic : Bool} {t t' : TypeExpr}
      (h : TypeExpr.Wraps t t') :
      TypeExpr.Wraps
        (.inlineStruct delimiter body (before ++ ⟨attributes, name, isPublic, t⟩ :: after))
        (.inlineStruct delimiter body' (before ++ ⟨attributes, name, isPublic, t'⟩ :: after))

/-- The second type is the first one with wrappers in any number of places. -/
def TypeExpr.GainsWrappers : TypeExpr → TypeExpr → Prop := Relation.ReflTransGen TypeExpr.Wraps

/-- The second field is the first one with wrappers in its type. -/
inductive FieldDecl.GainsWrappers : FieldDecl → FieldDecl → Prop
  | type {attributes : List Attribute} {name : String} {isPublic : Bool} {t t' : TypeExpr}
      (h : t.GainsWrappers t') : FieldDecl.GainsWrappers ⟨attributes, name, isPublic, t⟩
        ⟨attributes, name, isPublic, t'⟩

/-- The second struct is the first one with wrappers in the types of its fields. -/
inductive StructDecl.GainsWrappers : StructDecl → StructDecl → Prop
  | named {attributes : List Attribute} {name : String} {fields fields' : List FieldDecl}
      (h : List.Forall₂ FieldDecl.GainsWrappers fields fields') :
      StructDecl.GainsWrappers ⟨attributes, name, some fields⟩ ⟨attributes, name, some fields'⟩
  | unnamed {attributes : List Attribute} {name : String} :
      StructDecl.GainsWrappers ⟨attributes, name, none⟩ ⟨attributes, name, none⟩

/-- The second file is the first one with wrappers in the fields of its structs. -/
structure SourceFile.GainsWrappers (f f' : SourceFile) : Prop where
  path : f.path = f'.path
  structs : List.Forall₂ StructDecl.GainsWrappers f.structs f'.structs
  traits : f.traits = f'.traits

end Syntax

/-! ## Arguments -/

section Arguments

variable {file : String} {before after : List GenericArgument}

theorem getElem?_typesAmong (t : TypeExpr) :
    (typesAmong (before ++ .type t :: after))[(typesAmong before).length]? = some t := by
  have htypes : typesAmong (.type t :: after) = t :: typesAmong after := rfl
  rw [typesAmong_append, htypes, List.getElem?_append_right (le_refl _), Nat.sub_self]
  rfl

/-- Only the meaning of the argument counts that a path is classified by. -/
theorem classifySegment_congr {name : String} {index : Nat} {s s' : PathSegment} {t t' : TypeExpr}
    (hindex : ClassifiedBy name index)
    (h : ∀ shallow, classify file shallow t = classify file shallow t') (hs : s.name = name)
    (hs' : s'.name = name) (ht : (typesAmong s.arguments)[index]? = some t)
    (ht' : (typesAmong s'.arguments)[index]? = some t') (shallow : Bool) (text text' : String)
    (qualifiers : List String) :
    classifySegment file shallow text qualifiers s =
      classifySegment file shallow text' qualifiers s' := by
  have helement : classifyElement file shallow index s.arguments =
      classifyElement file shallow index s'.arguments := by
    rw [classifyElement_eq, classifyElement_eq, ht, ht', Option.elim_some, Option.elim_some, h]
  subst hs
  cases hindex with
  | wrapper hname =>
    rw [classifySegment_wrapper hname, classifySegment_wrapper (hs' ▸ hname), classifyArgument_eq,
      classifyArgument_eq, ht, ht', Option.elim_some, Option.elim_some, h]
  | sequence hname =>
    rw [classifySegment_sequence hname, classifySegment_sequence (hs' ▸ hname), helement]
  | map hname => rw [classifySegment_map hname, classifySegment_map (hs' ▸ hname), helement]

end Arguments

/-! ## Fields -/

section Fields

variable {file : String} (owner : String)

/-- Only the meaning of the type of a field counts. -/
theorem fieldOutcome_eq {attributes : List Attribute} {name : String} {isPublic : Bool}
    {t t' : TypeExpr} (h : ∀ shallow, classify file shallow t = classify file shallow t') :
    fieldOutcome file owner ⟨attributes, name, isPublic, t⟩ =
      fieldOutcome file owner ⟨attributes, name, isPublic, t'⟩ := by
  rw [fieldOutcome, fieldOutcome, h, h]
  rfl

theorem fieldOutcomes_congr {fields fields' : List FieldDecl}
    (h : List.Forall₂ (fun d d' => fieldOutcome file owner d = fieldOutcome file owner d') fields
      fields') : fieldOutcomes file owner fields = fieldOutcomes file owner fields' := by
  induction h with
  | nil => rfl
  | cons hd _ ih => rw [fieldOutcomes, fieldOutcomes, hd, ih]

end Fields

/-! ## Classification -/

section Classification

variable {file : String} {t t' : TypeExpr}

/-- With wrappers around one of the parts that it is classified by, a type means the same. -/
theorem Syntax.TypeExpr.Wraps.classify_eq (h : t.Wraps t') (shallow : Bool) :
    classify file shallow t = classify file shallow t' := by
  induction h generalizing shallow with
  | here h => exact (h.classify_eq file shallow).symm
  | reference _ ih => rw [classify, classify, ih]
  | pointer _ ih => rw [classify, classify, ih]
  | paren _ ih => rw [classify, classify, ih]
  | array _ ih => rw [classify, classify, ih]
  | slice _ ih => rw [classify, classify, ih]
  | argument hindex _ ih =>
    rw [classify_path, classify_path]
    refine classifySegment_congr hindex ih ?_ ?_ ?_ ?_ shallow _ _ _
    · rfl
    · rfl
    · exact getElem?_typesAmong _
    · exact getElem?_typesAmong _
  | @field _ _ _ before after _ _ _ _ _ _ ih =>
    have hsame : ∀ l : List FieldDecl, List.Forall₂ (fun d d' =>
        fieldOutcome file inlineStructName d = fieldOutcome file inlineStructName d') l l :=
      fun l => List.forall₂_same.2 fun _ _ => rfl
    rw [classify, classify, fieldOutcomes_congr inlineStructName
      (List.rel_append (hsame before) (.cons (fieldOutcome_eq _ ih) (hsame after)))]

theorem Syntax.TypeExpr.GainsWrappers.classify_eq (h : t.GainsWrappers t') (shallow : Bool) :
    classify file shallow t = classify file shallow t' := by
  induction h with
  | refl => rfl
  | tail _ hstep ih => exact ih.trans (hstep.classify_eq shallow)

theorem Syntax.FieldDecl.GainsWrappers.outcome_eq {d d' : FieldDecl} (h : d.GainsWrappers d')
    (owner : String) : fieldOutcome file owner d = fieldOutcome file owner d' := by
  obtain ⟨h⟩ := h
  exact fieldOutcome_eq owner h.classify_eq

end Classification

/-! ## Compilation -/

section Files

variable {files files' : List SourceFile}

theorem structOf?_eq {d d' : StructDecl} (h : d.GainsWrappers d') (file : String) :
    structOf? file d = structOf? file d' := by
  cases h with
  | @named attributes name fields fields' h =>
    have hfields : collectFields file (plainName name) fields =
        collectFields file (plainName name) fields' := by
      rw [collectFields, collectFields, fieldOutcomes_congr _ (h.imp fun _ _ h => h.outcome_eq _)]
    rw [structOf?, structOf?]
    dsimp only
    rw [hfields]
  | unnamed => rfl

/-- The table is the same, with the same reports. -/
theorem Catalog.collect_eq (h : List.Forall₂ SourceFile.GainsWrappers files files') :
    Catalog.collect files = Catalog.collect files' := by
  have hstruct : ∀ file d d', StructDecl.GainsWrappers d d' → ∀ c,
      Catalog.collectStruct file c d = Catalog.collectStruct file c d' := fun file d d' hd c => by
    rw [collectStruct, collectStruct, structOf?_eq hd]
  have hfile : ∀ f f', SourceFile.GainsWrappers f f' → ∀ c,
      Catalog.collectFile c f = Catalog.collectFile c f' := fun f f' hf c => by
    rw [collectFile, collectFile, hf.path, foldlM_eq_of_forall₂ (hf.structs.imp (hstruct f'.path))]
  rw [collect, collect, collectRaw, collectRaw, foldlM_eq_of_forall₂ (h.imp hfile)]

theorem Catalog.groups_eq (h : List.Forall₂ SourceFile.GainsWrappers files files') (c : Catalog) :
    c.groups files = c.groups files' := by
  have hfile : ∀ f f', SourceFile.GainsWrappers f f' → c.groupsOfFile f = c.groupsOfFile f' :=
    fun f f' hf => by rw [groupsOfFile, groupsOfFile, hf.path, hf.traits]
  have hgroups := mapM_eq_of_forall₂ (h.imp hfile)
  unfold groupsOfFile at hgroups
  rw [groups, groups, hgroups]

theorem compile_eq (h : List.Forall₂ SourceFile.GainsWrappers files files') :
    compile files = compile files' := by
  have hgroups : ∀ c : Catalog, c.groups files = c.groups files' := Catalog.groups_eq h
  rw [compile, compile, Catalog.collect_eq h, h.length_eq]
  simp only [hgroups]

end Files

/-- A type with wrappers in any number of the places that it is classified by, at any depth, means
the same and is refused with the same error, in a shallow classification too. So files with wrappers
in the types of fields collect the same structs, and compile to the same schemas and routes. -/
theorem wrappers_change_nothing :
    (∀ t t' : TypeExpr, t.GainsWrappers t' →
      ∀ file shallow, classify file shallow t = classify file shallow t') ∧
    ∀ files files' : List SourceFile, List.Forall₂ SourceFile.GainsWrappers files files' →
      Catalog.collect files = Catalog.collect files' ∧ compile files = compile files' :=
  ⟨fun _ _ h _ shallow => h.classify_eq shallow, fun _ _ h => ⟨Catalog.collect_eq h, compile_eq h⟩⟩

/-- A sequence of bytes. -/
def bytesType : TypeExpr :=
  .path false [.generic "Vec" false [.type (.path false [.plain "u8"])] false]

/-- A sequence of bytes that may be absent, whose elements are borrowed or owned. -/
def wrappedBytesType : TypeExpr :=
  .path false [.generic "Option" false [.type (.path false [.generic "Vec" false
    [.type (.path false [.generic "Cow" false
      [.lifetime "a", .type (.path false [.plain "u8"])] false])] false])] false]

/-- A file with a struct that has one field of a type. -/
def fileWith (t : TypeExpr) : SourceFile :=
  ⟨"m.rs", [.struct ⟨[], "Blob", some [⟨[⟨⟨false, ["api"]⟩, .list [.word "data" .start], .start⟩],
    "data", true, t⟩]⟩]⟩

theorem gainsWrappers_bytes : bytesType.GainsWrappers wrappedBytesType := by
  have hcow : (TypeExpr.path false ([] ++ [.generic "Cow" false
      [.lifetime "a", .type (.path false [.plain "u8"])] false])).Covers
      (.path false [.plain "u8"]) := .wrapper (List.contains_iff_mem.1 rfl) rfl (.refl _)
  have hoption : (TypeExpr.path false ([] ++ [.generic "Option" false [.type (.path false
      [.generic "Vec" false [.type (.path false [.generic "Cow" false
        [.lifetime "a", .type (.path false [.plain "u8"])] false])] false])] false])).Covers _ :=
    .wrapper (List.contains_iff_mem.1 rfl) rfl (.refl _)
  have helement := @TypeExpr.Wraps.argument false [] "Vec" false false [] [] _ _
    (.sequence (List.contains_iff_mem.1 rfl)) (.here hcow)
  exact .tail (.single helement) (.here hoption)

/-- Bytes that are borrowed or owned, and that may be absent, are bytes. -/
theorem wrapped_bytes_are_bytes :
    bytesType.GainsWrappers wrappedBytesType ∧
      List.Forall₂ SourceFile.GainsWrappers [fileWith bytesType] [fileWith wrappedBytesType] ∧
      (classify "m.rs" false wrappedBytesType).result = .ok (.array (some (.scalar .u8))) ∧
      Catalog.collect [fileWith bytesType] = Catalog.collect [fileWith wrappedBytesType] ∧
      compile [fileWith bytesType] = compile [fileWith wrappedBytesType] := by
  have hfile : (fileWith bytesType).GainsWrappers (fileWith wrappedBytesType) :=
    ⟨rfl, .cons (.named (.cons (.type gainsWrappers_bytes) .nil)) .nil, rfl⟩
  obtain ⟨htypes, hfiles⟩ := wrappers_change_nothing
  have hfiles := hfiles _ _ (.cons hfile .nil)
  refine ⟨gainsWrappers_bytes, .cons hfile .nil, ?_, hfiles⟩
  rw [← htypes _ _ gainsWrappers_bytes]
  rfl

end ApiDecl
