import ApiDecl.Proofs.Collecting

/-!
# Proofs: collecting does not depend on earlier events

What a type expression means, what a struct becomes and which table the files make has nothing to do
with what was reported before. So every file has structs of its own (`Syntax.SourceFile.collected`),
and the collected table is made of them.

A path is classified by the kind of its last name (`NameKind`), so what types mean is proved about by
induction along the parts that are read for it (`TypeExpr.induction_on_parts`).
-/

namespace ApiDecl

open Compile Syntax

variable {α : Type}

theorem orNote_steady (event : Error → Event) {x : Compile α} (hx : x.Steady) :
    (orNote event x).Steady := by
  unfold orNote
  refine (Traced.steady_run hx).bind fun result => ?_
  cases result with
  | ok a => exact Traced.steady_pure (some a)
  | error e => exact (Traced.steady_note _).bind fun _ => Traced.steady_pure none

theorem elementType_steady (file : String) (shallow : Bool) {type : Compile FieldType}
    (h : type.Steady) : (elementType file shallow type).Steady := by
  unfold elementType
  split
  · exact steady_pure none
  · exact (orNote_steady _ h).lift

theorem embedOutcome_steady (file owner field : String) {type : Compile FieldType}
    (h : type.Steady) : (embedOutcome file owner field type).Steady := by
  unfold embedOutcome
  refine (orNote_steady _ h).bind fun found => ?_
  split
  · exact Traced.steady_pure _
  · exact (Traced.steady_note _).bind fun _ => Traced.steady_pure _
  · exact Traced.steady_pure _

theorem taggedOutcome_steady (file owner field : String) (d : FieldDecl) {type : Compile FieldType}
    (h : type.Steady) : (taggedOutcome file owner field d type).Steady := by
  unfold taggedOutcome
  split
  · exact (Traced.steady_note _).bind fun _ => Traced.steady_pure _
  · exact Traced.steady_pure _
  · split
    · exact Traced.steady_pure _
    · refine (orNote_steady _ h).bind fun found => ?_
      cases found <;> exact Traced.steady_pure _

/-! ## The parts of a type -/

/-- The types among some arguments, in order. -/
def typesAmong (arguments : List GenericArgument) : List TypeExpr :=
  (PathSegment.generic "" false arguments false).typeArguments

theorem typesAmong_append (l l' : List GenericArgument) :
    typesAmong (l ++ l') = typesAmong l ++ typesAmong l' := List.filterMap_append

theorem typesAmong_cons (a : GenericArgument) (rest : List GenericArgument) :
    typesAmong (a :: rest) = typesAmong [a] ++ typesAmong rest := typesAmong_append [a] rest

/-- Induction on a type along the parts that classifying reads: the type arguments of the last
segment of a path, and the types of the fields of a struct in place. -/
@[elab_as_elim]
theorem Syntax.TypeExpr.induction_on_parts {motive : TypeExpr → Prop} (t : TypeExpr)
    (emptyPath : ∀ absolute, motive (.path absolute []))
    (path : ∀ absolute before (s : PathSegment), (∀ t ∈ s.typeArguments, motive t) →
      motive (.path absolute (before ++ [s])))
    (reference : ∀ lifetime mutable target, motive target →
      motive (.reference lifetime mutable target))
    (pointer : ∀ mutable target, motive target → motive (.pointer mutable target))
    (paren : ∀ inner, motive inner → motive (.paren inner))
    (array : ∀ element length, motive element → motive (.array element length))
    (slice : ∀ element, motive element → motive (.slice element))
    (inlineStruct : ∀ delimiter body (fields : List FieldDecl), (∀ d ∈ fields, motive d.type) →
      motive (.inlineStruct delimiter body fields))
    (brokenInlineStruct : ∀ delimiter body reason,
      motive (.brokenInlineStruct delimiter body reason))
    (projection : ∀ base traitPath members, motive (.projection base traitPath members))
    (tuple : ∀ elements trailingComma, motive (.tuple elements trailingComma))
    (bareBound : ∀ enclosed bound, motive (.bareBound enclosed bound))
    (other : ∀ tokens, motive (.other tokens)) : motive t := by
  have hpath : ∀ absolute segments, (∀ s ∈ segments, ∀ t ∈ s.typeArguments, motive t) →
      motive (.path absolute segments) := by
    intro absolute segments h
    rcases List.eq_nil_or_concat segments with rfl | ⟨before, s, rfl⟩
    · exact emptyPath absolute
    · rw [List.concat_eq_append] at h ⊢
      exact path absolute before s (h s (by simp))
  refine @TypeExpr.rec motive
    (fun s => ∀ t ∈ s.typeArguments, motive t)
    (fun a => ∀ t ∈ typesAmong [a], motive t)
    (fun d => motive d.type)
    (fun segments => ∀ s ∈ segments, ∀ t ∈ s.typeArguments, motive t)
    (fun _ => True)
    (fun fields => ∀ d ∈ fields, motive d.type)
    (fun arguments => ∀ t ∈ typesAmong arguments, motive t)
    hpath (fun base traitPath members _ _ => projection base traitPath members) reference pointer
    paren (fun elements trailingComma _ => tuple elements trailingComma) array slice inlineStruct
    brokenInlineStruct bareBound other ?plain ?generic ?lifetime ?type ?otherArgument ?field
    ?noSegments ?segments trivial (fun _ _ _ _ => trivial) ?noFields ?fields ?noArguments
    ?arguments t
  case plain => exact fun _ => List.forall_mem_nil _
  case generic => exact fun _ _ _ _ h => h
  case lifetime => exact fun _ => List.forall_mem_nil _
  case type => exact fun _ h => List.forall_mem_singleton.2 h
  case otherArgument => exact fun _ => List.forall_mem_nil _
  case field => exact fun _ _ _ _ h => h
  case noSegments => exact List.forall_mem_nil _
  case segments => exact fun _ _ h ih => List.forall_mem_cons.2 ⟨h, ih⟩
  case noFields => exact List.forall_mem_nil _
  case fields => exact fun _ _ h ih => List.forall_mem_cons.2 ⟨h, ih⟩
  case noArguments => exact List.forall_mem_nil _
  case arguments =>
    intro a rest h ih
    rw [typesAmong_cons]
    exact List.forall_mem_append.2 ⟨h, ih⟩

/-- What the last name of a path says: that it is a wrapper, a sequence or a dictionary, or none of
them. -/
inductive NameKind (name : String) : Prop
  | wrapper (h : name ∈ wrapperNames)
  | sequence (h : name ∈ sequenceNames)
  | map (h : name ∈ mapNames)
  | other (hwrapper : name ∉ wrapperNames) (hsequence : name ∉ sequenceNames)
      (hmap : name ∉ mapNames)

theorem nameKind (name : String) : NameKind name := by
  by_cases hwrapper : name ∈ wrapperNames
  · exact .wrapper hwrapper
  by_cases hsequence : name ∈ sequenceNames
  · exact .sequence hsequence
  by_cases hmap : name ∈ mapNames
  · exact .map hmap
  exact .other hwrapper hsequence hmap

section Path

variable (file : String) (shallow : Bool)

/-- The meaning of the argument at an index, or the default if there are not that many. -/
theorem classifyArgument_eq (default : Compile FieldType) (index : Nat)
    (arguments : List GenericArgument) :
    classifyArgument file shallow index default arguments =
      ((typesAmong arguments)[index]?).elim default (classify file shallow) := by
  induction arguments generalizing index with
  | nil =>
    rw [classifyArgument]
    rfl
  | cons a rest ih =>
    cases a with
    | type t =>
      cases index with
      | zero =>
        rw [classifyArgument]
        rfl
      | succ n =>
        rw [classifyArgument, ih]
        rfl
    | lifetime | other =>
      rw [classifyArgument, ih]
      rfl

theorem classifyElement_eq (index : Nat) (arguments : List GenericArgument) :
    classifyElement file shallow index arguments =
      ((typesAmong arguments)[index]?).elim (return none) fun t =>
        elementType file shallow (classify file false t) := by
  induction arguments generalizing index with
  | nil =>
    rw [classifyElement]
    rfl
  | cons a rest ih =>
    cases a with
    | type t =>
      cases index with
      | zero =>
        rw [classifyElement]
        rfl
      | succ n =>
        rw [classifyElement, ih]
        rfl
    | lifetime | other =>
      rw [classifyElement, ih]
      rfl

/-- The meaning of a path by the kind of its last name. -/
theorem classifySegment_eq (text : String) (before : List String) (s : PathSegment) :
    classifySegment file shallow text before s =
      if wrapperNames.contains s.name then
        classifyArgument file shallow 0 (throw (.unsupportedType text)) s.arguments
      else if sequenceNames.contains s.name then do
        return .array (← classifyElement file shallow 0 s.arguments)
      else if mapNames.contains s.name then do
        return .map (← classifyElement file shallow 1 s.arguments)
      else return classifyName before s.name := by
  cases s with
  | plain name =>
    rw [classifySegment, PathSegment.arguments, classifyArgument, classifyElement, classifyElement]
    rfl
  | generic name turbofish arguments trailingComma =>
    rw [classifySegment]
    rfl

/-- A path means what its last segment means behind the names of the others. -/
theorem classifyPath_concat (text : String) (names : List String) (before : List PathSegment)
    (s : PathSegment) :
    classifyPath file shallow text names (before ++ [s]) =
      classifySegment file shallow text (names ++ before.map (·.name)) s := by
  induction before generalizing names with
  | nil =>
    rw [List.nil_append, classifyPath, List.map_nil, List.append_nil]
  | cons first rest ih =>
    have hrest := ih (names ++ [first.name])
    obtain ⟨next, others, hnext⟩ : ∃ next others, rest ++ [s] = next :: others := by
      cases rest with
      | nil => exact ⟨s, [], rfl⟩
      | cons next others => exact ⟨next, others ++ [s], rfl⟩
    rw [hnext] at hrest
    rw [List.cons_append, hnext, classifyPath, hrest, List.map_cons, List.append_assoc,
      List.singleton_append]

theorem classify_path (absolute : Bool) (before : List PathSegment) (s : PathSegment) :
    classify file shallow (.path absolute (before ++ [s])) =
      classifySegment file shallow (TypeExpr.path absolute (before ++ [s])).text
        (before.map (·.name)) s := by
  rw [classify, classifyPath_concat, List.nil_append]

variable {file shallow} {text : String} {before : List String} {s : PathSegment}

theorem classifySegment_wrapper (hs : s.name ∈ wrapperNames) :
    classifySegment file shallow text before s =
      classifyArgument file shallow 0 (throw (.unsupportedType text)) s.arguments := by
  rw [classifySegment_eq, if_pos (List.contains_iff_mem.2 hs)]

theorem classifySegment_sequence (hs : s.name ∈ sequenceNames) :
    classifySegment file shallow text before s =
      (do return .array (← classifyElement file shallow 0 s.arguments)) := by
  have hwrapper : ∀ name ∈ sequenceNames, ¬ wrapperNames.contains name = true := by decide
  rw [classifySegment_eq, if_neg (hwrapper _ hs), if_pos (List.contains_iff_mem.2 hs)]

theorem classifySegment_map (hs : s.name ∈ mapNames) :
    classifySegment file shallow text before s =
      (do return .map (← classifyElement file shallow 1 s.arguments)) := by
  have hwrapper : ∀ name ∈ mapNames, ¬ wrapperNames.contains name = true := by decide
  have hsequence : ∀ name ∈ mapNames, ¬ sequenceNames.contains name = true := by decide
  rw [classifySegment_eq, if_neg (hwrapper _ hs), if_neg (hsequence _ hs),
    if_pos (List.contains_iff_mem.2 hs)]

theorem classifySegment_other (hwrapper : s.name ∉ wrapperNames)
    (hsequence : s.name ∉ sequenceNames) (hmap : s.name ∉ mapNames) :
    classifySegment file shallow text before s = pure (classifyName before s.name) := by
  rw [classifySegment_eq, if_neg (mt List.contains_iff_mem.1 hwrapper),
    if_neg (mt List.contains_iff_mem.1 hsequence), if_neg (mt List.contains_iff_mem.1 hmap)]

/-- The first type argument of a segment is the one at index zero. -/
theorem classifyArgument_head {default : Compile FieldType} {t : TypeExpr}
    (ht : s.typeArguments.head? = some t) :
    classifyArgument file shallow 0 default s.arguments = classify file shallow t := by
  have htypes : (typesAmong s.arguments)[0]? = some t := List.head?_eq_getElem?.symm.trans ht
  rw [classifyArgument_eq, htypes, Option.elim_some]

theorem classifyElement_head {t : TypeExpr} (ht : s.typeArguments.head? = some t) :
    classifyElement file shallow 0 s.arguments =
      elementType file shallow (classify file false t) := by
  have htypes : (typesAmong s.arguments)[0]? = some t := List.head?_eq_getElem?.symm.trans ht
  rw [classifyElement_eq, htypes, Option.elim_some]

end Path

/-! ## The meaning of types -/

section Steady

variable {file : String}

theorem classifySegment_steady {s : PathSegment}
    (hs : ∀ t ∈ s.typeArguments, ∀ shallow, (classify file shallow t).Steady) (shallow : Bool)
    (text : String) (before : List String) :
    (classifySegment file shallow text before s).Steady := by
  have helement (index : Nat) : (classifyElement file shallow index s.arguments).Steady := by
    rw [classifyElement_eq]
    cases ht : (typesAmong s.arguments)[index]? with
    | none => exact steady_pure none
    | some t => exact elementType_steady file shallow (hs t (List.mem_of_getElem? ht) false)
  cases nameKind s.name with
  | wrapper h =>
    rw [classifySegment_wrapper h, classifyArgument_eq]
    cases ht : (typesAmong s.arguments)[0]? with
    | none => exact steady_throw _
    | some t => exact hs t (List.mem_of_getElem? ht) shallow
  | sequence h =>
    rw [classifySegment_sequence h]
    exact (helement 0).bind fun found => steady_pure (FieldType.array found)
  | map h =>
    rw [classifySegment_map h]
    exact (helement 1).bind fun found => steady_pure (FieldType.map found)
  | other hwrapper hsequence hmap =>
    rw [classifySegment_other hwrapper hsequence hmap]
    exact steady_pure _

theorem fieldOutcome_steady_of_type (owner : String) {d : FieldDecl}
    (hd : ∀ shallow, (classify file shallow d.type).Steady) :
    (fieldOutcome file owner d).Steady := by
  obtain ⟨attributes, name, isPublic, type⟩ := d
  rw [fieldOutcome]
  split
  · exact embedOutcome_steady file owner _ (hd true)
  · exact taggedOutcome_steady file owner _ _ (hd false)

theorem fieldOutcomes_steady_of_types (owner : String) {fields : List FieldDecl}
    (hfields : ∀ d ∈ fields, ∀ shallow, (classify file shallow d.type).Steady) :
    (fieldOutcomes file owner fields).Steady := by
  induction fields with
  | nil =>
    rw [fieldOutcomes]
    exact Traced.steady_pure []
  | cons d rest ih =>
    obtain ⟨hd, hrest⟩ := List.forall_mem_cons.1 hfields
    rw [fieldOutcomes]
    refine (fieldOutcome_steady_of_type owner hd).bind fun first => ?_
    exact (ih hrest).bind fun others => Traced.steady_pure _

theorem classify_steady (file : String) (shallow : Bool) (t : TypeExpr) :
    (classify file shallow t).Steady := by
  induction t using TypeExpr.induction_on_parts generalizing shallow with
  | path absolute before s ih =>
    rw [classify_path]
    exact classifySegment_steady ih shallow _ _
  | reference _ _ target ih | pointer _ target ih | paren target ih =>
    rw [classify]
    exact ih shallow
  | array element _ ih | slice element ih =>
    rw [classify]
    exact (elementType_steady file shallow (ih false)).bind fun found =>
      steady_pure (FieldType.array found)
  | inlineStruct _ _ fields ih =>
    rw [classify]
    split
    · exact steady_pure _
    · exact (fieldOutcomes_steady_of_types inlineStructName ih).lift.bind fun _ => steady_pure _
  | brokenInlineStruct _ _ reason =>
    rw [classify]
    split
    · exact steady_pure _
    · exact steady_throw _
  | emptyPath absolute =>
    rw [classify, classifyPath]
    exact steady_throw _
  | projection | tuple | bareBound | other =>
    rw [classify]
    exact steady_throw _

theorem fieldOutcomes_steady (file owner : String) (fields : List FieldDecl) :
    (fieldOutcomes file owner fields).Steady :=
  fieldOutcomes_steady_of_types owner fun d _ shallow => classify_steady file shallow d.type

end Steady

/-! ## Tables -/

theorem structOf?_steady (file : String) (d : StructDecl) : (structOf? file d).Steady := by
  unfold structOf?
  split
  · exact (Traced.steady_note _).bind fun _ => Traced.steady_pure none
  · next fields _ =>
    have hfields : (collectFields file (plainName d.name) fields).Steady :=
      (fieldOutcomes_steady file _ fields).bind fun _ => Traced.steady_pure _
    refine hfields.bind fun s => ?_
    split
    · exact (Traced.steady_note _).bind fun _ => Traced.steady_pure none
    · exact Traced.steady_pure _

/-- The structs that a file has for the table, in order. -/
def Syntax.SourceFile.collected (f : SourceFile) : List StructDescriptor :=
  f.structs.filterMap fun d => (structOf? f.path d).value

theorem name_of_collected {f : SourceFile} {s : StructDescriptor} (hs : s ∈ f.collected) :
    ∃ d ∈ f.structs, s.name = plainName d.name := by
  obtain ⟨d, hd, hfound⟩ := List.mem_filterMap.1 hs
  exact ⟨d, hd, (structOf?_yields f.path d #[] s hfound).1⟩

namespace Catalog

/-- Adds structs to a table, one after the other. -/
def insertAll (c : Catalog) (structs : List StructDescriptor) : Catalog := structs.foldl insert c

/-- Adding a declared struct to a table is adding what it is, if it is anything. -/
theorem collectStruct_yields (file : String) (c : Catalog) (d : StructDecl) :
    Traced.Yields (· = ((structOf? file d).value).elim c c.insert) (collectStruct file c d) := by
  have hfound : Traced.Yields (· = (structOf? file d).value) (structOf? file d) :=
    structOf?_steady file d
  refine (collectStruct_adds hfound c).mono ?_
  rintro _ ⟨found, rfl, rfl⟩
  rfl

theorem collectFile_yields (c : Catalog) (f : SourceFile) :
    Traced.Yields (· = c.insertAll f.collected) (collectFile c f) := by
  have hfold := Traced.Yields.foldlM_eq (collectStruct_yields f.path) f.structs c
  have hvalue : c.insertAll f.collected =
      f.structs.foldl (fun c d => ((structOf? f.path d).value).elim c c.insert) c := by
    rw [insertAll, SourceFile.collected, List.foldl_filterMap]
    congr
    funext c d
    cases (structOf? f.path d).value <;> rfl
  exact hvalue ▸ hfold

/-- The table that the structs of some files make, one file after the other. -/
def ofFiles (files : List SourceFile) : Catalog :=
  files.foldl (fun c f => c.insertAll f.collected) .empty

theorem collectRaw_yields (files : List SourceFile) :
    Traced.Yields (· = ofFiles files) (collectRaw files) :=
  Traced.Yields.foldlM_eq collectFile_yields files .empty

/-- Sealing gives one table, whatever was reported before. -/
theorem seal_steady {raw : Catalog} (hwf : raw.WellFormed) : raw.seal.Steady := by
  obtain ⟨c, events, hrun, -⟩ := seal_inv hwf
  intro log
  rw [Traced.value, hrun log, hrun #[]]

/-- Collecting seals the table of the files. -/
theorem collect_yields (files : List SourceFile) :
    Traced.Yields (· = (ofFiles files).seal.value) (collect files) := by
  refine ((collectRaw_yields files).and (collectRaw_wellFormed files)).bind fun raw hraw => ?_
  obtain ⟨rfl, hwf⟩ := hraw
  exact seal_steady hwf

theorem collect_value (files : List SourceFile) :
    (collect files).value = (ofFiles files).seal.value := collect_yields files #[]

theorem collect_steady (files : List SourceFile) : (collect files).Steady := by
  intro log
  exact (collect_yields files log).trans (collect_yields files #[]).symm

end Catalog

end ApiDecl
