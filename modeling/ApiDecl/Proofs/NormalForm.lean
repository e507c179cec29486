import ApiDecl.Proofs.Classifying
import ApiDecl.Proofs.WordedItems

/-!
# Proofs: sealed tables are in normal form

A type in normal form is named only if it is nothing else: neither a wrapper nor a container nor, by
a single segment, a primitive type (`FieldType.IsNormal`). Classifying gives such types if the names
in its paths are words, and collecting and sealing keep them, so that every struct of a sealed table
is in normal form with all its fields, own and merged ones, and embeds nothing any more
(`Catalog.collect_isSealed`).
-/

namespace ApiDecl

open Syntax
open Worded (IsWorded)

/-! ## Normal form -/

/-- The name says what it is: its segments are single words, and the last one is no wrapper or
container, nor a primitive type unless there are others in front of it. -/
structure TypeName.IsNormal (n : TypeName) : Prop where
  no_colon : ∀ segment ∈ n.qualifiers ++ [n.base], ':' ∉ segment.toList
  no_wrapper : n.base ∉ wrapperNames
  no_sequence : n.base ∉ sequenceNames
  no_map : n.base ∉ mapNames
  no_scalar : n.isQualified = false → Scalar.ofName? n.base = none

mutual

/-- The type is in normal form, and the structs in it embed as it is allowed. -/
def FieldType.IsNormal (allowed : List String → Prop) : FieldType → Prop
  | .scalar s => Scalar.ofName? s.name = some s
  | .named n => n.IsNormal
  | .array (some element) => element.IsNormal allowed
  | .map (some value) => value.IsNormal allowed
  | .array none | .map none => True
  | .struct inner => inner.IsNormal allowed

/-- The struct embeds as it is allowed, and its fields are in normal form with different names. -/
def StructDescriptor.IsNormal (allowed : List String → Prop) : StructDescriptor → Prop
  | ⟨_, fields, _, embeds⟩ =>
    allowed embeds ∧ (fields.map (·.name)).Nodup ∧ FieldsAreNormal allowed fields

/-- The fields have tags with something in them, and types in normal form. -/
def FieldsAreNormal (allowed : List String → Prop) : List Field → Prop
  | [] => True
  | ⟨_, type, tag, _, _⟩ :: rest =>
    tag.isEmpty = false ∧ type.IsNormal allowed ∧ FieldsAreNormal allowed rest

end

/-- Everything may be embedded. -/
def anyEmbeds : List String → Prop := fun _ => True

/-- Nothing is embedded. -/
def noEmbeds : List String → Prop := (· = [])

theorem scalar_isNormal (allowed : List String → Prop) (s : Scalar) :
    (FieldType.scalar s).IsNormal allowed := by
  rw [FieldType.IsNormal]
  cases s <;> decide

section Fields

variable {allowed : List String → Prop}

theorem fieldsAreNormal_iff {fields : List Field} : FieldsAreNormal allowed fields ↔
    ∀ f ∈ fields, f.tag.isEmpty = false ∧ f.type.IsNormal allowed := by
  induction fields with
  | nil => simp [FieldsAreNormal]
  | cons f rest ih =>
    cases f
    rw [FieldsAreNormal, ih, List.forall_mem_cons, and_assoc]

theorem fieldsAreNormal_append {fields others : List Field}
    (h : FieldsAreNormal allowed fields) (h' : FieldsAreNormal allowed others) :
    FieldsAreNormal allowed (fields ++ others) := by
  rw [fieldsAreNormal_iff] at *
  exact List.forall_mem_append.2 ⟨h, h'⟩

theorem StructDescriptor.isNormal_iff {s : StructDescriptor} : s.IsNormal allowed ↔
    allowed s.embeds ∧ (s.fields.map (·.name)).Nodup ∧ FieldsAreNormal allowed s.fields := by
  cases s
  rw [StructDescriptor.IsNormal]

end Fields

/-! ## Classifying -/

section Classify

variable {file : String}

theorem classifyName_isNormal {before : List String} {name : String}
    (hbefore : ∀ w ∈ before, IsWord w) (hname : IsWord name) (hwrapper : name ∉ wrapperNames)
    (hsequence : name ∉ sequenceNames) (hmap : name ∉ mapNames) :
    (classifyName before name).IsNormal anyEmbeds := by
  have hsegments : ∀ segment ∈ before ++ [name], ':' ∉ segment.toList := by
    intro segment hsegment hcolon
    rcases List.mem_append.1 hsegment with h | h
    · exact not_colon_of_anyWord (hbefore segment h) ':' hcolon rfl
    · rw [List.mem_singleton.1 h] at hcolon
      exact not_colon_of_anyWord hname ':' hcolon rfl
  unfold classifyName
  split
  · next s hs =>
    split
    · exact scalar_isNormal anyEmbeds s
    · next hqualified =>
      rw [FieldType.IsNormal]
      refine ⟨hsegments, hwrapper, hsequence, hmap, fun hplain => ?_⟩
      have hempty : before = [] := by simpa [TypeName.isQualified] using hplain
      simp [hempty] at hqualified
  · next hnone =>
    rw [FieldType.IsNormal]
    exact ⟨hsegments, hwrapper, hsequence, hmap, fun _ => hnone⟩

theorem orNote_yields {α : Type} {P : α → Prop} {x : Compile α} (event : Error → Event)
    (h : x.Yields P) : (orNote event x).Yields fun found => ∀ a ∈ found, P a := by
  unfold orNote
  have hrun : Traced.Yields (fun r => ∀ a, r = .ok a → P a) x.run := fun log a ha => h log a ha
  refine hrun.bind fun r hr => ?_
  cases r with
  | ok a => exact .pure fun b hb => hr b (congrArg Except.ok (Option.some.inj hb))
  | error e => exact (Traced.Yields.note _).bind fun _ _ => .pure nofun

theorem elementType_yields {P : FieldType → Prop} (file : String) (shallow : Bool)
    {type : Compile FieldType} (h : type.Yields P) :
    (elementType file shallow type).Yields fun found => ∀ t ∈ found, P t := by
  unfold elementType
  split
  · exact .pure nofun
  · exact .lift (orNote_yields _ h)

theorem array_isNormal {found : Option FieldType} (h : ∀ t ∈ found, t.IsNormal anyEmbeds) :
    (FieldType.array found).IsNormal anyEmbeds := by
  cases found with
  | none => trivial
  | some t => exact h t rfl

theorem map_isNormal {found : Option FieldType} (h : ∀ t ∈ found, t.IsNormal anyEmbeds) :
    (FieldType.map found).IsNormal anyEmbeds := by
  cases found with
  | none => trivial
  | some t => exact h t rfl

theorem blank_isNormal (name : String) : (StructDescriptor.blank name).IsNormal anyEmbeds :=
  ⟨trivial, List.nodup_nil, trivial⟩

/-- A field that is contributed has a tag with something in it, and a type in normal form. -/
def FieldOutcome.IsNormal : FieldOutcome → Prop
  | skipped | embed _ => True
  | field f => f.tag.isEmpty = false ∧ f.type.IsNormal anyEmbeds

theorem ofOutcomes_isNormal (name : String) {outcomes : List FieldOutcome}
    (h : ∀ o ∈ outcomes, o.IsNormal) :
    (StructDescriptor.ofOutcomes name outcomes).IsNormal anyEmbeds := by
  have hfold : ∀ s : StructDescriptor, FieldsAreNormal anyEmbeds s.fields →
      FieldsAreNormal anyEmbeds (outcomes.foldl .contribute s).fields := by
    induction outcomes with
    | nil => exact fun s hs => hs
    | cons o rest ih =>
      obtain ⟨ho, hrest⟩ := List.forall_mem_cons.1 h
      refine fun s hs => ih hrest _ ?_
      cases o with
      | skipped => exact hs
      | embed target => exact hs
      | field f =>
        rw [fieldsAreNormal_iff] at hs ⊢
        intro g hg
        rcases eq_or_mem_of_mem_putByKey hg with rfl | hg
        · exact ho
        · exact hs g hg
  rw [StructDescriptor.isNormal_iff]
  exact ⟨trivial, StructDescriptor.nodup_ofOutcomes name outcomes, hfold _ trivial⟩

theorem embedOutcome_yields (file owner field : String) (type : Compile FieldType) :
    (embedOutcome file owner field type).Yields FieldOutcome.IsNormal := by
  unfold embedOutcome
  refine (Traced.Yields.anything _).bind fun found _ => ?_
  split
  · exact .pure trivial
  · exact (Traced.Yields.note _).bind fun _ _ => .pure trivial
  · exact .pure trivial

theorem taggedOutcome_yields (owner field : String) (d : FieldDecl) {type : Compile FieldType}
    (h : type.Yields (FieldType.IsNormal anyEmbeds)) :
    (taggedOutcome file owner field d type).Yields FieldOutcome.IsNormal := by
  unfold taggedOutcome
  split
  · exact (Traced.Yields.note _).bind fun _ _ => .pure trivial
  · exact .pure trivial
  · next tag _ =>
    split
    · exact .pure trivial
    · next htag =>
      refine (orNote_yields _ h).bind fun found hfound => ?_
      cases found with
      | none => exact .pure trivial
      | some t => exact .pure ⟨by simpa using htag, hfound t rfl⟩

/-- A segment of words has one for its name, and types of words for its arguments. -/
theorem isWorded_parts {s : PathSegment} (hs : IsWorded s) :
    IsWord s.name ∧ ∀ t ∈ s.typeArguments, IsWorded t := by
  cases s with
  | plain name => exact ⟨isWorded_plain.1 hs, List.forall_mem_nil _⟩
  | generic name turbofish arguments trailingComma =>
    obtain ⟨hname, harguments⟩ := isWorded_generic.1 hs
    refine ⟨hname, fun t ht => ?_⟩
    obtain ⟨a, ha, hat⟩ := List.mem_filterMap.1 ht
    cases a with
    | type u =>
      cases hat
      exact isWorded_typeArgument.1 (harguments _ ha)
    | lifetime | other => cases hat

theorem classifySegment_yields {shallow : Bool} {text : String} {before : List String}
    {s : PathSegment} (hbefore : ∀ w ∈ before, IsWord w) (hname : IsWord s.name)
    (hs : ∀ t ∈ s.typeArguments, ∀ shallow,
      (classify file shallow t).Yields (FieldType.IsNormal anyEmbeds)) :
    (classifySegment file shallow text before s).Yields (FieldType.IsNormal anyEmbeds) := by
  have helement (index : Nat) : (classifyElement file shallow index s.arguments).Yields
      fun found => ∀ t ∈ found, t.IsNormal anyEmbeds := by
    rw [classifyElement_eq]
    cases ht : (typesAmong s.arguments)[index]? with
    | none => exact .pure nofun
    | some t => exact elementType_yields file shallow (hs t (List.mem_of_getElem? ht) false)
  cases nameKind s.name with
  | wrapper h =>
    rw [classifySegment_wrapper h, classifyArgument_eq]
    cases ht : (typesAmong s.arguments)[0]? with
    | none => exact .throw _
    | some t => exact hs t (List.mem_of_getElem? ht) shallow
  | sequence h =>
    rw [classifySegment_sequence h]
    exact (helement 0).bind fun found hfound => .pure (array_isNormal hfound)
  | map h =>
    rw [classifySegment_map h]
    exact (helement 1).bind fun found hfound => .pure (map_isNormal hfound)
  | other hwrapper hsequence hmap =>
    rw [classifySegment_other hwrapper hsequence hmap]
    exact .pure (classifyName_isNormal hbefore hname hwrapper hsequence hmap)

theorem fieldOutcome_yields (owner : String) {d : FieldDecl}
    (hd : ∀ shallow, (classify file shallow d.type).Yields (FieldType.IsNormal anyEmbeds)) :
    (fieldOutcome file owner d).Yields FieldOutcome.IsNormal := by
  obtain ⟨attributes, name, isPublic, type⟩ := d
  rw [fieldOutcome]
  split
  · exact embedOutcome_yields file owner _ _
  · exact taggedOutcome_yields owner _ _ (hd false)

theorem fieldOutcomes_yields (owner : String) {fields : List FieldDecl}
    (hfields : ∀ d ∈ fields, ∀ shallow,
      (classify file shallow d.type).Yields (FieldType.IsNormal anyEmbeds)) :
    (fieldOutcomes file owner fields).Yields fun outcomes => ∀ o ∈ outcomes, o.IsNormal := by
  induction fields with
  | nil =>
    rw [fieldOutcomes]
    exact .pure (List.forall_mem_nil _)
  | cons d rest ih =>
    obtain ⟨hd, hrest⟩ := List.forall_mem_cons.1 hfields
    rw [fieldOutcomes]
    refine (fieldOutcome_yields owner hd).bind fun first hfirst => ?_
    exact (ih hrest).bind fun others hothers => .pure (List.forall_mem_cons.2 ⟨hfirst, hothers⟩)

theorem classify_yields (file : String) (shallow : Bool) (t : TypeExpr) (ht : IsWorded t) :
    (classify file shallow t).Yields (FieldType.IsNormal anyEmbeds) := by
  induction t using TypeExpr.induction_on_parts generalizing shallow with
  | path absolute before s ih =>
    obtain ⟨hbefore, hlast⟩ := List.forall_mem_append.1 (isWorded_path.1 ht)
    obtain ⟨hname, hs⟩ := isWorded_parts (hlast s List.mem_cons_self)
    have hnames : ∀ w ∈ before.map (·.name), IsWord w := by
      rw [List.forall_mem_map]
      exact fun q hq => (isWorded_parts (hbefore q hq)).1
    rw [classify_path]
    exact classifySegment_yields hnames hname fun t ht shallow => ih t ht shallow (hs t ht)
  | reference _ _ target ih | pointer _ target ih | paren target ih =>
    rw [classify]
    exact ih shallow ht
  | array element _ ih | slice element ih =>
    rw [classify]
    have helement := elementType_yields file shallow (ih false ht)
    exact helement.bind fun found hfound => .pure (array_isNormal hfound)
  | inlineStruct _ _ fields ih =>
    rw [classify]
    split
    · exact .pure (blank_isNormal "")
    · have hfields := isWorded_inlineStruct.1 ht
      have houtcomes := fieldOutcomes_yields inlineStructName fun d hd shallow =>
        ih d hd shallow (hfields d hd)
      refine (Compile.Yields.lift houtcomes).bind fun outcomes houtcomes => .pure ?_
      rw [FieldType.IsNormal]
      exact ofOutcomes_isNormal inlineStructName houtcomes
  | brokenInlineStruct _ _ reason =>
    rw [classify]
    split
    · exact .pure (blank_isNormal "")
    · exact .throw _
  | emptyPath absolute =>
    rw [classify, classifyPath]
    exact .throw _
  | projection | tuple | bareBound | other =>
    rw [classify]
    exact .throw _

end Classify

/-! ## Collecting -/

theorem structOf?_isNormal (file : String) (d : StructDecl) (hd : IsWorded d.fields) :
    (structOf? file d).Yields fun found => ∀ s ∈ found, s.IsNormal anyEmbeds := by
  unfold structOf?
  split
  · exact (Traced.Yields.note _).bind fun _ _ => .pure nofun
  · next fields hfields =>
    rw [hfields, Worded.isWorded_some] at hd
    have houtcomes := fieldOutcomes_yields (plainName d.name) fun field hfield shallow =>
      classify_yields file shallow field.type (hd field hfield)
    have hcollect : (collectFields file (plainName d.name) fields).Yields
        (StructDescriptor.IsNormal anyEmbeds) :=
      houtcomes.bind fun outcomes h => .pure (ofOutcomes_isNormal _ h)
    refine hcollect.bind fun s hs => ?_
    split
    · exact (Traced.Yields.note _).bind fun _ _ => .pure nofun
    · refine .pure fun t ht => ?_
      rw [StructDescriptor.isNormal_iff] at hs
      rw [← Option.some.inj ht, StructDescriptor.isNormal_iff]
      exact hs

namespace Catalog

/-- All structs of the table are in normal form, and embed as it is allowed. -/
def IsNormal (allowed : List String → Prop) (c : Catalog) : Prop :=
  ∀ s ∈ c.structs, s.IsNormal allowed

theorem IsNormal.insert {allowed : List String → Prop} {c : Catalog} (hc : c.IsNormal allowed)
    {s : StructDescriptor} (hs : s.IsNormal allowed) : (c.insert s).IsNormal allowed := by
  intro t ht
  rcases mem_putSorted ht with rfl | ht
  · exact hs
  · exact hc t ht

theorem collectStruct_isNormal {file : String} {c : Catalog} (hc : c.IsNormal anyEmbeds)
    {d : StructDecl} (hd : IsWorded d.fields) :
    (collectStruct file c d).Yields (IsNormal anyEmbeds) := by
  refine (collectStruct_adds (structOf?_isNormal file d hd) c).mono ?_
  rintro _ ⟨found, hfound, rfl⟩
  cases found with
  | none => exact hc
  | some s => exact hc.insert (hfound s rfl)

theorem collectRaw_isNormal {files : List SourceFile} (hfiles : ∀ f ∈ files, IsWorded f.structs) :
    (collectRaw files).Yields (IsNormal anyEmbeds) := by
  refine Traced.Yields.foldlM (Q := IsNormal anyEmbeds) (by simp [IsNormal, empty])
    fun c f hf hc => ?_
  refine Traced.Yields.foldlM (Q := IsNormal anyEmbeds) hc fun c d hd hc => ?_
  exact collectStruct_isNormal hc (hfiles f hf d hd).2

end Catalog

/-! ## Sealing -/

section Resolve

variable {c : Catalog} {kept : String → Bool}

theorem addMissing_isNormal {allowed : List String → Prop} {own others : List Field}
    (hown : FieldsAreNormal allowed own) (hothers : FieldsAreNormal allowed others) :
    FieldsAreNormal allowed (addMissing own others) := by
  refine fieldsAreNormal_append hown ?_
  rw [fieldsAreNormal_iff] at hothers ⊢
  exact fun f hf => hothers f (List.mem_filter.1 hf).1

theorem foldl_addMissing_isNormal {allowed : List String → Prop} {own : List Field}
    {others : List (List Field)} (hown : FieldsAreNormal allowed own)
    (hothers : ∀ l ∈ others, FieldsAreNormal allowed l) :
    FieldsAreNormal allowed (others.foldl addMissing own) := by
  induction others generalizing own with
  | nil => exact hown
  | cons l rest ih =>
    obtain ⟨hl, hrest⟩ := List.forall_mem_cons.1 hothers
    exact ih (addMissing_isNormal hown hl) hrest

mutual

/-- A resolved struct is in normal form, and embeds nothing, if the fields it inherits are in normal
form. -/
theorem StructDescriptor.isNormal_resolve
    (hdistinct : ∀ T, ((c.fieldsOf T).map (·.name)).Nodup) (s : StructDescriptor)
    (hs : s.IsNormal anyEmbeds)
    (hc : ∀ T ∈ s.targets, kept T = true → FieldsAreNormal noEmbeds (c.fieldsOf T)) :
    (s.resolve c kept).IsNormal noEmbeds := by
  have hnames := (StructDescriptor.isNormal_iff.1 hs).2.1
  rw [StructDescriptor.isNormal_iff]
  refine ⟨?_, StructDescriptor.nodup_resolve hnames hdistinct, ?_⟩
  · cases s
    rfl
  · match s with
    | ⟨name, fields, isDefinition, embeds⟩ =>
      simp only [StructDescriptor.targets, List.mem_append] at hc
      refine foldl_addMissing_isNormal ?_ fun l hl => ?_
      · exact resolveFields_isNormal hdistinct fields (StructDescriptor.isNormal_iff.1 hs).2.2
          fun T hT => hc T (.inr hT)
      · obtain ⟨T, hT, rfl⟩ := List.mem_map.1 hl
        obtain ⟨hT, hkept⟩ := List.mem_filter.1 hT
        exact hc T (.inl hT) hkept

theorem resolveFields_isNormal (hdistinct : ∀ T, ((c.fieldsOf T).map (·.name)).Nodup)
    (fields : List Field) (hfields : FieldsAreNormal anyEmbeds fields)
    (hc : ∀ T ∈ fieldTargets fields, kept T = true → FieldsAreNormal noEmbeds (c.fieldsOf T)) :
    FieldsAreNormal noEmbeds (resolveFields c kept fields) := by
  match fields with
  | [] => trivial
  | ⟨name, type, tag, doc, exported⟩ :: rest =>
    simp only [fieldTargets, List.mem_append] at hc
    obtain ⟨htag, htype, hrest⟩ := hfields
    refine ⟨htag, ?_, ?_⟩
    · exact FieldType.isNormal_resolve hdistinct type htype fun T hT => hc T (.inl hT)
    · exact resolveFields_isNormal hdistinct rest hrest fun T hT => hc T (.inr hT)

theorem FieldType.isNormal_resolve (hdistinct : ∀ T, ((c.fieldsOf T).map (·.name)).Nodup)
    (type : FieldType) (htype : type.IsNormal anyEmbeds)
    (hc : ∀ T ∈ type.targets, kept T = true → FieldsAreNormal noEmbeds (c.fieldsOf T)) :
    (type.resolve c kept).IsNormal noEmbeds := by
  match type with
  | .struct inner => exact StructDescriptor.isNormal_resolve hdistinct inner htype hc
  | .array (some element) => exact FieldType.isNormal_resolve hdistinct element htype hc
  | .map (some value) => exact FieldType.isNormal_resolve hdistinct value htype hc
  | .array none => trivial
  | .map none => trivial
  | .scalar s => exact scalar_isNormal noEmbeds s
  | .named name => exact htype

end

end Resolve

namespace Catalog

/-- Sealing a table in normal form merges all embeddings and keeps the normal form. -/
theorem seal_isNormal {raw : Catalog} (hwf : raw.WellFormed) (hraw : raw.IsNormal anyEmbeds) :
    raw.seal.Yields fun c => c.Ordered ∧ c.IsNormal noEmbeds := by
  intro log
  obtain ⟨c, events, hrun, hI, -⟩ := seal_inv hwf
  have hresolve : ∀ n s, c.find? n = some s →
      (∀ T, raw.Keeps (droppedEdges events) n T → FieldsAreNormal noEmbeds (c.fieldsOf T)) →
      s.IsNormal noEmbeds := by
    intro n s hs hkept
    obtain ⟨s₀, hs₀, rfl⟩ := hI.body n s hs
    refine StructDescriptor.isNormal_resolve hI.distinct s₀ (hraw s₀ (mem_of_find? hs₀)) ?_
    exact fun T hT hk => hkept T ⟨⟨s₀, hs₀, hT⟩, of_decide_eq_true hk⟩
  -- the kept edges lead down to structs that keep none, so their fields may be used for the others
  have hfields : ∀ n, Acc (fun T S => raw.Keeps (droppedEdges events) S T) n →
      FieldsAreNormal noEmbeds (c.fieldsOf n) := by
    intro n hn
    induction hn with
    | intro n _ ih =>
      rw [fieldsOf]
      cases hs : c.find? n with
      | none => trivial
      | some s => exact (StructDescriptor.isNormal_iff.1 (hresolve n s hs ih)).2.2
  rw [hrun log]
  refine ⟨hI.ordered, fun s hs => hresolve s.name s (hI.ordered.find? hs) fun T hT => ?_⟩
  by_cases hknown : T ∈ c.names
  · exact hfields T (hI.acc T hknown)
  · rw [fieldsOf_eq_nil hknown]
    trivial

/-- What a sealed table is like: the structs stand under their names in order, each of them with
nothing left to embed and in normal form. -/
structure IsSealed (c : Catalog) : Prop where
  ordered : c.Ordered
  keyed : ∀ s ∈ c.structs, c.find? s.name = some s
  normal : c.IsNormal noEmbeds

/-- The table of files that can be parsed is in normal form, whatever they declare. -/
theorem collect_isSealed {files : List SourceFile}
    (hfiles : ∀ f ∈ files, ∃ path text, SourceFile.parse path text = .ok f) :
    (collect files).Yields IsSealed := by
  have hwords : ∀ f ∈ files, IsWorded f.structs := fun f hf => by
    obtain ⟨path, text, htext⟩ := hfiles f hf
    exact (SourceFile.isWorded_parse htext).1
  refine ((collectRaw_isNormal hwords).and (collectRaw_wellFormed files)).bind fun raw hraw => ?_
  refine (seal_isNormal hraw.2 hraw.1).mono fun c hc => ?_
  exact ⟨hc.1, fun s hs => hc.1.find? hs, hc.2⟩

/-- A page that embeds a record, with words and maps to objects in its fields. -/
def pageText : String :=
  "pub struct Record \x7b
     #[api(json = \"id\")] pub id: std::string::String,
   \x7d
   pub struct Page \x7b
     #[serde(flatten)] pub record: Record,
     #[api(json = \"words\")] pub words: Vec<Option<i64>>,
     #[api(json = \"parts\")] pub parts: HashMap<String, object!\x7b
       #[api(json = \"of\")] pub of: shop::Part
     \x7d>,
   \x7d"

-- the characters of the text are spelled out before it is parsed, for decoding them takes long
set_option maxRecDepth 4000 in
theorem pageText_parses : (SourceFile.parse "page.rs" pageText).isOk = true := by
  have htext : pageText.toList = _ := String.toList_ofList
  rw [SourceFile.parse, tokenizeFile, fileText, htext]
  decide +kernel

theorem page_isSealed : ∃ f, SourceFile.parse "page.rs" pageText = .ok f ∧
    (collect [f]).Yields IsSealed := by
  obtain ⟨f, hf⟩ := exists_of_isOk pageText_parses
  refine ⟨f, hf, collect_isSealed fun file hfile => ?_⟩
  rw [List.mem_singleton.1 hfile]
  exact ⟨"page.rs", pageText, hf⟩

end Catalog

end ApiDecl
