import ApiDecl.Proofs.Hosting
import ApiDecl.Proofs.InPlace
import ApiDecl.Proofs.RouteResult

/-!
# Proofs: uses of structs

A name is resolved in three places: when a struct is embedded, when the type of a field is compiled
and when a route is. Each of them finds the struct of the table whose name is the last segment of the
path, however the path is wrapped and wherever it stands. Two names are apart: `Empty` as a request or
an answer is no struct, and a name that is written with a raw marker is not that of the struct.
-/

namespace ApiDecl

open Compile Relation Syntax

/-- Sequences of sequences of a type, a number of levels deep. -/
def FieldType.arrays : Nat → FieldType → FieldType
  | 0, t => t
  | k + 1, t => .array (some (arrays k t))

/-- Lists of lists of a schema, a number of levels deep. -/
def Schema.lists : Nat → Schema → Schema
  | 0, σ => σ
  | k + 1, σ => .list (lists k σ)

namespace Catalog

variable {c : Catalog} {T : StructDescriptor} {n : TypeName}

/-! ## Schemas -/

theorem isDateTime_of_structName (h : IsStructName n.base) : n.isDateTime = false := by
  simpa [TypeName.isDateTime] using h.dateTime

theorem get?_of_base (hT : c.find? T.name = some T) (hn : n.base = T.name) : c.get? n = some T := by
  rw [get?, hn, hT]

/-- Compiling a name of a struct gives its reference or its schema, or ends where the struct is on
the path already. -/
theorem typeSchema_named (hT : c.find? T.name = some T) (hn : n.base = T.name)
    (hname : IsStructName n.base) (path : List String) :
    c.typeSchema path (.named n) =
      if T.isDefinition then pure (.referTo (definitionId T.name))
      else if T.name ∈ path then throw (.recursion (path ++ [T.name]))
      else c.objectSchema (path ++ [T.name]) T := by
  have hdate := isDateTime_of_structName hname
  have hget := get?_of_base hT hn
  split
  · next hdef => exact typeSchema_reference c path hdate hget hdef
  · next hplain =>
    have hplain : T.isDefinition = false := by simpa using hplain
    split
    · next hpath => exact typeSchema_again c path hdate hget hplain hpath
    · next hpath => exact typeSchema_inline c path hdate hget hplain hpath

/-- With nothing around it, a name of a struct has the schema of the struct. -/
theorem typeSchema_alone (hT : c.find? T.name = some T) (hn : n.base = T.name)
    (hname : IsStructName n.base) :
    c.typeSchema [] (.named n) = c.structSchema T (some T.name) := by
  rw [typeSchema_named hT hn hname]
  cases hdef : T.isDefinition with
  | true =>
    rw [structSchema_definition c hdef]
    rfl
  | false =>
    rw [structSchema_plain c hdef]
    rfl

/-- On any path, a name of a struct has the schema of the struct, if it has one. -/
theorem structSchema_of_typeSchema (hT : c.find? T.name = some T) (hn : n.base = T.name)
    (hname : IsStructName n.base) {path : List String} {σ : Schema}
    (h : (c.typeSchema path (.named n)).result = .ok σ) :
    (c.structSchema T (some T.name)).result = .ok σ := by
  cases hdef : T.isDefinition with
  | true =>
    rw [typeSchema_named hT hn hname, if_pos hdef] at h
    rw [structSchema_definition c hdef]
    exact h
  | false =>
    exact structSchema_of_writes hT hdef (hn ▸ hname.dateTime) hn (writes_of_typeSchema h)

theorem isByte_arrays_named (k : Nat) (n : TypeName) :
    (FieldType.arrays k (.named n)).isByte = false := by
  cases k <;> rfl

theorem typeSchema_arrays (c : Catalog) (path : List String) (k : Nat) (n : TypeName) :
    c.typeSchema path (.arrays k (.named n)) =
      Schema.lists k <$> c.typeSchema path (.named n) := by
  induction k with
  | zero => exact (id_map _).symm
  | succ k ih =>
    rw [FieldType.arrays, typeSchema_array c path (isByte_arrays_named k n), ih, ← comp_map]
    rfl

/-- A field with a struct, or with sequences of it, as its type has the schema of the struct. -/
theorem fieldSchema_arrays (hT : c.find? T.name = some T) (hn : n.base = T.name)
    (hname : IsStructName n.base) {f : Field} {k : Nat} (hf : f.type = .arrays k (.named n)) :
    c.fieldSchema f = (fun τ => describe f.doc (τ.lists k)) <$> c.structSchema T (some T.name) := by
  have htype : c.fieldSchema f = describe f.doc <$> c.typeSchema [] f.type := by
    rw [map_eq_pure_bind]
    rfl
  rw [htype, hf, typeSchema_arrays, typeSchema_alone hT hn hname, ← comp_map]
  rfl

/-- The property of a visible field with a struct, or with sequences of it, as its type is the schema
of the struct. -/
theorem property_arrays (hT : c.find? T.name = some T) (hn : n.base = T.name)
    (hname : IsStructName n.base) {s : StructDescriptor} {f : Field} {name : String} {k : Nat}
    (hf : f.type = .arrays k (.named n)) (hlast : lastNamed? s.fields name = some f)
    {path : List String} {σ : Schema} (h : (c.objectSchema path s).result = .ok σ) :
    ∃ τ, (c.structSchema T (some T.name)).result = .ok τ ∧
      σ.properties.lookup name = some (require name f.tag (describe f.doc (τ.lists k))) := by
  obtain ⟨schema, hschema, hlookup⟩ := (writes_of_objectSchema h).lookup_property hlast
  rw [fieldSchema_arrays hT hn hname hf, result_map] at hschema
  obtain ⟨τ, hτ, rfl⟩ := exists_of_map_ok hschema
  exact ⟨τ, hτ, hlookup⟩

end Catalog

/-! ## Declared fields -/

section Declared

variable {file owner : String} {fields : List FieldDecl} {d : FieldDecl}

theorem mem_embeds_collectFields {n : TypeName} (hd : d ∈ fields)
    (htype : d.type.Denotes (.named n)) (hembedded : isEmbedded d.attributes = true) :
    n.base ∈ (collectFields file owner fields).value.embeds := by
  have houtcome : (fieldOutcome file owner d).value = .embed n.base := by
    rw [fieldOutcome_embedded file owner htype hembedded]
    rfl
  rw [collectFields_value, StructDescriptor.mem_embeds_ofOutcomes]
  exact List.mem_map.2 ⟨d, hd, houtcome⟩

theorem mem_fields_collectFields {u : FieldType} {tag : Tag} (hd : d ∈ fields)
    (hdistinct : (fields.map fun d => plainName d.name).Nodup) (htype : d.type.Denotes u)
    (hembedded : isEmbedded d.attributes = false)
    (htag : Tag.ofAttributes? d.attributes = .ok (some tag)) (hempty : tag.isEmpty = false) :
    ⟨plainName d.name, u, tag, docText (docLines file d.attributes), d.isPublic⟩ ∈
      (collectFields file owner fields).value.fields := by
  have houtcome : (fieldOutcome file owner d).value =
      .field ⟨plainName d.name, u, tag, docText (docLines file d.attributes), d.isPublic⟩ := by
    rw [fieldOutcome_tagged file owner htype hembedded htag hempty]
    rfl
  rw [collectFields_value]
  refine StructDescriptor.mem_fields_ofOutcomes (List.mem_map.2 ⟨d, hd, houtcome⟩) ?_
  intro g hg hname
  obtain ⟨e, he, hg⟩ := List.mem_map.1 hg
  have hsame : plainName e.name = plainName d.name := by
    rw [← name_of_fieldOutcome file owner hg, hname]
  obtain rfl := List.inj_on_of_nodup_map hdistinct he hd hsame
  rw [houtcome] at hg
  cases hg
  rfl

end Declared

theorem FieldType.resolve_arrays_named (c : Catalog) (kept : String → Bool) (k : Nat)
    (n : TypeName) : (arrays k (.named n)).resolve c kept = arrays k (.named n) := by
  induction k with
  | zero => rfl
  | succ k ih => rw [arrays, resolve, ih]

/-- Sealing leaves a field as it is if its type has nothing but a name in it. -/
theorem Field.resolve_of_arrays (c : Catalog) (kept : String → Bool) {f : Field} {k : Nat}
    {n : TypeName} (hf : f.type = .arrays k (.named n)) : f.resolve c kept = f := by
  obtain ⟨name, type, tag, doc, exported⟩ := f
  obtain rfl : type = .arrays k (.named n) := hf
  rw [resolve, FieldType.resolve_arrays_named]

namespace Catalog

/-! ## What it means to be found -/

/-- A name of the struct is found where it is embedded: it is collected as what its host embeds; the
host has the missing fields of the struct behind those that it has before, unless the struct leads
back; and the struct is not reported as unknown. -/
structure EmbedsFound (raw c : Catalog) (events : List Event) (T : StructDescriptor) (n : TypeName) :
    Prop where
  collected : ∀ {file owner : String} {fields : List FieldDecl} {d : FieldDecl}, d ∈ fields →
    d.type.Denotes (.named n) → isEmbedded d.attributes = true →
    T.name ∈ (collectFields file owner fields).value.embeds
  merged : ∀ S ∈ raw.structs, ¬ ReflTransGen raw.Embeds T.name S.name → ∃ S' kept,
    c.find? S.name = some S' ∧ S' = S.resolve c kept ∧
    ∀ host, (FieldType.struct S).Hosts host → (FieldType.struct S').Hosts (host.resolve c kept) ∧
      ∀ before behind, host.embeds = before ++ T.name :: behind → ∃ others,
        (host.resolve c kept).fields =
          addMissing ({ host with embeds := before }.resolve c kept).fields T.fields ++ others
  known : ∀ owner, Event.embedUnknown T.name owner ∉ events

/-- A name of the struct is found where it is the type of a field, or the element type of sequences:
it is collected as the type of the field, and sealing leaves it so; the schema of the field is that of
the struct, also as a property of the struct around it; and on any path of structs it is compiled
without a report, to what the struct has by itself. -/
structure FieldsFound (raw c : Catalog) (T : StructDescriptor) (n : TypeName) : Prop where
  collected : ∀ {file owner : String} {fields : List FieldDecl} {d : FieldDecl} {tag : Tag} {k : Nat},
    d ∈ fields → (fields.map fun d => plainName d.name).Nodup →
    d.type.Denotes (.arrays k (.named n)) → isEmbedded d.attributes = false →
    Tag.ofAttributes? d.attributes = .ok (some tag) → tag.isEmpty = false →
    ⟨plainName d.name, .arrays k (.named n), tag, docText (docLines file d.attributes), d.isPublic⟩ ∈
      (collectFields file owner fields).value.fields
  sealed : ∀ S ∈ raw.structs, ∃ S' kept, c.find? S.name = some S' ∧ S' = S.resolve c kept ∧
    ∀ host, (FieldType.struct S).Hosts host → (FieldType.struct S').Hosts (host.resolve c kept) ∧
      ∀ f ∈ host.fields, ∀ k, f.type = .arrays k (.named n) → f ∈ (host.resolve c kept).fields
  schema : ∀ f k, f.type = .arrays k (.named n) →
    c.fieldSchema f = (fun τ => describe f.doc (τ.lists k)) <$> c.structSchema T (some T.name)
  property : ∀ {s : StructDescriptor} {f : Field} {name : String} {k : Nat} {path : List String}
    {σ : Schema}, f.type = .arrays k (.named n) → lastNamed? s.fields name = some f →
    (c.objectSchema path s).result = .ok σ → ∃ τ, (c.structSchema T (some T.name)).result = .ok τ ∧
      σ.properties.lookup name = some (require name f.tag (describe f.doc (τ.lists k)))
  nested : ∀ path k, c.typeSchema path (.arrays k (.named n)) = Schema.lists k <$>
    if T.isDefinition then pure (.referTo (definitionId T.name))
    else if T.name ∈ path then throw (.recursion (path ++ [T.name]))
    else c.objectSchema (path ++ [T.name]) T
  written : ∀ {path : List String} {k : Nat} {σ : Schema},
    (c.typeSchema path (.arrays k (.named n))).result = .ok σ →
    ∃ τ, (c.structSchema T (some T.name)).result = .ok τ ∧ σ = τ.lists k

/-- A name of the struct is found where it is that of a request or of an answer: the signature has
it, unless it is written as empty; and the parameters and the body of the route are those of the
struct. -/
structure RoutesFound (c : Catalog) (T : StructDescriptor) (n : TypeName) : Prop where
  request : ∀ {t : TypeExpr}, t.Denotes (.named n) → t.isEmptyType = false →
    ∀ file lifetime mutable, (TypeExpr.reference lifetime mutable t).request? file = .ok (some n)
  response : ∀ {t : TypeExpr}, t.Denotes (.named n) → n.base ≠ emptyName →
    ∀ file, t.response? file = .ok (some n)
  found : c.routeStruct? (some n) = pure (some T)
  requested : ∀ {file group : String} {m : MethodDecl} {head : RouteHead} {context t : TypeExpr}
    {lifetime : Option String} {mutable : Bool}, RouteHead.ofMethod file group m = .ok head →
    m.parameters = [context, .reference lifetime mutable t] → t.Denotes (.named n) →
    t.isEmptyType = false → head.signature.1 = some n ∧
      (c.route file group m).result = c.routeOf head (some T) (head.signature.2.bind c.get?)
  answered : ∀ {file group : String} {m : MethodDecl} {head : RouteHead} {result t error : TypeExpr},
    RouteHead.ofMethod file group m = .ok head → m.result = some result →
    result.resultTypes? = some (t, error) → t.Denotes (.named n) → n.base ≠ emptyName →
    head.signature.2 = some n ∧
      (c.route file group m).result = c.routeOf head (head.signature.1.bind c.get?) (some T)
  parameters : ∀ {owner : String} {table : ParameterTable},
    (c.parameters owner T).result = .ok table → ∀ place, List.Forall₂ (c.IsParameter place)
      (T.parameterFields place) ((table.get? place).getD [])

variable {raw c : Catalog} {events : List Event} {T : StructDescriptor} {n : TypeName}

theorem embedsFound (hwf : raw.WellFormed)
    (hrun : ∀ log, Id.run (raw.seal.run log) = (c, log ++ events))
    (hI : Sealing.Inv raw [] c (droppedEdges events)) (hnames : c.names = raw.names)
    (hT : c.find? T.name = some T) (hn : n.base = T.name) : raw.EmbedsFound c events T n where
  collected := fun hd htype hembedded => hn ▸ mem_embeds_collectFields hd htype hembedded
  merged := by
    intro S hS hcycle
    have hkept := hI.keptFrom_of_not_reaches hcycle
    have hfields : c.fieldsOf T.name = T.fields := by
      rw [fieldsOf, hT]
      rfl
    refine ⟨_, _, hI.find?_resolve hwf hnames hS, rfl, fun host hhost => ?_⟩
    refine ⟨hhost.resolve c _, fun before behind hembeds => ?_⟩
    exact hfields ▸ StructDescriptor.fields_resolve_embeds c hembeds hkept
  known := by
    intro owner hunknown
    have htruthful := raw.seal_truthful fun e (he : e ∈ (#[] : Array Event)) => by simp at he
    have hmem : Event.embedUnknown T.name owner ∈ (Id.run (raw.seal.run #[])).2 := by
      rw [hrun #[]]
      simpa using hunknown
    exact htruthful _ hmem T.name owner rfl (hnames ▸ mem_names_of_find? hT)

theorem fieldsFound (hwf : raw.WellFormed) {D : List (String × String)}
    (hI : Sealing.Inv raw [] c D) (hnames : c.names = raw.names) (hT : c.find? T.name = some T)
    (hn : n.base = T.name) (hname : IsStructName n.base) : raw.FieldsFound c T n where
  collected := mem_fields_collectFields
  sealed := by
    intro S hS
    refine ⟨_, _, hI.find?_resolve hwf hnames hS, rfl, fun host hhost => ?_⟩
    refine ⟨hhost.resolve c _, fun f hf k htype => ?_⟩
    have hmem := StructDescriptor.mem_fields_resolve c (Sealing.keptFrom D S.name) hf
    rwa [Field.resolve_of_arrays c _ htype] at hmem
  schema := fun f k hf => fieldSchema_arrays hT hn hname hf
  property := fun hf hlast h => property_arrays hT hn hname hf hlast h
  nested := fun path k => by rw [typeSchema_arrays, typeSchema_named hT hn hname]
  written := by
    intro path k σ h
    rw [typeSchema_arrays, result_map] at h
    obtain ⟨τ, hτ, hσ⟩ := exists_of_map_ok h
    exact ⟨τ, structSchema_of_typeSchema hT hn hname hτ, hσ⟩

theorem routesFound (hT : c.find? T.name = some T) (hn : n.base = T.name) : c.RoutesFound T n where
  request := fun h hempty file lifetime mutable => h.request? hempty file lifetime mutable
  response := fun h hempty file => h.response? hempty file
  found := by
    rw [routeStruct?, get?_of_base hT hn]
  requested := by
    intro file group m head context t lifetime mutable hhead hm htype hempty
    have hrequest := signature_request (RouteHead.signature_of_ofMethod hhead) hm
    rw [htype.request? hempty] at hrequest
    have hinput : head.signature.1 = some n := (Except.ok.inj hrequest).symm
    refine ⟨hinput, ?_⟩
    rw [route_result, hhead, ok_bind, hinput, Option.bind_some, get?_of_base hT hn]
  answered := by
    intro file group m head result t error hhead hm hresult htype hempty
    have hresponse := signature_response (RouteHead.signature_of_ofMethod hhead) hm hresult
    rw [htype.response? hempty] at hresponse
    have houtput : head.signature.2 = some n := (Except.ok.inj hresponse).symm
    refine ⟨houtput, ?_⟩
    rw [route_result, hhead, ok_bind, houtput, Option.bind_some, get?_of_base hT hn]
  parameters := by
    intro owner table htable
    exact parameters_yields c owner T #[] table htable

/-- Every use of a struct finds it. In a sealed table, take a struct and a name for it, qualified or
not, that has no meaning of its own. However the name is wrapped and wherever it stands, it is found
as an embedded field, as the type of a field and as a request or an answer. -/
theorem struct_uses_found (raw : Catalog) (hwf : raw.WellFormed) : ∃ (c : Catalog)
    (events : List Event), (∀ log, Id.run (raw.seal.run log) = (c, log ++ events)) ∧
      ∀ T ∈ c.structs, ∀ n : TypeName, n.base = T.name → IsStructName n.base →
        raw.EmbedsFound c events T n ∧ raw.FieldsFound c T n ∧ c.RoutesFound T n := by
  obtain ⟨c, events, hrun, hI, hnames⟩ := seal_inv hwf
  refine ⟨c, events, hrun, fun T hT n hn hname => ?_⟩
  have hfind := hI.ordered.find? hT
  exact ⟨embedsFound hwf hrun hI hnames hfind hn, fieldsFound hwf hI hnames hfind hn hname,
    routesFound hfind hn⟩

/-- A struct for stamps. -/
def stamp : StructDescriptor :=
  ⟨"Stamp", [⟨"price", .scalar .u32, ⟨[("json", "price")]⟩, "", true⟩], false, []⟩

/-- A field with a list of stamps, named in their module. -/
def stamps : Field :=
  ⟨"stamps", .arrays 1 (.named ⟨["post"], "Stamp"⟩), ⟨[("json", "stamps")]⟩, "The stamps.", true⟩

/-- A struct that embeds a stamp and has others in a list. -/
def letter : StructDescriptor := ⟨"Letter", [stamps], false, ["Stamp"]⟩

/-- Letters and stamps. -/
def mail : Catalog := ⟨[letter, stamp]⟩

/-- The type `&'a Option<post::Stamp>`. -/
def optionalStamp : TypeExpr :=
  .reference (some "a") false (.path false [.generic "Option" false
    [.type (.path false [.plain "post", .plain "Stamp"])] false])

theorem isStructName_stamp : IsStructName "Stamp" :=
  ⟨by decide, by decide, by decide, by decide, by decide⟩

theorem optionalStamp_denotes : optionalStamp.Denotes (.named ⟨["post"], "Stamp"⟩) := by
  have hstamp : TypeExpr.Denotes (.path false ([.plain "post"] ++ [.plain "Stamp"]))
      (.named ⟨["post"], "Stamp"⟩) := .name isStructName_stamp
  have hoption : TypeExpr.Denotes (.path false ([] ++ [.generic "Option" false
      [.type (.path false [.plain "post", .plain "Stamp"])] false])) (.named ⟨["post"], "Stamp"⟩) :=
    .wrapper (by decide) rfl hstamp
  exact .reference hoption

/-- A letter has the price of its stamp, the list of stamps has the schema of the struct in it, and a
stamp is a request. -/
theorem letter_uses_stamp : mail.WellFormed ∧ ∃ (c : Catalog) (events : List Event),
    (∀ log, Id.run (mail.seal.run log) = (c, log ++ events)) ∧ ∃ T ∈ c.structs, T.name = "Stamp" ∧
      (∃ S' others, c.find? "Letter" = some S' ∧
        S'.fields = addMissing [stamps] T.fields ++ others) ∧
      c.fieldSchema stamps = (fun τ => describe "The stamps." (τ.lists 1)) <$>
        c.structSchema T (some T.name) ∧
      (TypeExpr.reference none true optionalStamp).request? "mail.rs" =
        .ok (some ⟨["post"], "Stamp"⟩) := by
  have hwf : mail.WellFormed := ⟨by decide, by decide⟩
  obtain ⟨c, events, hrun, huses⟩ := struct_uses_found mail hwf
  obtain ⟨c', events', hrun', -, hnames⟩ := seal_inv hwf
  obtain rfl : c = c' := congrArg Prod.fst ((hrun #[]).symm.trans (hrun' #[]))
  obtain ⟨T, hT⟩ := mem_names_iff.1 (hnames ▸ (by decide : "Stamp" ∈ mail.names))
  have hname := name_of_find? hT
  obtain ⟨hembeds, hfields, hroutes⟩ := huses T (mem_of_find? hT) ⟨["post"], "Stamp"⟩ hname.symm
    isStructName_stamp
  have hcycle : ¬ ReflTransGen mail.Embeds T.name letter.name := by
    intro h
    rw [hname] at h
    rcases ReflTransGen.cases_head h with h | ⟨target, ⟨s, hs, htarget⟩, -⟩
    · exact absurd h (by decide)
    · obtain rfl : stamp = s := Option.some.inj hs
      cases htarget
  obtain ⟨S', kept, hS', rfl, hhosts⟩ := hembeds.merged letter List.mem_cons_self hcycle
  obtain ⟨-, hmerged⟩ := hhosts letter (.struct letter)
  obtain ⟨others, hothers⟩ := hmerged [] [] (hname ▸ rfl)
  exact ⟨hwf, c, events, hrun, T, mem_of_find? hT, hname, ⟨_, others, hS', hothers⟩,
    hfields.schema stamps 1 rfl, hroutes.request optionalStamp_denotes rfl "mail.rs" none true⟩

/-! ## Names apart -/

/-- A struct with the name of types without content, and one that is declared as `r#type`. -/
def namesApart : Catalog :=
  ⟨[⟨emptyName, [⟨"q", .scalar .string, ⟨[("query", "q")]⟩, "", true⟩], false, []⟩,
    ⟨plainName "r#type", [⟨"id", .scalar .u64, ⟨[("json", "id")]⟩, "", true⟩], false, []⟩]⟩

/-- A method that takes and gives the first of them. -/
def emptyMethod : MethodDecl :=
  ⟨[⟨⟨false, ["doc"]⟩, .value (some " @route POST /run"), ⟨3, 5⟩⟩], "run",
    [.path false [.plain "Context"], .reference none false (.path false [.plain emptyName])],
    some (.path false [.generic "Result" false
      [.type (.path false [.plain emptyName]), .type (.path false [.plain "Error"])] false])⟩

/-- A struct `Empty` that is a request and an answer gives neither parameters nor bodies; and a struct
that is declared as `r#type` is unknown where a type is written so. -/
theorem empty_and_raw_names_differ : namesApart.WellFormed ∧ ∃ (c : Catalog) (events : List Event),
    (∀ log, Id.run (namesApart.seal.run log) = (c, log ++ events)) ∧
      (∃ T ∈ c.structs, T.name = emptyName ∧ T.parameterFields .query ≠ []) ∧
      IsStructName emptyName ∧
      (∃ r, (c.route "run.rs" "RunService" emptyMethod).result = .ok r ∧ r.input = none ∧
        r.output = none ∧ (∀ place, r.parameters.get? place = none) ∧ r.requestBody = none ∧
        r.response = none) ∧
      (∃ T ∈ c.structs, T.name = plainName "r#type") ∧ IsStructName (plainName "r#type") ∧
      classify "run.rs" false (.path false [.plain "r#type"]) = pure (.named ⟨[], "r#type"⟩) ∧
      c.typeSchema [] (.named ⟨[], "r#type"⟩) = (do
        liftM (note (.schemaUnknown "r#type"))
        return Schema.empty) := by
  have hwf : namesApart.WellFormed := ⟨by decide, by decide⟩
  obtain ⟨c, events, hrun, hI, hnames⟩ := seal_inv hwf
  have hempty : ∃ T ∈ c.structs, T.name = emptyName ∧ T.parameterFields .query ≠ [] := by
    have hT := hI.find?_resolve hwf hnames (S := namesApart.structs[0]) List.mem_cons_self
    refine ⟨_, mem_of_find? hT, name_of_find? hT, ?_⟩
    have hfields : ∀ kept, (namesApart.structs[0].resolve c kept).fields =
        namesApart.structs[0].fields := fun _ => rfl
    rw [StructDescriptor.parameterFields, hfields]
    decide +kernel
  have hraw : ∃ T ∈ c.structs, T.name = plainName "r#type" := by
    obtain ⟨T, hT⟩ := mem_names_iff.1 (hnames ▸ (by decide : plainName "r#type" ∈ namesApart.names))
    exact ⟨T, mem_of_find? hT, name_of_find? hT⟩
  have hroute : ∃ r, (c.route "run.rs" "RunService" emptyMethod).result = .ok r ∧ r.input = none ∧
      r.output = none ∧ (∀ place, r.parameters.get? place = none) ∧ r.requestBody = none ∧
      r.response = none := by
    have hread : (RouteHead.ofMethod "run.rs" "RunService" emptyMethod).toOption.any
        (fun head => head.signature == (none, none)) = true := by decide +kernel
    obtain ⟨head, hhead, hsignature⟩ := exists_of_any hread
    obtain ⟨owner, name, doc, declared, signature⟩ := head
    obtain rfl : signature = (none, none) := eq_of_beq hsignature
    have hbody : RouteHead.body ⟨owner, name, doc, declared, (none, none)⟩ none = none := by
      unfold RouteHead.body
      split <;> rfl
    refine ⟨RouteHead.route ⟨owner, name, doc, declared, (none, none)⟩ {} none none, ?_, rfl, rfl,
      fun place => ?_, rfl, rfl⟩
    · rw [route_result, hhead, ok_bind]
      dsimp only [Option.bind_none, routeOf]
      rw [hbody]
      rfl
    · cases place <;> rfl
  have hunknown : c.get? ⟨[], "r#type"⟩ = none := by
    have hnot : "r#type" ∉ c.names := by
      rw [hnames]
      decide
    exact find?_eq_none_iff.2 hnot
  refine ⟨hwf, c, events, hrun, hempty, ⟨by decide, by decide, by decide, by decide, by decide⟩,
    hroute, hraw, ⟨by decide, by decide, by decide, by decide, by decide⟩, rfl, ?_⟩
  exact typeSchema_unknown c [] rfl hunknown

end Catalog

end ApiDecl
