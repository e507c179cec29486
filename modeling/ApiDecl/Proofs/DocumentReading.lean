import ApiDecl.Proofs.Result
import ApiDecl.Proofs.SchemaReading

/-!
# Proofs: documents are read back

Every kind of record in a document is read back if its parts are (`Document.readsAs_document` and
the lemmas before it), so reading undoes writing (`reading_undoes_writing`). The type of documents
has values that are no documents: with two bodies of one media type, or with information whose names
are not in order. `Document.Proper` says that a document is not one of them.
-/

namespace ApiDecl

open Json

/-- The media types of bodies are different, and the names of the properties of their schemas. -/
structure ProperBodies (bodies : BodyTable) : Prop where
  types : (bodies.map (·.1)).Nodup
  schemas : ∀ b ∈ bodies, b.2.Distinct

/-- The tables of a node have different names. -/
def ContentNode.Proper : ContentNode → Prop
  | url _ => True
  | request node =>
    (∀ row ∈ node.parameters.toList, ∀ p ∈ row.2, p.schema.Distinct) ∧
      ∀ bodies, node.content = some bodies → ProperBodies bodies
  | response entries => ∀ e ∈ entries, ProperBodies e.content

/-- The tables of a document have different names, and its information and its servers have their
names in order. -/
structure Document.Proper (d : Document) : Prop where
  info : (Json.object d.info).Ordered
  servers : ∀ j ∈ d.servers, j.Ordered
  definitions : ∀ s ∈ d.definitions, s.schema.Distinct
  nodes : ∀ c ∈ d.categories, ∀ i ∈ c.items, ∀ n ∈ i.content, n.Proper

/-- The information and the servers of a document have no floats. -/
structure Document.NoFloat (d : Document) : Prop where
  info : (Json.object d.info).NoFloat
  servers : ∀ j ∈ d.servers, j.NoFloat

/-! ## Records -/

theorem noFloat_ofWord (n : UInt64) : (ofWord n).NoFloat := .whole _ _

theorem readsAs_bodies {bodies : BodyTable} (h : ProperBodies bodies) :
    ReadsAs bodiesOf? (bodiesJson bodies) bodies := by
  refine readsAs_table (fun s => .object [("schema", s.json)]) (fun b hb => ?_) h.types
  have hschema := Schema.readsAs_json (h.schemas b hb)
  exact readsAs_record [("schema", some b.2.json)] (by simp) (by simpa using hschema.noFloat)
    fun hr => hr.required rfl hschema.reads

theorem readsAs_parameter {p : Parameter} (h : p.schema.Distinct) :
    ReadsAs Parameter.ofNode? p.json p := by
  have hschema := Schema.readsAs_json h
  refine readsAs_record
    [("name", some (.string p.name)), ("schema", some p.schema.json),
      ("required", some (.bool p.required))]
    (by simp) (by simp [NoFloat.string, NoFloat.bool, hschema.noFloat]) fun {inner r} hr => ?_
  have hname : r.required? "name" Node.text? = some p.name := hr.requiredText rfl
  have hread : r.required? "schema" (Schema.ofNode? inner) = some p.schema :=
    hr.required rfl hschema.reads
  have hrequired : r.required? "required" Node.bool? = some p.required :=
    hr.required rfl fun _ => rfl
  simp [hname, hread, hrequired]

theorem ofName?_name (place : ParameterPlace) : ParameterPlace.ofName? place.name = some place := by
  cases place <;> decide

/-- The rows of a table are found from the last to the first, but every place has only one. -/
theorem ofPlaces_lookup (t : ParameterTable) :
    ParameterTable.ofPlaces (fun place => t.toList.reverse.lookup place) = t := by
  obtain ⟨_ | _, _ | _, _ | _, _ | _⟩ := t <;> rfl

/-- The rows of a table with the names of their places. -/
def ParameterTable.rows (t : ParameterTable) : List (String × List Parameter) :=
  t.toList.map fun row => (row.1.name, row.2)

theorem ParameterTable.json_eq (t : ParameterTable) :
    t.json = .object (t.rows.map fun m => (m.1, .array (m.2.map Parameter.json))) := by
  simp [ParameterTable.json, rows]

theorem readsAs_parameters {t : ParameterTable}
    (h : ∀ row ∈ t.toList, ∀ p ∈ row.2, p.schema.Distinct) :
    ReadsAs ParameterTable.ofNode? t.json t := by
  have hrows : ReadsAs (Node.members? (Node.list? Parameter.ofNode?)) t.json t.rows := by
    rw [t.json_eq]
    refine readsAs_members (fun ps : List Parameter => .array (ps.map (·.json))) fun m hm => ?_
    obtain ⟨row, hrow, rfl⟩ := List.mem_map.1 hm
    exact readsAs_list Parameter.json fun p hp => readsAs_parameter (h row hrow p hp)
  have hplaced : t.rows.mapM (fun row =>
      (ParameterPlace.ofName? row.1).map (·, row.2)) = some t.toList := by
    refine mapM_map_some fun row _ => ?_
    rw [ofName?_name, Option.map_some]
  refine ⟨hrows.noFloat, fun hlevels => ?_⟩
  refine Option.bind_eq_some_iff.2 ⟨_, hrows.reads hlevels, ?_⟩
  refine Option.bind_eq_some_iff.2 ⟨_, hplaced, ?_⟩
  exact congrArg some (ofPlaces_lookup t)

theorem readsAs_response {e : ResponseEntry} (h : ProperBodies e.content) :
    ReadsAs ResponseEntry.ofNode? e.json e := by
  have hbodies := readsAs_bodies h
  refine readsAs_record
    [("code", some (.ofHalfword e.code)), ("description", some (.string e.description)),
      ("content", some (bodiesJson e.content))]
    (by simp) (by simp [ofHalfword, noFloat_ofWord, NoFloat.string, hbodies.noFloat])
    fun {inner r} hr => ?_
  have hcode : r.required? "code" Node.halfword? = some e.code :=
    hr.required rfl fun _ => halfword?_node _
  have hdescription : r.required? "description" Node.text? = some e.description :=
    hr.requiredText rfl
  have hcontent : r.required? "content" (bodiesOf? inner) = some e.content :=
    hr.required rfl hbodies.reads
  simp [hcode, hdescription, hcontent]

/-! ## Nodes of items -/

theorem named?_name (m : HttpMethod) : HttpMethod.named? m.name = some m := by
  cases m <;> decide

theorem readsAs_url (node : UrlNode) :
    ReadsAs ContentNode.urlOf? (ContentNode.url node).attributesJson (.url node) := by
  refine readsAs_record
    [("path", some (.string node.path)), ("method", some (.string node.method.name))]
    (by simp) (by simp [NoFloat.string]) fun {inner r} hr => ?_
  have hpath : r.required? "path" Node.text? = some node.path := hr.requiredText rfl
  have hmethod : r.required? "method" (Node.choice? inner) = some node.method.name :=
    hr.requiredChoice rfl
  simp [hpath, hmethod, named?_name]

/-- The parts of a request as they are written. -/
def RequestNode.parts (node : RequestNode) : List (String × Option Json) :=
  [("parameters", some node.parameters.json), ("content", node.content.map bodiesJson)]

theorem RequestNode.attributesJson_request (node : RequestNode) :
    (ContentNode.request node).attributesJson = .object (present node.parts) := by
  rw [ContentNode.attributesJson, parts]
  cases node.content <;> rfl

theorem readsAs_request {node : RequestNode} (h : (ContentNode.request node).Proper) :
    ReadsAs ContentNode.requestOf? (ContentNode.request node).attributesJson (.request node) := by
  have hparameters := readsAs_parameters h.1
  have hbodies : ∀ bodies, node.content = some bodies →
      ReadsAs bodiesOf? (bodiesJson bodies) bodies :=
    fun bodies hcontent => readsAs_bodies (h.2 bodies hcontent)
  rw [node.attributesJson_request]
  refine readsAs_record node.parts (by simp [RequestNode.parts]) ?_ fun {inner r} hr => ?_
  · simp only [RequestNode.parts, List.forall_mem_cons, Option.some.injEq, Option.map_eq_some_iff]
    refine ⟨fun j hj => hj ▸ hparameters.noFloat, ?_, List.forall_mem_nil _⟩
    rintro j ⟨bodies, hcontent, rfl⟩
    exact (hbodies bodies hcontent).noFloat
  · have hread : r.required? "parameters" (ParameterTable.ofNode? inner) = some node.parameters :=
      hr.required rfl hparameters.reads
    have hcontent : r.optional? "content" (bodiesOf? inner) = some node.content :=
      hr.optional rfl (fun _ => Json.noConfusion) fun bodies hsome => (hbodies bodies hsome).reads
    simp [hread, hcontent]

theorem readsAs_responses {entries : List ResponseEntry}
    (h : ∀ e ∈ entries, ProperBodies e.content) :
    ReadsAs ContentNode.responseOf? (ContentNode.response entries).attributesJson
      (.response entries) := by
  have hentries := readsAs_list ResponseEntry.json fun e he => readsAs_response (h e he)
  refine readsAs_record [("list", some (.array (entries.map (·.json))))]
    (by simp) (by simpa using hentries.noFloat) fun {inner r} hr => ?_
  have hlist : r.required? "list" (Node.list? ResponseEntry.ofNode? inner) = some entries :=
    hr.required rfl hentries.reads
  simp [hlist]

/-- The kind of a node leads to the reader of its attributes. -/
theorem readsAs_attributes {n : ContentNode} (h : n.Proper) :
    ∃ read, ContentNode.attributesOf? n.kind = some read ∧ ReadsAs read n.attributesJson n := by
  cases n with
  | url node => exact ⟨_, rfl, readsAs_url node⟩
  | request node => exact ⟨_, rfl, readsAs_request h⟩
  | response entries => exact ⟨_, rfl, readsAs_responses h⟩

theorem readsAs_node {n : ContentNode} (h : n.Proper) : ReadsAs ContentNode.ofNode? n.json n := by
  obtain ⟨read, hkind, hattributes⟩ := readsAs_attributes h
  refine readsAs_record [("type", some (.string n.kind)), ("attrs", some n.attributesJson)]
    (by simp) (by simp [NoFloat.string, hattributes.noFloat]) fun {inner r} hr => ?_
  have htype : r.required? "type" (Node.choice? inner) = some n.kind := hr.requiredChoice rfl
  have hattrs : r.lookup "attrs" = some n.attributesJson.node :=
    hr.lookup_eq (o := some n.attributesJson) rfl
  have hfirst : r.head?.map (·.1) = some "type" := by rw [hr.eq]; rfl
  have hlevels : n.attributesJson.NestsWithin inner := hr.nests "attrs" _ rfl
  simp [htype, hkind, hattrs, hfirst, hattributes.reads hlevels]

/-! ## Lists of records -/

theorem readsAs_definition {d : Definition} (h : d.schema.Distinct) :
    ReadsAs Definition.ofNode? d.json d := by
  have hschema := Schema.readsAs_json h
  refine readsAs_record
    [("id", some (.ofWord d.id)), ("name", some (.string d.name)), ("schema", some d.schema.json)]
    (by simp) (by simp [noFloat_ofWord, NoFloat.string, hschema.noFloat]) fun {inner r} hr => ?_
  have hid : r.required? "id" Node.word? = some d.id := hr.requiredWord rfl
  have hname : r.required? "name" Node.text? = some d.name := hr.requiredText rfl
  have hread : r.required? "schema" (Schema.ofNode? inner) = some d.schema :=
    hr.required rfl hschema.reads
  simp [hid, hname, hread]

theorem readsAs_item {i : DocumentItem} (h : ∀ n ∈ i.content, n.Proper) :
    ReadsAs DocumentItem.ofNode? i.json i := by
  have hnodes := readsAs_list ContentNode.json fun n hn => readsAs_node (h n hn)
  refine readsAs_record
    [("title", some (.string i.title)), ("id", some (.ofWord i.id)),
      ("parentid", some (.ofWord i.parentId)), ("type", some (.string i.type)),
      ("content", some (.array (i.content.map (·.json))))]
    (by simp) (by simp [noFloat_ofWord, NoFloat.string, hnodes.noFloat]) fun {inner r} hr => ?_
  have htitle : r.required? "title" Node.text? = some i.title := hr.requiredText rfl
  have hid : r.required? "id" Node.word? = some i.id := hr.requiredWord rfl
  have hparent : r.required? "parentid" Node.word? = some i.parentId := hr.requiredWord rfl
  have htype : r.required? "type" Node.text? = some i.type := hr.requiredText rfl
  have hcontent : r.required? "content" (Node.list? ContentNode.ofNode? inner) = some i.content :=
    hr.required rfl hnodes.reads
  simp [htitle, hid, hparent, htype, hcontent]

theorem readsAs_category {c : Category} (h : ∀ i ∈ c.items, ∀ n ∈ i.content, n.Proper) :
    ReadsAs Category.ofNode? c.json c := by
  have hlist := readsAs_list DocumentItem.json fun i hi => readsAs_item (h i hi)
  refine readsAs_record
    [("title", some (.string c.title)), ("id", some (.ofWord c.id)),
      ("type", some (.string c.type)), ("items", some (.array (c.items.map (·.json))))]
    (by simp) (by simp [noFloat_ofWord, NoFloat.string, hlist.noFloat]) fun {inner r} hr => ?_
  have htitle : r.required? "title" Node.text? = some c.title := hr.requiredText rfl
  have hid : r.required? "id" Node.word? = some c.id := hr.requiredWord rfl
  have htype : r.required? "type" Node.text? = some c.type := hr.requiredText rfl
  have hitems : r.required? "items" (Node.list? DocumentItem.ofNode? inner) = some c.items :=
    hr.required rfl hlist.reads
  simp [htitle, hid, htype, hitems]

/-! ## Documents -/

namespace Document

variable {d : Document}

theorem readsAs_info (hd : d.Proper) (hfloat : d.NoFloat) :
    ReadsAs infoOf? (.object d.info) d.info := by
  refine ⟨hfloat.info, fun hlevels => ?_⟩
  rw [infoOf?, value?_node hfloat.info hd.info hlevels]
  rfl

theorem readsAs_servers (hd : d.Proper) (hfloat : d.NoFloat) :
    ReadsAs (Node.list? fun levels node => node.value? levels) (.array d.servers) d.servers := by
  have hserver : ∀ j ∈ d.servers, ReadsAs (fun levels node => node.value? levels) j j :=
    fun j hj => ⟨hfloat.servers j hj, value?_node (hfloat.servers j hj) (hd.servers j hj)⟩
  have hlist := readsAs_list id hserver
  rwa [List.map_id] at hlist

theorem readsAs_definitions (hd : d.Proper) :
    ReadsAs definitionsOf? (.object [("schemas", .array (d.definitions.map (·.json)))])
      d.definitions := by
  have hlist := readsAs_list Definition.json fun s hs => readsAs_definition (hd.definitions s hs)
  refine readsAs_record [("schemas", some (.array (d.definitions.map (·.json))))]
    (by simp) (by simpa using hlist.noFloat) fun {inner r} hr => ?_
  exact hr.required rfl hlist.reads

/-- A document is read back as it was. -/
theorem readsAs_document (hd : d.Proper) (hfloat : d.NoFloat) : ReadsAs ofNode? d.json d := by
  have hinfo := readsAs_info hd hfloat
  have hservers := readsAs_servers hd hfloat
  have hdefinitions := readsAs_definitions hd
  have hcategories := readsAs_list Category.json fun c hc => readsAs_category (hd.nodes c hc)
  refine readsAs_record
    [("apicat", some (.string d.version)), ("info", some (.object d.info)),
      ("servers", some (.array d.servers)),
      ("definitions", some (.object [("schemas", .array (d.definitions.map (·.json)))])),
      ("collections", some (.array (d.categories.map (·.json))))]
    (by simp) (by simp [NoFloat.string, hinfo.noFloat, hservers.noFloat, hdefinitions.noFloat,
      hcategories.noFloat]) fun {inner r} hr => ?_
  have hversion : r.required? "apicat" Node.text? = some d.version := hr.requiredText rfl
  have hinfo' : r.required? "info" (infoOf? inner) = some d.info := hr.required rfl hinfo.reads
  have hservers' : r.required? "servers" (Node.list? (fun levels node => node.value? levels) inner)
      = some d.servers := hr.required rfl hservers.reads
  have hdefinitions' : r.required? "definitions" (definitionsOf? inner) = some d.definitions :=
    hr.required rfl hdefinitions.reads
  have hcategories' : r.required? "collections" (Node.list? Category.ofNode? inner) =
      some d.categories := hr.required rfl hcategories.reads
  simp [hversion, hinfo', hservers', hdefinitions', hcategories']

end Document

/-- Reading a written document or schema gives it back: with the order of its tables, with what is
absent and what is only empty, and with every character of its texts. -/
theorem reading_undoes_writing :
    (∀ d : Document, d.Proper → d.NoFloat → d.json.NestsWithin maxLevels →
      Document.read? d.print.value = some d) ∧
    ∀ (s : Schema) (layout : Layout), s.Distinct → s.json.NestsWithin maxLevels →
      Schema.read? (String.ofList (render layout s.json)) = some s := by
  constructor
  · intro d hd hfloat hlevels
    have hdocument := Document.readsAs_document hd hfloat
    have hlineFeed : ∀ c ∈ ['\n'], isBlank c = true := List.forall_mem_singleton.2 rfl
    have htext : d.print.value = String.ofList (render (.indented 0) d.json ++ ['\n']) := by
      rw [String.ofList_append]
      rfl
    rw [htext, Document.read?, read?_render hdocument.noFloat (.indented 0) hlineFeed]
    exact hdocument.reads hlevels
  · intro s layout hs hlevels
    have hschema := Schema.readsAs_json hs
    have hread := read?_render hschema.noFloat layout (List.forall_mem_nil (isBlank · = true))
    rw [List.append_nil] at hread
    rw [Schema.read?, hread]
    exact hschema.reads hlevels

/-- A schema with parts of all kinds, some absent. -/
def dish : Schema where
  type := some "object"
  order := ["name", "parts", "name"]
  properties := [("parts", .list (.typed "string")),
    ("name", { type := some "string", description := "\"\\ \n\x01 \u00e9 \u4e2d" })]
  additionalProperties := some .empty
  required := ["name"]
  reference := some ""

/-- A document with nodes of all kinds. -/
def menu : Document where
  version := documentVersion
  info := [("limits", .array [.number (.whole (-3) (by decide)), .null]), ("title", .string "\t/")]
  servers := [.object [], .bool true]
  definitions := [⟨definitionId "Dish", "Dish", dish⟩]
  categories := [⟨"", 1, categoryType, [⟨"one", 2, 1, itemType,
    [.url ⟨"/dishes/:id", .get⟩,
      .request ⟨{ header := some [], uri := some [⟨"id", .typed "integer", true⟩] }, some []⟩,
      .request ⟨{}, none⟩, .response [⟨404, "", bodyTable dish⟩]]⟩]⟩]

theorem distinct_dish : dish.Distinct := by
  refine .intro (by decide) nofun ?_ fun a ha => Option.some.inj ha ▸ .leaf rfl rfl rfl
  have hparts : (Schema.list (.typed "string")).Distinct :=
    .intro .nil (fun i hi => Option.some.inj hi ▸ .leaf rfl rfl rfl) nofun nofun
  simpa [dish, hparts] using Schema.Distinct.leaf rfl rfl rfl

theorem proper_menu : menu.Proper where
  info := .object (by decide)
    (by simp [menu, Ordered.array, Ordered.number, Ordered.null, Ordered.string])
  servers := by
    have hobject : (Json.object []).Ordered := .object .nil (List.forall_mem_nil _)
    simp [menu, hobject, Ordered.bool]
  definitions := by simp [menu, distinct_dish]
  nodes := by
    have hid : (Schema.typed "integer").Distinct := .leaf rfl rfl rfl
    have hbodies : ProperBodies (bodyTable dish) := ⟨by decide, by simp [bodyTable, distinct_dish]⟩
    have hnone : ProperBodies [] := ⟨.nil, List.forall_mem_nil _⟩
    simp [menu, ContentNode.Proper, ParameterTable.toList, ParameterPlace.all, ParameterTable.get?,
      hbodies, hnone]
    rintro place ps (⟨rfl, -⟩ | ⟨rfl, -⟩)
    · exact List.forall_mem_nil _
    · simpa using hid

theorem noFloat_menu : menu.NoFloat where
  info := .object
    (by simp [menu, NoFloat.array, NoFloat.whole, NoFloat.null, NoFloat.string])
  servers := by
    have hobject : (Json.object []).NoFloat := .object (List.forall_mem_nil _)
    simp [menu, hobject, NoFloat.bool]

theorem menu_read_back :
    Document.read? menu.print.value = some menu ∧ Schema.read? dish.text = some dish :=
  ⟨reading_undoes_writing.1 menu proper_menu noFloat_menu (by decide +kernel),
    reading_undoes_writing.2 dish .compact distinct_dish (by decide +kernel)⟩

end ApiDecl
