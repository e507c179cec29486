import ApiDecl.Proofs.Determinacy
import ApiDecl.Proofs.Places

/-!
# Proofs: the order of properties

The order of an object schema lists the names of the visible fields that it is written from, one by
one. Its properties have every name once, where it first occurs in the order. So the order is the list
of the properties just if no two of those fields have the same name, which nothing makes sure of.
-/

namespace ApiDecl

/-- The names that fields have in schemas, in order. -/
def propertyNames (fields : List Field) : List String := fields.filterMap Field.propertyName?

theorem eraseDups_concat (l : List String) (a : String) :
    (l ++ [a]).eraseDups = if a ∈ l then l.eraseDups else l.eraseDups ++ [a] := by
  rw [List.eraseDups_append]
  by_cases h : a ∈ l <;> simp [List.removeAll, List.eraseDups_cons, h]

theorem nodup_eraseDups (l : List String) : l.eraseDups.Nodup := by
  induction l using List.reverseRecOn with
  | nil => exact List.nodup_nil
  | append_singleton l a ih =>
    rw [eraseDups_concat]
    by_cases h : a ∈ l
    · rwa [if_pos h]
    · rw [if_neg h]
      refine List.nodup_append.2 ⟨ih, List.nodup_singleton a, fun x hx y hy e => h ?_⟩
      rw [← List.mem_singleton.1 hy, ← e]
      exact List.mem_eraseDups.1 hx

theorem eq_eraseDups_iff {l : List String} : l = l.eraseDups ↔ l.Nodup := by
  constructor
  · intro h
    rw [h]
    exact nodup_eraseDups l
  · intro h
    induction l with
    | nil => rfl
    | cons a l ih =>
      obtain ⟨ha, hl⟩ := List.nodup_cons.1 h
      have hfilter : l.filter (fun b => !b == a) = l := by
        refine List.filter_eq_self.2 fun b hb => ?_
        have hne : b ≠ a := fun e => ha (e ▸ hb)
        simpa using hne
      rw [List.eraseDups_cons, hfilter, ← ih hl]

namespace Schema

/-- The properties have every name of the order once, where it occurs first. -/
def FollowsOrder (σ : Schema) : Prop := σ.properties.map (·.1) = σ.order.eraseDups

theorem FollowsOrder.addProperty {σ : Schema} (h : σ.FollowsOrder) (name : String)
    (property : Schema) : (Catalog.addProperty σ name property).FollowsOrder := by
  have hmem : name ∈ σ.properties.map (·.1) ↔ name ∈ σ.order := by
    rw [h, List.mem_eraseDups]
  unfold FollowsOrder Catalog.addProperty
  dsimp only
  rw [map_putByKey, eraseDups_concat]
  by_cases hname : name ∈ σ.order
  · rw [if_pos (hmem.2 hname), if_pos hname]
    exact h
  · rw [if_neg (mt hmem.1 hname), if_neg hname, h]

end Schema

namespace Catalog

variable {c : Catalog}

/-! ## Written schemas -/

/-- The order of what fields make of a schema goes on with the names of the fields. -/
theorem WritesFields.order_eq {start schema : Schema} {fields : List Field}
    (h : c.WritesFields start fields schema) :
    schema.order = start.order ++ propertyNames fields := by
  match h with
  | .done _ => simp [propertyNames]
  | .hidden hf hw =>
    rw [hw.order_eq, propertyNames, propertyNames, List.filterMap_cons_none hf]
  | .property hf _ hw =>
    rw [hw.order_eq, propertyNames, propertyNames, List.filterMap_cons_some hf, addProperty,
      List.append_assoc, List.singleton_append]

theorem WritesFields.followsOrder {start schema : Schema} {fields : List Field}
    (h : c.WritesFields start fields schema) (hstart : start.FollowsOrder) :
    schema.FollowsOrder := by
  match h with
  | .done _ => exact hstart
  | .hidden _ hw => exact hw.followsOrder hstart
  | .property _ _ hw => exact hw.followsOrder (hstart.addProperty _ _)

/-- The fields of the struct that is written out at a place. -/
def fieldsAt (c : Catalog) (t : FieldType) (place : List Schema.Step) : List Field :=
  match c.typeAt? t place with
  | some (.struct s) => s.fields
  | some (.named n) => if n.isDateTime then [] else (c.get? n).elim [] (·.fields)
  | _ => []

/-- Where a name stands for a struct, the struct's fields are written out. -/
theorem fieldsAt_named {n : TypeName} {s : StructDescriptor} (hd : n.isDateTime = false)
    (hn : c.get? n = some s) (place : List Schema.Step) :
    c.fieldsAt (.named n) place = c.fieldsAt (.struct s) place := by
  cases place with
  | nil => simp [fieldsAt, typeAt?, hd, hn]
  | cons step place => rw [fieldsAt, typeAt?_named hn, fieldsAt]

/-- What holds of a schema at a place of a type: it follows its order, and the order lists the fields
that are written out there. -/
structure OrderedAt (c : Catalog) (t : FieldType) (place : List Schema.Step) (ρ : Schema) : Prop where
  follows : ρ.FollowsOrder
  order : ρ.reference = none → ρ.order = propertyNames (c.fieldsAt t place)

theorem OrderedAt.of_same {t : FieldType} {place : List Schema.Step} {ρ ρ' : Schema}
    (h : c.OrderedAt t place ρ') (hs : ρ.SameParts ρ') : c.OrderedAt t place ρ where
  follows := by
    rw [Schema.FollowsOrder, hs.properties, hs.order]
    exact h.follows
  order := by
    intro hreference
    rw [hs.order]
    exact h.order (hs.reference ▸ hreference)

/-- A schema without an order and without properties is ordered where no fields are written out. -/
theorem OrderedAt.of_empty {t : FieldType} {place : List Schema.Step} {ρ : Schema}
    (ho : ρ.order = []) (hp : ρ.properties = []) (hf : c.fieldsAt t place = []) :
    c.OrderedAt t place ρ where
  follows := by
    rw [Schema.FollowsOrder, ho, hp]
    rfl
  order := by
    intro _
    rw [ho, hf]
    rfl

/-- Every schema in one that is written for a type is ordered at its place. -/
theorem Writes.orderedAt {t : FieldType} {σ ρ : Schema} {place : List Schema.Step}
    (h : c.Writes t σ) (hρ : σ.At place ρ) : c.OrderedAt t place ρ := by
  have hstruct : ∀ s, c.Writes (.struct s) σ → c.OrderedAt (.struct s) place ρ := by
    intro s hw
    cases place with
    | nil =>
      cases hρ
      cases hw with
      | struct hw =>
        refine ⟨hw.followsOrder rfl, fun _ => ?_⟩
        rw [hw.order_eq]
        rfl
    | cons step place =>
      obtain ⟨f, value, ρ', htype, hvalue, hρ', hsame⟩ := hw.struct_at hρ
      have hvalue := (hvalue.orderedAt hρ').of_same hsame
      refine ⟨hvalue.follows, fun hreference => ?_⟩
      rw [hvalue.order hreference, fieldsAt, fieldsAt, htype]
  cases h with
  | scalar _ | bytes _ =>
    obtain ⟨rfl, rfl⟩ := at_leaf hρ rfl rfl rfl
    exact .of_empty rfl rfl rfl
  | dateTime hd =>
    obtain ⟨rfl, rfl⟩ := at_leaf hρ rfl rfl rfl
    exact .of_empty rfl rfl (by simp [fieldsAt, typeAt?, hd])
  | unknown hd hn =>
    obtain ⟨rfl, rfl⟩ := at_leaf hρ rfl rfl rfl
    exact .of_empty rfl rfl (by simp [fieldsAt, typeAt?, hd, hn])
  | reference hd hn hs =>
    obtain ⟨rfl, rfl⟩ := at_leaf hρ rfl rfl rfl
    exact ⟨rfl, fun hreference => by simp [Schema.referTo] at hreference⟩
  | inline hd hn _ hw =>
    obtain ⟨hfollows, horder⟩ := hstruct _ hw
    exact ⟨hfollows, fieldsAt_named hd hn place ▸ horder⟩
  | struct hw => exact hstruct _ (.struct hw)
  | map _ => rcases at_dictionary hρ with ⟨rfl, rfl⟩ | ⟨rfl, rfl⟩ <;> exact .of_empty rfl rfl rfl
  | list =>
    rcases at_list hρ with ⟨rfl, rfl⟩ | ⟨rest, rfl, hrest⟩
    · exact .of_empty rfl rfl rfl
    · obtain ⟨rfl, rfl⟩ := at_leaf hrest rfl rfl rfl
      exact .of_empty rfl rfl rfl
  | array ht hw =>
    rcases at_list hρ with ⟨rfl, rfl⟩ | ⟨rest, rfl, hrest⟩
    · exact .of_empty rfl rfl rfl
    · have helement := hw.orderedAt hrest
      refine ⟨helement.follows, fun hreference => ?_⟩
      rw [helement.order hreference, fieldsAt, fieldsAt, typeAt?]
termination_by place.length

/-! ## Compiled schemas -/

/-- The schema is one that compiling gives for the type: that of a definition, of a struct with or
without a name, or of a field. -/
inductive Compiles (c : Catalog) : FieldType → Schema → Prop
  | definition {defs : List Definition} {d : Definition} {s : StructDescriptor}
      (h : c.definitions.result = .ok defs) (hd : d ∈ defs) (hs : c.find? d.name = some s) :
      Compiles c (.struct s) d.schema
  | struct {s : StructDescriptor} {name : Option String} {σ : Schema}
      (h : (c.structSchema s name).result = .ok σ) : Compiles c (.struct s) σ
  | field {f : Field} {σ : Schema} (h : (c.fieldSchema f).result = .ok σ) : Compiles c f.type σ

theorem Compiles.orderedAt (hc : c.Ordered) {t : FieldType} {σ ρ : Schema}
    {place : List Schema.Step} (h : c.Compiles t σ) (hρ : σ.At place ρ) :
    c.OrderedAt t place ρ := by
  cases h with
  | @definition defs d s h hd hs =>
    obtain ⟨s', hs', -, hname, hw⟩ := exists_of_mem_right (definitions_written h) hd
    have hfind := hc.find? (mem_definitions.1 hs').1
    obtain rfl := Option.some.inj (hs.symm.trans (hname ▸ hfind))
    exact hw.orderedAt hρ
  | struct h =>
    rcases structSchema_written h with ⟨n, -, -, rfl⟩ | hw
    · obtain ⟨rfl, rfl⟩ := at_leaf hρ rfl rfl rfl
      exact ⟨rfl, fun hreference => by simp [Schema.referTo] at hreference⟩
    · exact hw.orderedAt hρ
  | field h =>
    obtain ⟨value, hw, rfl⟩ := fieldSchema_eq_ok_iff.1 h
    obtain ⟨ρ', hρ', hsame⟩ := at_describe hρ
    exact (hw.orderedAt hρ').of_same hsame

/-- In every schema at every place of a compiled schema, the properties have the names of the order
once each, where they occur first, and the order lists the visible fields of the struct at that place.
So the order is the list of the properties just if those fields have different names. -/
theorem compiled_order (c : Catalog) (hc : c.Ordered) {t : FieldType} {σ ρ : Schema}
    {place : List Schema.Step} (h : c.Compiles t σ) (hρ : σ.At place ρ) :
    ρ.properties.map (·.1) = ρ.order.eraseDups ∧ (ρ.properties.map (·.1)).Nodup ∧
      (ρ.reference = none → ρ.order = propertyNames (c.fieldsAt t place)) ∧
      (ρ.order = ρ.properties.map (·.1) ↔ ρ.order.Nodup) := by
  obtain ⟨hfollows, horder⟩ := h.orderedAt hc hρ
  have hkeys : ρ.properties.map (·.1) = ρ.order.eraseDups := hfollows
  rw [hkeys]
  exact ⟨rfl, nodup_eraseDups _, horder, eq_eraseDups_iff⟩

/-- A struct with two fields of the same name in schemas. -/
def pair : StructDescriptor :=
  ⟨"Pair", [⟨"left", .scalar .u8, ⟨[("json", "x")]⟩, "", true⟩,
    ⟨"right", .scalar .string, ⟨[("json", "x,omitempty")]⟩, "", true⟩], false, []⟩

/-- Pairs, and a struct with a list of them. -/
def pairs : Catalog :=
  ⟨[pair, ⟨"Pairs", [⟨"all", .array (some (.named ⟨[], "Pair"⟩)), ⟨[("json", "all")]⟩, "", true⟩],
    false, []⟩]⟩

/-- The schema of a pair. -/
def pairSchema : Schema :=
  { type := some "object", order := ["x", "x"], properties := [("x", .typed "string")] }

theorem writes_pair (c : Catalog) : c.Writes (.struct pair) pairSchema :=
  .struct (.property (by decide +kernel) (.scalar .u8)
    (.property (by decide +kernel) (.scalar .string) (.done _)))

/-- The schema of a list of pairs. -/
def pairsSchema : Schema :=
  { type := some "object", order := ["all"], properties := [("all", .list pairSchema)] }

theorem writes_pairs : pairs.Writes (.named ⟨[], "Pairs"⟩) pairsSchema := by
  have hpair : pairs.Writes (.named ⟨[], "Pair"⟩) pairSchema :=
    .inline rfl rfl rfl (writes_pair pairs)
  exact .inline rfl rfl rfl (.struct (.property (by decide +kernel) (.array rfl hpair) (.done _)))

/-- In a list of pairs, the order of the elements has a name twice that their properties have once. -/
theorem pairs_order : pairs.Ordered ∧ ∃ σ ρ,
    pairs.Compiles (.named ⟨[], "Pairs"⟩) σ ∧ σ.At [.property "all", .items] ρ ∧
      ρ.order = ["x", "x"] ∧ ρ.properties.map (·.1) = ["x"] := by
  have hc : pairs.Ordered := by decide
  have hcompiles : pairs.Compiles (.named ⟨[], "Pairs"⟩) pairsSchema :=
    .field (f := ⟨"all", .named ⟨[], "Pairs"⟩, ⟨[]⟩, "", true⟩)
      (fieldSchema_eq_ok_iff.2 ⟨_, writes_pairs, rfl⟩)
  have hat : pairsSchema.At [.property "all", .items] pairSchema :=
    .property List.mem_cons_self (.items rfl (.here _))
  obtain ⟨hkeys, -, horder, -⟩ := compiled_order pairs hc hcompiles hat
  have htwice : pairSchema.order = ["x", "x"] := (horder rfl).trans (by decide +kernel)
  refine ⟨hc, _, _, hcompiles, hat, htwice, ?_⟩
  rw [hkeys, htwice]
  decide

/-- The order of the schema of a pair is not the list of its properties. -/
theorem pair_repeats_name : pairs.Ordered ∧
    (pairs.structSchema pair (some "Pair")).result = .ok pairSchema ∧
    pairSchema.order ≠ pairSchema.properties.map (·.1) ∧ ¬ pairSchema.order.Nodup := by
  refine ⟨by decide, ?_, by decide, by decide⟩
  rw [structSchema_plain pairs rfl]
  exact (inlineSchema_eq_ok_iff rfl).2 (writes_pair pairs)

end Catalog

end ApiDecl
