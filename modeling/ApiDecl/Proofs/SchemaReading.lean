import ApiDecl.Proofs.RecordReading

/-!
# Proofs: schemas are read back

A schema is written as a record of nine parts (`json_eq_present`). The parts that are schemas
themselves are read with fewer levels, so a schema is read back by induction on the levels
(`readsAs_json`). The only thing a schema could lose is a second property with the same name.
-/

namespace ApiDecl.Schema

open Json

/-- The properties of an object have different names, here and in all schemas inside. -/
inductive Distinct : Schema → Prop where
  | intro {s : Schema} (hnames : (s.properties.map (·.1)).Nodup)
      (hitems : ∀ i, s.items = some i → Distinct i)
      (hproperties : ∀ p ∈ s.properties, Distinct p.2)
      (hothers : ∀ a, s.additionalProperties = some a → Distinct a) : Distinct s

theorem Distinct.leaf {s : Schema} (hitems : s.items = none) (hproperties : s.properties = [])
    (hothers : s.additionalProperties = none) : s.Distinct := by
  refine .intro ?_ ?_ ?_ ?_ <;> simp [hitems, hproperties, hothers]

/-! ## The parts of a schema -/

/-- The parts of a schema as they are written. -/
def parts (s : Schema) : List (String × Option Json) :=
  [("type", s.type.map .string), ("format", s.format.map .string),
    ("x-apicat-order", leftOutIf s.order.isEmpty (.strings s.order)), ("items", s.items.map json),
    ("properties", leftOutIf s.properties.isEmpty
      (.object (s.properties.map fun p => (p.1, p.2.json)))),
    ("additionalProperties", s.additionalProperties.map json),
    ("required", leftOutIf s.required.isEmpty (.strings s.required)),
    ("description", leftOutIf s.description.isEmpty (.string s.description)),
    ("$ref", s.reference.map .string)]

theorem names_parts (s : Schema) : s.parts.map (·.1) = partNames := rfl

theorem nodup_partNames : partNames.Nodup := by decide

theorem propertiesJson_eq_map (properties : List (String × Schema)) :
    propertiesJson properties = properties.map fun p => (p.1, p.2.json) := by
  induction properties with
  | nil => rfl
  | cons p rest ih => rw [propertiesJson, ih, List.map_cons]

theorem present_cons (name : String) (o : Option Json) (parts : List (String × Option Json)) :
    present ((name, o) :: parts) = (o.map (name, ·)).toList ++ present parts := by
  cases o <;> rfl

theorem textMember_eq (name : String) (o : Option String) :
    textMember name o = ((o.map Json.string).map (name, ·)).toList := by
  cases o <;> rfl

/-- What is written in one case only is a part that is left out in the other. -/
theorem ite_nil_eq (absent : Bool) (name : String) (j : Json) :
    (if absent then [] else [(name, j)]) = ((leftOutIf absent j).map (name, ·)).toList := by
  cases absent <;> rfl

theorem memberJson_eq (name : String) (o : Option Schema) :
    memberJson name o = ((o.map json).map (name, ·)).toList := by
  cases o with
  | none => rw [memberJson]; rfl
  | some s => rw [memberJson]; rfl

theorem json_eq_present (s : Schema) : s.json = .object (present s.parts) := by
  obtain ⟨type, format, order, items, properties, additionalProperties, required, description,
    reference⟩ := s
  have hnone : present [] = [] := rfl
  rw [json]
  simp only [textMember_eq, textsMember, ite_nil_eq, memberJson_eq, propertiesJson_eq_map, parts,
    present_cons, hnone, List.append_assoc, List.append_nil]

/-! ## Reading -/

theorem noFloat_map_string (o : Option String) : ∀ j, o.map Json.string = some j → j.NoFloat := by
  intro j hj
  obtain ⟨s, -, rfl⟩ := Option.map_eq_some_iff.1 hj
  exact .string s

theorem noFloat_leftOutIf {absent : Bool} {k : Json} (hk : k.NoFloat) :
    ∀ j, leftOutIf absent k = some j → j.NoFloat := by
  intro j hj
  obtain ⟨-, rfl⟩ := leftOutIf_eq_some hj
  exact hk

theorem noFloat_map_json {o : Option Schema} (h : ∀ s, o = some s → s.json.NoFloat) :
    ∀ j, o.map json = some j → j.NoFloat := by
  intro j hj
  obtain ⟨s, hs, rfl⟩ := Option.map_eq_some_iff.1 hj
  exact h s hs

/-- A schema is written without numbers. -/
theorem noFloat_json {s : Schema} (hs : s.Distinct) : s.json.NoFloat := by
  induction hs with
  | @intro s hnames hitems hproperties hothers ihitems ihproperties ihothers =>
    have hobject : (Json.object (s.properties.map fun p => (p.1, p.2.json))).NoFloat :=
      noFloat_members ihproperties
    have htexts : ∀ texts, (strings texts).NoFloat := fun texts => (readsAs_strings texts).noFloat
    rw [json_eq_present]
    refine noFloat_present ?_
    simp only [parts, List.forall_mem_cons]
    exact ⟨noFloat_map_string _, noFloat_map_string _, noFloat_leftOutIf (htexts _),
      noFloat_map_json ihitems, noFloat_leftOutIf hobject, noFloat_map_json ihothers,
      noFloat_leftOutIf (htexts _), noFloat_leftOutIf (.string _),
      noFloat_map_string _, List.forall_mem_nil _⟩

theorem json_ne_null (s : Schema) : s.json ≠ .null := by
  rw [json_eq_present]
  exact Json.noConfusion

section Reading

variable {parts : List (String × Option Json)} {inner : Nat} {r : Record} {name : String}

theorem optionalText (h : Fields parts inner r) {o : Option String}
    (hpart : parts.lookup name = some (o.map .string)) :
    r.optional? name Node.text? = some o :=
  h.optional hpart (fun _ => Json.noConfusion) fun s _ _ => text?_node s

theorem defaultTexts (h : Fields parts inner r) {texts : List String}
    (hpart : parts.lookup name = some (leftOutIf texts.isEmpty (.strings texts))) :
    r.withDefault? name [] (textList? inner) = some texts :=
  h.withDefault hpart List.isEmpty_iff.1 (readsAs_strings texts).reads

theorem defaultText (h : Fields parts inner r) {text : String}
    (hpart : parts.lookup name = some (leftOutIf text.isEmpty (.string text))) :
    r.withDefault? name "" Node.text? = some text :=
  h.withDefault hpart String.isEmpty_iff.1 fun _ => text?_node text

theorem optionalSchema (h : Fields parts inner r) {o : Option Schema}
    (hpart : parts.lookup name = some (o.map json))
    (hread : ∀ s, o = some s → s.json.NestsWithin inner → ofNode? inner s.json.node = some s) :
    r.optional? name (ofNode? inner) = some o :=
  h.optional hpart json_ne_null hread

/-- Reads the properties of a schema. -/
def propertiesOf? (levels : Nat) (node : Node) : Option (List (String × Schema)) :=
  match levels with
  | 0 => none
  | deeper + 1 => node.table? (fun _ => ofNode? deeper) (deeper + 1)

theorem defaultProperties (h : Fields parts inner r) {properties : List (String × Schema)}
    (hpart : parts.lookup name = some (leftOutIf properties.isEmpty
      (.object (properties.map fun p => (p.1, p.2.json)))))
    (hnames : (properties.map (·.1)).Nodup)
    (hread : ∀ deeper, inner = deeper + 1 → ∀ p ∈ properties, p.2.json.NestsWithin deeper →
      ofNode? deeper p.2.json.node = some p.2) :
    r.withDefault? name [] (propertiesOf? inner) = some properties := by
  refine h.withDefault hpart List.isEmpty_iff.1 fun hinner => ?_
  obtain ⟨deeper, rfl, hdeeper⟩ := hinner.object
  refine table?_node json (fun p hp => ?_) hnames
  exact hread deeper rfl p hp (hdeeper _ (List.mem_map_of_mem hp))

end Reading

theorem ofNode?_json {s : Schema} (hs : s.Distinct) {levels : Nat}
    (hlevels : s.json.NestsWithin levels) : ofNode? levels s.json.node = some s := by
  -- the schemas of properties are two levels deeper, inside an object of their own
  induction levels using Nat.strong_induction_on generalizing s with
  | _ levels ih =>
    rw [json_eq_present] at hlevels ⊢
    obtain ⟨inner, rfl, hinner⟩ := hlevels.object
    obtain ⟨r, hrecord, h⟩ := record?_present s.parts nodup_partNames true hinner
    obtain ⟨hnames, hitems, hproperties, hothers⟩ := hs
    have hschema : ∀ o : Option Schema, (∀ t, o = some t → t.Distinct) → ∀ t, o = some t →
        t.json.NestsWithin inner → ofNode? inner t.json.node = some t :=
      fun o ho t ht => ih inner (Nat.lt_succ_self inner) (ho t ht)
    have hproperty : ∀ deeper, inner = deeper + 1 → ∀ p ∈ s.properties,
        p.2.json.NestsWithin deeper → ofNode? deeper p.2.json.node = some p.2 := by
      rintro deeper rfl p hp
      exact ih deeper (by omega) (hproperties p hp)
    have htype : r.optional? "type" Node.text? = some s.type := optionalText h rfl
    have hformat : r.optional? "format" Node.text? = some s.format := optionalText h rfl
    have horder : r.withDefault? "x-apicat-order" [] (textList? inner) = some s.order :=
      defaultTexts h rfl
    have hitems' : r.optional? "items" (ofNode? inner) = some s.items :=
      optionalSchema h rfl (hschema _ hitems)
    have hproperties' : r.withDefault? "properties" [] (propertiesOf? inner) = some s.properties :=
      defaultProperties h rfl hnames hproperty
    have hothers' : r.optional? "additionalProperties" (ofNode? inner) =
        some s.additionalProperties := optionalSchema h rfl (hschema _ hothers)
    have hrequired : r.withDefault? "required" [] (textList? inner) = some s.required :=
      defaultTexts h rfl
    have hdescription : r.withDefault? "description" "" Node.text? = some s.description :=
      defaultText h rfl
    have hreference : r.optional? "$ref" Node.text? = some s.reference := optionalText h rfl
    rw [names_parts] at hrecord
    simp only [ofNode?, hrecord, htype, hformat, horder, hitems', hothers', hrequired, hdescription,
      hreference, Option.bind_eq_bind, Option.bind_some]
    refine Option.bind_eq_some_iff.2 ⟨s.properties, hproperties', ?_⟩
    cases s
    rfl

/-- A schema is read back as it was. -/
theorem readsAs_json {s : Schema} (hs : s.Distinct) : ReadsAs ofNode? s.json s :=
  ⟨noFloat_json hs, ofNode?_json hs⟩

end ApiDecl.Schema
