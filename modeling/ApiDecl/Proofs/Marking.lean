import ApiDecl.Proofs.Expanding
import ApiDecl.Proofs.Recursion
import ApiDecl.Proofs.RouteAgreement

/-!
# Proofs: definitions do not change what schemas mean

A table can be compiled with any of its structs as definitions (`Catalog.mark`), or with none
(`Catalog.unmarked`). Where the second compilation writes out a struct, the first may refer to it, and
the definition that it refers to is that struct written out. So the schemas of the first expand to
those of the second.
-/

namespace ApiDecl.Catalog

open Relation Compile Schema

/-! ## Marked tables -/

/-- The table with the structs of some names as the definitions. -/
def mark (c : Catalog) (p : String → Bool) : Catalog :=
  ⟨c.structs.map fun s => { s with isDefinition := p s.name }⟩

/-- The table without definitions. -/
def unmarked (c : Catalog) : Catalog := c.mark fun _ => false

section Mark

variable {c : Catalog} {p : String → Bool}

theorem names_mark (c : Catalog) (p : String → Bool) : (c.mark p).names = c.names := by
  simp [names, mark]

theorem ordered_mark (hc : c.Ordered) : (c.mark p).Ordered := by
  rw [Ordered, names_mark]
  exact hc

theorem find?_mark (c : Catalog) (p : String → Bool) (name : String) :
    (c.mark p).find? name = (c.find? name).map fun s => { s with isDefinition := p s.name } := by
  rw [find?, mark, List.find?_map]
  rfl

theorem find?_of_mark {name : String} {s : StructDescriptor} (h : (c.mark p).find? name = some s) :
    ∃ s₀, c.find? name = some s₀ ∧ s = { s₀ with isDefinition := p s₀.name } := by
  rw [find?_mark] at h
  obtain ⟨s₀, hs₀, rfl⟩ := Option.map_eq_some_iff.1 h
  exact ⟨s₀, hs₀, rfl⟩

/-- A struct is the same in two marked tables, but for being a definition. -/
theorem get?_mark_of_unmarked {n : TypeName} {s : StructDescriptor}
    (h : c.unmarked.get? n = some s) :
    s.isDefinition = false ∧ (c.mark p).get? n = some { s with isDefinition := p s.name } := by
  obtain ⟨s₀, hs₀, rfl⟩ := find?_of_mark h
  refine ⟨rfl, ?_⟩
  rw [get?, find?_mark, hs₀]
  rfl

theorem get?_mark_eq_none {n : TypeName} (h : c.unmarked.get? n = none) :
    (c.mark p).get? n = none := by
  rw [get?, unmarked, find?_mark, Option.map_eq_none_iff] at h
  rw [get?, find?_mark, h]
  rfl

/-- With more definitions less is written out. -/
theorem inlines_of_mark {a b : String} (h : (c.mark p).Inlines a b) : c.unmarked.Inlines a b := by
  obtain ⟨s, hs, n, t, hn, hd, ht, -, rfl⟩ := h
  obtain ⟨s₀, hs₀, rfl⟩ := find?_of_mark hs
  obtain ⟨t₀, ht₀, rfl⟩ := find?_of_mark ht
  refine ⟨{ s₀ with isDefinition := false }, ?_, n, { t₀ with isDefinition := false }, ?_, hd, ?_,
    rfl, rfl⟩
  · rw [unmarked, find?_mark, hs₀]
    rfl
  · cases hn with
    | property hf hp h => exact .property hf hp h
  · rw [unmarked, get?, find?_mark, ht₀]
    rfl

end Mark

/-! ## Written schemas expand -/

/-- Every definition of the table is there, as the struct written out. -/
def Defined (c : Catalog) (defs : List Definition) : Prop :=
  ∀ s ∈ c.structs, s.isDefinition = true →
    ∃ d ∈ defs, d.id = definitionId s.name ∧ c.Writes (.struct s) d.schema

section Expands

variable {c : Catalog} {p : String → Bool} {defs : List Definition}

mutual

/-- A schema with references expands to the schema without. -/
theorem Writes.expands {t : FieldType} {σ τ : Schema} (h : c.unmarked.Writes t τ)
    (hdefs : (c.mark p).Defined defs) (h' : (c.mark p).Writes t σ) : σ.Expands defs τ := by
  match h with
  | .scalar s =>
    cases h'
    exact .leaf rfl rfl rfl rfl
  | .dateTime hd =>
    obtain rfl := h'.eq_dateTime hd
    exact .leaf rfl rfl rfl rfl
  | .unknown hd hn =>
    obtain rfl := h'.eq_empty hd (get?_mark_eq_none hn)
    exact .leaf rfl rfl rfl rfl
  | .reference hd hn hs =>
    simp [(get?_mark_of_unmarked (p := p) hn).1] at hs
  | .inline (s := s) hd hn hs hw =>
    have hmark := (get?_mark_of_unmarked (p := p) hn).2
    rcases h'.reference_or_inline hd hmark with ⟨hs', rfl⟩ | ⟨-, hw'⟩
    · -- the definition is the struct written out, which says nothing about its use
      obtain ⟨d, hd', hid, hschema⟩ := hdefs _ (mem_of_find? hmark) hs'
      obtain ⟨hdescription, hrequired, -⟩ := hw.struct_keeps
      rw [← hid]
      exact .referTo hd' (hw.expands hdefs (hschema.of_fields_eq rfl)) hdescription hrequired
    · exact hw.expands hdefs (hw'.of_fields_eq rfl)
  | .map value =>
    cases h'
    exact .dictionary
  | .list =>
    cases h'
    exact .list (.leaf rfl rfl rfl rfl)
  | .bytes ht =>
    obtain rfl := h'.eq_bytes ht
    exact .leaf rfl rfl rfl rfl
  | .array ht hw =>
    obtain ⟨element, hw', rfl⟩ := h'.exists_element ht
    exact .list (hw.expands hdefs hw')
  | .struct hw =>
    cases h' with
    | struct hw' => exact hw.expands hdefs hw' rfl (.leaf rfl rfl rfl rfl)

theorem WritesFields.expands {σ₀ τ₀ σ τ : Schema} {fields : List Field}
    (h : c.unmarked.WritesFields τ₀ fields τ) (hdefs : (c.mark p).Defined defs)
    (h' : (c.mark p).WritesFields σ₀ fields σ) (hσ₀ : σ₀.reference = none)
    (h₀ : σ₀.Expands defs τ₀) : σ.Expands defs τ := by
  match h with
  | .done _ =>
    cases h'
    exact h₀
  | .hidden hf hw => exact hw.expands hdefs (h'.of_hidden hf) hσ₀ h₀
  | .property hf ht hw =>
    obtain ⟨value, ht', hw'⟩ := h'.of_property hf
    refine hw.expands hdefs hw' hσ₀ (h₀.addProperty _ hσ₀ ?_)
    exact ((ht.expands hdefs ht').describe _).require _ _

end

end Expands

/-! ## Marking -/

/-- Both computations give a schema, and the first one expands to the second. -/
def CompilesTo (defs : List Definition) (x y : Compile Schema) : Prop :=
  ∃ σ τ, x.result = .ok σ ∧ y.result = .ok τ ∧ σ.ExpandsTo defs τ

theorem CompilesTo.agree {defs : List Definition} {x y : Compile Schema} (h : CompilesTo defs x y)
    (hx : x.Steady) (hy : y.Steady) : Agree (ExpandsTo defs) x y := by
  obtain ⟨σ, τ, hσ, hτ, hexpands⟩ := h
  refine .of_steady hx hy ?_
  rw [hσ, hτ]
  exact .ok hexpands

section Compiling

variable {c : Catalog} {p : String → Bool} {defs : List Definition}
  (hacyclic : ∀ n, ¬ TransGen c.unmarked.Inlines n n)
include hacyclic

theorem acyclic_mark : ∀ n, ¬ TransGen (c.mark p).Inlines n n :=
  fun n h => hacyclic n (TransGen.mono (fun _ _ => inlines_of_mark) _ _ h)

variable (hdefs : (c.mark p).Defined defs) (hids : (defs.map (·.id)).Nodup)
include hdefs hids

theorem structSchema_compilesTo {n : String} {s s' : StructDescriptor}
    (hs : (c.mark p).find? n = some s) (hs' : c.unmarked.find? n = some s') {name : Option String}
    (hname : ∀ m ∈ name, m = n) :
    CompilesTo defs ((c.mark p).structSchema s name) (c.unmarked.structSchema s' name) := by
  obtain rfl := name_of_find? hs
  obtain ⟨hplain', hmark⟩ := get?_mark_of_unmarked (p := p) (n := ⟨[], s.name⟩) hs'
  have hname' : s'.name = s.name := name_of_find? hs'
  have hfields : s.fields = s'.fields := by
    rw [Option.some.inj (hs.symm.trans hmark)]
  obtain ⟨τ, hτ, hwτ⟩ := inlineSchema_ok hacyclic (hname' ▸ hs') name fun m hm =>
    (hname m hm).trans hname'.symm
  rw [CompilesTo, structSchema_plain _ hplain', hτ]
  rcases (c.mark p).structSchema_reference_or_inline s name with ⟨m, rfl, hdef, hschema⟩ | hschema
  · obtain rfl := hname m rfl
    obtain ⟨d, hd, hid, hwritten⟩ := hdefs s (mem_of_find? hs) hdef
    obtain ⟨hdescription, hrequired, -⟩ := hwτ.struct_keeps
    rw [hschema, ← hid]
    refine ⟨_, τ, rfl, rfl, Expands.expandsTo ?_ hids⟩
    exact .referTo hd (hwτ.expands hdefs (hwritten.of_fields_eq hfields)) hdescription hrequired
  · obtain ⟨σ, hσ, hwσ⟩ := inlineSchema_ok (acyclic_mark hacyclic) hs name hname
    rw [hschema, hσ]
    exact ⟨σ, τ, rfl, rfl, (hwτ.expands hdefs (hwσ.of_fields_eq hfields)).expandsTo hids⟩

theorem fieldSchema_compilesTo (f : Field) :
    CompilesTo defs ((c.mark p).fieldSchema f) (c.unmarked.fieldSchema f) := by
  obtain ⟨σ, hσ, hwσ⟩ := typeSchema_ok (acyclic_mark (p := p) hacyclic) f.type
  obtain ⟨τ, hτ, hwτ⟩ := typeSchema_ok hacyclic f.type
  rw [CompilesTo, result_fieldSchema, result_fieldSchema, hσ, hτ]
  exact ⟨_, _, rfl, rfl, ((hwτ.expands hdefs hwσ).describe f.doc).expandsTo hids⟩

theorem definition_expandsTo {s : StructDescriptor} {schema : Schema}
    (hs : c.unmarked.find? s.name = some s) (hw : (c.mark p).Writes (.struct s) schema) :
    ∃ τ, (c.unmarked.structSchema s (some s.name)).result = .ok τ ∧ schema.ExpandsTo defs τ := by
  obtain ⟨τ, hτ, hwτ⟩ := inlineSchema_ok hacyclic hs (some s.name) (by simp)
  have hplain := (get?_mark_of_unmarked (p := p) (n := ⟨[], s.name⟩) hs).1
  refine ⟨τ, by rw [structSchema_plain _ hplain, hτ], ?_⟩
  exact (hwτ.expands hdefs hw).expandsTo hids

theorem schemasAgree_mark : SchemasAgree (ExpandsTo defs) (c.mark p) c.unmarked := by
  intro n
  cases hs : (c.mark p).find? n with
  | none =>
    have hs' : c.unmarked.find? n = none := by
      rw [find?_mark, Option.map_eq_none_iff] at hs
      rw [unmarked, find?_mark, hs]
      rfl
    rw [hs']
    exact .none
  | some s =>
    obtain ⟨s₀, hs₀, rfl⟩ := find?_of_mark hs
    have hs' : c.unmarked.find? n = some { s₀ with isDefinition := false } := by
      rw [unmarked, find?_mark, hs₀]
      rfl
    rw [hs']
    refine .some ⟨?_, ?_⟩
    · refine List.forall₂_same.2 fun f _ => ⟨rfl, ?_⟩
      exact (fieldSchema_compilesTo hacyclic hdefs hids f).agree (steady_fieldSchema _ f)
        (steady_fieldSchema _ f)
    · refine (structSchema_compilesTo hacyclic hdefs hids hs hs' ?_).agree
        (steady_structSchema _ _ _) (steady_structSchema _ _ _)
      intro m hm
      rw [← name_of_find? hs]
      exact (Option.mem_some.1 hm).symm

end Compiling

theorem defined_of_written {c : Catalog} {defs : List Definition}
    (h : c.definitions.result = .ok defs) : c.Defined defs := by
  intro s hs hdef
  obtain ⟨d, hd, hid, -, hw⟩ := exists_of_mem_left (definitions_written h)
    (mem_definitions.2 ⟨hs, hdef⟩)
  exact ⟨d, hd, hid, hw⟩

/-- Definitions have different identities if the numbers of their names are different. -/
theorem nodup_ids {c : Catalog} (hc : c.Ordered) {defs : List Definition}
    (h : c.definitions.result = .ok defs)
    (hids : ∀ s ∈ c.structs, ∀ t ∈ c.structs, s.isDefinition = true → t.isDefinition = true →
      definitionId s.name = definitionId t.name → s.name = t.name) :
    (defs.map (·.id)).Nodup := by
  have hmap : (c.structs.filter (·.isDefinition)).map (fun s => definitionId s.name) =
      defs.map (·.id) := map_eq_of_forall₂ ((definitions_written h).imp fun s d hd => hd.1.symm)
  have hnd : ((c.structs.filter (·.isDefinition)).map (·.name)).Nodup :=
    (List.filter_sublist.map _).nodup hc.nodup
  rw [← hmap]
  refine List.Nodup.map_on (fun s hs t ht hid => ?_) (List.Nodup.of_map _ hnd)
  obtain ⟨hs, hsdef⟩ := mem_definitions.1 hs
  obtain ⟨ht, htdef⟩ := mem_definitions.1 ht
  exact List.inj_on_of_nodup_map hc.nodup hs ht (hids s hs t ht hsdef htdef hid)

/-- Which structs are definitions makes no difference to what schemas mean: without recursion and
with different identities, the definitions and all other schemas expand to what the table without
definitions gives. -/
theorem marking_keeps_meaning (c : Catalog) (hc : c.Ordered)
    (hacyclic : ∀ n, ¬ TransGen c.unmarked.Inlines n n) (p : String → Bool)
    (hids : ∀ m ∈ c.names, ∀ n ∈ c.names, p m = true → p n = true →
      definitionId m = definitionId n → m = n) :
    ∃ defs, (c.mark p).definitions.result = .ok defs ∧
      (∀ d ∈ defs, ∃ s τ, c.unmarked.find? d.name = some s ∧
        (c.unmarked.structSchema s (some d.name)).result = .ok τ ∧ d.schema.ExpandsTo defs τ) ∧
      (∀ n s s', (c.mark p).find? n = some s → c.unmarked.find? n = some s' →
        ∀ name ∈ [none, some n],
          CompilesTo defs ((c.mark p).structSchema s name) (c.unmarked.structSchema s' name)) ∧
      (∀ f, CompilesTo defs ((c.mark p).fieldSchema f) (c.unmarked.fieldSchema f)) ∧
      ∀ files, Related (List.Forall₂ (RouteGroup.Alike (ExpandsTo defs)))
        ((c.mark p).groups files).result (c.unmarked.groups files).result := by
  have hmark : (c.mark p).Ordered := ordered_mark hc
  obtain ⟨defs, hok⟩ := definitions_ok (acyclic_mark hacyclic) hmark
  have hdefs := defined_of_written hok
  have hnd : (defs.map (·.id)).Nodup := by
    refine nodup_ids hmark hok fun s hs t ht hsdef htdef hid => ?_
    obtain ⟨s₀, hs₀, rfl⟩ := List.mem_map.1 hs
    obtain ⟨t₀, ht₀, rfl⟩ := List.mem_map.1 ht
    exact hids _ (List.mem_map.2 ⟨s₀, hs₀, rfl⟩) _ (List.mem_map.2 ⟨t₀, ht₀, rfl⟩) hsdef htdef hid
  refine ⟨defs, hok, fun d hd => ?_, fun n s s' hs hs' name hname => ?_, fun f => ?_, fun files => ?_⟩
  · obtain ⟨s, hs, -, hname, hw⟩ := exists_of_mem_right (definitions_written hok) hd
    obtain ⟨s₀, hs₀, rfl⟩ := List.mem_map.1 (mem_definitions.1 hs).1
    have hfind : c.unmarked.find? s₀.name = some { s₀ with isDefinition := false } := by
      rw [unmarked, find?_mark, hc.find? hs₀]
      rfl
    obtain ⟨τ, hτ, hexpands⟩ := definition_expandsTo hacyclic hdefs hnd
      (s := { s₀ with isDefinition := false }) hfind (hw.of_fields_eq rfl)
    rw [hname]
    exact ⟨_, τ, hfind, hτ, hexpands⟩
  · refine structSchema_compilesTo hacyclic hdefs hnd hs hs' fun m hm => ?_
    rcases List.mem_pair.1 hname with rfl | rfl
    · cases hm
    · exact (Option.mem_some.1 hm).symm
  · exact fieldSchema_compilesTo hacyclic hdefs hnd f
  · exact (groups_agree (schemasAgree_mark hacyclic hdefs hnd) files).result

/-- An order with a list of items, which it has to have. -/
def shop : Catalog :=
  ⟨[⟨"Item", [⟨"id", .scalar .u64, ⟨[("json", "id")]⟩, "", true⟩], false, []⟩,
    ⟨"Order", [⟨"items", .array (some (.named ⟨["shop"], "Item"⟩)),
      ⟨[("json", "items"), ("binding", "required")]⟩, "What is ordered.", true⟩], false, []⟩]⟩

/-- The only inlining edge of the shop is from an order to its items. -/
theorem shop_inlines {a b : String} (h : shop.unmarked.Inlines a b) : a = "Order" ∧ b = "Item" := by
  obtain ⟨s, hs, n, t, hn, -, ht, -, rfl⟩ := h
  obtain ⟨s₀, hs₀, rfl⟩ := find?_of_mark hs
  obtain rfl := name_of_find? hs₀
  have hmem := mem_of_find? hs₀
  simp only [shop, List.mem_cons, List.not_mem_nil, or_false] at hmem
  cases hn with
  | property hf _ h =>
    rcases hmem with rfl | rfl
    · obtain rfl := List.mem_singleton.1 hf
      cases h
    · obtain rfl := List.mem_singleton.1 hf
      cases h with
      | element h =>
        cases h
        exact ⟨rfl, name_of_find? ht⟩

/-- Items may be a definition of the shop. -/
theorem shop_keeps_meaning : shop.Ordered ∧ (∀ n, ¬ TransGen shop.unmarked.Inlines n n) ∧
    ∃ defs, (shop.mark (· == "Item")).definitions.result = .ok defs ∧
      ∀ f, CompilesTo defs ((shop.mark (· == "Item")).fieldSchema f) (shop.unmarked.fieldSchema f) := by
  have hc : shop.Ordered := by decide
  have hacyclic : ∀ n, ¬ TransGen shop.unmarked.Inlines n n := by
    intro n h
    obtain ⟨m, hm, -⟩ := TransGen.head'_iff.1 h
    obtain ⟨k, -, hk⟩ := TransGen.tail'_iff.1 h
    have hname : "Order" = "Item" := (shop_inlines hm).1.symm.trans (shop_inlines hk).2
    exact absurd hname (by decide)
  obtain ⟨defs, hok, -, -, hfields, -⟩ := marking_keeps_meaning shop hc hacyclic (· == "Item") (by
    intro m _ n _ hm hn _
    simp_all)
  exact ⟨hc, hacyclic, defs, hok, hfields⟩

end ApiDecl.Catalog
