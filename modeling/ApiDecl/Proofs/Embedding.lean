import ApiDecl.Catalog.Seal
import ApiDecl.Proofs.Table

/-!
# The embedding graph

A struct leads to every struct that it embeds, itself or from an inline struct anywhere in the types
of its fields (`Catalog.Embeds`). Sealing may drop embeddings, and reports each that it drops
(`droppedEdges`). What a struct becomes is said by `StructDescriptor.resolve`, relative to the sealed
table and to the embeddings that are kept.
-/

namespace ApiDecl

open Relation

/-! ## Edges -/

mutual

/-- The names of the structs that a type embeds, at every depth and in order. -/
def FieldType.targets : FieldType → List String
  | .struct inner => inner.targets
  | .array (some element) => element.targets
  | .map (some value) => value.targets
  | _ => []

/-- The names of the structs that a struct embeds, at every depth and in order. -/
def StructDescriptor.targets : StructDescriptor → List String
  | ⟨_, fields, _, embeds⟩ => embeds ++ fieldTargets fields

/-- The names of the structs that the types of some fields embed. -/
def fieldTargets : List Field → List String
  | [] => []
  | ⟨_, type, _, _, _⟩ :: rest => type.targets ++ fieldTargets rest

end

namespace Catalog

/-- A struct of the table leads to the structs that it embeds at any depth. -/
def Embeds (raw : Catalog) (source target : String) : Prop :=
  ∃ s, raw.find? source = some s ∧ target ∈ s.targets

/-- The edges that are left without the dropped ones. -/
def Keeps (raw : Catalog) (dropped : List (String × String)) (source target : String) : Prop :=
  raw.Embeds source target ∧ (source, target) ∉ dropped

/-- The names of the structs are in order, and the fields of every struct have different names. -/
structure WellFormed (c : Catalog) : Prop where
  ordered : c.Ordered
  distinct : ∀ s ∈ c.structs, (s.fields.map (·.name)).Nodup

/-- The fields of the struct of a name; an unknown struct has none. -/
def fieldsOf (c : Catalog) (name : String) : List Field :=
  (c.find? name).elim [] (·.fields)

theorem fieldsOf_eq_nil {c : Catalog} {name : String} (h : name ∉ c.names) :
    c.fieldsOf name = [] := by
  rw [fieldsOf, find?_eq_none_iff.2 h]
  rfl

theorem fieldsOf_congr {c c' : Catalog} {name : String} (h : c'.find? name = c.find? name) :
    c'.fieldsOf name = c.fieldsOf name := by
  rw [fieldsOf, fieldsOf, h]

theorem fieldsOf_insert_of_ne {c : Catalog} {s : StructDescriptor} {name : String}
    (h : s.name ≠ name) : (c.insert s).fieldsOf name = c.fieldsOf name :=
  fieldsOf_congr (by rw [find?_insert, if_neg h])

theorem Embeds.mem_names {raw : Catalog} {S T : String} (h : raw.Embeds S T) : S ∈ raw.names := by
  obtain ⟨s, hs, -⟩ := h
  exact mem_names_of_find? hs

end Catalog

/-- The edge that an event says is dropped: from the end of the path to the target. -/
def Event.droppedEdge? : Event → Option (String × String)
  | embeddingCycle path target => path.getLast?.map (·, target)
  | _ => none

/-- The edges that some events say are dropped. -/
def droppedEdges (events : List Event) : List (String × String) :=
  events.filterMap Event.droppedEdge?

/-! ## Resolved structs -/

/-- Fields, and behind them those of others whose names are not there yet. -/
def addMissing (own others : List Field) : List Field :=
  own ++ others.filter fun f => f.name ∉ own.map (·.name)

mutual

/-- What a struct becomes: its fields with their types resolved, then for each kept embedding in
order the missing ones among the fields of the sealed target. -/
def StructDescriptor.resolve (c : Catalog) (kept : String → Bool) :
    StructDescriptor → StructDescriptor
  | ⟨name, fields, isDefinition, embeds⟩ =>
    ⟨name, ((embeds.filter kept).map c.fieldsOf).foldl addMissing (resolveFields c kept fields),
      isDefinition, []⟩

/-- Fields with the inline structs in their types resolved. -/
def resolveFields (c : Catalog) (kept : String → Bool) : List Field → List Field
  | [] => []
  | ⟨name, type, tag, doc, exported⟩ :: rest =>
    ⟨name, type.resolve c kept, tag, doc, exported⟩ :: resolveFields c kept rest

/-- A type with the inline structs in it resolved. -/
def FieldType.resolve (c : Catalog) (kept : String → Bool) : FieldType → FieldType
  | .struct inner => .struct (inner.resolve c kept)
  | .array (some element) => .array (some (element.resolve c kept))
  | .map (some value) => .map (some (value.resolve c kept))
  | .array none => .array none
  | .map none => .map none
  | .scalar s => .scalar s
  | .named name => .named name

end

/-- Inheriting fields with different names is adding the missing ones. -/
theorem inheritFields_eq_addMissing (own others : List Field)
    (hnd : (others.map (·.name)).Nodup) : inheritFields own others = addMissing own others := by
  unfold inheritFields
  induction others generalizing own with
  | nil => simp [addMissing]
  | cons f rest ih =>
    obtain ⟨hfresh, hnd⟩ := List.nodup_cons.1 hnd
    rw [List.foldl_cons, ih _ hnd]
    by_cases hf : f.name ∈ own.map (·.name)
    · have hown : inheritField own f = own := by simpa [inheritField] using hf
      rw [hown, addMissing, addMissing, List.filter_cons_of_neg (by simpa using hf)]
    · have hown : inheritField own f = own ++ [f] := by
        have hany : own.any (·.name == f.name) = false := by simpa using hf
        simp [inheritField, hany]
      have hrest : rest.filter (fun g => g.name ∉ (own ++ [f]).map (·.name)) =
          rest.filter fun g => g.name ∉ own.map (·.name) := by
        refine List.filter_congr fun g hg => ?_
        have hne : g.name ≠ f.name := fun e => hfresh (List.mem_map.2 ⟨g, hg, e⟩)
        simp [hne]
      rw [hown, addMissing, addMissing, hrest, List.filter_cons_of_pos (by simpa using hf),
        List.append_assoc, List.singleton_append]

/-- Inheriting from several structs one after the other is adding what is missing of each. -/
theorem inheritFields_flatten (own : List Field) (others : List (List Field))
    (hnd : ∀ l ∈ others, (l.map (·.name)).Nodup) :
    inheritFields own others.flatten = others.foldl addMissing own := by
  induction others generalizing own with
  | nil => rfl
  | cons l rest ih =>
    rw [List.flatten_cons, inheritFields, List.foldl_append, List.foldl_cons,
      ← ih _ fun l' hl' => hnd l' (List.mem_cons_of_mem _ hl'),
      ← inheritFields_eq_addMissing own l (hnd l List.mem_cons_self)]
    rfl

/-- Adding missing fields keeps the names different. -/
theorem nodup_addMissing {own others : List Field} (hown : (own.map (·.name)).Nodup)
    (hothers : (others.map (·.name)).Nodup) : ((addMissing own others).map (·.name)).Nodup := by
  rw [addMissing, List.map_append, List.nodup_append]
  refine ⟨hown, (List.filter_sublist.map _).nodup hothers, fun a ha b hb e => ?_⟩
  obtain ⟨f, hf, rfl⟩ := List.mem_map.1 hb
  exact (of_decide_eq_true (List.mem_filter.1 hf).2) (e ▸ ha)

theorem nodup_foldl_addMissing {own : List Field} {others : List (List Field)}
    (hown : (own.map (·.name)).Nodup) (hothers : ∀ l ∈ others, (l.map (·.name)).Nodup) :
    ((others.foldl addMissing own).map (·.name)).Nodup := by
  induction others generalizing own with
  | nil => exact hown
  | cons l rest ih =>
    exact ih (nodup_addMissing hown (hothers l List.mem_cons_self)) fun l' hl' =>
      hothers l' (List.mem_cons_of_mem _ hl')

/-! ## Laws of resolving -/

@[simp] theorem StructDescriptor.resolve_name (c : Catalog) (kept : String → Bool)
    (s : StructDescriptor) : (s.resolve c kept).name = s.name := by
  cases s
  rfl

theorem map_name_resolveFields (c : Catalog) (kept : String → Bool) (fields : List Field) :
    (resolveFields c kept fields).map (·.name) = fields.map (·.name) := by
  induction fields with
  | nil => rfl
  | cons f rest ih =>
    cases f
    simp only [resolveFields, List.map_cons, ih]

/-- A resolved struct has different field names if it and the structs of the table have. -/
theorem StructDescriptor.nodup_resolve {c : Catalog} {kept : String → Bool} {s : StructDescriptor}
    (hs : (s.fields.map (·.name)).Nodup)
    (hc : ∀ name, ((c.fieldsOf name).map (·.name)).Nodup) :
    ((s.resolve c kept).fields.map (·.name)).Nodup := by
  cases s
  refine nodup_foldl_addMissing ?_ fun l hl => ?_
  · rwa [map_name_resolveFields]
  · obtain ⟨name, -, rfl⟩ := List.mem_map.1 hl
    exact hc name

mutual

/-- Resolving looks only at the kept targets of a struct. -/
theorem StructDescriptor.resolve_congr {c c' : Catalog} {kept kept' : String → Bool}
    (s : StructDescriptor) (hk : ∀ T ∈ s.targets, kept T = kept' T)
    (hf : ∀ T ∈ s.targets, kept T = true → c.fieldsOf T = c'.fieldsOf T) :
    s.resolve c kept = s.resolve c' kept' := by
  obtain ⟨name, fields, isDefinition, embeds⟩ := s
  simp only [StructDescriptor.targets, List.mem_append] at hk hf
  have he : embeds.filter kept = embeds.filter kept' :=
    List.filter_congr fun T hT => hk T (.inl hT)
  have hm : (embeds.filter kept).map c.fieldsOf = (embeds.filter kept).map c'.fieldsOf := by
    refine List.map_congr_left fun T hT => ?_
    obtain ⟨hT, hkept⟩ := List.mem_filter.1 hT
    exact hf T (.inl hT) hkept
  have hr := resolveFields_congr fields (fun T hT => hk T (.inr hT)) fun T hT => hf T (.inr hT)
  simp only [StructDescriptor.resolve]
  rw [hm, he, hr]

theorem resolveFields_congr {c c' : Catalog} {kept kept' : String → Bool} (fields : List Field)
    (hk : ∀ T ∈ fieldTargets fields, kept T = kept' T)
    (hf : ∀ T ∈ fieldTargets fields, kept T = true → c.fieldsOf T = c'.fieldsOf T) :
    resolveFields c kept fields = resolveFields c' kept' fields := by
  match fields with
  | [] => rfl
  | ⟨name, type, tag, doc, exported⟩ :: rest =>
    simp only [fieldTargets, List.mem_append] at hk hf
    simp only [resolveFields]
    rw [FieldType.resolve_congr type (fun T hT => hk T (.inl hT)) fun T hT => hf T (.inl hT),
      resolveFields_congr rest (fun T hT => hk T (.inr hT)) fun T hT => hf T (.inr hT)]

theorem FieldType.resolve_congr {c c' : Catalog} {kept kept' : String → Bool} (type : FieldType)
    (hk : ∀ T ∈ type.targets, kept T = kept' T)
    (hf : ∀ T ∈ type.targets, kept T = true → c.fieldsOf T = c'.fieldsOf T) :
    type.resolve c kept = type.resolve c' kept' := by
  match type with
  | .struct inner => exact congrArg FieldType.struct (StructDescriptor.resolve_congr inner hk hf)
  | .array (some element) =>
    simp only [FieldType.resolve]
    rw [FieldType.resolve_congr element hk hf]
  | .map (some value) =>
    simp only [FieldType.resolve]
    rw [FieldType.resolve_congr value hk hf]
  | .array none => rfl
  | .map none => rfl
  | .scalar _ => rfl
  | .named _ => rfl

end

end ApiDecl
