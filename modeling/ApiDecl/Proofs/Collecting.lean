import ApiDecl.Catalog.Collect
import ApiDecl.Proofs.Sealing
import ApiDecl.Proofs.Yielding

/-!
# Proofs: collected tables are in order

Collecting structs keeps their names in order and the names of the fields of each different, so the
collected table is well-formed (`Catalog.collectRaw_wellFormed`), and the sealed table is in order.
-/

namespace ApiDecl

open Syntax

theorem StructDescriptor.nodup_contribute {s : StructDescriptor} (o : FieldOutcome)
    (hs : (s.fields.map (·.name)).Nodup) : ((s.contribute o).fields.map (·.name)).Nodup := by
  cases o with
  | skipped => exact hs
  | embed target => exact hs
  | field f => exact nodup_map_putByKey hs

/-- A struct of field outcomes has fields with different names. -/
theorem StructDescriptor.nodup_ofOutcomes (name : String) (outcomes : List FieldOutcome) :
    ((ofOutcomes name outcomes).fields.map (·.name)).Nodup := by
  have hfold : ∀ s : StructDescriptor, (s.fields.map (·.name)).Nodup →
      ((outcomes.foldl .contribute s).fields.map (·.name)).Nodup := by
    induction outcomes with
    | nil => exact fun s hs => hs
    | cons o rest ih => exact fun s hs => ih _ (nodup_contribute o hs)
  exact hfold (.blank name) List.nodup_nil

theorem StructDescriptor.name_ofOutcomes (name : String) (outcomes : List FieldOutcome) :
    (ofOutcomes name outcomes).name = name := by
  have hfold : ∀ s : StructDescriptor, (outcomes.foldl .contribute s).name = s.name := by
    induction outcomes with
    | nil => exact fun _ => rfl
    | cons o rest ih =>
      have hname : ∀ s : StructDescriptor, (s.contribute o).name = s.name := fun s => by
        cases o <;> rfl
      exact fun s => (ih (s.contribute o)).trans (hname s)
  exact hfold (.blank name)

theorem collectFields_yields (file owner : String) (fields : List FieldDecl) :
    Traced.Yields (fun s => s.name = owner ∧ (s.fields.map (·.name)).Nodup)
      (collectFields file owner fields) :=
  (Traced.Yields.anything _).bind fun outcomes _ =>
    .pure ⟨StructDescriptor.name_ofOutcomes owner outcomes,
      StructDescriptor.nodup_ofOutcomes owner outcomes⟩

/-- A declared struct has its declared name and fields with different names, and is a definition if it
is marked as one. -/
theorem structOf?_yields (file : String) (d : StructDecl) :
    Traced.Yields (fun found => ∀ s ∈ found, s.name = plainName d.name ∧
      (s.fields.map (·.name)).Nodup ∧
      s.isDefinition = hasSchemaMarker (docLines file d.attributes)) (structOf? file d) := by
  unfold structOf?
  cases d.fields with
  | none => exact (Traced.Yields.note _).bind fun _ _ => .pure (by simp)
  | some fields =>
    refine (collectFields_yields file (plainName d.name) fields).bind fun s hs => ?_
    split
    · exact (Traced.Yields.note _).bind fun _ _ => .pure (by simp)
    · refine .pure fun t ht => ?_
      cases ht
      exact ⟨hs.1, hs.2, rfl⟩

namespace Catalog

theorem WellFormed.empty : WellFormed .empty := ⟨List.Pairwise.nil, by simp [Catalog.empty]⟩

theorem WellFormed.insert {c : Catalog} (hc : c.WellFormed) {s : StructDescriptor}
    (hs : (s.fields.map (·.name)).Nodup) : (c.insert s).WellFormed where
  ordered := sorted_putSorted hc.ordered
  distinct := by
    intro t ht
    rcases mem_putSorted ht with rfl | ht
    · exact hs
    · exact hc.distinct t ht

/-- What is collected of a declared struct is added to the table, if it is anything. -/
theorem collectStruct_adds {R : Option StructDescriptor → Prop} {file : String} {d : StructDecl}
    (h : Traced.Yields R (structOf? file d)) (c : Catalog) :
    Traced.Yields (fun c' => ∃ found, R found ∧ c' = found.elim c c.insert)
      (collectStruct file c d) := by
  unfold collectStruct
  refine h.bind fun found hfound => ?_
  cases found with
  | none => exact .pure ⟨none, hfound, rfl⟩
  | some s =>
    have hs : Traced.Yields (fun c' => ∃ found, R found ∧ c' = found.elim c c.insert)
        (pure (c.insert s)) := .pure ⟨some s, hfound, rfl⟩
    refine (Traced.Yields.note _).bind fun _ _ => ?_
    dsimp only
    split
    · exact (Traced.Yields.note _).bind fun _ _ => hs
    · exact hs

/-- A table with a declared struct added keeps what such a struct does not break. -/
theorem collectStruct_keeps {P : Catalog → Prop} {file : String} {c : Catalog} {d : StructDecl}
    (hc : P c) (hinsert : ∀ s, (s.fields.map (·.name)).Nodup →
      s.isDefinition = hasSchemaMarker (docLines file d.attributes) → P (c.insert s)) :
    Traced.Yields P (collectStruct file c d) := by
  refine (collectStruct_adds (structOf?_yields file d) c).mono ?_
  rintro _ ⟨found, hfound, rfl⟩
  cases found with
  | none => exact hc
  | some s =>
    obtain ⟨-, hdistinct, hmarked⟩ := hfound s rfl
    exact hinsert s hdistinct hmarked

/-- A collected table has what no declared struct of the files breaks. -/
theorem collectRaw_keeps {P : Catalog → Prop} {files : List SourceFile} (hempty : P .empty)
    (hinsert : ∀ f ∈ files, ∀ d ∈ f.structs, ∀ c s, P c → (s.fields.map (·.name)).Nodup →
      s.isDefinition = hasSchemaMarker (docLines f.path d.attributes) → P (c.insert s)) :
    Traced.Yields P (collectRaw files) := by
  refine Traced.Yields.foldlM (Q := P) hempty fun c f hf hc => ?_
  refine Traced.Yields.foldlM (Q := P) hc fun c d hd hc => ?_
  exact collectStruct_keeps hc fun s => hinsert f hf d hd c s hc

/-- A collected table is well-formed. -/
theorem collectRaw_wellFormed (files : List SourceFile) :
    Traced.Yields WellFormed (collectRaw files) :=
  collectRaw_keeps .empty fun _ _ _ _ _ _ hc hs _ => hc.insert hs

/-- A sealed table is in order. -/
theorem collect_ordered (files : List SourceFile) : Traced.Yields Ordered (collect files) := by
  refine (collectRaw_wellFormed files).bind fun raw hraw log => ?_
  obtain ⟨c, events, hrun, hI, -⟩ := seal_inv hraw
  rw [hrun log]
  exact hI.ordered

end Catalog

end ApiDecl
