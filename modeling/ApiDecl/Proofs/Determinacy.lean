import ApiDecl.Proofs.Recursion

/-!
# Proofs: written schemas are those that are compiled

A type has at most one schema in a table (`Catalog.Writes.det`), and if it has one then compiling it,
outside all structs, gives that schema (`Catalog.typeSchema_eq_ok_iff`).
-/

namespace ApiDecl.Catalog

open Relation

variable {c : Catalog}

mutual

theorem Writes.det {t : FieldType} {σ τ : Schema} (h : c.Writes t σ) (h' : c.Writes t τ) :
    σ = τ := by
  match h with
  | .scalar s =>
    cases h'
    rfl
  | .dateTime hd => exact (h'.eq_dateTime hd).symm
  | .unknown hd hn => exact (h'.eq_empty hd hn).symm
  | .reference hd hn hs =>
    rcases h'.reference_or_inline hd hn with ⟨-, rfl⟩ | ⟨hs', -⟩
    · rfl
    · simp [hs] at hs'
  | .inline hd hn hs hw =>
    rcases h'.reference_or_inline hd hn with ⟨hs', -⟩ | ⟨-, hw'⟩
    · simp [hs] at hs'
    · exact hw.det hw'
  | .map _ | .list =>
    cases h'
    rfl
  | .bytes ht => exact (h'.eq_bytes ht).symm
  | .array ht hw =>
    obtain ⟨element, hw', rfl⟩ := h'.exists_element ht
    rw [hw.det hw']
  | .struct hw =>
    cases h' with
    | struct hw' => exact hw.det hw'

theorem WritesFields.det {start σ τ : Schema} {fields : List Field}
    (h : c.WritesFields start fields σ) (h' : c.WritesFields start fields τ) : σ = τ := by
  match h with
  | .done _ =>
    cases h'
    rfl
  | .hidden hf hw => exact hw.det (h'.of_hidden hf)
  | .property hf ht hw =>
    obtain ⟨value, ht', hw'⟩ := h'.of_property hf
    obtain rfl := ht.det ht'
    exact hw.det hw'

end

/-- Compiling a type outside all structs gives the schema that is written for it. -/
theorem typeSchema_eq_ok_iff {t : FieldType} {σ : Schema} :
    (c.typeSchema [] t).result = .ok σ ↔ c.Writes t σ := by
  refine ⟨writes_of_typeSchema, fun hw => ?_⟩
  cases hr : (c.typeSchema [] t).result with
  | ok τ => rw [hw.det (writes_of_typeSchema hr)]
  | error e =>
    -- the chain of the error would come back to itself, but every descent from the type ends
    have hexplains := c.typeSchema_explains [] t
    rw [hr] at hexplains
    obtain ⟨n, rest, -, hn, hreturns⟩ := hexplains
    obtain ⟨init, last, hchain, hlast⟩ := hreturns.last_mem
    obtain ⟨before, cycle, rfl⟩ := List.append_of_mem hlast
    have hedges := hreturns.isChain
    have hcycle : TransGen c.Inlines last last := by
      have hback := hchain ▸ hedges
      rw [List.append_assoc] at hback
      exact transGen_of_isChain hback.right_of_append last (by simp)
    have hreach : ReflTransGen c.Inlines n last := by
      have hmem : last ∈ n :: rest := by simp [hchain]
      rcases List.mem_cons.1 hmem with rfl | hmem
      · exact .refl
      · exact (transGen_of_isChain hedges last hmem).to_reflTransGen
    exact absurd hcycle (not_cycle_of_acc (hw.acc n hn) hreach)

theorem fieldSchema_eq_ok_iff {f : Field} {σ : Schema} :
    (c.fieldSchema f).result = .ok σ ↔ ∃ value, c.Writes f.type value ∧ σ = describe f.doc value := by
  rw [result_fieldSchema]
  constructor
  · intro hσ
    cases hvalue : (c.typeSchema [] f.type).result with
    | error e => simp [hvalue] at hσ
    | ok value =>
      rw [hvalue] at hσ
      exact ⟨value, typeSchema_eq_ok_iff.1 hvalue, (Except.ok.inj hσ).symm⟩
  · rintro ⟨value, hw, rfl⟩
    rw [typeSchema_eq_ok_iff.2 hw]
    rfl

theorem inlineSchema_eq_ok_iff {s : StructDescriptor} (hs : c.find? s.name = some s) {σ : Schema} :
    (c.inlineSchema s (some s.name)).result = .ok σ ↔ c.Writes (.struct s) σ := by
  refine ⟨writes_of_inlineSchema, fun hw => ?_⟩
  cases hr : (c.inlineSchema s (some s.name)).result with
  | ok τ => rw [hw.det (writes_of_inlineSchema hr)]
  | error e =>
    obtain ⟨n, hreach, hcycle⟩ := (inlineSchema_detects hs).fails_iff.1 ⟨e, hr⟩
    have hacc : Acc (fun b a => c.Inlines a b) s.name :=
      Acc.intro _ fun m hm => hw.acc m ((inlines_iff hs).1 hm)
    exact absurd hcycle (not_cycle_of_acc hacc hreach)

end ApiDecl.Catalog
