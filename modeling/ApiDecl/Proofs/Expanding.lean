import ApiDecl.Schema.OfStruct
import Mathlib.Data.List.Nodup
import Std.Data.String.ToNat

/-!
# Proofs: references and what they refer to

A schema is expanded by putting the definitions in place of the references, at every depth and in the
definitions too (`Schema.Expands`). What a reference says of its own, its description and whether it
is required, is kept. What the compiler adds to a schema is added to its expansion.
-/

namespace ApiDecl

/-- The references to two identities are the same text only if the identities are the same. -/
theorem Schema.referenceStart_inj {a b : UInt64}
    (h : referenceStart ++ toString a.toNat = referenceStart ++ toString b.toNat) : a = b :=
  UInt64.toNat.inj (Nat.repr_injective ((String.append_right_inj _).1 h))

namespace Schema

mutual

/-- With the definitions put in place of the references to them, the first schema is the second. -/
inductive Expands (defs : List Definition) : Schema → Schema → Prop
  | node {σ : Schema} {items additionalProperties : Option Schema}
      {properties : List (String × Schema)} (hσ : σ.reference = none)
      (hi : ExpandsPart defs σ.items items) (hp : ExpandsProperties defs σ.properties properties)
      (ha : ExpandsPart defs σ.additionalProperties additionalProperties) :
      Expands defs σ { σ with items, properties, additionalProperties }
  | reference {σ τ : Schema} {d : Definition} (hd : d ∈ defs)
      (hσ : σ.reference = some (referenceStart ++ toString d.id.toNat))
      (hτ : Expands defs d.schema τ) :
      Expands defs σ { τ with description := σ.description, required := σ.required }

/-- A part that may be absent is expanded. -/
inductive ExpandsPart (defs : List Definition) : Option Schema → Option Schema → Prop
  | none : ExpandsPart defs none none
  | some {σ τ : Schema} (h : Expands defs σ τ) : ExpandsPart defs (some σ) (some τ)

/-- Every property is expanded. -/
inductive ExpandsProperties (defs : List Definition) :
    List (String × Schema) → List (String × Schema) → Prop
  | nil : ExpandsProperties defs [] []
  | cons {name : String} {σ τ : Schema} {rest rest' : List (String × Schema)}
      (h : Expands defs σ τ) (hrest : ExpandsProperties defs rest rest') :
      ExpandsProperties defs ((name, σ) :: rest) ((name, τ) :: rest')

end

/-- The expansion of the first schema is the second and no other. -/
def ExpandsTo (defs : List Definition) (σ τ : Schema) : Prop :=
  ∀ τ', σ.Expands defs τ' ↔ τ' = τ

section Expands

variable {defs : List Definition} {σ τ : Schema}

/-! ## One expansion -/

mutual

/-- If the definitions have different identities, a schema has one expansion. -/
theorem Expands.det {σ τ τ' : Schema} (h : Expands defs σ τ) (hids : (defs.map (·.id)).Nodup)
    (h' : Expands defs σ τ') : τ = τ' := by
  match h with
  | .node hσ hi hp ha =>
    cases h' with
    | node _ hi' hp' ha' => rw [hi.det hids hi', hp.det hids hp', ha.det hids ha']
    | reference _ hσ' _ => simp [hσ] at hσ'
  | .reference (d := d) hd hσ hτ =>
    cases h' with
    | node hσ' _ _ _ => simp [hσ] at hσ'
    | @reference _ _ d' hd' hσ' hτ' =>
      have hid : d.id = d'.id := referenceStart_inj (Option.some.inj (hσ.symm.trans hσ'))
      obtain rfl := List.inj_on_of_nodup_map hids hd hd' hid
      rw [hτ.det hids hτ']

theorem ExpandsPart.det {σ τ τ' : Option Schema} (h : ExpandsPart defs σ τ)
    (hids : (defs.map (·.id)).Nodup) (h' : ExpandsPart defs σ τ') : τ = τ' := by
  match h with
  | .none =>
    cases h'
    rfl
  | .some h =>
    cases h' with
    | some h' => rw [h.det hids h']

theorem ExpandsProperties.det {σ τ τ' : List (String × Schema)} (h : ExpandsProperties defs σ τ)
    (hids : (defs.map (·.id)).Nodup) (h' : ExpandsProperties defs σ τ') : τ = τ' := by
  match h with
  | .nil =>
    cases h'
    rfl
  | .cons h hrest =>
    cases h' with
    | cons h' hrest' => rw [h.det hids h', hrest.det hids hrest']

end

theorem Expands.expandsTo (h : σ.Expands defs τ) (hids : (defs.map (·.id)).Nodup) :
    σ.ExpandsTo defs τ := by
  intro τ'
  constructor
  · intro h'
    exact h'.det hids h
  · rintro rfl
    exact h

/-! ## What the compiler adds -/

theorem Expands.withDescription (doc : String) (h : σ.Expands defs τ) :
    Expands defs { σ with description := doc } { τ with description := doc } := by
  cases h with
  | node hσ hi hp ha => exact .node hσ hi hp ha
  | reference hd hσ hτ =>
    have h' := Expands.reference (σ := { σ with description := doc }) hd hσ hτ
    exact h'

theorem Expands.withRequired (names : List String) (h : σ.Expands defs τ) :
    Expands defs { σ with required := names } { τ with required := names } := by
  cases h with
  | node hσ hi hp ha => exact .node hσ hi hp ha
  | reference hd hσ hτ =>
    have h' := Expands.reference (σ := { σ with required := names }) hd hσ hτ
    exact h'

/-- A schema without parts is its own expansion. -/
theorem Expands.leaf (hσ : σ.reference = none) (hi : σ.items = none) (hp : σ.properties = [])
    (ha : σ.additionalProperties = none) : σ.Expands defs σ := by
  obtain ⟨type, format, order, items, properties, additionalProperties, required, description,
    reference⟩ := σ
  subst hσ hi hp ha
  exact .node rfl .none .nil .none

/-- A reference that says nothing of its own expands as the definition does. -/
theorem Expands.referTo {d : Definition} (hd : d ∈ defs) (hτ : d.schema.Expands defs τ)
    (hdescription : τ.description = "") (hrequired : τ.required = []) :
    (referTo d.id).Expands defs τ := by
  have h := Expands.reference (σ := Schema.referTo d.id) hd rfl hτ
  obtain ⟨type, format, order, items, properties, additionalProperties, required, description,
    reference⟩ := τ
  subst hdescription hrequired
  exact h

theorem Expands.list (h : σ.Expands defs τ) : (list σ).Expands defs (list τ) :=
  .node rfl (.some h) .nil .none

theorem Expands.dictionary : dictionary.Expands defs dictionary :=
  .node rfl .none .nil (.some (.leaf rfl rfl rfl rfl))

theorem Expands.describe (doc : String) (h : σ.Expands defs τ) :
    (Catalog.describe doc σ).Expands defs (Catalog.describe doc τ) := by
  unfold Catalog.describe
  split
  · exact h
  · exact h.withDescription doc

theorem Expands.require (name : String) (tag : Tag) (h : σ.Expands defs τ) :
    (Catalog.require name tag σ).Expands defs (Catalog.require name tag τ) := by
  unfold Catalog.require
  split
  · exact h.withRequired [name]
  · exact h

theorem ExpandsProperties.put (name : String) {rest rest' : List (String × Schema)}
    (h : σ.Expands defs τ) (hrest : ExpandsProperties defs rest rest') :
    ExpandsProperties defs (putByKey (·.1) (name, σ) rest) (putByKey (·.1) (name, τ) rest') := by
  induction rest generalizing rest' with
  | nil =>
    cases hrest
    exact .cons h .nil
  | cons first rest ih =>
    cases hrest with
    | @cons other _ _ _ _ h' hrest =>
      by_cases hname : other = name
      · simp only [putByKey, hname, if_true]
        exact .cons h hrest
      · simp only [putByKey, hname, if_false]
        exact .cons h' (ih hrest)

theorem Expands.addProperty (name : String) {property property' : Schema}
    (hσ : σ.reference = none) (h : σ.Expands defs τ) (hp : property.Expands defs property') :
    (Catalog.addProperty σ name property).Expands defs (Catalog.addProperty τ name property') := by
  cases h with
  | node _ hi hps ha => exact .node hσ hi (.put name hp hps) ha
  | reference _ href _ => simp [hσ] at href

end Expands

end Schema

end ApiDecl
