import ApiDecl.Proofs.Denoting
import ApiDecl.Proofs.Shadowing

/-!
# Proofs: hosts of embedded structs

A struct embeds others itself, or an inline struct in the types of its fields does
(`FieldType.Hosts`). Wherever the host is, sealing gives it the missing fields of each struct that
it embeds and that does not lead back; and no struct of the table is reported as unknown.
-/

namespace ApiDecl

open Relation Syntax

variable {α β : Type}

/-! ## Declared bodies -/

section Body

variable (file owner : String)

theorem fieldOutcomes_value (fields : List FieldDecl) :
    (fieldOutcomes file owner fields).value =
      fields.map fun d => (fieldOutcome file owner d).value := by
  induction fields with
  | nil =>
    rw [fieldOutcomes]
    rfl
  | cons d rest ih =>
    have hrest : ∀ first, (do
        return first :: (← fieldOutcomes file owner rest) : Traced (List FieldOutcome)).Steady :=
      fun first => (fieldOutcomes_steady file owner rest).bind fun _ => Traced.steady_pure _
    rw [fieldOutcomes, Traced.value_bind hrest, Traced.value_bind fun _ => Traced.steady_pure _, ih]
    rfl

/-- The struct of a body is made of what its fields contribute, one by one. -/
theorem collectFields_value (fields : List FieldDecl) :
    (collectFields file owner fields).value =
      .ofOutcomes owner (fields.map fun d => (fieldOutcome file owner d).value) := by
  rw [collectFields, Traced.value_bind fun _ => Traced.steady_pure _, fieldOutcomes_value]
  rfl

/-- A field that is contributed has the declared name. -/
theorem name_of_fieldOutcome {d : FieldDecl} {f : Field}
    (h : (fieldOutcome file owner d).value = .field f) : f.name = plainName d.name := by
  let named (o : FieldOutcome) : Prop := ∀ f, o = .field f → f.name = plainName d.name
  have hskipped : Traced.Yields named (pure .skipped) := by
    refine .pure fun f h => ?_
    cases h
  have hyields : Traced.Yields named (fieldOutcome file owner d) := by
    obtain ⟨attributes, name, isPublic, type⟩ := d
    rw [fieldOutcome]
    split
    · unfold embedOutcome
      refine (Traced.Yields.anything _).bind fun found _ => ?_
      split
      · refine .pure fun f h => ?_
        cases h
      · exact (Traced.Yields.note _).bind fun _ _ => hskipped
      · exact hskipped
    · unfold taggedOutcome
      split
      · exact (Traced.Yields.note _).bind fun _ _ => hskipped
      · exact hskipped
      · split
        · exact hskipped
        · refine (Traced.Yields.anything _).bind fun found _ => ?_
          cases found with
          | none => exact hskipped
          | some u =>
            refine .pure fun f h => ?_
            cases h
            rfl
  exact hyields #[] f h

end Body

namespace StructDescriptor

/-- The embedded structs of a body are those that its fields contribute. -/
theorem mem_embeds_ofOutcomes {name target : String} {outcomes : List FieldOutcome} :
    target ∈ (ofOutcomes name outcomes).embeds ↔ .embed target ∈ outcomes := by
  have hfold : ∀ s : StructDescriptor, target ∈ (outcomes.foldl .contribute s).embeds ↔
      target ∈ s.embeds ∨ .embed target ∈ outcomes := by
    induction outcomes with
    | nil => simp
    | cons o rest ih =>
      intro s
      rw [List.foldl_cons, ih, List.mem_cons]
      cases o with
      | skipped => simp [contribute]
      | embed other => simp [contribute, or_assoc]
      | field f => simp [contribute]
  simpa [ofOutcomes, blank] using hfold (.blank name)

/-- A field that is contributed is one of the fields, if no other one has its name. -/
theorem mem_fields_ofOutcomes {name : String} {outcomes : List FieldOutcome} {f : Field}
    (hf : .field f ∈ outcomes) (hunique : ∀ g, .field g ∈ outcomes → g.name = f.name → g = f) :
    f ∈ (ofOutcomes name outcomes).fields := by
  have hfold : ∀ s : StructDescriptor, f ∈ s.fields ∨ .field f ∈ outcomes →
      f ∈ (outcomes.foldl .contribute s).fields := by
    clear hf
    induction outcomes with
    | nil => simp
    | cons o rest ih =>
      have ih := ih fun g hg => hunique g (List.mem_cons_of_mem _ hg)
      intro s hs
      rw [List.foldl_cons]
      refine ih _ ?_
      cases o with
      | skipped => simpa [contribute] using hs
      | embed other => simpa [contribute] using hs
      | field g =>
        by_cases hname : g.name = f.name
        · obtain rfl := hunique g List.mem_cons_self hname
          exact .inl (mem_putByKey_self g s.fields)
        · rcases hs with hs | hs
          · exact .inl (mem_putByKey_of_ne hs (Ne.symm hname))
          · rcases List.mem_cons.1 hs with h | hs
            · cases h
              exact absurd rfl hname
            · exact .inr hs
  exact hfold (.blank name) (.inr hf)

end StructDescriptor

/-! ## Places of hosts -/

/-- The type has the struct written in place: as it is, as an element or value, or in the type of a
field of such a struct. -/
inductive FieldType.Hosts : FieldType → StructDescriptor → Prop
  | struct (s : StructDescriptor) : Hosts (.struct s) s
  | element {t : FieldType} {host : StructDescriptor} (h : Hosts t host) :
      Hosts (.array (some t)) host
  | value {t : FieldType} {host : StructDescriptor} (h : Hosts t host) : Hosts (.map (some t)) host
  | field {s : StructDescriptor} {f : Field} {host : StructDescriptor} (hf : f ∈ s.fields)
      (h : Hosts f.type host) : Hosts (.struct s) host

theorem mem_fieldTargets {fields : List Field} {T : String} :
    T ∈ fieldTargets fields ↔ ∃ f ∈ fields, T ∈ f.type.targets := by
  induction fields with
  | nil => simp [fieldTargets]
  | cons f rest ih =>
    obtain ⟨name, type, tag, doc, exported⟩ := f
    rw [fieldTargets, List.mem_append, ih]
    simp

theorem StructDescriptor.mem_targets {s : StructDescriptor} {T : String} :
    T ∈ s.targets ↔ T ∈ s.embeds ∨ ∃ f ∈ s.fields, T ∈ f.type.targets := by
  obtain ⟨name, fields, isDefinition, embeds⟩ := s
  rw [targets, List.mem_append, mem_fieldTargets]

theorem StructDescriptor.mem_fields_resolve (c : Catalog) (kept : String → Bool)
    {s : StructDescriptor} {f : Field} (hf : f ∈ s.fields) :
    f.resolve c kept ∈ (s.resolve c kept).fields := by
  obtain ⟨inherited, hmerged⟩ := s.mergedFields_resolve c kept
  rw [hmerged.eq_append]
  exact List.mem_append_left _ (List.mem_map.2 ⟨f, hf, rfl⟩)

namespace FieldType.Hosts

variable {t : FieldType} {host : StructDescriptor}

/-- What a host embeds is a target of the type that it is in. -/
theorem mem_targets (h : t.Hosts host) {T : String} (hT : T ∈ host.embeds) : T ∈ t.targets := by
  induction h with
  | struct s => exact StructDescriptor.mem_targets.2 (.inl hT)
  | element _ ih => exact ih hT
  | value _ ih => exact ih hT
  | field hf _ ih => exact StructDescriptor.mem_targets.2 (.inr ⟨_, hf, ih hT⟩)

/-- Resolving a type resolves the hosts in it. -/
theorem resolve (h : t.Hosts host) (c : Catalog) (kept : String → Bool) :
    (t.resolve c kept).Hosts (host.resolve c kept) := by
  induction h with
  | struct s => exact .struct _
  | element _ ih => exact .element ih
  | value _ ih => exact .value ih
  | field hf _ ih => exact .field (StructDescriptor.mem_fields_resolve c kept hf) ih

end FieldType.Hosts

/-- A host adds what is missing of a kept struct to its own fields and to those that it has from the
structs before. -/
theorem StructDescriptor.fields_resolve_embeds (c : Catalog) {kept : String → Bool}
    {host : StructDescriptor} {before behind : List String} {T : String}
    (h : host.embeds = before ++ T :: behind) (hT : kept T = true) : ∃ others,
      (host.resolve c kept).fields =
        addMissing ({ host with embeds := before }.resolve c kept).fields (c.fieldsOf T) ++
          others := by
  obtain ⟨name, fields, isDefinition, embeds⟩ := host
  obtain rfl : embeds = before ++ T :: behind := h
  let present := ((before.filter kept).map c.fieldsOf).foldl addMissing (resolveFields c kept fields)
  obtain ⟨others, hothers, -⟩ := foldl_addMissing_eq (addMissing present (c.fieldsOf T))
    ((behind.filter kept).map c.fieldsOf)
  refine ⟨others, ?_⟩
  rw [resolve, resolve, List.filter_append, List.filter_cons_of_pos hT, List.map_append,
    List.map_cons, List.foldl_append, List.foldl_cons, hothers]

/-! ## Sealed hosts -/

namespace Sealing

variable {raw c : Catalog} {D : List (String × String)}

/-- In a sealed table, every struct is resolved over the edges that are kept from it. -/
theorem Inv.find?_resolve (hI : Inv raw [] c D) (hwf : raw.WellFormed)
    (hnames : c.names = raw.names) {S : StructDescriptor} (hS : S ∈ raw.structs) :
    c.find? S.name = some (S.resolve c (keptFrom D S.name)) := by
  have hfind := hwf.ordered.find? hS
  obtain ⟨S', hS'⟩ := Catalog.mem_names_iff.1 (hnames ▸ Catalog.mem_names_of_find? hfind)
  obtain ⟨S₀, hS₀, rfl⟩ := hI.body S.name S' hS'
  obtain rfl := Option.some.inj (hfind.symm.trans hS₀)
  exact hS'

/-- An edge is kept if its target does not lead back. -/
theorem Inv.keptFrom_of_not_reaches (hI : Inv raw [] c D) {S T : String}
    (h : ¬ ReflTransGen raw.Embeds T S) : keptFrom D S T = true :=
  decide_eq_true fun hdropped => h (hI.cycle S T hdropped).2

/-! ## Reports -/

/-- If an event says that an embedded struct is unknown, it is not in the table. -/
def Truthful (raw : Catalog) (e : Event) : Prop :=
  ∀ target owner, e = .embedUnknown target owner → target ∉ raw.names

/-- Started with the sealed structs `c`, the computation reports nothing but truthful events; what
it gives, and the sealed structs that it leaves, have a property. -/
def Reports (raw c : Catalog) (x : Sealing α) (post : α → Catalog → Prop) : Prop :=
  ∀ log, (∀ e ∈ log, Truthful raw e) → ∃ a c' log',
    Id.run ((x.run c).run log) = ((a, c'), log') ∧ post a c' ∧ ∀ e ∈ log', Truthful raw e

namespace Reports

variable {post : α → Catalog → Prop} {post' : β → Catalog → Prop}

theorem pure {a : α} (h : post a c) : Reports raw c (pure a) post :=
  fun log hlog => ⟨a, c, log, rfl, h, hlog⟩

theorem get : Reports raw c get fun a c' => a = c ∧ c' = c :=
  fun log hlog => ⟨c, c, log, rfl, ⟨rfl, rfl⟩, hlog⟩

theorem modify {f : Catalog → Catalog} {post : Unit → Catalog → Prop} (h : post () (f c)) :
    Reports raw c (modify f) post :=
  fun log hlog => ⟨(), f c, log, rfl, h, hlog⟩

theorem note {e : Event} (h : Truthful raw e) :
    Reports raw c (liftM (note e)) fun (_ : Unit) _ => True := by
  intro log hlog
  refine ⟨(), c, log.push e, rfl, trivial, fun e' he' => ?_⟩
  rcases Array.mem_push.1 he' with he' | rfl
  · exact hlog e' he'
  · exact h

theorem bind {x : Sealing α} {f : α → Sealing β} (hx : Reports raw c x post)
    (hf : ∀ a c', post a c' → Reports raw c' (f a) post') : Reports raw c (x >>= f) post' := by
  intro log hlog
  obtain ⟨a, c₁, log₁, hrun, ha, hlog₁⟩ := hx log hlog
  obtain ⟨b, c₂, log₂, hrun', hpost, hlog₂⟩ := hf a c₁ ha log₁ hlog₁
  refine ⟨b, c₂, log₂, ?_, hpost, hlog₂⟩
  rw [StateT.run_bind, StateT.run_bind, Id.run_bind, hrun]
  exact hrun'

end Reports

/-- The computation reports nothing but truthful events, whatever is sealed. -/
def Honest (raw : Catalog) (x : Sealing α) : Prop := ∀ c, Reports raw c x fun _ _ => True

namespace Honest

theorem pure (a : α) : Honest raw (pure a) := fun _ => .pure trivial

theorem bind {x : Sealing α} {f : α → Sealing β} (hx : Honest raw x) (hf : ∀ a, Honest raw (f a)) :
    Honest raw (x >>= f) := fun c => (hx c).bind fun a c' _ => hf a c'

end Honest

mutual

/-- A struct of the table is sealed when its sealing ends. -/
theorem sealStruct_reports (raw : Catalog) (path : List String) (name : String)
    (fresh : name ∉ path) (c : Catalog) :
    Reports raw c (sealStruct raw path name fresh)
      fun _ c' => name ∈ raw.names → name ∈ c'.names := by
  rw [sealStruct]
  refine Reports.get.bind fun d c' ⟨hd, hc'⟩ => ?_
  subst hd hc'
  split
  · next hsealed =>
    obtain ⟨s, hs⟩ := Option.isSome_iff_exists.1 hsealed
    exact .pure fun _ => Catalog.mem_names_of_find? hs
  · split
    · next hunknown => exact .pure fun hname => absurd hname (Catalog.find?_eq_none_iff.1 hunknown)
    · next s hs =>
      have := Catalog.remaining_append_lt (Catalog.mem_names_of_find? hs) fresh
      have hname := Catalog.name_of_find? hs
      refine (sealBody_reports raw (path ++ [name]) s _).bind fun v c₁ hv => ?_
      exact .modify fun _ => Catalog.mem_names_insert.2 (.inl (hv.trans hname).symm)
termination_by (raw.remaining path, 0)

theorem sealBody_reports (raw : Catalog) (path : List String) (s : StructDescriptor) (c : Catalog) :
    Reports raw c (sealBody raw path s) fun v _ => v.name = s.name := by
  match s with
  | ⟨name, fields, isDefinition, embeds⟩ =>
    rw [sealBody]
    refine (sealEmbeds_honest raw path name embeds c).bind fun inherited c₁ _ => ?_
    refine (sealFields_honest raw path fields c₁).bind fun own c₂ _ => ?_
    exact .pure rfl
termination_by (raw.remaining path, sizeOf s)

/-- An embedded struct is reported as unknown only if it is not in the table: else it is sealed by
then. -/
theorem sealEmbeds_honest (raw : Catalog) (path : List String) (owner : String)
    (embeds : List String) : Honest raw (sealEmbeds raw path owner embeds) := by
  match embeds with
  | [] =>
    rw [sealEmbeds]
    exact .pure []
  | target :: rest =>
    have hrest := sealEmbeds_honest raw path owner rest
    have htarget : Honest raw (sealTarget raw path owner target) := by
      intro c
      rw [sealTarget]
      split
      · have hcycle : Truthful raw (.embeddingCycle path target) := by
          intro _ _ h
          cases h
        exact (Reports.note hcycle).bind fun _ _ _ => .pure trivial
      · next fresh =>
        refine (sealStruct_reports raw path target fresh c).bind fun _ c₁ hsealed => ?_
        refine Reports.get.bind fun d c' ⟨hd, hc'⟩ => ?_
        subst hd hc'
        split
        · exact .pure trivial
        · next hunknown =>
          have htruthful : Truthful raw (.embedUnknown target owner) := by
            intro _ _ h hname
            cases h
            exact Catalog.find?_eq_none_iff.1 hunknown (hsealed hname)
          exact (Reports.note htruthful).bind fun _ _ _ => .pure trivial
    rw [sealEmbeds_cons]
    exact htarget.bind fun fields => hrest.bind fun others => .pure _
termination_by (raw.remaining path, sizeOf embeds)

theorem sealFields_honest (raw : Catalog) (path : List String) (fields : List Field) :
    Honest raw (sealFields raw path fields) := by
  match fields with
  | [] =>
    rw [sealFields]
    exact .pure []
  | ⟨name, type, tag, doc, exported⟩ :: rest =>
    have htype := sealType_honest raw path type
    have hrest := sealFields_honest raw path rest
    rw [sealFields]
    exact htype.bind fun type => hrest.bind fun others => .pure _
termination_by (raw.remaining path, sizeOf fields)

theorem sealType_honest (raw : Catalog) (path : List String) (type : FieldType) :
    Honest raw (sealType raw path type) := by
  match type with
  | .struct inner =>
    rw [sealType]
    exact fun c => (sealBody_reports raw path inner c).bind fun _ _ _ => .pure trivial
  | .array (some element) =>
    rw [sealType]
    exact (sealType_honest raw path element).bind fun _ => .pure _
  | .map (some value) =>
    rw [sealType]
    exact (sealType_honest raw path value).bind fun _ => .pure _
  | .array none =>
    rw [sealType]
    exact .pure _
  | .map none =>
    rw [sealType]
    exact .pure _
  | .scalar s =>
    rw [sealType]
    exact .pure _
  | .named name =>
    rw [sealType]
    exact .pure _
termination_by (raw.remaining path, sizeOf type)

end

end Sealing

/-- Sealing a table reports no struct of it as unknown. -/
theorem Catalog.seal_truthful (raw : Catalog) {log : Array Event}
    (hlog : ∀ e ∈ log, Sealing.Truthful raw e) :
    ∀ e ∈ (Id.run (raw.seal.run log)).2, Sealing.Truthful raw e := by
  have hnames : ∀ names : List String, Sealing.Honest raw
      (names.forM fun name => sealStruct raw [] name List.not_mem_nil) := by
    intro names
    induction names with
    | nil => exact .pure ()
    | cons name rest ih =>
      intro c
      have hname := Sealing.sealStruct_reports raw [] name List.not_mem_nil c
      exact hname.bind fun _ c' _ => ih c'
  obtain ⟨_, c, log', hrun, -, hlog'⟩ := hnames raw.names .empty log hlog
  have hcount : Sealing.Truthful raw (.catalogSealed c.size) := by
    intro _ _ h
    cases h
  have hlast : (Id.run (raw.seal.run log)).2 = log'.push (.catalogSealed c.size) := by
    rw [Catalog.seal, StateT.run_bind, Id.run_bind, hrun]
    rfl
  intro e he
  rcases Array.mem_push.1 (hlast ▸ he) with he | rfl
  · exact hlog' e he
  · exact hcount

end ApiDecl
