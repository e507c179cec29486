import ApiDecl.Proofs.Sealing
import Mathlib.Data.Set.Insert

/-!
# Proofs: sealing as a walk along embeddings

Which structs sealing enters, and which embeddings it drops, depends on the embedding graph alone.
`Sealing.Walk` is that walk on names: an embedding of a struct that is being merged is dropped, a
sealed or unknown struct is skipped, and every other struct is entered. Two walks to the same structs,
one of which finds more structs sealed, go in step outside of these (`Walk.agree`).
-/

namespace ApiDecl

open Relation

namespace Sealing

/-- While the structs of `path` are being merged, `owner` last, the walk to the listed structs goes
from the sealed structs `V` to `V'` and drops the edges `E`. -/
inductive Walk (raw : Catalog) : List String → String → List String → Set String → Set String →
    List (String × String) → Prop where
  /-- There is nothing to walk to. -/
  | done (path : List String) (owner : String) (V : Set String) : Walk raw path owner [] V V []
  /-- The embedding leads back to the path. -/
  | back {path : List String} {owner T : String} {rest : List String} {V V' : Set String}
      {E : List (String × String)} : T ∈ path → Walk raw path owner rest V V' E →
      Walk raw path owner (T :: rest) V V' ((owner, T) :: E)
  /-- The struct is sealed or unknown. -/
  | skip {path : List String} {owner T : String} {rest : List String} {V V' : Set String}
      {E : List (String × String)} : T ∉ path → (T ∈ raw.names → T ∈ V) →
      Walk raw path owner rest V V' E → Walk raw path owner (T :: rest) V V' E
  /-- The struct is merged, and sealed after the structs that it embeds. -/
  | enter {path : List String} {owner T : String} {rest : List String} {V V₁ V' : Set String}
      {E₁ E₂ : List (String × String)} {s : StructDescriptor} : T ∉ path → T ∉ V →
      raw.find? T = some s → Walk raw (path ++ [T]) T s.targets V V₁ E₁ →
      Walk raw path owner rest (insert T V₁) V' E₂ →
      Walk raw path owner (T :: rest) V V' (E₁ ++ E₂)

namespace Walk

variable {raw : Catalog} {path todo : List String} {owner : String} {V V' : Set String}
  {E : List (String × String)}

theorem append {t₁ t₂ : List String} {V₁ V₂ : Set String} {E₁ E₂ : List (String × String)}
    (h₁ : Walk raw path owner t₁ V V₁ E₁) (h₂ : Walk raw path owner t₂ V₁ V₂ E₂) :
    Walk raw path owner (t₁ ++ t₂) V V₂ (E₁ ++ E₂) := by
  induction h₁ with
  | done => exact h₂
  | back hT _ ih => exact .back hT (ih h₂)
  | skip hT hV _ ih => exact .skip hT hV (ih h₂)
  | enter hT hV hs hbody _ _ ih =>
    rw [List.append_assoc]
    exact .enter hT hV hs hbody (ih h₂)

theorem split {t₁ t₂ : List String} (h : Walk raw path owner (t₁ ++ t₂) V V' E) :
    ∃ V₁ E₁ E₂, Walk raw path owner t₁ V V₁ E₁ ∧ Walk raw path owner t₂ V₁ V' E₂ ∧
      E = E₁ ++ E₂ := by
  induction t₁ generalizing V E with
  | nil => exact ⟨V, [], E, .done path owner V, h, rfl⟩
  | cons T t₁ ih =>
    cases h with
    | back hT h =>
      obtain ⟨V₁, E₁, E₂, h₁, h₂, rfl⟩ := ih h
      exact ⟨V₁, _, E₂, .back hT h₁, h₂, rfl⟩
    | skip hT hV h =>
      obtain ⟨V₁, E₁, E₂, h₁, h₂, rfl⟩ := ih h
      exact ⟨V₁, E₁, E₂, .skip hT hV h₁, h₂, rfl⟩
    | enter hT hV hs hbody h =>
      obtain ⟨V₁, E₁, E₂, h₁, h₂, rfl⟩ := ih h
      exact ⟨V₁, _, E₂, .enter hT hV hs hbody h₁, h₂, (List.append_assoc _ _ _).symm⟩

/-- What is sealed stays sealed. -/
theorem subset (h : Walk raw path owner todo V V' E) : V ⊆ V' := by
  induction h with
  | done => exact subset_rfl
  | back _ _ ih => exact ih
  | skip _ _ _ ih => exact ih
  | enter _ _ _ _ _ ihbody ih => exact (ihbody.trans (Set.subset_insert _ _)).trans ih

/-- Known targets of the sealed structs are sealed or on the path. -/
def Closed (raw : Catalog) (path : List String) (V : Set String) : Prop :=
  ∀ S ∈ V, ∀ T, raw.Embeds S T → T ∈ raw.names → T ∈ V ∨ T ∈ path

/-- The walk stays in every closed set of structs that it starts in. -/
theorem within {X : Set String} (h : Walk raw path owner todo V V' E) (hX : Closed raw [] X)
    (htodo : ∀ T ∈ todo, T ∈ raw.names → T ∈ X) : ∀ n ∈ V', n ∉ V → n ∈ X := by
  induction h with
  | done => exact fun n hn hnot => absurd hn hnot
  | back _ _ ih => exact ih fun T hT => htodo T (List.mem_cons_of_mem _ hT)
  | skip _ _ _ ih => exact ih fun T hT => htodo T (List.mem_cons_of_mem _ hT)
  | @enter _ _ T _ _ V₁ _ _ _ s _ _ hs _ _ ihbody ih =>
    intro n hn hnot
    have hTX : T ∈ X := htodo T List.mem_cons_self (Catalog.mem_names_of_find? hs)
    have hbody := ihbody fun U hU hraw =>
      (hX T hTX U ⟨s, hs, hU⟩ hraw).resolve_right List.not_mem_nil
    have hrest := ih fun U hU => htodo U (List.mem_cons_of_mem _ hU)
    by_cases hn₁ : n ∈ insert T V₁
    · rcases Set.mem_insert_iff.1 hn₁ with rfl | hn₁
      · exact hTX
      · exact hbody n hn₁ hnot
    · exact hrest n hn hn₁

/-- Edges are dropped from the owner to the path, and at the structs that the walk seals. -/
theorem dropped (h : Walk raw path owner todo V V' E) :
    ∀ S T, (S, T) ∈ E → (S = owner ∧ T ∈ path) ∨ (S ∈ V' ∧ S ∉ V) := by
  induction h with
  | done => simp
  | back hT _ ih =>
    intro S U hSU
    rcases List.mem_cons.1 hSU with heq | hSU
    · obtain ⟨rfl, rfl⟩ := Prod.mk.inj heq
      exact .inl ⟨rfl, hT⟩
    · exact ih S U hSU
  | skip _ _ _ ih => exact ih
  | @enter _ _ T _ V V₁ V' _ _ s _ hT _ hbody hrest ihbody ih =>
    intro S U hSU
    have hsub : insert T V₁ ⊆ V' := hrest.subset
    rcases List.mem_append.1 hSU with hSU | hSU
    · rcases ihbody S U hSU with ⟨rfl, -⟩ | ⟨hS, hnot⟩
      · exact .inr ⟨hsub (Set.mem_insert S V₁), hT⟩
      · exact .inr ⟨hsub (Set.mem_insert_of_mem T hS), hnot⟩
    · refine (ih S U hSU).imp_right fun ⟨hS, hnot⟩ => ⟨hS, fun hV => hnot ?_⟩
      exact Set.mem_insert_of_mem T (hbody.subset hV)

/-- The walk keeps the sealed structs closed, and seals all known structs off the path that it is
to walk to. -/
theorem closed (h : Walk raw path owner todo V V' E) (hV : Closed raw path V) :
    Closed raw path V' ∧ ∀ T ∈ todo, T ∈ raw.names → T ∈ V' ∨ T ∈ path := by
  induction h with
  | done => exact ⟨hV, by simp⟩
  | back hT _ ih =>
    obtain ⟨hclosed, htodo⟩ := ih hV
    exact ⟨hclosed, List.forall_mem_cons.2 ⟨fun _ => .inr hT, htodo⟩⟩
  | skip hT hsealed hrest ih =>
    obtain ⟨hclosed, htodo⟩ := ih hV
    refine ⟨hclosed, List.forall_mem_cons.2 ⟨fun hraw => .inl ?_, htodo⟩⟩
    exact hrest.subset (hsealed hraw)
  | @enter path _ T _ _ V₁ _ _ _ s hT hnot hs _ hrest ihbody ih =>
    have hV₁ : Closed raw (path ++ [T]) V₁ ∧
        ∀ U ∈ s.targets, U ∈ raw.names → U ∈ V₁ ∨ U ∈ path ++ [T] :=
      ihbody fun S hS U hU hraw => (hV S hS U hU hraw).imp_right (List.mem_append_left _)
    -- a target on the longer path is on the shorter one, or it is the struct that is sealed now
    have hmove : ∀ U, U ∈ V₁ ∨ U ∈ path ++ [T] → U ∈ insert T V₁ ∨ U ∈ path := by
      intro U hU
      rcases hU with hU | hU
      · exact .inl (Set.mem_insert_of_mem T hU)
      · rcases List.mem_append.1 hU with hU | hU
        · exact .inr hU
        · exact .inl (Set.mem_insert_iff.2 (.inl (List.mem_singleton.1 hU)))
    have hins : Closed raw path (insert T V₁) := by
      intro S hS U hU hraw
      rcases Set.mem_insert_iff.1 hS with rfl | hS
      · obtain ⟨t, ht, hU⟩ := hU
        obtain rfl := Option.some.inj (hs.symm.trans ht)
        exact hmove U (hV₁.2 U hU hraw)
      · exact hmove U (hV₁.1 S hS U hU hraw)
    obtain ⟨hclosed, htodo⟩ := ih hins
    refine ⟨hclosed, List.forall_mem_cons.2 ⟨fun _ => .inl ?_, htodo⟩⟩
    exact hrest.subset (Set.mem_insert T V₁)

/-- From a closed set of sealed structs only sealed and unknown structs are reached. -/
theorem Closed.reaches (hV : Closed raw [] V) {S T : String} (hS : S ∈ V)
    (h : ReflTransGen raw.Embeds S T) (hT : T ∈ raw.names) : T ∈ V := by
  induction h with
  | refl => exact hS
  | tail _ hstep ih => exact (hV _ (ih hstep.mem_names) _ hstep hT).resolve_right List.not_mem_nil

/-- The walk from a struct of a closed set `Y` changes nothing outside of `Y`. -/
theorem inside {Y V₁ : Set String} {E₁ : List (String × String)} {T : String}
    {s : StructDescriptor} (h : Walk raw (path ++ [T]) T s.targets V V₁ E₁)
    (hs : raw.find? T = some s) (hY : Closed raw [] Y) (hTY : T ∈ Y) :
    (∀ n, n ∉ Y → (n ∈ insert T V₁ ↔ n ∈ V)) ∧ ∀ S U, S ∉ Y → (S, U) ∉ E₁ := by
  have hnew : ∀ n ∈ V₁, n ∉ V → n ∈ Y := h.within hY fun U hU hraw =>
    (hY T hTY U ⟨s, hs, hU⟩ hraw).resolve_right List.not_mem_nil
  refine ⟨fun n hn => ?_, fun S U hS hSU => ?_⟩
  · have hne : n ≠ T := fun heq => hn (heq ▸ hTY)
    rw [Set.mem_insert_iff, or_iff_right hne]
    exact ⟨fun hn₁ => by_contra fun hnV => hn (hnew n hn₁ hnV), fun hnV => h.subset hnV⟩
  · rcases h.dropped S U hSU with ⟨rfl, -⟩ | ⟨hSV, hnotV⟩
    · exact hS hTY
    · exact hS (hnew S hSV hnotV)

/-- Two walks to the same structs, of which the second finds all of `Y` sealed, agree outside of `Y`
if they did so at the start and `Y` leads to no other known structs. -/
theorem agree {Y V₁ V₂ V₁' V₂' : Set String} {E₁ E₂ : List (String × String)}
    (h₁ : Walk raw path owner todo V₁ V₁' E₁) (h₂ : Walk raw path owner todo V₂ V₂' E₂)
    (hY : Closed raw [] Y) (hYV₂ : Y ⊆ V₂) (hV : ∀ n, n ∉ Y → (n ∈ V₁ ↔ n ∈ V₂)) :
    (∀ n, n ∉ Y → (n ∈ V₁' ↔ n ∈ V₂')) ∧
      ∀ S T, S ∉ Y → ((S, T) ∈ E₁ ↔ (S, T) ∈ E₂) := by
  -- the second walk takes the step of the first, unless it skips a struct of `Y`
  induction h₁ generalizing V₂ V₂' E₂ with
  | done =>
    cases h₂
    exact ⟨hV, fun _ _ _ => Iff.rfl⟩
  | back hT _ ih =>
    cases h₂ with
    | back _ h₂ =>
      obtain ⟨hV', hE⟩ := ih h₂ hYV₂ hV
      exact ⟨hV', fun S U hS => by simp only [List.mem_cons, hE S U hS]⟩
    | skip hT' => exact absurd hT hT'
    | enter hT' => exact absurd hT hT'
  | @skip _ _ T _ _ _ _ hT hsealed _ ih =>
    cases h₂ with
    | back hT' => exact absurd hT' hT
    | skip _ _ h₂ => exact ih h₂ hYV₂ hV
    | enter _ hnot hs =>
      have hTY : T ∉ Y := fun h => hnot (hYV₂ h)
      exact absurd ((hV T hTY).1 (hsealed (Catalog.mem_names_of_find? hs))) hnot
  | @enter _ _ T _ V V₁ _ E₁ _ s hT hnot hs hbody _ ihbody ih =>
    cases h₂ with
    | back hT' => exact absurd hT' hT
    | skip _ hsealed h₂ =>
      have hTY : T ∈ Y := by
        by_contra hTY
        exact hnot ((hV T hTY).2 (hsealed (Catalog.mem_names_of_find? hs)))
      -- what only the first walk enters stays in `Y`
      obtain ⟨hsame, hE₁⟩ := hbody.inside hs hY hTY
      obtain ⟨hV', hE₂⟩ := ih h₂ hYV₂ fun n hn => (hsame n hn).trans (hV n hn)
      refine ⟨hV', fun S U hS => ?_⟩
      rw [List.mem_append, or_iff_right (hE₁ S U hS), hE₂ S U hS]
    | @enter _ _ _ _ _ W₁ _ _ _ t _ hnot₂ ht hbody₂ h₂ =>
      obtain rfl := Option.some.inj (hs.symm.trans ht)
      obtain ⟨hV₁, hE₁⟩ := ihbody hbody₂ hYV₂ hV
      have hins : ∀ n, n ∉ Y → (n ∈ insert T V₁ ↔ n ∈ insert T W₁) := fun n hn => by
        rw [Set.mem_insert_iff, Set.mem_insert_iff, hV₁ n hn]
      have hYW : Y ⊆ insert T W₁ := (hYV₂.trans hbody₂.subset).trans (Set.subset_insert _ _)
      obtain ⟨hV', hE₂⟩ := ih h₂ hYW hins
      refine ⟨hV', fun S U hS => ?_⟩
      rw [List.mem_append, List.mem_append, hE₁ S U hS, hE₂ S U hS]

/-- A struct that no struct embeds is no part of a walk to others. -/
theorem of_insert {N : StructDescriptor} (hN : ∀ S, ¬ raw.Embeds S N.name)
    (h : Walk (raw.insert N) path owner todo V V' E) (htodo : N.name ∉ todo) :
    Walk raw path owner todo V V' E := by
  have hfind : ∀ T, N.name ≠ T → (raw.insert N).find? T = raw.find? T := fun T hT => by
    rw [Catalog.find?_insert, if_neg hT]
  induction h with
  | done path owner V => exact .done path owner V
  | back hT _ ih => exact .back hT (ih fun hmem => htodo (List.mem_cons_of_mem _ hmem))
  | skip hT hsealed _ ih =>
    refine .skip hT (fun hraw => hsealed ?_) (ih fun hmem => htodo (List.mem_cons_of_mem _ hmem))
    exact Catalog.mem_names_insert.2 (.inr hraw)
  | @enter _ _ T _ _ _ _ _ _ s hT hnot hs _ _ ihbody ih =>
    have hne : N.name ≠ T := fun h => htodo (h ▸ List.mem_cons_self)
    have hs' : raw.find? T = some s := hfind T hne ▸ hs
    have hbody := ihbody fun hmem => hN T ⟨s, hs', hmem⟩
    exact .enter hT hnot hs' hbody (ih fun hmem => htodo (List.mem_cons_of_mem _ hmem))

end Walk

/-! ## Sealing walks -/

variable {α β γ : Type}

/-- While the structs of `path` are being merged, the computation walks to the listed structs. -/
def Walks (raw : Catalog) (path : List String) (owner : String) (todo : List String)
    (x : Sealing α) : Prop :=
  ∀ c, ∃ a c' events, x.Runs c a c' events ∧
    Walk raw path owner todo {n | n ∈ c.names} {n | n ∈ c'.names} (droppedEdges events)

namespace Walks

variable {raw : Catalog} {path : List String} {owner : String}

theorem pure (a : α) : Walks raw path owner [] (pure a) := fun c => ⟨a, c, [], .pure a c, .done _ _ _⟩

theorem map {t : List String} {x : Sealing α} (h : Walks raw path owner t x) (F : α → β) :
    Walks raw path owner t (do return F (← x)) := by
  intro c
  obtain ⟨a, c', e, hr, hw⟩ := h c
  have hr' : Sealing.Runs (do return F (← x)) c (F a) c' (e ++ []) := hr.bind (.pure _ _)
  exact ⟨F a, c', e, List.append_nil e ▸ hr', hw⟩

theorem map₂ {t₁ t₂ : List String} {x : Sealing α} {y : Sealing β} (hx : Walks raw path owner t₁ x)
    (hy : Walks raw path owner t₂ y) (F : α → β → γ) :
    Walks raw path owner (t₁ ++ t₂) (do let a ← x; let b ← y; return F a b) := by
  intro c
  obtain ⟨a, c₁, e₁, hr₁, hw₁⟩ := hx c
  obtain ⟨b, c₂, e₂, hr₂, hw₂⟩ := hy c₁
  have hr : Sealing.Runs (do let a ← x; let b ← y; return F a b) c (F a b) c₂
      (e₁ ++ (e₂ ++ [])) := hr₁.bind (hr₂.bind (.pure _ _))
  refine ⟨F a b, c₂, e₁ ++ e₂, ?_, ?_⟩
  · rwa [List.append_nil] at hr
  · rw [droppedEdges_append]
    exact hw₁.append hw₂

end Walks

section Graph

variable {raw : Catalog} {before : List String} {owner : String}

/-- Sealing a struct off the path skips or enters it. -/
theorem sealStruct_walks_of_body {path : List String} {name : String} (hname : name ∉ path)
    (owner : String)
    (hbody : ∀ s, raw.find? name = some s → ∀ c, ∃ a c' events,
      (sealBody raw (path ++ [name]) s).Runs c a c' events ∧ a.name = s.name ∧
      Walk raw (path ++ [name]) name s.targets {n | n ∈ c.names} {n | n ∈ c'.names}
        (droppedEdges events)) :
    Walks raw path owner [name] (sealStruct raw path name hname) := by
  intro c
  by_cases hc : name ∈ raw.names → name ∈ c.names
  · refine ⟨(), c, [], sealStruct_runs_skip hname hc, ?_⟩
    exact .skip hname hc (.done path owner _)
  · obtain ⟨hraw, hnot⟩ := Classical.not_imp.1 hc
    obtain ⟨s, hs⟩ := Catalog.mem_names_iff.1 hraw
    obtain ⟨a, c', e, hr, ha, hw⟩ := hbody s hs c
    refine ⟨(), c'.insert a, e, sealStruct_runs_enter hname hs hnot hr, ?_⟩
    have hins : {n | n ∈ (c'.insert a).names} = insert name {n | n ∈ c'.names} := by
      ext n
      rw [Set.mem_ofPred_eq, Catalog.mem_names_insert, ha, Catalog.name_of_find? hs]
      rfl
    have hwalk := Walk.enter hname hnot hs hw (.done path owner _)
    rwa [← hins, List.append_nil] at hwalk

/-- Sealing the target of an embedding drops the embedding, or skips or enters the target. -/
theorem sealTarget_walks (host : String) {target : String}
    (hstruct : ∀ h : target ∉ before ++ [owner],
      Walks raw (before ++ [owner]) owner [target] (sealStruct raw (before ++ [owner]) target h)) :
    Walks raw (before ++ [owner]) owner [target]
      (sealTarget raw (before ++ [owner]) host target) := by
  intro c
  by_cases h : target ∈ before ++ [owner]
  · obtain ⟨e, hr, hE⟩ := sealTarget_runs_back raw host h c
    exact ⟨[], c, e, hr, hE ▸ .back h (.done _ owner _)⟩
  · obtain ⟨_, c', e, hr, hw⟩ := hstruct h c
    obtain ⟨e', hr', hE⟩ := sealTarget_runs_visit host h hr
    exact ⟨_, c', e', hr', hE ▸ hw⟩

-- the recursion is that of sealing: a step to another struct leaves fewer structs off the path, and
-- all other steps go to a part of the struct
mutual

theorem sealStruct_walks (raw : Catalog) (path : List String) (owner name : String)
    (hname : name ∉ path) : Walks raw path owner [name] (sealStruct raw path name hname) := by
  refine sealStruct_walks_of_body hname owner fun s hs => ?_
  have := Catalog.remaining_append_lt (Catalog.mem_names_of_find? hs) hname
  exact sealBody_walks raw path name s
termination_by (raw.remaining path, 0)

theorem sealBody_walks (raw : Catalog) (before : List String) (owner : String)
    (s : StructDescriptor) (c : Catalog) : ∃ a c' events,
      (sealBody raw (before ++ [owner]) s).Runs c a c' events ∧ a.name = s.name ∧
      Walk raw (before ++ [owner]) owner s.targets {n | n ∈ c.names} {n | n ∈ c'.names}
        (droppedEdges events) := by
  match s with
  | ⟨name, fields, isDefinition, embeds⟩ =>
    obtain ⟨inherited, c₁, e₁, hr₁, hw₁⟩ := sealEmbeds_walks raw before owner name embeds c
    obtain ⟨own, c₂, e₂, hr₂, hw₂⟩ := sealFields_walks raw before owner fields c₁
    rw [sealBody]
    refine ⟨_, c₂, _, hr₁.bind (hr₂.bind (.pure _ c₂)), rfl, ?_⟩
    rw [List.append_nil, droppedEdges_append]
    exact hw₁.append hw₂
termination_by (raw.remaining (before ++ [owner]), sizeOf s)

theorem sealEmbeds_walks (raw : Catalog) (before : List String) (owner host : String)
    (embeds : List String) :
    Walks raw (before ++ [owner]) owner embeds
      (sealEmbeds raw (before ++ [owner]) host embeds) := by
  match embeds with
  | [] =>
    rw [sealEmbeds]
    exact .pure []
  | target :: rest =>
    have htarget := sealTarget_walks host fun h =>
      sealStruct_walks raw (before ++ [owner]) owner target h
    rw [sealEmbeds_cons]
    exact htarget.map₂ (sealEmbeds_walks raw before owner host rest) fun fields others =>
      fields ++ others
termination_by (raw.remaining (before ++ [owner]), sizeOf embeds)

theorem sealFields_walks (raw : Catalog) (before : List String) (owner : String)
    (fields : List Field) :
    Walks raw (before ++ [owner]) owner (fieldTargets fields)
      (sealFields raw (before ++ [owner]) fields) := by
  match fields with
  | [] =>
    rw [sealFields]
    exact .pure []
  | ⟨name, type, tag, doc, exported⟩ :: rest =>
    rw [sealFields]
    exact (sealType_walks raw before owner type).map₂ (sealFields_walks raw before owner rest)
      fun type rest => ⟨name, type, tag, doc, exported⟩ :: rest
termination_by (raw.remaining (before ++ [owner]), sizeOf fields)

theorem sealType_walks (raw : Catalog) (before : List String) (owner : String)
    (type : FieldType) :
    Walks raw (before ++ [owner]) owner type.targets
      (sealType raw (before ++ [owner]) type) := by
  match type with
  | .struct inner =>
    have hinner : Walks raw (before ++ [owner]) owner inner.targets
        (sealBody raw (before ++ [owner]) inner) := by
      intro c
      obtain ⟨a, c', e, hr, -, hw⟩ := sealBody_walks raw before owner inner c
      exact ⟨a, c', e, hr, hw⟩
    rw [sealType]
    exact hinner.map FieldType.struct
  | .array (some element) =>
    rw [sealType]
    exact (sealType_walks raw before owner element).map fun t => FieldType.array (some t)
  | .map (some value) =>
    rw [sealType]
    exact (sealType_walks raw before owner value).map fun t => FieldType.map (some t)
  | .array none =>
    rw [sealType]
    exact .pure (FieldType.array none)
  | .map none =>
    rw [sealType]
    exact .pure (FieldType.map none)
  | .scalar s =>
    rw [sealType]
    exact .pure (FieldType.scalar s)
  | .named name =>
    rw [sealType]
    exact .pure (FieldType.named name)
termination_by (raw.remaining (before ++ [owner]), sizeOf type)

end

end Graph

/-- Sealing one struct after the other walks to them all. -/
theorem forM_sealStruct_walks (raw : Catalog) (names : List String) :
    Walks raw [] "" names
      (names.forM fun name => sealStruct raw [] name List.not_mem_nil : Sealing Unit) := by
  induction names with
  | nil => exact .pure ()
  | cons name rest ih =>
    intro c
    obtain ⟨_, c₁, e₁, hr₁, hw₁⟩ := sealStruct_walks raw [] "" name List.not_mem_nil c
    obtain ⟨_, c₂, e₂, hr₂, hw₂⟩ := ih c₁
    refine ⟨(), c₂, e₁ ++ e₂, hr₁.bind hr₂, ?_⟩
    rw [droppedEdges_append]
    exact hw₁.append hw₂

end Sealing

/-- A run of sealing walks to the structs of the table in the order of their names. -/
theorem Catalog.seal_walks {raw c : Catalog} {events : List Event}
    (hrun : ∀ log, Id.run (raw.seal.run log) = (c, log ++ events)) :
    Sealing.Walk raw [] "" raw.names ∅ {n | n ∈ c.names} (droppedEdges events) := by
  obtain ⟨_, c', e, hr, hw⟩ := Sealing.forM_sealStruct_walks raw raw.names .empty
  obtain ⟨events', hrun', hE⟩ := seal_runs hr
  obtain ⟨rfl, he⟩ := Prod.mk.inj ((hrun #[]).symm.trans (hrun' #[]))
  obtain rfl : events = events' := by simpa using he
  have hempty : {n | n ∈ Catalog.empty.names} = (∅ : Set String) := by
    ext n
    simp [Catalog.names, Catalog.empty]
  rwa [hE, ← hempty]

end ApiDecl
