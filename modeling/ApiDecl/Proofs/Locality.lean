import ApiDecl.Proofs.Collecting
import ApiDecl.Proofs.Walking
import Mathlib

/-!
# Proofs: sealing with one more struct

A new struct that no other struct embeds is walked to in its place among the names, and leaves more
structs sealed for the walks behind it. What it is the first to lead to may be entered elsewhere than
without it, which matters on a cycle only: there the entry decides which embedding is dropped.
-/

namespace ApiDecl

open Relation
open Sealing (keptFrom Inv Walk)

namespace Catalog

/-- The new struct `N` leads to `T`, and no struct whose name comes before its own does. -/
def FirstToReach (raw : Catalog) (N : StructDescriptor) (T : String) : Prop :=
  TransGen (raw.insert N).Embeds N.name T ∧
    ∀ M ∈ raw.names, M < N.name → ¬ ReflTransGen raw.Embeds M T

section Insert

variable {raw : Catalog} {N : StructDescriptor}

theorem find?_insert_of_ne {S : String} (hS : S ≠ N.name) :
    (raw.insert N).find? S = raw.find? S := by
  rw [find?_insert, if_neg hS.symm]

theorem embeds_insert_iff {S T : String} (hS : S ≠ N.name) :
    (raw.insert N).Embeds S T ↔ raw.Embeds S T := by
  rw [Embeds, Embeds, find?_insert_of_ne hS]

/-- The new name has a place between the others, behind all smaller ones. -/
theorem names_insert (hordered : raw.Ordered) (hnew : N.name ∉ raw.names) :
    ∃ l₁ l₂, raw.names = l₁ ++ l₂ ∧ (raw.insert N).names = l₁ ++ N.name :: l₂ ∧
      ∀ M ∈ raw.names, M < N.name → M ∈ l₁ := by
  obtain ⟨s₁, s₂, hs, hput⟩ := putSorted_eq_append hnew
  have hnames : raw.names = s₁.map (·.name) ++ s₂.map (·.name) := by
    rw [names, hs, List.map_append]
  have hnames' : (raw.insert N).names = s₁.map (·.name) ++ N.name :: s₂.map (·.name) := by
    rw [names, insert, hput, List.map_append, List.map_cons]
  refine ⟨_, _, hnames, hnames', fun M hM hlt => ?_⟩
  have hordered' : (raw.insert N).names.Pairwise (· < ·) := sorted_putSorted hordered
  rw [hnames'] at hordered'
  have hbehind : ∀ n ∈ s₂.map (·.name), N.name < n :=
    (List.pairwise_cons.1 (List.pairwise_append.1 hordered').2.1).1
  rcases List.mem_append.1 (hnames ▸ hM) with hM | hM
  · exact hM
  · exact absurd (String.lt_trans hlt (hbehind M hM)) (String.lt_irrefl M)

variable (hfree : ∀ S, ¬ raw.Embeds S N.name)
include hfree

/-- A struct that no struct embeds is on no way between others. -/
theorem reaches_of_insert {S T : String} (hS : S ≠ N.name)
    (h : ReflTransGen (raw.insert N).Embeds S T) : ReflTransGen raw.Embeds S T := by
  induction h using ReflTransGen.head_induction_on with
  | refl => exact .refl
  | head hstep _ ih =>
    have hedge : raw.Embeds _ _ := (embeds_insert_iff hS).1 hstep
    exact .head hedge (ih fun heq => hfree _ (heq ▸ hedge))

/-- In a table with a new struct that no struct embeds, the others lead where they led before. -/
theorem ne_of_embeds_insert {S T : String} (hS : S ≠ N.name) (h : (raw.insert N).Embeds S T) :
    T ≠ N.name := fun heq => hfree S (heq ▸ (embeds_insert_iff hS).1 h)

end Insert

end Catalog

/-! ## The walk with the new struct -/

namespace Sealing

open Catalog

variable {raw : Catalog} {N : StructDescriptor} {l₁ l₂ : List String} {A B V V' : Set String}
  {D D' : List (String × String)}

/-- Only known structs are walked to. -/
theorem Walk.known {path todo : List String} {owner : String}
    (h : Walk raw path owner todo ∅ V D) {n : String} (hn : n ∈ V) : n ∈ raw.names :=
  h.within (X := {n | n ∈ raw.names}) (fun _ _ _ _ hT => .inl hT) (fun _ _ hT => hT) n hn
    (Set.notMem_empty n)

/-- The walk with a new struct that no struct embeds is a walk without it, interrupted by the walk to
the new struct. -/
theorem Walk.insert_split (hnew : N.name ∉ raw.names) (hfree : ∀ S, ¬ raw.Embeds S N.name)
    (hl₁ : N.name ∉ l₁) (hl₂ : N.name ∉ l₂)
    (h : Walk (raw.insert N) [] "" (l₁ ++ N.name :: l₂) ∅ V' D') :
    ∃ A B D₁ D₀ D₂, Walk raw [] "" l₁ ∅ A D₁ ∧
      Walk (raw.insert N) [N.name] N.name N.targets A B D₀ ∧
      Walk raw [] "" l₂ (insert N.name B) V' D₂ ∧ D' = D₁ ++ (D₀ ++ D₂) := by
  obtain ⟨A, D₁, E, h₁, hrest, rfl⟩ := h.split
  have h₁' : Walk raw [] "" l₁ ∅ A D₁ := h₁.of_insert hfree hl₁
  have hfind : (raw.insert N).find? N.name = some N := by rw [find?_insert, if_pos rfl]
  cases hrest with
  | back hpath => exact absurd hpath List.not_mem_nil
  | skip _ hsealed => exact absurd (h₁'.known (hsealed (mem_names_of_find? hfind))) hnew
  | enter _ _ hs hbody h₂ =>
    obtain rfl := Option.some.inj (hfind.symm.trans hs)
    exact ⟨A, _, D₁, _, _, h₁', hbody, h₂.of_insert hfree hl₂, rfl⟩

/-- From the top, nothing is dropped at a struct that is sealed already. -/
theorem Walk.not_dropped {todo : List String} {owner S : String}
    (h : Walk raw [] owner todo V V' D) (hS : S ∈ V) (T : String) : (S, T) ∉ D := by
  intro hmem
  rcases h.dropped S T hmem with ⟨-, hpath⟩ | ⟨-, hnot⟩
  · exact List.not_mem_nil hpath
  · exact hnot hS

section Body

variable {D₁ D₀ : List (String × String)} (h₁ : Walk raw [] "" l₁ ∅ A D₁)
  (hbody : Walk (raw.insert N) [N.name] N.name N.targets A B D₀)
include h₁ hbody

/-- What is sealed after the walk to the new struct leads to nothing else. -/
theorem Walk.closed_insert (hnew : N.name ∉ raw.names) (hfree : ∀ S, ¬ raw.Embeds S N.name) :
    Walk.Closed raw [] (insert N.name B) := by
  have hA : Walk.Closed raw [] A := (h₁.closed fun _ hS => absurd hS (Set.notMem_empty _)).1
  have hA' : Walk.Closed (raw.insert N) [N.name] A := by
    intro S hS T hedge hT
    have hne : S ≠ N.name := fun heq => hnew (heq ▸ h₁.known hS)
    have hT' : T ∈ raw.names :=
      (mem_names_insert.1 hT).resolve_left (ne_of_embeds_insert hfree hne hedge)
    exact (hA S hS T ((embeds_insert_iff hne).1 hedge) hT').imp_right (absurd · List.not_mem_nil)
  obtain ⟨hB, -⟩ := hbody.closed hA'
  intro S hS T hedge hT
  have hne : S ≠ N.name := fun heq => hnew (heq ▸ hedge.mem_names)
  have hSB : S ∈ B := hS.resolve_left hne
  rcases hB S hSB T ((embeds_insert_iff hne).2 hedge) (mem_names_insert.2 (.inr hT)) with hT | hT
  · exact .inl (Set.mem_insert_of_mem _ hT)
  · exact .inl (List.mem_singleton.1 hT ▸ Set.mem_insert _ _)

/-- The walk to the new struct seals nothing else than what the struct is the first to lead to. -/
theorem Walk.firstToReach (hsmaller : ∀ M ∈ raw.names, M < N.name → M ∈ l₁) {S : String}
    (hS : S ∈ raw.names) (hSB : S ∈ B) (hSA : S ∉ A) : raw.FirstToReach N S := by
  have hA := h₁.closed fun _ hS => absurd hS (Set.notMem_empty _)
  refine ⟨?_, fun M hM hlt hreach => hSA ?_⟩
  · have hfind : (raw.insert N).find? N.name = some N := by rw [find?_insert, if_pos rfl]
    refine hbody.within (X := {T | TransGen (raw.insert N).Embeds N.name T})
      (fun S hS T hedge _ => .inl (TransGen.tail hS hedge)) (fun T hT _ => ?_) S hSB hSA
    exact .single ⟨N, hfind, hT⟩
  · have hMA := (hA.2 M (hsmaller M hM hlt) hM).resolve_right List.not_mem_nil
    exact hA.1.reaches hMA hreach hS

end Body

/-- A new struct that no struct embeds changes what is dropped at those structs only that it is the
first to lead to. -/
theorem dropped_insert (hordered : raw.Ordered) (hnew : N.name ∉ raw.names)
    (hfree : ∀ S, ¬ raw.Embeds S N.name) (h : Walk raw [] "" raw.names ∅ V D)
    (h' : Walk (raw.insert N) [] "" (raw.insert N).names ∅ V' D') {S : String}
    (hS : S ∈ raw.names) (hnot : ¬ raw.FirstToReach N S) (T : String) :
    (S, T) ∈ D ↔ (S, T) ∈ D' := by
  obtain ⟨l₁, l₂, hnames, hnames', hsmaller⟩ := names_insert hordered hnew
  have hl₁ : N.name ∉ l₁ := fun h => hnew (hnames ▸ List.mem_append_left _ h)
  have hl₂ : N.name ∉ l₂ := fun h => hnew (hnames ▸ List.mem_append_right _ h)
  rw [hnames] at h
  rw [hnames'] at h'
  obtain ⟨A, D₁, D₂, h₁, h₂, rfl⟩ := h.split
  obtain ⟨A', B, D₁', D₀, D₂', h₁', hbody, h₂', rfl⟩ := h'.insert_split hnew hfree hl₁ hl₂
  -- up to the new struct both walks do the same
  obtain ⟨hsame, hD₁⟩ := h₁.agree h₁' (fun _ hS => absurd hS (Set.notMem_empty _))
    (Set.empty_subset _) fun _ _ => Iff.rfl
  obtain rfl : A = A' := Set.ext fun n => hsame n (Set.notMem_empty n)
  -- behind it they agree outside of what the walk to the new struct has sealed
  have hAB : A ⊆ insert N.name B := hbody.subset.trans (Set.subset_insert _ _)
  obtain ⟨-, hD₂⟩ := h₂.agree h₂' (h₁.closed_insert hbody hnew hfree) subset_rfl
    fun n hn => ⟨fun hA => hAB hA, fun hY => absurd hY hn⟩
  have hne : S ≠ N.name := fun heq => hnew (heq ▸ hS)
  have hsealed : S ∈ insert N.name B → S ∈ A := fun hY => by
    by_contra hSA
    exact hnot (h₁.firstToReach hbody hsmaller hS (hY.resolve_left hne) hSA)
  have hD₀ : (S, T) ∉ D₀ := fun hmem => by
    rcases hbody.dropped S T hmem with ⟨heq, -⟩ | ⟨hSB, hSA⟩
    · exact hne heq
    · exact hSA (hsealed (Set.mem_insert_of_mem _ hSB))
  have hrest : (S, T) ∈ D₂ ↔ (S, T) ∈ D₂' := by
    by_cases hSA : S ∈ A
    · exact iff_of_false (h₂.not_dropped hSA T) (h₂'.not_dropped (hAB hSA) T)
    · exact hD₂ S T fun hY => hSA (hsealed hY)
  rw [List.mem_append, List.mem_append, List.mem_append, or_iff_right hD₀, hrest,
    hD₁ S T (Set.notMem_empty S)]

/-! ## Sealed structs -/

/-- A struct is dropped at only if it is on a cycle. -/
theorem Inv.on_cycle {path : List String} {c : Catalog} (hI : Inv raw path c D) {S T : String}
    (h : (S, T) ∈ D) : TransGen raw.Embeds S S := by
  obtain ⟨hedge, hback⟩ := hI.cycle S T h
  exact TransGen.head'_iff.2 ⟨T, hedge, hback⟩

/-- What a struct becomes is the same in two sealed tables, of which one has a new struct that no
struct embeds, if the same is dropped at all structs that it leads to. -/
theorem find?_eq_of_dropped {c c' : Catalog} (hnew : N.name ∉ raw.names)
    (hfree : ∀ S, ¬ raw.Embeds S N.name) (hI : Inv raw [] c D)
    (hI' : Inv (raw.insert N) [] c' D') (hnames : c.names = raw.names)
    (hnames' : c'.names = (raw.insert N).names) {S : String} (hS : S ∈ raw.names)
    (hD : ∀ R ∈ raw.names, ReflTransGen raw.Embeds S R → ∀ T, (R, T) ∈ D ↔ (R, T) ∈ D') :
    c'.find? S = c.find? S := by
  induction hI.acc S (hnames ▸ hS) with
  | intro S _ ih =>
    have hne : S ≠ N.name := fun heq => hnew (heq ▸ hS)
    obtain ⟨s, hs⟩ := mem_names_iff.1 (hnames.symm ▸ hS)
    obtain ⟨s', hs'⟩ := mem_names_iff.1 (hnames'.symm ▸ mem_names_insert.2 (.inr hS))
    obtain ⟨s₀, hs₀, rfl⟩ := hI.body S s hs
    obtain ⟨t₀, ht₀, rfl⟩ := hI'.body S s' hs'
    rw [find?_insert_of_ne hne] at ht₀
    obtain rfl := Option.some.inj (hs₀.symm.trans ht₀)
    rw [hs, hs', Option.some.injEq]
    have hkept : ∀ T, keptFrom D' S T = keptFrom D S T := fun T => by
      simp only [keptFrom, hD S hS .refl T]
    refine StructDescriptor.resolve_congr s₀ (fun T _ => hkept T) fun T hT hk => ?_
    have hedge : raw.Embeds S T := ⟨s₀, hs₀, hT⟩
    by_cases hTraw : T ∈ raw.names
    · refine fieldsOf_congr (ih T ⟨hedge, ?_⟩ hTraw fun R hR hreach => hD R hR (.head hedge hreach))
      rw [hkept] at hk
      exact of_decide_eq_true hk
    · have hT' : T ∉ (raw.insert N).names := fun h =>
        (mem_names_insert.1 h).elim (fun heq => hfree S (heq ▸ hedge)) hTraw
      have hfields : c.fieldsOf T = [] := fieldsOf_eq_nil (hnames ▸ hTraw)
      have hfields' : c'.fieldsOf T = [] := fieldsOf_eq_nil (hnames' ▸ hT')
      rw [hfields, hfields']

end Sealing

/-- Sealing a table with a new struct that no struct embeds leaves each of the others as it is
without the new struct, unless it leads to an embedding cycle that the new struct is the first to
lead to. -/
theorem Catalog.seal_insert (raw : Catalog) (N : StructDescriptor) (hwf : raw.WellFormed)
    (hdistinct : (N.fields.map (·.name)).Nodup) (hnew : N.name ∉ raw.names)
    (hfree : ∀ S, ¬ raw.Embeds S N.name) :
    ∃ (c c' : Catalog) (events events' : List Event),
      (∀ log, Id.run (raw.seal.run log) = (c, log ++ events)) ∧
      (∀ log, Id.run ((raw.insert N).seal.run log) = (c', log ++ events')) ∧
      ∀ S ∈ raw.names,
        (∀ T, ReflTransGen raw.Embeds S T → TransGen raw.Embeds T T → ¬ raw.FirstToReach N T) →
        c'.find? S = c.find? S := by
  have hwf' : (raw.insert N).WellFormed := hwf.insert hdistinct
  obtain ⟨c, events, hrun, hI, hnames⟩ := seal_inv hwf
  obtain ⟨c', events', hrun', hI', hnames'⟩ := seal_inv hwf'
  refine ⟨c, c', events, events', hrun, hrun', fun S hS hfirst => ?_⟩
  refine Sealing.find?_eq_of_dropped hnew hfree hI hI' hnames hnames' hS fun R hR hreach T => ?_
  by_cases hR' : raw.FirstToReach N R
  · -- no cycle goes through `R`, so nothing is dropped there
    have hacyclic : ¬ TransGen raw.Embeds R R := fun hcycle => hfirst R hreach hcycle hR'
    refine iff_of_false (fun hmem => hacyclic (hI.on_cycle hmem)) fun hmem => hacyclic ?_
    obtain ⟨hedge, hback⟩ := hI'.cycle R T hmem
    have hne : R ≠ N.name := fun heq => hnew (heq ▸ hR)
    have hTne : T ≠ N.name := ne_of_embeds_insert hfree hne hedge
    exact TransGen.head'_iff.2 ⟨T, (embeds_insert_iff hne).1 hedge,
      reaches_of_insert hfree hTne hback⟩
  · exact Sealing.dropped_insert hwf.ordered hnew hfree (seal_walks hrun) (seal_walks hrun') hR hR' T

/-- Two structs that embed each other. -/
def ring : Catalog :=
  ⟨[⟨"B", [⟨"b", .scalar .u8, ⟨[("json", "b")]⟩, "", true⟩], false, ["C"]⟩,
    ⟨"C", [⟨"c", .scalar .u64, ⟨[("json", "c")]⟩, "", true⟩], false, ["B"]⟩]⟩

/-- A struct that embeds the second of them. -/
def entrance (name : String) : StructDescriptor := ⟨name, [], false, ["C"]⟩

theorem not_embeds_of_targets {raw : Catalog} {name : String}
    (h : ∀ s ∈ raw.structs, name ∉ s.targets) (S : String) : ¬ raw.Embeds S name :=
  fun ⟨s, hs, hmem⟩ => h s (Catalog.mem_of_find? hs) hmem

/-- With an entrance behind the ring, the ring is entered where it is without. -/
theorem ring_entered_first : ring.WellFormed ∧ "D" ∉ ring.names ∧ (∀ S, ¬ ring.Embeds S "D") ∧
    ∃ (c c' : Catalog) (events events' : List Event),
      (∀ log, Id.run (ring.seal.run log) = (c, log ++ events)) ∧
      (∀ log, Id.run ((ring.insert (entrance "D")).seal.run log) = (c', log ++ events')) ∧
      c'.find? "B" = c.find? "B" ∧ c'.find? "C" = c.find? "C" := by
  have hwf : ring.WellFormed := ⟨by decide, by decide⟩
  have hnew : "D" ∉ ring.names := by decide
  have hfree : ∀ S, ¬ ring.Embeds S "D" := not_embeds_of_targets (by decide)
  obtain ⟨c, c', events, events', hrun, hrun', hkeeps⟩ :=
    Catalog.seal_insert ring (entrance "D") hwf (by decide) hnew hfree
  have hB : "B" ∈ ring.names := by decide
  have hBC : ring.Embeds "B" "C" := ⟨_, rfl, by decide⟩
  refine ⟨hwf, hnew, hfree, c, c', events, events', hrun, hrun', ?_, ?_⟩
  · exact hkeeps "B" hB fun T hT _ hfirst => hfirst.2 "B" hB (by decide) hT
  · exact hkeeps "C" (by decide) fun T hT _ hfirst => hfirst.2 "B" hB (by decide) (.head hBC hT)

/-- With an entrance in front of the ring, its first struct loses the fields of the second. -/
theorem ring_entered_elsewhere : ring.WellFormed ∧ "A" ∉ ring.names ∧
    (∀ S, ¬ ring.Embeds S "A") ∧ ∃ c c' : Catalog,
      (Id.run (ring.seal.run #[])).1 = c ∧
      (Id.run ((ring.insert (entrance "A")).seal.run #[])).1 = c' ∧
      (c.fieldsOf "B").map (·.name) = ["b", "c"] ∧ (c'.fieldsOf "B").map (·.name) = ["b"] ∧
      (c.fieldsOf "C").map (·.name) = ["c"] ∧ (c'.fieldsOf "C").map (·.name) = ["c", "b"] := by
  refine ⟨⟨by decide, by decide⟩, by decide, not_embeds_of_targets (by decide), _, _, rfl, rfl, ?_⟩
  have hseal : (Id.run (ring.seal.run #[])).1 =
      ⟨[⟨"B", [⟨"b", .scalar .u8, ⟨[("json", "b")]⟩, "", true⟩,
          ⟨"c", .scalar .u64, ⟨[("json", "c")]⟩, "", true⟩], false, []⟩,
        ⟨"C", [⟨"c", .scalar .u64, ⟨[("json", "c")]⟩, "", true⟩], false, []⟩]⟩ := by cbv
  have hseal' : (Id.run ((ring.insert (entrance "A")).seal.run #[])).1 =
      ⟨[⟨"A", [⟨"c", .scalar .u64, ⟨[("json", "c")]⟩, "", true⟩,
          ⟨"b", .scalar .u8, ⟨[("json", "b")]⟩, "", true⟩], false, []⟩,
        ⟨"B", [⟨"b", .scalar .u8, ⟨[("json", "b")]⟩, "", true⟩], false, []⟩,
        ⟨"C", [⟨"c", .scalar .u64, ⟨[("json", "c")]⟩, "", true⟩,
          ⟨"b", .scalar .u8, ⟨[("json", "b")]⟩, "", true⟩], false, []⟩]⟩ := by cbv
  rw [hseal, hseal']
  decide

end ApiDecl
