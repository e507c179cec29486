import ApiDecl.Proofs.Embedding
import Mathlib.Data.List.Sort
import Mathlib.Data.String.Basic
import Mathlib.Tactic.Set

/-!
# Proofs: sealing resolves embeddings

Sealing is a depth-first walk along the embedding graph. The structs of the path are being merged and
none of them is sealed yet; a target that is not on the path is sealed before its host goes on. So
`Inv` says of the sealed structs that each is resolved over the edges that are kept, that its kept
targets are sealed too, and that following kept edges from it ends.
-/

namespace ApiDecl

open Relation

variable {α β γ : Type}

/-! ## Runs -/

/-- Started with the sealed structs `c`, the computation gives `a`, ends with the sealed structs
`c'` and reports `events`. -/
def Sealing.Runs (x : Sealing α) (c : Catalog) (a : α) (c' : Catalog) (events : List Event) :
    Prop :=
  ∀ log : Array Event, Id.run ((x.run c).run log) = ((a, c'), log ++ events)

namespace Sealing.Runs

theorem pure (a : α) (c : Catalog) : Runs (pure a) c a c [] := fun log => by simp

theorem bind {x : Sealing α} {f : α → Sealing β} {c c₁ c₂ : Catalog} {a : α} {b : β}
    {e₁ e₂ : List Event} (hx : Runs x c a c₁ e₁) (hf : Runs (f a) c₁ b c₂ e₂) :
    Runs (x >>= f) c b c₂ (e₁ ++ e₂) := by
  intro log
  have hassoc : log ++ (e₁ ++ e₂) = log ++ e₁ ++ e₂ := Array.ext' (by simp)
  rw [StateT.run_bind, StateT.run_bind, Id.run_bind, hx log, hassoc]
  exact hf (log ++ e₁)

theorem get (c : Catalog) : Runs get c c c [] := fun log => by simp

theorem modify (f : Catalog → Catalog) (c : Catalog) : Runs (modify f) c () (f c) [] :=
  fun log => by simp

theorem note (e : Event) (c : Catalog) : Runs (liftM (note e)) c () c [e] := fun log => by
  have hpush : log ++ [e] = log.push e := by simp
  rw [hpush]
  rfl

end Sealing.Runs

@[simp] theorem droppedEdges_append (e₁ e₂ : List Event) :
    droppedEdges (e₁ ++ e₂) = droppedEdges e₁ ++ droppedEdges e₂ := List.filterMap_append

/-! ## The invariant -/

namespace Sealing

/-- The edges from a struct that are kept. -/
def keptFrom (D : List (String × String)) (S T : String) : Bool := (S, T) ∉ D

/-- What holds of the sealed structs `c` and of the dropped edges `D` while the structs of `path` are
being merged. -/
structure Inv (raw : Catalog) (path : List String) (c : Catalog) (D : List (String × String)) :
    Prop where
  ordered : c.Ordered
  unsealed : ∀ n ∈ path, n ∉ c.names
  owner : ∀ S T, (S, T) ∈ D → S ∈ c.names ∨ S ∈ path
  cycle : ∀ S T, (S, T) ∈ D → raw.Embeds S T ∧ ReflTransGen raw.Embeds T S
  body : ∀ n s, c.find? n = some s →
    ∃ s₀, raw.find? n = some s₀ ∧ s = s₀.resolve c (keptFrom D n)
  closed : ∀ S T, S ∈ c.names → raw.Keeps D S T → T ∈ raw.names → T ∈ c.names
  acc : ∀ n ∈ c.names, Acc (fun T S => raw.Keeps D S T) n
  distinct : ∀ n, ((c.fieldsOf n).map (·.name)).Nodup

/-- A struct that is not in the table leads nowhere. -/
theorem acc_of_unknown {raw : Catalog} {D : List (String × String)} {n : String}
    (h : n ∉ raw.names) : Acc (fun T S => raw.Keeps D S T) n :=
  Acc.intro n fun _ hT => absurd hT.1.mem_names h

/-- Dropping more edges keeps less. -/
theorem acc_of_subset {raw : Catalog} {D D' : List (String × String)} (hD : D ⊆ D') {n : String}
    (h : Acc (fun T S => raw.Keeps D S T) n) : Acc (fun T S => raw.Keeps D' S T) n :=
  Subrelation.accessible (fun hT => ⟨hT.1, fun hmem => hT.2 (hD hmem)⟩) h

namespace Inv

variable {raw c : Catalog} {path : List String} {D : List (String × String)}

/-- Nothing is sealed and nothing is dropped yet. -/
theorem empty (raw : Catalog) : Inv raw [] .empty [] where
  ordered := List.Pairwise.nil
  unsealed := by simp
  owner := by simp
  cycle := by simp
  body := by simp [Catalog.find?, Catalog.empty]
  closed := by simp [Catalog.names, Catalog.empty]
  acc := by simp [Catalog.names, Catalog.empty]
  distinct := by simp [Catalog.fieldsOf, Catalog.find?, Catalog.empty]

/-- Only structs of the table are sealed. -/
theorem mem_raw (hI : Inv raw path c D) {n : String} (hn : n ∈ c.names) : n ∈ raw.names := by
  obtain ⟨s, hs⟩ := Catalog.mem_names_iff.1 hn
  obtain ⟨s₀, hs₀, -⟩ := hI.body n s hs
  exact Catalog.mem_names_of_find? hs₀

/-- A struct that is not sealed yet comes to the end of the path. -/
theorem enter (hI : Inv raw path c D) {n : String} (hn : n ∉ c.names) :
    Inv raw (path ++ [n]) c D where
  ordered := hI.ordered
  unsealed := by
    intro m hm
    rcases List.mem_append.1 hm with hm | hm
    · exact hI.unsealed m hm
    · exact List.mem_singleton.1 hm ▸ hn
  owner := fun S T h => (hI.owner S T h).imp_right (List.mem_append_left _)
  cycle := hI.cycle
  body := hI.body
  closed := hI.closed
  acc := hI.acc
  distinct := hI.distinct

/-- An edge from the path back to the path is dropped. -/
theorem drop (hI : Inv raw path c D) {S T : String} (hS : S ∈ path) (hedge : raw.Embeds S T)
    (hback : ReflTransGen raw.Embeds T S) : Inv raw path c (D ++ [(S, T)]) where
  ordered := hI.ordered
  unsealed := hI.unsealed
  owner := by
    intro S' T' h
    rcases List.mem_append.1 h with h | h
    · exact hI.owner S' T' h
    · obtain ⟨rfl, rfl⟩ := Prod.mk.inj (List.mem_singleton.1 h)
      exact Or.inr hS
  cycle := by
    intro S' T' h
    rcases List.mem_append.1 h with h | h
    · exact hI.cycle S' T' h
    · obtain ⟨rfl, rfl⟩ := Prod.mk.inj (List.mem_singleton.1 h)
      exact ⟨hedge, hback⟩
  body := by
    intro n s hs
    obtain ⟨s₀, hs₀, rfl⟩ := hI.body n s hs
    have hne : n ≠ S := fun e => hI.unsealed S hS (e ▸ Catalog.mem_names_of_find? hs)
    refine ⟨s₀, hs₀, StructDescriptor.resolve_congr s₀ (fun T' _ => ?_) fun _ _ _ => rfl⟩
    simp [keptFrom, hne]
  closed := fun S' T' hS' hk hT' =>
    hI.closed S' T' hS' ⟨hk.1, fun h => hk.2 (List.mem_append_left _ h)⟩ hT'
  acc := fun n hn => acc_of_subset (List.subset_append_left _ _) (hI.acc n hn)
  distinct := hI.distinct

/-- A sealed struct stays what it is when one is added that was not sealed yet. -/
theorem resolve_insert (hI : Inv raw path c D) {v : StructDescriptor} (hv : v.name ∉ c.names)
    (hraw : v.name ∈ raw.names) {n : String} {s : StructDescriptor} (hn : n ∈ c.names)
    (hs : raw.find? n = some s) :
    s.resolve c (keptFrom D n) = s.resolve (c.insert v) (keptFrom D n) := by
  refine StructDescriptor.resolve_congr s (fun _ _ => rfl) fun T hT hk => ?_
  have hne : v.name ≠ T := by
    rintro rfl
    exact hv (hI.closed n v.name hn ⟨⟨s, hs, hT⟩, of_decide_eq_true hk⟩ hraw)
  exact (Catalog.fieldsOf_insert_of_ne hne).symm

end Inv

/-! ## Steps of the walk -/

/-- What a computation that looks at `targets` does while `owner` is merged behind the structs
`before`: it seals structs from `c` to `c'` and drops the edges `E`. -/
structure Step (raw : Catalog) (before : List String) (owner : String) (targets : List String)
    (c c' : Catalog) (E : List (String × String)) : Prop where
  extend : ∀ n ∈ c.names, c'.find? n = c.find? n
  fresh : ∀ S T, (S, T) ∈ E → S ∉ c.names ∧ S ∉ before
  onPath : ∀ T, (owner, T) ∈ E → T ∈ before ++ [owner]
  drops : ∀ T ∈ targets, T ∈ before ++ [owner] → (owner, T) ∈ E
  visits : ∀ T ∈ targets, T ∉ before ++ [owner] → T ∈ raw.names → T ∈ c'.names

namespace Step

variable {raw : Catalog} {before : List String} {owner : String}

theorem refl (c : Catalog) : Step raw before owner [] c c [] where
  extend := fun _ _ => rfl
  fresh := by simp
  onPath := by simp
  drops := by simp
  visits := by simp

theorem mem_names {t : List String} {c c' : Catalog} {E : List (String × String)}
    (h : Step raw before owner t c c' E) {n : String} (hn : n ∈ c.names) : n ∈ c'.names := by
  obtain ⟨s, hs⟩ := Catalog.mem_names_iff.1 hn
  exact Catalog.mem_names_of_find? ((h.extend n hn).trans hs)

theorem trans {t₁ t₂ : List String} {c c₁ c₂ : Catalog} {E₁ E₂ : List (String × String)}
    (h₁ : Step raw before owner t₁ c c₁ E₁) (h₂ : Step raw before owner t₂ c₁ c₂ E₂) :
    Step raw before owner (t₁ ++ t₂) c c₂ (E₁ ++ E₂) where
  extend := fun n hn => (h₂.extend n (h₁.mem_names hn)).trans (h₁.extend n hn)
  fresh := by
    intro S T h
    rcases List.mem_append.1 h with h | h
    · exact h₁.fresh S T h
    · exact ⟨fun hS => (h₂.fresh S T h).1 (h₁.mem_names hS), (h₂.fresh S T h).2⟩
  onPath := by
    intro T h
    rcases List.mem_append.1 h with h | h
    · exact h₁.onPath T h
    · exact h₂.onPath T h
  drops := by
    intro T hT hpath
    rcases List.mem_append.1 hT with hT | hT
    · exact List.mem_append_left _ (h₁.drops T hT hpath)
    · exact List.mem_append_right _ (h₂.drops T hT hpath)
  visits := by
    intro T hT hpath hraw
    rcases List.mem_append.1 hT with hT | hT
    · exact h₂.mem_names (h₁.visits T hT hpath hraw)
    · exact h₂.visits T hT hpath hraw

end Step

/-- The computation looks at `targets` while `owner` is merged behind the structs `before`, and gives
a value that the fields of the targets outside the path determine. -/
structure Seals (raw : Catalog) (before : List String) (owner : String) (targets : List String)
    (x : Sealing α) (value : Catalog → α) : Prop where
  stable : ∀ c c', (∀ T ∈ targets, T ∉ before ++ [owner] → c.fieldsOf T = c'.fieldsOf T) →
    value c = value c'
  runs : ∀ c D, Inv raw (before ++ [owner]) c D → ∃ c' events, x.Runs c (value c') c' events ∧
    Inv raw (before ++ [owner]) c' (D ++ droppedEdges events) ∧
    Step raw before owner targets c c' (droppedEdges events)

namespace Seals

variable {raw : Catalog} {before : List String} {owner : String}

theorem pure (a : α) : Seals raw before owner [] (pure a) fun _ => a where
  stable := fun _ _ _ => rfl
  runs := fun c D hI => ⟨c, [], .pure a c, by simpa [droppedEdges] using hI, .refl c⟩

theorem map {t : List String} {x : Sealing α} {v : Catalog → α} (h : Seals raw before owner t x v)
    (F : α → β) : Seals raw before owner t (do return F (← x)) fun c => F (v c) where
  stable := fun c c' hc => congrArg F (h.stable c c' hc)
  runs := by
    intro c D hI
    obtain ⟨c', e, hr, hI', hs⟩ := h.runs c D hI
    have hr' : Sealing.Runs (do return F (← x)) c (F (v c')) c' (e ++ []) := hr.bind (.pure _ _)
    exact ⟨c', e, List.append_nil e ▸ hr', hI', hs⟩

/-- Two computations one after the other: the second leaves what the first has looked at. -/
theorem map₂ {t₁ t₂ : List String} {x : Sealing α} {y : Sealing β} {v : Catalog → α}
    {w : Catalog → β} (hx : Seals raw before owner t₁ x v) (hy : Seals raw before owner t₂ y w)
    (F : α → β → γ) :
    Seals raw before owner (t₁ ++ t₂) (do let a ← x; let b ← y; return F a b)
      fun c => F (v c) (w c) where
  stable := by
    intro c c' hc
    rw [hx.stable c c' fun T hT => hc T (List.mem_append_left _ hT),
      hy.stable c c' fun T hT => hc T (List.mem_append_right _ hT)]
  runs := by
    intro c D hI
    obtain ⟨c₁, e₁, hr₁, hI₁, hs₁⟩ := hx.runs c D hI
    obtain ⟨c₂, e₂, hr₂, hI₂, hs₂⟩ := hy.runs c₁ _ hI₁
    -- the targets of the first are sealed by now or unknown, so the second does not change them
    have hv : v c₁ = v c₂ := by
      refine hx.stable c₁ c₂ fun T hT hpath => ?_
      by_cases hraw : T ∈ raw.names
      · exact (Catalog.fieldsOf_congr (hs₂.extend T (hs₁.visits T hT hpath hraw))).symm
      · rw [Catalog.fieldsOf_eq_nil fun h => hraw (hI₁.mem_raw h),
          Catalog.fieldsOf_eq_nil fun h => hraw (hI₂.mem_raw h)]
    refine ⟨c₂, e₁ ++ e₂, ?_, ?_, ?_⟩
    · have hr : Sealing.Runs (do let a ← x; let b ← y; return F a b) c (F (v c₁) (w c₂)) c₂
          (e₁ ++ (e₂ ++ [])) := hr₁.bind (hr₂.bind (.pure _ _))
      rwa [List.append_nil, hv] at hr
    · rwa [droppedEdges_append, ← List.append_assoc]
    · rw [droppedEdges_append]
      exact hs₁.trans hs₂

/-- The value may be told in another way that agrees on sealed structs. -/
theorem congr {t : List String} {x : Sealing α} {v w : Catalog → α}
    (h : Seals raw before owner t x v)
    (hw : ∀ c c', (∀ T ∈ t, T ∉ before ++ [owner] → c.fieldsOf T = c'.fieldsOf T) → w c = w c')
    (heq : ∀ c D, Inv raw (before ++ [owner]) c D → v c = w c) :
    Seals raw before owner t x w where
  stable := hw
  runs := by
    intro c D hI
    obtain ⟨c', e, hr, hI', hs⟩ := h.runs c D hI
    exact ⟨c', e, heq c' _ hI' ▸ hr, hI', hs⟩

end Seals

/-! ## Sealing one struct -/

section Insert

variable {raw c c₁ : Catalog} {path : List String} {name : String} {s : StructDescriptor}
  {D E : List (String × String)}

/-- The edges that are kept from a struct that has just been merged are those that do not lead back
to the path. -/
theorem kept_of_merged (hI : Inv raw path c D) (hname : name ∉ path) (hc : name ∉ c.names)
    (hstep : Step raw path name s.targets c c₁ E) {T : String} (hT : T ∈ s.targets) :
    decide (T ∉ path ++ [name]) = keptFrom (D ++ E) name T := by
  have hiff : T ∈ path ++ [name] ↔ (name, T) ∈ D ++ E := by
    refine ⟨fun h => List.mem_append_right _ (hstep.drops T hT h), fun h => ?_⟩
    rcases List.mem_append.1 h with h | h
    · exact absurd (hI.owner name T h) (not_or.2 ⟨hc, hname⟩)
    · exact hstep.onPath T h
  simp only [keptFrom, hiff]

/-- The kept targets of a struct that has just been merged are sealed. -/
theorem sealed_of_kept (hI : Inv raw path c D) (hname : name ∉ path) (hc : name ∉ c.names)
    (hs : raw.find? name = some s) (hstep : Step raw path name s.targets c c₁ E) {T : String}
    (hk : raw.Keeps (D ++ E) name T) (hT : T ∈ raw.names) : T ∈ c₁.names := by
  obtain ⟨⟨t, ht, hTt⟩, hkept⟩ := hk
  obtain rfl := Option.some.inj (hs.symm.trans ht)
  have hpath : T ∉ path ++ [name] := by
    simpa [keptFrom, hkept] using kept_of_merged hI hname hc hstep hTt
  exact hstep.visits T hTt hpath hT

/-- The invariant after the struct at the end of the path is merged and added to the sealed ones. -/
theorem Inv.insert (hraw : raw.WellFormed) (hI : Inv raw path c D) (hname : name ∉ path)
    (hc : name ∉ c.names) (hs : raw.find? name = some s) (hI₁ : Inv raw (path ++ [name]) c₁ (D ++ E))
    (hstep : Step raw path name s.targets c c₁ E) :
    Inv raw path (c₁.insert (s.resolve c₁ fun T => T ∉ path ++ [name])) (D ++ E) := by
  set v := s.resolve c₁ fun T => T ∉ path ++ [name] with hv
  have hvn : v.name = name := by rw [hv, StructDescriptor.resolve_name, Catalog.name_of_find? hs]
  have hself : name ∈ path ++ [name] := by simp
  have hc₁ : name ∉ c₁.names := hI₁.unsealed name hself
  have hfields : ∀ T, T ≠ name → (c₁.insert v).fieldsOf T = c₁.fieldsOf T := fun T hT =>
    Catalog.fieldsOf_insert_of_ne (hvn ▸ hT.symm)
  refine
    { ordered := sorted_putSorted hI₁.ordered
      unsealed := ?_
      owner := ?_
      cycle := hI₁.cycle
      body := ?_
      closed := ?_
      acc := ?_
      distinct := ?_ }
  · intro n hn h
    rcases Catalog.mem_names_insert.1 h with rfl | h
    · exact hname (hvn ▸ hn)
    · exact hI₁.unsealed n (List.mem_append_left _ hn) h
  · intro S T h
    rcases hI₁.owner S T h with hS | hS
    · exact Or.inl (Catalog.mem_names_insert.2 (Or.inr hS))
    · rcases List.mem_append.1 hS with hS | hS
      · exact Or.inr hS
      · exact Or.inl (Catalog.mem_names_insert.2 (Or.inl (hvn ▸ List.mem_singleton.1 hS)))
  · -- body: no sealed struct looks at the new one
    intro n t ht
    by_cases hn : n = name
    · subst hn
      rw [Catalog.find?_insert, if_pos hvn, Option.some.injEq] at ht
      refine ⟨s, hs, ht ▸ hv ▸ StructDescriptor.resolve_congr s (fun T hT => ?_) fun T _ hk => ?_⟩
      · exact kept_of_merged hI hname hc hstep hT
      · exact (hfields T fun e => of_decide_eq_true hk (e ▸ hself)).symm
    · rw [Catalog.find?_insert, if_neg (hvn ▸ Ne.symm hn)] at ht
      obtain ⟨s₀, hs₀, rfl⟩ := hI₁.body n t ht
      refine ⟨s₀, hs₀, hI₁.resolve_insert (hvn ▸ hc₁) ?_ (Catalog.mem_names_of_find? ht) hs₀⟩
      exact hvn ▸ Catalog.mem_names_of_find? hs
  · intro S T hS hk hT
    refine Catalog.mem_names_insert.2 (Or.inr ?_)
    rcases Catalog.mem_names_insert.1 hS with rfl | hS
    · exact sealed_of_kept hI hname hc hs hstep (hvn ▸ hk) hT
    · exact hI₁.closed S T hS hk hT
  · -- acc: the new struct leads to structs that were sealed before it
    intro n hn
    rcases Catalog.mem_names_insert.1 hn with rfl | hn
    · refine Acc.intro _ fun T hT => ?_
      by_cases hTraw : T ∈ raw.names
      · exact hI₁.acc T (sealed_of_kept hI hname hc hs hstep (hvn ▸ hT) hTraw)
      · exact acc_of_unknown hTraw
    · exact hI₁.acc n hn
  · intro n
    by_cases hn : n = name
    · have hfv : (c₁.insert v).fieldsOf n = v.fields := by
        rw [Catalog.fieldsOf, Catalog.find?_insert, if_pos (hn ▸ hvn)]
        rfl
      rw [hfv]
      exact StructDescriptor.nodup_resolve (hraw.distinct s (Catalog.mem_of_find? hs)) hI₁.distinct
    · exact hfields n hn ▸ hI₁.distinct n

end Insert

/-! ## The walk -/

/-- `x` seals the struct `name`, unless it is unknown, while the structs of `path` are being
merged. -/
def Enters (raw : Catalog) (path : List String) (name : String) (x : Sealing Unit) : Prop :=
  ∀ c D, Inv raw path c D → ∃ c' events, x.Runs c () c' events ∧
    Inv raw path c' (D ++ droppedEdges events) ∧ (∀ n ∈ c.names, c'.find? n = c.find? n) ∧
    (∀ S T, (S, T) ∈ droppedEdges events → S ∉ c.names ∧ S ∉ path) ∧
    (name ∈ raw.names → name ∈ c'.names)

section Walk

variable {raw : Catalog} {path : List String} {name : String}

/-- Nothing happens to a struct that is sealed or unknown. -/
theorem sealStruct_runs_skip (hname : name ∉ path) {c : Catalog}
    (hc : name ∈ raw.names → name ∈ c.names) :
    (sealStruct raw path name hname).Runs c () c [] := by
  have hr : (sealStruct raw path name hname).Runs c () c ([] ++ []) := by
    rw [sealStruct]
    refine (Sealing.Runs.get c).bind ?_
    split
    · exact .pure () c
    · next hfind =>
      split
      · exact .pure () c
      · next hs =>
        obtain ⟨t, ht⟩ := Catalog.mem_names_iff.1 (hc (Catalog.mem_names_of_find? hs))
        exact absurd (by rw [ht]; rfl) hfind
  simpa using hr

/-- A struct that is not sealed yet is sealed as its merged body. -/
theorem sealStruct_runs_enter (hname : name ∉ path) {s v : StructDescriptor} {c c₁ : Catalog}
    {events : List Event} (hs : raw.find? name = some s) (hc : name ∉ c.names)
    (hbody : (sealBody raw (path ++ [name]) s).Runs c v c₁ events) :
    (sealStruct raw path name hname).Runs c () (c₁.insert v) events := by
  have hr : (sealStruct raw path name hname).Runs c () (c₁.insert v) ([] ++ (events ++ [])) := by
    rw [sealStruct]
    refine (Sealing.Runs.get c).bind ?_
    rw [if_neg (by simp [Catalog.find?_eq_none_iff.2 hc])]
    split
    · next h => rw [hs] at h; cases h
    · next t h =>
      obtain rfl := Option.some.inj (hs.symm.trans h)
      exact hbody.bind (.modify _ c₁)
  simpa using hr

theorem enters_of_unknown (hname : name ∉ path) (hraw : raw.find? name = none) :
    Enters raw path name (sealStruct raw path name hname) := by
  intro c D hI
  have hunknown : name ∉ raw.names := Catalog.find?_eq_none_iff.1 hraw
  have hr := sealStruct_runs_skip hname (c := c) fun h => absurd h hunknown
  exact ⟨c, [], hr, by simpa [droppedEdges] using hI, fun _ _ => rfl, by simp [droppedEdges],
    fun h => absurd h hunknown⟩

/-- A struct is sealed if its body is merged at the end of the path. -/
theorem enters_of_body (hwf : raw.WellFormed) (hname : name ∉ path) {s : StructDescriptor}
    (hs : raw.find? name = some s)
    (hbody : Seals raw path name s.targets (sealBody raw (path ++ [name]) s)
      fun c => s.resolve c fun T => T ∉ path ++ [name]) :
    Enters raw path name (sealStruct raw path name hname) := by
  intro c D hI
  by_cases hc : name ∈ c.names
  · exact ⟨c, [], sealStruct_runs_skip hname fun _ => hc, by simpa [droppedEdges] using hI,
      fun _ _ => rfl, by simp [droppedEdges], fun _ => hc⟩
  · obtain ⟨c₁, e, hr₁, hI₁, hstep⟩ := hbody.runs c D (hI.enter hc)
    have hvn := StructDescriptor.resolve_name c₁ (fun T => T ∉ path ++ [name]) s
    rw [Catalog.name_of_find? hs] at hvn
    refine ⟨_, e, sealStruct_runs_enter hname hs hc hr₁, hI.insert hwf hname hc hs hI₁ hstep,
      fun n hn => ?_, hstep.fresh, fun _ => Catalog.mem_names_insert.2 (Or.inl hvn.symm)⟩
    have hne : n ≠ name := fun h => hc (h ▸ hn)
    rw [Catalog.find?_insert, hvn, if_neg hne.symm, hstep.extend n hn]

/-- What a host inherits from one of the structs that it embeds. -/
def sealTarget (raw : Catalog) (path : List String) (host target : String) :
    Sealing (List Field) := do
  if h : target ∈ path then
    note (.embeddingCycle path target)
    return []
  else
    sealStruct raw path target h
    match (← get).find? target with
    | some s => return s.fields
    | none =>
      note (.embedUnknown target host)
      return []

theorem sealEmbeds_cons (raw : Catalog) (path : List String) (host target : String)
    (rest : List String) :
    sealEmbeds raw path host (target :: rest) = do
      let fields ← sealTarget raw path host target
      let others ← sealEmbeds raw path host rest
      return fields ++ others := by
  rw [sealEmbeds, sealTarget]
  split
  · simp
  · simp only [bind_assoc]
    refine bind_congr fun _ => bind_congr fun c => ?_
    cases c.find? target <;> simp

variable {before : List String} {owner : String}

/-- The embedding of a struct on the path gives nothing and is dropped. -/
theorem sealTarget_runs_back (raw : Catalog) (host : String) {target : String}
    (h : target ∈ before ++ [owner]) (c : Catalog) : ∃ events,
      (sealTarget raw (before ++ [owner]) host target).Runs c [] c events ∧
      droppedEdges events = [(owner, target)] := by
  refine ⟨[.embeddingCycle (before ++ [owner]) target] ++ [], ?_, ?_⟩
  · rw [sealTarget, dif_pos h]
    exact (Sealing.Runs.note _ c).bind (.pure [] c)
  · simp [droppedEdges, Event.droppedEdge?]

/-- The embedding of a struct off the path gives the fields of the struct, which is sealed first;
whether it is known or not, nothing more is dropped. -/
theorem sealTarget_runs_visit (host : String) {target : String} (h : target ∉ path)
    {c c' : Catalog} {events : List Event}
    (hr : (sealStruct raw path target h).Runs c () c' events) : ∃ events',
      (sealTarget raw path host target).Runs c (c'.fieldsOf target) c' events' ∧
      droppedEdges events' = droppedEdges events := by
  have hrest : ∃ e, droppedEdges e = [] ∧ Sealing.Runs (do
      match (← get).find? target with
      | some s => return s.fields
      | none =>
        note (.embedUnknown target host)
        return []) c' (c'.fieldsOf target) c' ([] ++ e) := by
    rw [Catalog.fieldsOf]
    cases ht : c'.find? target with
    | some t =>
      refine ⟨[], rfl, (Sealing.Runs.get c').bind ?_⟩
      rw [ht]
      exact .pure _ c'
    | none =>
      refine ⟨[.embedUnknown target host] ++ [], rfl, (Sealing.Runs.get c').bind ?_⟩
      rw [ht]
      exact (Sealing.Runs.note _ c').bind (.pure [] c')
  obtain ⟨e, he, hr'⟩ := hrest
  refine ⟨events ++ ([] ++ e), ?_, ?_⟩
  · rw [sealTarget, dif_neg h]
    exact hr.bind hr'
  · rw [droppedEdges_append, List.nil_append, he, List.append_nil]

/-- An embedding that leads back to the path is dropped. -/
theorem sealTarget_drops (howner : owner ∉ before)
    (hback : ∀ n ∈ before ++ [owner], ReflTransGen raw.Embeds n owner) (host : String)
    {target : String} (hedge : raw.Embeds owner target) (h : target ∈ before ++ [owner]) :
    Seals raw before owner [target] (sealTarget raw (before ++ [owner]) host target)
      fun _ => [] where
  stable := fun _ _ _ => rfl
  runs := by
    intro c D hI
    have hself : owner ∈ before ++ [owner] := by simp
    obtain ⟨e, hr, hE⟩ := sealTarget_runs_back raw host h c
    refine ⟨c, e, hr, hE ▸ hI.drop hself hedge (hback target h), hE ▸ ?_⟩
    refine ⟨fun _ _ => rfl, fun S T hST => ?_, fun T hT => ?_, fun T hT _ => ?_, fun T hT hn => ?_⟩
    · obtain ⟨rfl, rfl⟩ := Prod.mk.inj (List.mem_singleton.1 hST)
      exact ⟨hI.unsealed _ hself, howner⟩
    · exact (Prod.mk.inj (List.mem_singleton.1 hT)).2 ▸ h
    · rw [List.mem_singleton.1 hT]
      exact List.mem_singleton_self _
    · exact absurd (List.mem_singleton.1 hT ▸ h) hn

/-- An embedding that does not lead back to the path contributes the fields of its target, which is
sealed first. -/
theorem sealTarget_visits (host : String) {target : String} (h : target ∉ before ++ [owner])
    (henter : Enters raw (before ++ [owner]) target (sealStruct raw (before ++ [owner]) target h)) :
    Seals raw before owner [target] (sealTarget raw (before ++ [owner]) host target)
      fun c => c.fieldsOf target where
  stable := fun _ _ hc => hc target (List.mem_singleton_self _) h
  runs := by
    intro c D hI
    obtain ⟨c', e, hr, hI', hext, hfresh, hsealed⟩ := henter c D hI
    have hstep : Step raw before owner [target] c c' (droppedEdges e) := by
      refine ⟨hext, fun S T hST => ?_, fun T hT => ?_, fun T hT hpath => ?_, fun T hT _ hraw => ?_⟩
      · obtain ⟨hS, hpath⟩ := hfresh S T hST
        exact ⟨hS, fun hb => hpath (List.mem_append_left _ hb)⟩
      · exact absurd (by simp) (hfresh owner T hT).2
      · exact absurd (List.mem_singleton.1 hT ▸ hpath) h
      · rw [List.mem_singleton.1 hT] at hraw ⊢
        exact hsealed hraw
    obtain ⟨e', hr', hE⟩ := sealTarget_runs_visit host h hr
    exact ⟨c', e', hr', hE ▸ hI', hE ▸ hstep⟩

/-- Behind the path, an edge from its end makes the target reachable from all of it. -/
theorem back_append (hback : ∀ n ∈ before ++ [owner], ReflTransGen raw.Embeds n owner)
    {target : String} (hedge : raw.Embeds owner target) :
    ∀ n ∈ (before ++ [owner]) ++ [target], ReflTransGen raw.Embeds n target := by
  intro n hn
  rcases List.mem_append.1 hn with hn | hn
  · exact (hback n hn).tail hedge
  · rw [List.mem_singleton.1 hn]

mutual

theorem sealStruct_enters (hwf : raw.WellFormed) (path : List String) (name : String)
    (hname : name ∉ path)
    (hback : ∀ n ∈ path ++ [name], ReflTransGen raw.Embeds n name) :
    Enters raw path name (sealStruct raw path name hname) := by
  match hs : raw.find? name with
  | none => exact enters_of_unknown hname hs
  | some s =>
    have := Catalog.remaining_append_lt (Catalog.mem_names_of_find? hs) hname
    exact enters_of_body hwf hname hs
      (sealBody_seals hwf path name hname hback s fun T hT => ⟨s, hs, hT⟩)
termination_by (raw.remaining path, 0)

theorem sealBody_seals (hwf : raw.WellFormed) (before : List String) (owner : String)
    (howner : owner ∉ before)
    (hback : ∀ n ∈ before ++ [owner], ReflTransGen raw.Embeds n owner) (s : StructDescriptor)
    (hs : ∀ T ∈ s.targets, raw.Embeds owner T) :
    Seals raw before owner s.targets (sealBody raw (before ++ [owner]) s)
      fun c => s.resolve c fun T => T ∉ before ++ [owner] := by
  match s with
  | ⟨name, fields, isDefinition, embeds⟩ =>
    simp only [StructDescriptor.targets, List.mem_append] at hs
    have hi := sealEmbeds_seals hwf before owner howner hback name embeds fun T hT => hs T (.inl hT)
    have ho := sealFields_seals hwf before owner howner hback fields fun T hT => hs T (.inr hT)
    rw [sealBody]
    refine (hi.map₂ ho fun inherited own =>
      StructDescriptor.mk name (inheritFields own inherited) isDefinition []).congr
      (fun c c' hc => ?_) fun c D hI => ?_
    · refine StructDescriptor.resolve_congr _ (fun _ _ => rfl) fun T hT hk => ?_
      exact hc T hT (of_decide_eq_true hk)
    · rw [StructDescriptor.resolve, inheritFields_flatten]
      intro l hl
      obtain ⟨T, -, rfl⟩ := List.mem_map.1 hl
      exact hI.distinct T
termination_by (raw.remaining (before ++ [owner]), sizeOf s)

theorem sealEmbeds_seals (hwf : raw.WellFormed) (before : List String) (owner : String)
    (howner : owner ∉ before)
    (hback : ∀ n ∈ before ++ [owner], ReflTransGen raw.Embeds n owner) (host : String)
    (embeds : List String) (hs : ∀ T ∈ embeds, raw.Embeds owner T) :
    Seals raw before owner embeds (sealEmbeds raw (before ++ [owner]) host embeds)
      fun c => ((embeds.filter fun T => T ∉ before ++ [owner]).map c.fieldsOf).flatten := by
  match embeds with
  | [] =>
    rw [sealEmbeds]
    exact .pure []
  | target :: rest =>
    have hrest := sealEmbeds_seals hwf before owner howner hback host rest fun T hT =>
      hs T (List.mem_cons_of_mem _ hT)
    have hedge := hs target List.mem_cons_self
    rw [sealEmbeds_cons]
    by_cases h : target ∈ before ++ [owner]
    · have hf : (target :: rest).filter (fun T => T ∉ before ++ [owner]) =
          rest.filter fun T => T ∉ before ++ [owner] := List.filter_cons_of_neg (by simp [h])
      rw [hf]
      exact (sealTarget_drops howner hback host hedge h).map₂ hrest fun fields others =>
        fields ++ others
    · have hf : (target :: rest).filter (fun T => T ∉ before ++ [owner]) =
          target :: rest.filter fun T => T ∉ before ++ [owner] :=
        List.filter_cons_of_pos (by simp [h])
      rw [hf]
      exact (sealTarget_visits host h
        (sealStruct_enters hwf (before ++ [owner]) target h (back_append hback hedge))).map₂ hrest
        fun fields others => fields ++ others
termination_by (raw.remaining (before ++ [owner]), sizeOf embeds)

theorem sealFields_seals (hwf : raw.WellFormed) (before : List String) (owner : String)
    (howner : owner ∉ before)
    (hback : ∀ n ∈ before ++ [owner], ReflTransGen raw.Embeds n owner) (fields : List Field)
    (hs : ∀ T ∈ fieldTargets fields, raw.Embeds owner T) :
    Seals raw before owner (fieldTargets fields) (sealFields raw (before ++ [owner]) fields)
      fun c => resolveFields c (fun T => T ∉ before ++ [owner]) fields := by
  match fields with
  | [] =>
    rw [sealFields]
    exact .pure []
  | ⟨name, type, tag, doc, exported⟩ :: rest =>
    simp only [fieldTargets, List.mem_append] at hs
    have ht := sealType_seals hwf before owner howner hback type fun T hT => hs T (.inl hT)
    have hr := sealFields_seals hwf before owner howner hback rest fun T hT => hs T (.inr hT)
    rw [sealFields]
    exact ht.map₂ hr fun type rest => ⟨name, type, tag, doc, exported⟩ :: rest
termination_by (raw.remaining (before ++ [owner]), sizeOf fields)

theorem sealType_seals (hwf : raw.WellFormed) (before : List String) (owner : String)
    (howner : owner ∉ before)
    (hback : ∀ n ∈ before ++ [owner], ReflTransGen raw.Embeds n owner) (type : FieldType)
    (hs : ∀ T ∈ type.targets, raw.Embeds owner T) :
    Seals raw before owner type.targets (sealType raw (before ++ [owner]) type)
      fun c => type.resolve c fun T => T ∉ before ++ [owner] := by
  match type with
  | .struct inner =>
    rw [sealType]
    exact (sealBody_seals hwf before owner howner hback inner hs).map FieldType.struct
  | .array (some element) =>
    rw [sealType]
    exact (sealType_seals hwf before owner howner hback element hs).map fun t =>
      FieldType.array (some t)
  | .map (some value) =>
    rw [sealType]
    exact (sealType_seals hwf before owner howner hback value hs).map fun t =>
      FieldType.map (some t)
  | .array none =>
    rw [sealType]
    exact .pure (FieldType.array none)
  | .map none =>
    rw [sealType]
    exact .pure (FieldType.map none)
  | .scalar s =>
    rw [sealType]
    exact .pure (FieldType.scalar s)
  | .named name =>
    rw [sealType]
    exact .pure (FieldType.named name)
termination_by (raw.remaining (before ++ [owner]), sizeOf type)

end

end Walk

/-! ## The whole table -/

/-- Sealing one struct after the other seals them all. -/
theorem forM_sealStruct {raw : Catalog} (hwf : raw.WellFormed) (names : List String) :
    ∀ c D, Inv raw [] c D → ∃ c' events,
      (names.forM fun name => sealStruct raw [] name List.not_mem_nil : Sealing Unit).Runs c () c'
        events ∧
      Inv raw [] c' (D ++ droppedEdges events) ∧ (∀ n ∈ c.names, n ∈ c'.names) ∧
      ∀ n ∈ names, n ∈ raw.names → n ∈ c'.names := by
  induction names with
  | nil =>
    intro c D hI
    exact ⟨c, [], .pure () c, by simpa [droppedEdges] using hI, fun _ h => h, by simp⟩
  | cons name rest ih =>
    intro c D hI
    have hback : ∀ n ∈ [] ++ [name], ReflTransGen raw.Embeds n name := by
      intro n hn
      rw [List.mem_singleton.1 hn]
    obtain ⟨c₁, e₁, hr₁, hI₁, hext, -, hname⟩ :=
      sealStruct_enters hwf [] name List.not_mem_nil hback c D hI
    obtain ⟨c₂, e₂, hr₂, hI₂, hsub, hrest⟩ := ih c₁ _ hI₁
    refine ⟨c₂, e₁ ++ e₂, hr₁.bind hr₂, ?_, fun n hn => hsub n ?_, fun n hn hraw => ?_⟩
    · rwa [droppedEdges_append, ← List.append_assoc]
    · obtain ⟨s, hs⟩ := Catalog.mem_names_iff.1 hn
      exact Catalog.mem_names_of_find? ((hext n hn).trans hs)
    · rcases List.mem_cons.1 hn with rfl | hn
      · exact hsub n (hname hraw)
      · exact hrest n hn hraw

end Sealing

open Sealing (keptFrom)

/-- Sealing a table is sealing its structs one after the other; nothing more is dropped. -/
theorem Catalog.seal_runs {raw c : Catalog} {e : List Event}
    (hr : (raw.names.forM fun name => sealStruct raw [] name List.not_mem_nil : Sealing Unit).Runs
      .empty () c e) :
    ∃ events : List Event, (∀ log, Id.run (raw.seal.run log) = (c, log ++ events)) ∧
      droppedEdges events = droppedEdges e := by
  refine ⟨e ++ [.catalogSealed c.size], fun log => ?_, ?_⟩
  · have hassoc : log ++ (e ++ [.catalogSealed c.size]) = (log ++ e).push (.catalogSealed c.size) :=
      Array.ext' (by simp)
    rw [hassoc, Catalog.seal, StateT.run_bind, Id.run_bind, hr log]
    rfl
  · simp [droppedEdges, Event.droppedEdge?]

/-- A run of sealing: the sealed table and the events, in terms of the invariant. -/
theorem Catalog.seal_inv {raw : Catalog} (hwf : raw.WellFormed) :
    ∃ (c : Catalog) (events : List Event),
      (∀ log, Id.run (raw.seal.run log) = (c, log ++ events)) ∧
      Sealing.Inv raw [] c (droppedEdges events) ∧ c.names = raw.names := by
  obtain ⟨c, e, hr, hI, -, hall⟩ := Sealing.forM_sealStruct hwf raw.names .empty [] (.empty raw)
  obtain ⟨events, hrun, hE⟩ := seal_runs hr
  refine ⟨c, events, hrun, hE ▸ hI, ?_⟩
  exact hI.ordered.eq_of_mem_iff hwf.ordered fun n => ⟨hI.mem_raw, fun hn => hall n hn hn⟩

/-- Sealing a table resolves its embeddings: every dropped edge lies on a cycle, the kept edges have
no cycle, and every struct is resolved over the kept edges. -/
theorem Catalog.seal_resolves (raw : Catalog) (hwf : raw.WellFormed) :
    ∃ (c : Catalog) (events : List Event),
      (∀ log, Id.run (raw.seal.run log) = (c, log ++ events)) ∧
      (∀ S T, (S, T) ∈ droppedEdges events → raw.Embeds S T ∧ ReflTransGen raw.Embeds T S) ∧
      (∀ S, ¬ TransGen (raw.Keeps (droppedEdges events)) S S) ∧
      ((∀ S, ¬ TransGen raw.Embeds S S) → droppedEdges events = []) ∧
      c.names = raw.names ∧
      c.structs = raw.structs.map (fun s => s.resolve c (keptFrom (droppedEdges events) s.name)) ∧
      ∀ T, T ∉ raw.names → c.fieldsOf T = [] := by
  obtain ⟨c, events, hrun, hI, hnames⟩ := seal_inv hwf
  refine ⟨c, events, hrun, hI.cycle, fun S => not_transGen_of_acc ?_, fun hacyclic => ?_, hnames,
    ?_, fun T hT => fieldsOf_eq_nil (hnames ▸ hT)⟩
  · by_cases hS : S ∈ c.names
    · exact hI.acc S hS
    · exact Sealing.acc_of_unknown (hnames ▸ hS)
  · refine List.eq_nil_iff_forall_not_mem.2 fun ⟨S, T⟩ hST => ?_
    obtain ⟨hedge, hback⟩ := hI.cycle S T hST
    exact hacyclic S (TransGen.head'_iff.2 ⟨T, hedge, hback⟩)
  · have hlen : c.structs.length = raw.structs.length := by
      simpa [names] using congrArg List.length hnames
    refine List.ext_getElem (by simpa using hlen) fun i hi hi' => ?_
    have hi₀ : i < raw.structs.length := hlen ▸ hi
    have hname : c.structs[i].name = raw.structs[i].name := by
      have := congrArg (·[i]?) hnames
      simpa [names, hi, hi₀] using this
    obtain ⟨s₀, hs₀, heq⟩ := hI.body _ _ (hI.ordered.find? (List.getElem_mem hi))
    rw [hname, hwf.ordered.find? (List.getElem_mem hi₀), Option.some.injEq] at hs₀
    subst hs₀
    rw [heq, List.getElem_map, hname]

/-- Two structs that embed each other, one of them from an inline struct in a list. -/
def mutualHosts : Catalog :=
  ⟨[⟨"A", [⟨"items", .array (some (.struct ⟨"object", [], false, ["B"]⟩)), ⟨[("json", "items")]⟩, "",
      true⟩], false, []⟩,
    ⟨"B", [⟨"id", .scalar .u64, ⟨[("json", "id")]⟩, "", true⟩], false, ["A"]⟩]⟩

/-- Of two structs that embed each other none is lost, and an edge is dropped. -/
theorem mutualHosts_resolves : mutualHosts.WellFormed ∧ ∃ (c : Catalog) (events : List Event),
    (∀ log, Id.run (mutualHosts.seal.run log) = (c, log ++ events)) ∧ c.names = ["A", "B"] ∧
      droppedEdges events ≠ [] := by
  have hwf : mutualHosts.WellFormed := ⟨by decide, by decide⟩
  obtain ⟨c, events, hrun, -, hacyclic, -, hnames, -⟩ := Catalog.seal_resolves mutualHosts hwf
  refine ⟨hwf, c, events, hrun, hnames, fun hnil => hacyclic "A" ?_⟩
  rw [hnil]
  have hAB : mutualHosts.Embeds "A" "B" := ⟨_, rfl, by decide⟩
  have hBA : mutualHosts.Embeds "B" "A" := ⟨_, rfl, by decide⟩
  exact (TransGen.single ⟨hAB, List.not_mem_nil⟩).tail ⟨hBA, List.not_mem_nil⟩

end ApiDecl
