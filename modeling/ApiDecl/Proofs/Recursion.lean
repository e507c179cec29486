import ApiDecl.Proofs.Writing

/-!
# Proofs: recursion is detected

Where a schema is written for a type, every descent along inlining edges from the type ends
(`Catalog.Writes.acc`). Where none is written, the error tells a path to a struct on that path
(`Catalog.Returns`). So compiling fails just where a cycle of inlining edges is reached.
-/

namespace ApiDecl.Catalog

open Relation

variable {c : Catalog} {path : List String}

/-! ## Written schemas -/

mutual

/-- From a type with a schema every descent along inlining edges ends. -/
theorem Writes.acc {t : FieldType} {schema : Schema} (h : c.Writes t schema) :
    ∀ n, c.Unfolds t n → Acc (fun b a => c.Inlines a b) n := by
  intro n hn
  match h with
  | .inline (s := s) hd hg hs hw =>
    obtain ⟨-, t, ht, -, rfl⟩ := unfolds_named.1 hn
    obtain rfl := Option.some.inj (hg.symm.trans ht)
    -- the edges from the struct are those of its own schema
    refine Acc.intro _ fun m hm => hw.acc m ?_
    exact (inlines_iff (find?_of_get? hg)).1 hm
  | .reference hd hg hs =>
    obtain ⟨-, t, ht, hplain, -⟩ := unfolds_named.1 hn
    obtain rfl := Option.some.inj (hg.symm.trans ht)
    simp [hs] at hplain
  | .unknown hd hg =>
    obtain ⟨-, t, ht, -⟩ := unfolds_named.1 hn
    simp [hg] at ht
  | .dateTime hd =>
    obtain ⟨hd', -⟩ := unfolds_named.1 hn
    simp [hd] at hd'
  | .array _ hw => exact hw.acc n (unfolds_array.1 hn)
  | .struct hw => exact hw.acc n (unfolds_struct.1 hn)
  | .bytes (t := t) ht =>
    obtain ⟨m, s, hm, -⟩ := unfolds_array.1 hn
    cases hm <;> simp [FieldType.isByte] at ht
  | .scalar _ | .map _ | .list =>
    obtain ⟨m, s, hm, -⟩ := hn
    cases hm

theorem WritesFields.acc {start schema : Schema} {fields : List Field}
    (h : c.WritesFields start fields schema) :
    ∀ n, c.UnfoldsAny fields n → Acc (fun b a => c.Inlines a b) n := by
  rintro n ⟨f, hf, property, hp, hn⟩
  match h with
  | .done _ => simp at hf
  | .hidden hg hw =>
    rcases List.mem_cons.1 hf with hfg | hf
    · simp [hfg, hg] at hp
    · exact hw.acc n ⟨f, hf, property, hp, hn⟩
  | .property _ ht hw =>
    rcases List.mem_cons.1 hf with hfg | hf
    · exact ht.acc n (hfg ▸ hn)
    · exact hw.acc n ⟨f, hf, property, hp, hn⟩

end

/-! ## Chains that come back -/

/-- Behind the path, the chain follows inlining edges through structs that are no definitions to one
of the path or of the chain itself. -/
inductive Returns (c : Catalog) : List String → List String → Prop
  | here {path : List String} {n : String} (hn : c.IsPlain n) (hpath : n ∈ path) :
      Returns c path [n]
  | next {path rest : List String} {n m : String} (hn : c.IsPlain n) (hnm : c.Inlines n m)
      (hr : Returns c (path ++ [n]) (m :: rest)) : Returns c path (n :: m :: rest)

namespace Returns

variable {chain : List String}

theorem isChain (h : c.Returns path chain) : chain.IsChain c.Inlines := by
  induction h with
  | here => exact .singleton _
  | next hn hnm _ ih => exact .cons_cons hnm ih

theorem isPlain (h : c.Returns path chain) : ∀ n ∈ chain, c.IsPlain n := by
  induction h with
  | here hn hpath => simpa using hn
  | next hn hnm _ ih => exact List.forall_mem_cons.2 ⟨hn, ih⟩

/-- The last name of the chain occurs before. -/
theorem last_mem (h : c.Returns path chain) :
    ∃ init last, chain = init ++ [last] ∧ last ∈ path ++ init := by
  induction h with
  | here hn hpath => exact ⟨[], _, rfl, by simpa using hpath⟩
  | @next path rest n m hn hnm hr ih =>
    obtain ⟨init, last, hchain, hlast⟩ := ih
    refine ⟨n :: init, last, by rw [hchain, List.cons_append], ?_⟩
    simpa using hlast

/-- A chain that comes back behind a single name makes a lasso with it. -/
theorem isLasso {start n : String} {rest : List String} (hedge : c.Inlines start n)
    (h : c.Returns [start] (n :: rest)) : c.IsLasso start (start :: n :: rest) where
  starts := rfl
  edges := .cons_cons hedge h.isChain
  returns := by
    obtain ⟨init, last, hchain, hlast⟩ := h.last_mem
    have hplain : ∀ m ∈ init ++ [last], c.IsPlain m := hchain ▸ h.isPlain
    rw [hchain]
    rcases List.mem_cons.1 hlast with rfl | hlast
    · refine ⟨[], last, init, rfl, fun m hm => hplain m ?_⟩
      simpa [or_comm] using hm
    · obtain ⟨before, cycle, rfl⟩ := List.append_of_mem hlast
      refine ⟨start :: before, last, cycle, by simp, fun m hm => hplain m ?_⟩
      simp only [List.mem_append, List.mem_cons] at hm ⊢
      tauto

end Returns

/-! ## What compiling gives -/

/-- A result of compiling behind a path: a schema that is written, or the error that tells the path
and a chain behind it that starts at one of the given names and comes back. -/
def Explains (c : Catalog) (path : List String) (start : String → Prop) (written : Schema → Prop) :
    Except Error Schema → Prop
  | .ok schema => written schema
  | .error e => ∃ n rest, e = .recursion (path ++ n :: rest) ∧ start n ∧ c.Returns path (n :: rest)

namespace Explains

variable {start start' : String → Prop} {written written' : Schema → Prop}
  {r : Except Error Schema}

theorem mono (h : c.Explains path start written r) (hs : ∀ n, start n → start' n)
    (hw : ∀ schema, written schema → written' schema) : c.Explains path start' written' r := by
  cases r with
  | ok schema => exact hw schema h
  | error e =>
    obtain ⟨n, rest, he, hn, hr⟩ := h
    exact ⟨n, rest, he, hs n hn, hr⟩

theorem bind {f : Schema → Except Error Schema} (h : c.Explains path start written r)
    (hf : ∀ schema, written schema → c.Explains path start written' (f schema)) :
    c.Explains path start written' (r >>= f) := by
  cases r with
  | ok schema => exact hf schema h
  | error e => exact h

/-- A struct that is written out comes to the end of the path. -/
theorem leave {s : StructDescriptor} (hs : c.find? s.name = some s) (hd : s.isDefinition = false)
    (h : c.Explains (path ++ [s.name]) (c.Unfolds (.struct s)) written r) :
    c.Explains path (· = s.name) written r := by
  cases r with
  | ok schema => exact h
  | error e =>
    obtain ⟨n, rest, he, hn, hr⟩ := h
    refine ⟨s.name, n :: rest, ?_, rfl, .next ⟨s, hs, hd⟩ ((inlines_iff hs).2 hn) hr⟩
    simpa using he

/-- Without cycles there is a schema, behind a path that is empty or a struct that is started with. -/
theorem ok_of_acyclic (hacyclic : ∀ n, ¬ TransGen c.Inlines n n)
    (hpath : ∀ a ∈ path, ∀ n, start n → c.Inlines a n) (h : c.Explains path start written r) :
    ∃ schema, r = .ok schema ∧ written schema := by
  cases r with
  | ok schema => exact ⟨schema, rfl, h⟩
  | error e =>
    obtain ⟨n, rest, -, hn, hreturns⟩ := h
    obtain ⟨init, last, hchain, hlast⟩ := hreturns.last_mem
    have hedges := hreturns.isChain
    refine absurd ?_ (hacyclic last)
    -- the chain comes back to the path, which leads to its first name, or to itself
    rcases List.mem_append.1 hlast with hlast | hlast
    · have hchain' : (last :: n :: rest).IsChain c.Inlines := .cons_cons (hpath last hlast n hn) hedges
      refine transGen_of_isChain hchain' last ?_
      simp [hchain]
    · obtain ⟨before, cycle, rfl⟩ := List.append_of_mem hlast
      rw [hchain, List.append_assoc] at hedges
      exact transGen_of_isChain hedges.right_of_append last (by simp)

end Explains

section Compiling

variable (c : Catalog)

mutual

/-- The schema of a struct written out behind the path, or a chain to a struct of the path. -/
theorem objectSchema_explains (path : List String) (s : StructDescriptor) :
    c.Explains path (c.Unfolds (.struct s)) (c.Writes (.struct s)) (c.objectSchema path s).result := by
  match s with
  | ⟨name, fields, isDefinition, embeds⟩ =>
    rw [objectSchema_eq]
    refine (propertySchemas_explains path (.typed "object") fields).mono (fun n hn => ?_) ?_
    · exact unfolds_struct.2 hn
    · exact fun schema hw => .struct hw
termination_by (c.remaining path, sizeOf s)

theorem propertySchemas_explains (path : List String) (start : Schema) (fields : List Field) :
    c.Explains path (c.UnfoldsAny fields) (c.WritesFields start fields)
      (c.propertySchemas path start fields).result := by
  match fields with
  | [] =>
    rw [propertySchemas_nil]
    exact .done start
  | ⟨fieldName, type, tag, doc, exported⟩ :: rest =>
    have hrest : ∀ n, c.UnfoldsAny rest n →
        c.UnfoldsAny (⟨fieldName, type, tag, doc, exported⟩ :: rest) n := by
      rintro n ⟨f, hf, hn⟩
      exact ⟨f, List.mem_cons_of_mem _ hf, hn⟩
    match hf : Field.propertyName? ⟨fieldName, type, tag, doc, exported⟩ with
    | none =>
      rw [propertySchemas_hidden c path start rest hf]
      exact (propertySchemas_explains path start rest).mono hrest fun _ hw => .hidden hf hw
    | some name =>
      rw [propertySchemas_property c path start rest hf,
        Compile.result_bind fun value => steady_propertySchemas c path _ rest]
      have hhead : ∀ n, c.Unfolds type n →
          c.UnfoldsAny (⟨fieldName, type, tag, doc, exported⟩ :: rest) n := fun n hn =>
        ⟨_, List.mem_cons_self, name, hf, hn⟩
      have htype := (typeSchema_explains path type).mono hhead fun _ hw => hw
      refine htype.bind fun value hvalue => ?_
      exact (propertySchemas_explains path _ rest).mono hrest fun _ hw => .property hf hvalue hw
termination_by (c.remaining path, sizeOf fields)

theorem typeSchema_explains (path : List String) (t : FieldType) :
    c.Explains path (c.Unfolds t) (c.Writes t) (c.typeSchema path t).result := by
  match t with
  | .scalar s =>
    rw [typeSchema]
    exact .scalar s
  | .named n =>
    cases hd : n.isDateTime with
    | true =>
      rw [typeSchema_dateTime c path hd]
      exact .dateTime hd
    | false =>
      match hn : c.get? n with
      | none =>
        rw [typeSchema_unknown c path hd hn]
        exact .unknown hd hn
      | some s =>
        cases hs : s.isDefinition with
        | true =>
          rw [typeSchema_reference c path hd hn hs]
          exact .reference hd hn hs
        | false =>
          have hstart : ∀ m, m = s.name → c.Unfolds (.named n) m := by
            rintro m rfl
            exact unfolds_named.2 ⟨hd, s, hn, hs, rfl⟩
          have hfind := find?_of_get? hn
          by_cases hpath : s.name ∈ path
          · rw [typeSchema_again c path hd hn hs hpath]
            exact ⟨s.name, [], rfl, hstart _ rfl, .here ⟨s, hfind, hs⟩ hpath⟩
          · -- the path takes up one more name of the table, and there are only so many
            have := remaining_append_lt (name_mem_of_get? hn) hpath
            rw [typeSchema_inline c path hd hn hs hpath]
            have hinner := objectSchema_explains (path ++ [s.name]) s
            exact (hinner.leave hfind hs).mono hstart fun _ hw => .inline hd hn hs hw
  | .map value =>
    rw [typeSchema]
    exact .map value
  | .array none =>
    rw [typeSchema]
    exact .list
  | .array (some element) =>
    cases ht : element.isByte with
    | true =>
      rw [typeSchema_bytes c path ht]
      exact .bytes ht
    | false =>
      rw [typeSchema_array c path ht, Compile.result_map, map_eq_pure_bind]
      have helement := (typeSchema_explains path element).mono
        (fun n hn => unfolds_array.2 hn) fun _ hw => hw
      exact helement.bind fun schema hw => .array ht hw
  | .struct inner =>
    rw [typeSchema]
    exact objectSchema_explains path inner
termination_by (c.remaining path, sizeOf t)

end

end Compiling

/-! ## Compiled schemas are written -/

section Compiled

variable {t : FieldType} {s : StructDescriptor} {name : Option String} {σ : Schema}

theorem Explains.of_ok {start : String → Prop} {written : Schema → Prop} {r : Except Error Schema}
    (h : c.Explains path start written r) (hr : r = .ok σ) : written σ := by
  subst hr
  exact h

theorem writes_of_typeSchema (h : (c.typeSchema path t).result = .ok σ) : c.Writes t σ :=
  (c.typeSchema_explains path t).of_ok h

theorem writes_of_objectSchema (h : (c.objectSchema path s).result = .ok σ) :
    c.Writes (.struct s) σ := (c.objectSchema_explains path s).of_ok h

/-- A struct that is compiled in place is written out. -/
theorem writes_of_inlineSchema (h : (c.inlineSchema s name).result = .ok σ) :
    c.Writes (.struct s) σ := writes_of_objectSchema h

/-- The schema of a struct is a reference if the struct is a definition and has a name, and else the
struct is written out. -/
theorem structSchema_written (h : (c.structSchema s name).result = .ok σ) :
    (∃ n, name = some n ∧ s.isDefinition = true ∧ σ = .referTo (definitionId n)) ∨
      c.Writes (.struct s) σ := by
  rcases structSchema_reference_or_inline c s name with ⟨n, hname, hs, hschema⟩ | hschema
  · rw [hschema] at h
    cases h
    exact .inl ⟨n, hname, hs, rfl⟩
  · rw [hschema] at h
    exact .inr (writes_of_inlineSchema h)

end Compiled

/-! ## Detection -/

/-- A result that is an error just if there is a cycle, and then tells a chain that shows one. -/
structure Detects {α : Type} (cyclic : Prop) (shows : List String → Prop) (r : Except Error α) :
    Prop where
  fails_iff : (∃ e, r = .error e) ↔ cyclic
  chain : ∀ e, r = .error e → ∃ chain, e = .recursion chain ∧ shows chain

/-- Writing out a struct fails just if a cycle is reached from it. -/
theorem inlineSchema_detects {d : StructDescriptor} (hd : c.find? d.name = some d) :
    Detects (c.ReachesCycle d.name) (c.IsLasso d.name) (c.inlineSchema d (some d.name)).result := by
  have hexplains : c.Explains [d.name] (c.Unfolds (.struct d)) (c.Writes (.struct d))
      (c.inlineSchema d (some d.name)).result := c.objectSchema_explains [d.name] d
  cases hr : (c.inlineSchema d (some d.name)).result with
  | ok schema =>
    have hw : c.Writes (.struct d) schema := hexplains.of_ok hr
    have hacc : Acc (fun b a => c.Inlines a b) d.name :=
      Acc.intro _ fun m hm => hw.acc m ((inlines_iff hd).1 hm)
    refine { fails_iff := ⟨?_, ?_⟩, chain := ?_ }
    · rintro ⟨e, he⟩
      cases he
    · rintro ⟨n, hreach, hcycle⟩
      exact absurd hcycle (not_cycle_of_acc hacc hreach)
    · intro e he
      cases he
  | error e =>
    rw [hr] at hexplains
    obtain ⟨n, rest, rfl, hn, hreturns⟩ := hexplains
    have hlasso := hreturns.isLasso ((inlines_iff hd).2 hn)
    refine ⟨⟨fun _ => hlasso.reachesCycle, fun _ => ⟨_, rfl⟩⟩, fun e he => ?_⟩
    cases he
    exact ⟨_, rfl, hlasso⟩

/-- Definitions are the structs that are definitions, written out, in their order. -/
theorem definitions_written {defs : List Definition} (h : c.definitions.result = .ok defs) :
    List.Forall₂ (fun s d => d.id = definitionId s.name ∧ d.name = s.name ∧
      c.Writes (.struct s) d.schema) (c.structs.filter (·.isDefinition)) defs := by
  rw [result_definitions] at h
  refine (forall₂_of_mapM_ok h).imp fun s d hd => ?_
  rw [result_definition] at hd
  cases hr : (c.inlineSchema s (some s.name)).result with
  | error e => simp [hr] at hd
  | ok schema =>
    rw [hr] at hd
    cases hd
    exact ⟨rfl, rfl, writes_of_inlineSchema hr⟩

/-! ## Without cycles -/

section Acyclic

variable {c : Catalog} (hacyclic : ∀ n, ¬ TransGen c.Inlines n n)
include hacyclic

theorem typeSchema_ok (t : FieldType) :
    ∃ schema, (c.typeSchema [] t).result = .ok schema ∧ c.Writes t schema :=
  (c.typeSchema_explains [] t).ok_of_acyclic hacyclic fun _ h => absurd h List.not_mem_nil

theorem inlineSchema_ok {s : StructDescriptor} (hs : c.find? s.name = some s)
    (name : Option String) (hname : ∀ n ∈ name, n = s.name) :
    ∃ schema, (c.inlineSchema s name).result = .ok schema ∧ c.Writes (.struct s) schema := by
  refine (c.objectSchema_explains name.toList s).ok_of_acyclic hacyclic fun a ha n hn => ?_
  rw [hname a (Option.mem_toList.1 ha)]
  exact (inlines_iff hs).2 hn

theorem definitions_ok (hc : c.Ordered) : ∃ defs, c.definitions.result = .ok defs := by
  cases h : c.definitions.result with
  | ok defs => exact ⟨defs, rfl⟩
  | error e =>
    rw [result_definitions] at h
    obtain ⟨s, hs, he⟩ := exists_of_mapM_error h
    obtain ⟨schema, hok, -⟩ := inlineSchema_ok hacyclic (hc.find? (mem_definitions.1 hs).1)
      (some s.name) (by simp)
    simp [result_definition, hok] at he

end Acyclic

/-- Compiling detects recursion: the schema of a definition is a reference, that of any other struct
is an error just if a cycle of inlining edges is reached, and the definitions are an error just if
one is reached from one of them. -/
theorem schemas_detect_recursion (c : Catalog) (hc : c.Ordered) :
    (∀ d ∈ c.structs, d.isDefinition = true →
      (c.structSchema d (some d.name)).result = .ok (.referTo (definitionId d.name))) ∧
    (∀ d ∈ c.structs, d.isDefinition = false →
      Detects (c.ReachesCycle d.name) (c.IsLasso d.name)
        (c.structSchema d (some d.name)).result) ∧
    Detects (∃ d ∈ c.structs, d.isDefinition = true ∧ c.ReachesCycle d.name)
      (fun chain => ∃ d ∈ c.structs, d.isDefinition = true ∧ c.IsLasso d.name chain)
      c.definitions.result := by
  refine ⟨fun d _ hdef => ?_, fun d hd hdef => ?_, ?_⟩
  · rw [structSchema_definition _ hdef]
    rfl
  · rw [structSchema_plain _ hdef]
    exact inlineSchema_detects (hc.find? hd)
  · have hdetects : ∀ d ∈ c.structs, Detects (c.ReachesCycle d.name) (c.IsLasso d.name)
        (c.inlineSchema d (some d.name)).result := fun d hd => inlineSchema_detects (hc.find? hd)
    -- an error of the definitions is the error of writing out one of them
    have herror : ∀ e, c.definitions.result = .error e → ∃ d ∈ c.structs, d.isDefinition = true ∧
        (c.inlineSchema d (some d.name)).result = .error e := by
      intro e he
      rw [result_definitions] at he
      obtain ⟨d, hd, he⟩ := exists_of_mapM_error he
      obtain ⟨hd, hdef⟩ := mem_definitions.1 hd
      refine ⟨d, hd, hdef, ?_⟩
      rw [result_definition] at he
      cases hr : (c.inlineSchema d (some d.name)).result with
      | ok schema => simp [hr] at he
      | error e' => simpa [hr] using he
    refine { fails_iff := ⟨?_, ?_⟩, chain := ?_ }
    · rintro ⟨e, he⟩
      obtain ⟨d, hd, hdef, he⟩ := herror e he
      exact ⟨d, hd, hdef, (hdetects d hd).fails_iff.1 ⟨e, he⟩⟩
    · rintro ⟨d, hd, hdef, hcycle⟩
      obtain ⟨e, he⟩ := (hdetects d hd).fails_iff.2 hcycle
      cases hr : c.definitions.result with
      | error e => exact ⟨e, rfl⟩
      | ok ds =>
        rw [result_definitions] at hr
        have hmem := mem_definitions.2 ⟨hd, hdef⟩
        obtain ⟨b, -, hb⟩ := exists_of_mem_left (forall₂_of_mapM_ok hr) hmem
        simp [result_definition, he] at hb
    · intro e he
      obtain ⟨d, hd, hdef, he⟩ := herror e he
      obtain ⟨chain, rfl, hchain⟩ := (hdetects d hd).chain e he
      exact ⟨chain, rfl, d, hd, hdef, hchain⟩

/-- A definition with a list of nodes, and nodes that have a node as their next one. -/
def linkedNodes : Catalog :=
  ⟨[⟨"List", [⟨"nodes", .array (some (.named ⟨[], "Node"⟩)), ⟨[("json", "nodes")]⟩, "", true⟩],
      true, []⟩,
    ⟨"Node", [⟨"next", .named ⟨["list"], "Node"⟩, ⟨[("json", "next")]⟩, "", true⟩], false, []⟩]⟩

/-- The definition of the list is found to be recursive through its nodes. -/
theorem linkedNodes_recursive : linkedNodes.Ordered ∧
    ∃ chain, linkedNodes.definitions.result = .error (.recursion chain) ∧
      linkedNodes.IsLasso "List" chain := by
  have hc : linkedNodes.Ordered := by decide
  have hlist : linkedNodes.Inlines "List" "Node" :=
    ⟨_, rfl, ⟨[], "Node"⟩, _, .property List.mem_cons_self rfl (.element (.named _)), rfl, rfl, rfl, rfl⟩
  have hnode : linkedNodes.Inlines "Node" "Node" :=
    ⟨_, rfl, ⟨["list"], "Node"⟩, _, .property List.mem_cons_self rfl (.named _), rfl, rfl, rfl, rfl⟩
  have hdetects := (schemas_detect_recursion linkedNodes hc).2.2
  obtain ⟨e, he⟩ := hdetects.fails_iff.2
    ⟨_, List.mem_cons_self, rfl, "Node", .single hlist, .single hnode⟩
  obtain ⟨chain, rfl, d, hd, hdef, hchain⟩ := hdetects.chain e he
  refine ⟨hc, chain, he, ?_⟩
  have hname : d.name = "List" := by
    rcases List.mem_cons.1 hd with rfl | hd
    · rfl
    · simp_all [linkedNodes]
  exact hname ▸ hchain

end ApiDecl.Catalog
