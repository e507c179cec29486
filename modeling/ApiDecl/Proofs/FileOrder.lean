import ApiDecl.Proofs.Classifying
import ApiDecl.Proofs.Success

/-!
# Proofs: the order of the files

If no struct comes from two files, the files may be put in any order: the collected table is the
same, since structs with different names may be added in any order, and so are the definitions. Each
file has groups of its own, which keep to the order of the files.
-/

namespace ApiDecl

open Compile Syntax

/-! ## Tables -/

namespace Catalog

theorem insert_comm {s t : StructDescriptor} (h : s.name ≠ t.name) (c : Catalog) :
    (c.insert s).insert t = (c.insert t).insert s :=
  congrArg Catalog.mk (putSorted_comm h.symm c.structs)

theorem insertAll_insert {s : StructDescriptor} {l : List StructDescriptor}
    (h : ∀ t ∈ l, s.name ≠ t.name) (c : Catalog) :
    (c.insert s).insertAll l = (c.insertAll l).insert s := by
  induction l generalizing c with
  | nil => rfl
  | cons t l ih =>
    have hcomm : (c.insert s).insert t = (c.insert t).insert s :=
      insert_comm (h t List.mem_cons_self) c
    have hrest := ih (fun u hu => h u (List.mem_cons_of_mem _ hu)) (c.insert t)
    rw [insertAll, List.foldl_cons, hcomm]
    exact hrest

/-- Structs with different names may be added in any order. -/
theorem insertAll_comm {l l' : List StructDescriptor} (h : ∀ s ∈ l, ∀ t ∈ l', s.name ≠ t.name)
    (c : Catalog) : (c.insertAll l).insertAll l' = (c.insertAll l').insertAll l := by
  induction l generalizing c with
  | nil => rfl
  | cons s l ih =>
    have hcomm : (c.insert s).insertAll l' = (c.insertAll l').insert s :=
      insertAll_insert (h s List.mem_cons_self) c
    have hrest := ih (fun t ht => h t (List.mem_cons_of_mem _ ht)) (c.insert s)
    rw [hcomm] at hrest
    exact hrest

/-- No two files have structs of one name for the table. -/
def OneFileEach (files : List SourceFile) : Prop :=
  ∀ f ∈ files, ∀ g ∈ files, ∀ s ∈ f.collected, ∀ t ∈ g.collected, s.name = t.name → f = g

/-- The table does not depend on the order of files with different structs. -/
theorem ofFiles_perm {files files' : List SourceFile} (hperm : files.Perm files')
    (hfiles : OneFileEach files) : ofFiles files = ofFiles files' := by
  refine hperm.foldl_eq' (fun f hf g hg c => ?_) Catalog.empty
  by_cases hfg : f = g
  · rw [hfg]
  · exact insertAll_comm (fun s hs t ht heq => hfg (hfiles f hf g hg s hs t ht heq)) c

/-! ## Groups -/

variable (c : Catalog)

theorem routeStruct?_steady (name : Option TypeName) : (c.routeStruct? name).Steady := by
  unfold routeStruct?
  split
  · exact Traced.steady_pure none
  · split
    · exact Traced.steady_pure _
    · exact (Traced.steady_note _).bind fun _ => Traced.steady_pure none

theorem parameters_steady (owner : String) (request : StructDescriptor) :
    (c.parameters owner request).Steady := by
  have hparameter : ∀ f place, (c.parameter? owner request.name f place).Steady := by
    intro f place
    unfold parameter?
    split
    · exact steady_pure none
    · split
      · exact (steady_note _).bind fun _ => steady_pure none
      · exact (steady_fieldSchema c f).bind fun _ => steady_pure _
  unfold parameters
  exact (Steady.mapM (fun f => Steady.mapM (hparameter f) _) _).bind fun _ => steady_pure _

theorem bodies_steady (body : Option StructDescriptor) : (body.mapM c.bodySchema).Steady := by
  cases body with
  | none => exact steady_pure none
  | some s => exact (steady_structSchema c s _).map some

theorem route_steady (file group : String) (m : MethodDecl) : (c.route file group m).Steady := by
  unfold route
  refine (steady_liftExcept _).bind fun doc => ?_
  split
  · refine (steady_liftExcept _).bind fun signature => ?_
    refine (routeStruct?_steady c _).lift.bind fun request => ?_
    refine (routeStruct?_steady c _).lift.bind fun answer => ?_
    have hparameters : (request.elim (return {})
        (c.parameters (group ++ "." ++ plainName m.name)) : Compile ParameterTable).Steady := by
      cases request with
      | none => exact steady_pure _
      | some s => exact parameters_steady c _ s
    refine hparameters.bind fun parameters => ?_
    refine (bodies_steady c _).bind fun requestBody => ?_
    refine (bodies_steady c answer).bind fun response => ?_
    exact (steady_note _).bind fun _ => steady_pure _
  · exact steady_throw _

theorem group_steady (file : String) (t : TraitDecl) : (c.group file t).Steady := by
  unfold group
  refine (steady_note _).bind fun _ => (steady_liftExcept _).bind fun doc => ?_
  exact (Steady.mapM (route_steady c file (plainName t.name)) t.methods).bind fun _ => steady_pure _

/-- The groups of one file. -/
def groupsOfFile (f : SourceFile) : Compile (List RouteGroup) :=
  (f.traits.filter isService).mapM (c.group f.path)

theorem groupsOfFile_steady (f : SourceFile) : (c.groupsOfFile f).Steady :=
  Steady.mapM (group_steady c f.path) _

theorem groups_steady (files : List SourceFile) : (c.groups files).Steady := by
  unfold groups
  refine (Steady.mapM (groupsOfFile_steady c) files).bind fun found => ?_
  exact (steady_note _).bind fun _ => steady_pure _

theorem groups_result (files : List SourceFile) :
    (c.groups files).result =
      List.flatten <$> files.mapM fun f => (c.groupsOfFile f).result := by
  have hsteady : ∀ found : List (List RouteGroup), (do
      liftM (note (.routesDone found.flatten.length (routeCount found.flatten)))
      return found.flatten : Compile (List RouteGroup)).Steady := fun found =>
    (steady_note _).bind fun _ => steady_pure _
  have hgroups : c.groups files = files.mapM c.groupsOfFile >>= fun found => do
      liftM (note (.routesDone found.flatten.length (routeCount found.flatten)))
      return found.flatten := rfl
  rw [hgroups, result_bind hsteady, result_mapM (groupsOfFile_steady c), map_eq_pure_bind]
  rfl

/-- Some files have groups if each of them has; these are the groups then, in the order of the
files. -/
theorem groups_ok_iff {files : List SourceFile} {gs : List RouteGroup} :
    (c.groups files).result = .ok gs ↔ ∃ groupsOf : SourceFile → List RouteGroup,
      (∀ f ∈ files, (c.groupsOfFile f).result = .ok (groupsOf f)) ∧ gs = files.flatMap groupsOf := by
  rw [groups_result]
  constructor
  · intro h
    cases hfound : files.mapM fun f => (c.groupsOfFile f).result with
    | error e =>
      rw [hfound] at h
      cases h
    | ok found =>
      rw [hfound] at h
      obtain rfl : found.flatten = gs := Except.ok.inj h
      have hfiles := forall₂_of_mapM_ok hfound
      let groupsOf (f : SourceFile) : List RouteGroup :=
        (c.groupsOfFile f).result.toOption.getD []
      have hgroupsOf : ∀ f gs, (c.groupsOfFile f).result = .ok gs → groupsOf f = gs := by
        intro f gs hgs
        simp [groupsOf, hgs, Except.toOption]
      refine ⟨groupsOf, fun f hf => ?_, ?_⟩
      · obtain ⟨gs, -, hgs⟩ := exists_of_mem_left hfiles hf
        rw [hgs, hgroupsOf f gs hgs]
      · have hmap : files.map groupsOf = found.map id := map_eq_of_forall₂ (hfiles.imp hgroupsOf)
        rw [List.flatMap, hmap, List.map_id]
  · rintro ⟨groupsOf, hgroups, rfl⟩
    have hfound : List.Forall₂ (fun f gs => (c.groupsOfFile f).result = .ok gs) files
        (files.map groupsOf) := by
      rw [List.forall₂_map_right_iff]
      exact List.forall₂_same.2 hgroups
    rw [mapM_ok_of_forall₂ hfound]
    rfl

end Catalog

/-! ## Compiling -/

/-- What compiling gives: the sealed table, its definitions and its groups, or the first error. -/
theorem compile_result (files : List SourceFile) :
    (compile files).result =
      (Catalog.collect files).value.definitions.result >>= fun definitions =>
        ((Catalog.collect files).value.groups files).result >>= fun groups =>
          .ok ⟨(Catalog.collect files).value, definitions, groups⟩ := by
  have hreturn : ∀ c definitions groups, (pure ⟨c, definitions, groups⟩ : Compile Compilation).Steady :=
    fun _ _ _ => steady_pure _
  have hgroups : ∀ (c : Catalog) definitions, (do
      let groups ← c.groups files
      return ⟨c, definitions, groups⟩ : Compile Compilation).Steady := fun c definitions =>
    (Catalog.groups_steady c files).bind (hreturn c definitions)
  have hroutes : ∀ (c : Catalog) definitions, (do
      liftM (note .routesStarted)
      let groups ← c.groups files
      return ⟨c, definitions, groups⟩ : Compile Compilation).Steady := fun c definitions =>
    (steady_note _).bind fun _ => hgroups c definitions
  have hdefinitions : ∀ c : Catalog, (do
      let definitions ← c.definitions
      liftM (note .routesStarted)
      let groups ← c.groups files
      return ⟨c, definitions, groups⟩ : Compile Compilation).Steady := fun c =>
    (Catalog.steady_definitions c).bind (hroutes c)
  have hcollect := (Catalog.collect_steady files).lift.bind hdefinitions
  unfold compile
  rw [result_bind fun _ => hcollect, result_note, result_bind hdefinitions, Traced.result_lift]
  rw [ok_bind, ok_bind, result_bind (hroutes _)]
  refine bind_congr fun definitions => ?_
  rw [result_bind fun _ => hgroups _ definitions, result_note, ok_bind,
    result_bind (hreturn _ definitions)]
  rfl

/-- Compiling succeeds if the definitions and the groups of the sealed table do. -/
theorem compile_ok_iff {files : List SourceFile} {k : Compilation} :
    (compile files).result = .ok k ↔ k.catalog = (Catalog.collect files).value ∧
      k.catalog.definitions.result = .ok k.definitions ∧
      (k.catalog.groups files).result = .ok k.groups := by
  obtain ⟨catalog, definitions, groups⟩ := k
  rw [compile_result]
  constructor
  · intro h
    cases hdefinitions : (Catalog.collect files).value.definitions.result with
    | error e =>
      rw [hdefinitions] at h
      cases h
    | ok found =>
      cases hgroups : ((Catalog.collect files).value.groups files).result with
      | error e =>
        rw [hdefinitions, hgroups] at h
        cases h
      | ok found' =>
        rw [hdefinitions, hgroups] at h
        cases h
        exact ⟨rfl, hdefinitions, hgroups⟩
  · rintro ⟨rfl, hdefinitions, hgroups⟩
    dsimp only at hdefinitions hgroups
    rw [hdefinitions, hgroups]
    rfl

/-- The order of the files does not matter, as long as no two of them have structs of one name: the
sealed table and its definitions are the same, and if compiling succeeds it does so in every order,
with the groups of the files in that order. -/
theorem compile_perm {files files' : List SourceFile} (hperm : files.Perm files')
    (hfiles : Catalog.OneFileEach files) :
    (Catalog.collect files).value = (Catalog.collect files').value ∧
      (do (← Catalog.collect files).definitions : Compile (List Definition)).result =
        (do (← Catalog.collect files').definitions : Compile (List Definition)).result ∧
      ∀ k, (compile files).result = .ok k → ∃ (k' : Compilation)
        (groupsOf : SourceFile → List RouteGroup), (compile files').result = .ok k' ∧
          k'.catalog = k.catalog ∧ k'.definitions = k.definitions ∧
          (∀ f ∈ files, (k.catalog.groupsOfFile f).result = .ok (groupsOf f)) ∧
          k.groups = files.flatMap groupsOf ∧ k'.groups = files'.flatMap groupsOf := by
  have hcatalog : (Catalog.collect files).value = (Catalog.collect files').value := by
    rw [Catalog.collect_value, Catalog.collect_value, Catalog.ofFiles_perm hperm hfiles]
  refine ⟨hcatalog, ?_, fun k hk => ?_⟩
  · rw [result_bind Catalog.steady_definitions, result_bind Catalog.steady_definitions,
      Traced.result_lift, Traced.result_lift, hcatalog]
  · obtain ⟨hcollect, hdefinitions, hgroups⟩ := compile_ok_iff.1 hk
    obtain ⟨groupsOf, hfile, hflat⟩ := (Catalog.groups_ok_iff k.catalog).1 hgroups
    have hgroups' : (k.catalog.groups files').result = .ok (files'.flatMap groupsOf) :=
      (Catalog.groups_ok_iff k.catalog).2
        ⟨groupsOf, fun f hf => hfile f (hperm.mem_iff.2 hf), rfl⟩
    have hk' : (compile files').result = .ok ⟨k.catalog, k.definitions, files'.flatMap groupsOf⟩ :=
      compile_ok_iff.2 ⟨hcollect.trans hcatalog, hdefinitions, hgroups'⟩
    exact ⟨_, groupsOf, hk', rfl, rfl, hfile, hflat, rfl⟩

/-- A file with a struct that is embedded elsewhere. -/
def baseFile : SourceFile :=
  ⟨"base.rs", [.struct ⟨[⟨⟨false, ["doc"]⟩, .value (some " @schema"), ⟨1, 1⟩⟩], "Base",
    some [⟨[⟨⟨false, ["api"]⟩, .list [.word "json" ⟨1, 7⟩, .mark '=' false ⟨1, 12⟩,
      .literal "\"base\"" ⟨1, 14⟩], ⟨1, 1⟩⟩], "base", true, .path false [.plain "i64"]⟩]⟩]⟩

/-- A file with a struct that embeds it, and a service that returns that. -/
def hostFile : SourceFile :=
  ⟨"host.rs", [
    .struct ⟨[⟨⟨false, ["doc"]⟩, .value (some " @schema"), ⟨1, 1⟩⟩], "Host",
      some [⟨[⟨⟨false, ["api"]⟩, .list [.word "flatten" ⟨1, 7⟩], ⟨1, 1⟩⟩], "base", true,
        .path false [.plain "Base"]⟩]⟩,
    .trait ⟨[], "HostService", [⟨[⟨⟨false, ["doc"]⟩, .value (some " @route GET /host"), ⟨9, 3⟩⟩],
      "host", [.path false [.plain "Context"], .tuple [] false],
      some (.path false [.generic "Result" false
        [.type (.path false [.plain "Host"]), .type (.path false [.plain "Error"])] false])⟩]⟩]⟩

/-- The two files declare different structs. -/
theorem oneFileEach_base_host : Catalog.OneFileEach [baseFile, hostFile] := by
  have hdeclared : ∀ d ∈ baseFile.structs, ∀ e ∈ hostFile.structs,
      plainName d.name ≠ plainName e.name := by decide
  have hne : ∀ s ∈ baseFile.collected, ∀ t ∈ hostFile.collected, s.name ≠ t.name := by
    intro s hs t ht
    obtain ⟨d, hd, hsd⟩ := name_of_collected hs
    obtain ⟨e, he, hte⟩ := name_of_collected ht
    rw [hsd, hte]
    exact hdeclared d hd e he
  intro f hf g hg s hs t ht heq
  simp only [List.mem_cons, List.not_mem_nil, or_false] at hf hg
  rcases hf with rfl | rfl <;> rcases hg with rfl | rfl
  · rfl
  · exact absurd heq (hne s hs t ht)
  · exact absurd heq.symm (hne t ht s hs)
  · rfl

/-- A base and its host compile alike in both orders of their files. -/
theorem base_host_compile : Catalog.OneFileEach [baseFile, hostFile] ∧
    (Catalog.collect [baseFile, hostFile]).value = (Catalog.collect [hostFile, baseFile]).value ∧
    ∃ k k', (compile [baseFile, hostFile]).result = .ok k ∧
      (compile [hostFile, baseFile]).result = .ok k' ∧ k'.catalog = k.catalog ∧
      k'.definitions = k.definitions := by
  obtain ⟨k, events, h⟩ :=
    (@compile_succeeds_of_marked [baseFile, hostFile] (by decide +kernel) (by decide +kernel)).outcome
  obtain ⟨hcatalog, -, hcompile⟩ := compile_perm (.swap hostFile baseFile []) oneFileEach_base_host
  have hk : (compile [baseFile, hostFile]).result = .ok k := congrArg Prod.fst h
  obtain ⟨k', _, hk', hsame, hdefs, -⟩ := hcompile k hk
  exact ⟨oneFileEach_base_host, hcatalog, k, k', hk, hk', hsame, hdefs⟩

end ApiDecl
