import ApiDecl.Proofs.FunctionNames
import ApiDecl.Proofs.SilentFiles
import ApiDecl.Proofs.SourceTokens
import ApiDecl.Proofs.WordedItems

/-!
# Proofs: the source of routes declares nothing
-/

namespace ApiDecl

open Syntax Syntax.Parser
open Worded (IsWorded)

namespace SourceNames

variable {g : Grammar} {rest : List Token}

/-! ## Imports -/

theorem reads_importedPath {words : List String} (hwords : ∀ v ∈ words, v ∉ Peek.reservedWords)
    (hne : words ≠ []) (hcolons : Peek.symbol "::" rest = false)
    (has : Peek.keyword "as" rest = false) {n : Nat} (hn : words.length ≤ n) (allowRoot : Bool) :
    (raise n g (.useTree allowRoot)).Reads (pathTokens words ++ rest) rest := by
  induction words generalizing n allowRoot with
  | nil => exact absurd rfl hne
  | cons v words ih =>
    obtain ⟨n, rfl⟩ : ∃ m, n = m + 1 := ⟨n - 1, by simp at hn; omega⟩
    obtain ⟨hv, hwords⟩ := List.forall_mem_cons.1 hwords
    cases words with
    | nil => exact reads_importedName hv allowRoot hcolons has
    | cons w words =>
      have hrest := ih hwords (List.cons_ne_nil _ _) (Nat.le_of_succ_le_succ hn) false
      have htokens : pathTokens (v :: w :: words) ++ rest =
          .word v default :: (colons ++ (pathTokens (w :: words) ++ rest)) := by
        simp [pathTokens]
      rw [htokens]
      exact reads_importedStep hv allowRoot hrest

theorem isImport_path {words : List String} (hwords : ∀ v ∈ words, v ∉ Peek.reservedWords)
    (hne : words ≠ []) (hlength : words.length ≤ 10) :
    IsImport (raise 10 g) (pathTokens words) where
  relative later := by
    obtain ⟨v, words, rfl⟩ := List.exists_cons_of_ne_nil hne
    rfl
  reads later := reads_importedPath hwords hne rfl rfl hlength true

theorem isImport_routing : IsImport (raise 10 g)
    (pathTokens ["axum", "routing"] ++ (colons ++ [importedNames ["on"] "MethodFilter"])) where
  relative _ := rfl
  reads later := by
    have hnames : (raise 8 g (.useTree false)).Reads
        (importedNames ["on"] "MethodFilter" :: (symbolTokens ";".toList ++ later))
        (symbolTokens ";".toList ++ later) := reads_importedNames (by decide) (by decide)
    have hrouting : (raise 9 g (.useTree false)).Reads (.word "routing" default :: (colons ++
        (importedNames ["on"] "MethodFilter" :: (symbolTokens ";".toList ++ later))))
        (symbolTokens ";".toList ++ later) := reads_importedStep (by decide) false hnames
    have htokens : pathTokens ["axum", "routing"] ++
        (colons ++ [importedNames ["on"] "MethodFilter"]) ++ (symbolTokens ";".toList ++ later) =
        .word "axum" default :: (colons ++ (.word "routing" default :: (colons ++
          (importedNames ["on"] "MethodFilter" :: (symbolTokens ";".toList ++ later))))) := by
      simp [pathTokens]
    rw [htokens]
    exact reads_importedStep (by decide) true hrouting

/-! ## Calls -/

theorem isExpression_operand {operand : List Token} (h : IsOperand g operand) (hne : operand ≠ []) :
    IsExpression g.above.above operand := by
  have hcalls := isExpression_calls h hne (List.forall_mem_nil (IsCall g))
  rwa [List.flatMap_nil, List.append_nil] at hcalls

theorem isExpression_call {operand call : List Token} (h : IsOperand g operand) (hne : operand ≠ [])
    (hcall : IsCall g call) : IsExpression g.above.above (operand ++ call) := by
  have hcalls := isExpression_calls h hne (List.forall_mem_singleton.2 hcall)
  rwa [List.flatMap_cons, List.flatMap_nil, List.append_nil] at hcalls

theorem isSegment_method (method : HttpMethod) : IsSegment method.name := by
  cases method <;> exact .inl (by decide)

theorem isSegment_of_not_reserved {v : String} (hv : v ∉ Peek.reservedWords) :
    ∀ w ∈ [v], IsSegment w := List.forall_mem_singleton.2 (.inl hv)

theorem isOperand_name {v : String} (hv : v ∉ Peek.reservedWords) : IsOperand g (pathTokens [v]) :=
  isOperand_path (isSegment_of_not_reserved hv) (List.cons_ne_nil _ _)

theorem isCall_route {crate : List String} (hcrate : ∀ w ∈ crate, IsSegment w) (path : String)
    (method : HttpMethod) {name : String} (hname : name ∉ Peek.reservedWords) :
    IsCall (raise 7 g) (callTokens crate path method.name name) := by
  -- from the inside out: what is passed to the adapter, the adapter, and what is passed to the call
  have hclone : IsExpression (raise 3 g) (pathTokens ["srv"] ++ methodTokens "clone" [] none) :=
    isExpression_call (isOperand_name (by decide)) (List.cons_ne_nil _ _)
      (.method (by decide) (List.forall_mem_nil _) fun _ h => by cases h)
  have hservice : IsExpression (raise 3 g) (pathTokens ["S", name]) :=
    isExpression_operand (isOperand_path (List.forall_mem_cons.2
      ⟨.inl (by decide), isSegment_of_not_reserved hname⟩) (List.cons_ne_nil _ _))
      (List.cons_ne_nil _ _)
  have hhandle : IsExpression (raise 5 g) (pathTokens (crate ++ ["handle"]) ++ [argumentTokens
      [pathTokens ["srv"] ++ methodTokens "clone" [] none] (some (pathTokens ["S", name]))]) := by
    have hwords : ∀ w ∈ crate ++ ["handle"], IsSegment w :=
      List.forall_mem_append.2 ⟨hcrate, isSegment_of_not_reserved (by decide)⟩
    have hne : pathTokens (crate ++ ["handle"]) ≠ [] := by
      cases crate <;> exact List.cons_ne_nil _ _
    refine isExpression_call (isOperand_path hwords (by simp)) hne (.function ?_ ?_)
    · exact List.forall_mem_singleton.2 hclone
    · rintro _ ⟨⟩
      exact hservice
  have hfilter : IsExpression (raise 5 g) (pathTokens ["MethodFilter", method.name]) :=
    isExpression_operand (isOperand_path (List.forall_mem_cons.2 ⟨.inl (by decide),
      List.forall_mem_singleton.2 (isSegment_method method)⟩) (List.cons_ne_nil _ _))
      (List.cons_ne_nil _ _)
  refine .method (by decide) (List.forall_mem_cons.2 ⟨?_, List.forall_mem_singleton.2 ?_⟩)
    fun _ h => by cases h
  · exact isExpression_operand (isOperand_literal _) (List.cons_ne_nil _ _)
  · refine isExpression_call (isOperand_name (by decide)) (List.cons_ne_nil _ _) (.function ?_ ?_)
    · exact List.forall_mem_singleton.2 hfilter
    · rintro _ ⟨⟩
      exact hhandle

/-! ## Functions -/

/-- A type ends with the last parameter, and before a comma. -/
theorem endsType_parameter {later : List Token}
    (hlater : later = [] ∨ ∃ l, later = symbolTokens ",".toList ++ l) : EndsType later := by
  rcases hlater with rfl | ⟨l, rfl⟩ <;> exact ⟨⟨rfl, rfl⟩, rfl, rfl⟩

theorem isParameter_shared : IsParameter (raise 10 g) sharedTokens := by
  intro later hlater
  refine ⟨rfl, rfl, ?_⟩
  exact reads_parameter (by decide) (reads_genericType (by decide)
    (isSegment_of_not_reserved (by decide)) (List.cons_ne_nil _ _) true
    (endsType_parameter hlater)) rfl

theorem isParameter_router :
    IsParameter (raise 10 g) (parameterTokens "router" (pathTokens ["Router"])) := by
  intro later hlater
  refine ⟨rfl, rfl, ?_⟩
  exact reads_parameter (by decide) (reads_pathType
    (isSegment_of_not_reserved (by decide)) (List.cons_ne_nil _ _) true
    (endsType_parameter hlater)) rfl

theorem isFunction_tokens {name : String} (hname : name ∉ Peek.reservedWords)
    {parameters : List (List Token)} (hparameters : ∀ e ∈ parameters, IsParameter (raise 10 g) e)
    {service : List String} (hservice : ∀ w ∈ service, IsSegment w) (hne : service ≠ [])
    {content : List Token} (hcontent : IsBody (raise 9 g) content) :
    IsFunction (raise 10 g) (functionTokens name parameters service content) := by
  have hbounds : ∀ e ∈ pathTokens service ::
      [pathTokens ["Send"], pathTokens ["Sync"], TypeExpr.lifetimeTokens "static"],
      IsBound (raise 9 g) e := by
    have hbound : ∀ v, v ∉ Peek.reservedWords → IsBound (raise 9 g) (pathTokens [v]) := fun v hv =>
      isBound_path (isSegment_of_not_reserved hv) (List.cons_ne_nil _ _)
    exact List.forall_mem_cons.2 ⟨isBound_path hservice hne, List.forall_mem_cons.2
      ⟨hbound _ (by decide), List.forall_mem_cons.2 ⟨hbound _ (by decide),
        List.forall_mem_singleton.2 (isBound_lifetime _)⟩⟩⟩
  refine isFunction_signature hname hparameters (fun later => ?_) (fun later hlater => ?_) hcontent
  · exact reads_pathType (isSegment_of_not_reserved (by decide)) (List.cons_ne_nil _ _) true
      ⟨⟨rfl, rfl⟩, rfl, rfl⟩
  · exact reads_whereClause (.inl (by decide)) hbounds hlater

theorem isBody_router {crate : List String} (hcrate : ∀ w ∈ crate, IsSegment w) {g' : RouteGroup}
    (hroutes : ∀ r ∈ g'.routes, r.name ∉ Peek.reservedWords) :
    IsBody (raise 9 g) (pathTokens ["Router", "new"] ++ ([argumentTokens [] none] ::
      g'.routes.map fun r =>
        callTokens crate (routerPath (g'.fullPath r)) r.method.name r.name).flatMap id) := by
  refine isBody_calls (List.forall_mem_cons.2 ⟨.inl (by decide),
    isSegment_of_not_reserved (by decide)⟩) (List.cons_ne_nil _ _) ?_ rfl
  refine List.forall_mem_cons.2 ⟨.function (List.forall_mem_nil _) fun _ h => (by cases h), ?_⟩
  intro call hcall
  obtain ⟨r, hr, rfl⟩ := List.mem_map.1 hcall
  exact isCall_route hcrate _ r.method (hroutes r hr)

theorem isBody_merge {function : String} (hfunction : function ∉ Peek.reservedWords) :
    IsBody (raise 9 g) (pathTokens ["router"] ++ [methodTokens "merge" []
      (some (pathTokens [function] ++ [argumentTokens [] (some (pathTokens ["srv"]))]))].flatMap id) := by
  have hsrv : IsExpression (raise 5 g) (pathTokens ["srv"]) :=
    isExpression_operand (isOperand_name (by decide)) (List.cons_ne_nil _ _)
  have hrouter : IsExpression (raise 7 g)
      (pathTokens [function] ++ [argumentTokens [] (some (pathTokens ["srv"]))]) := by
    refine isExpression_call (isOperand_name hfunction) (List.cons_ne_nil _ _)
      (.function (List.forall_mem_nil _) ?_)
    rintro _ ⟨⟩
    exact hsrv
  refine isBody_calls (isSegment_of_not_reserved (by decide)) (List.cons_ne_nil _ _)
    (List.forall_mem_singleton.2 (.method (by decide) (List.forall_mem_nil _) ?_)) rfl
  rintro _ ⟨⟩
  exact hrouter

/-! ## The file -/

/-- What stands in the source is read as an item that declares nothing. -/
def IsQuietItem (g : Grammar) (tokens : List Token) : Prop :=
  tokens ≠ [] ∧ ∀ later, (item g).Declares (tokens ++ later) later

theorem isQuietItem_import {tree : List Token} (h : IsImport g tree) :
    IsQuietItem g (importTokens tree) :=
  ⟨List.cons_ne_nil _ _, fun later => @declares_item g _ _ [] rfl (reads_importItem h later)⟩

theorem isQuietItem_function {tokens : List Token} (h : IsFunction g tokens)
    (comments : List String) : IsQuietItem g (comments.flatMap documentationTokens ++ tokens) := by
  obtain ⟨behind, htokens⟩ := h.starts
  refine ⟨?_, fun later => ?_⟩
  · rw [htokens]
    simp
  · rw [List.append_assoc]
    refine declares_item ?_ (reads_functionItem h later)
    rw [htokens]
    rfl

/-- The names of a group can stand in the source, and none of them is reserved there. -/
structure IsNameable (g : RouteGroup) : Prop extends IsWritable g where
  nameFree : g.name ∉ Peek.reservedWords
  routeFree : ∀ r ∈ g.routes, r.name ∉ Peek.reservedWords

theorem isQuietItem_block {module crate : List String} (hmodule : ∀ w ∈ module, IsSegment w)
    (hcrate : ∀ w ∈ crate, IsSegment w) {group : RouteGroup} (hgroup : IsNameable group) :
    ∀ e ∈ blockTokens module crate group, IsQuietItem (raise 10 g) e := by
  have hservice : ∀ w ∈ module ++ [group.name], IsSegment w :=
    List.forall_mem_append.2 ⟨hmodule, isSegment_of_not_reserved hgroup.nameFree⟩
  have hne : module ++ [group.name] ≠ [] := by simp
  have hroutes := (isIdentifier_routesFunction hgroup.name).2
  have hadd := (isIdentifier_addFunction hgroup.name).2
  refine List.forall_mem_cons.2 ⟨?_, List.forall_mem_singleton.2 ?_⟩
  · refine isQuietItem_function (isFunction_tokens hroutes ?_ hservice hne
      (isBody_router hcrate hgroup.routeFree)) [_]
    exact List.forall_mem_singleton.2 isParameter_shared
  · refine isQuietItem_function (isFunction_tokens hadd ?_ hservice hne (isBody_merge hroutes)) []
    exact List.forall_mem_cons.2 ⟨isParameter_router, List.forall_mem_singleton.2 isParameter_shared⟩

theorem isQuietItem_source {module crate : List String} (hmodule : ∀ w ∈ module, IsSegment w)
    (hcrate : ∀ w ∈ crate, IsSegment w) {groups : List RouteGroup}
    (hgroups : ∀ group ∈ groups, IsNameable group) :
    ∀ e ∈ sourceTokens module crate groups, IsQuietItem (raise 10 g) e := by
  refine List.forall_mem_append.2 ⟨?_, fun e he => ?_⟩
  · refine List.forall_mem_cons.2 ⟨?_, List.forall_mem_cons.2 ⟨?_, List.forall_mem_singleton.2 ?_⟩⟩
    · exact isQuietItem_import (isImport_path (by decide) (List.cons_ne_nil _ _) (by decide))
    · exact isQuietItem_import isImport_routing
    · exact isQuietItem_import (isImport_path (by decide) (List.cons_ne_nil _ _) (by decide))
  · obtain ⟨group, hgroup, he⟩ := List.mem_flatMap.1 he
    exact isQuietItem_block hmodule hcrate (hgroups group hgroup) e he

theorem structsOf_of_quiet {items : List Item} (h : ∀ i ∈ items, IsQuiet i) :
    Item.structsOf items = [] ∧ Item.traitsOf items = [] := by
  induction items with
  | nil => exact ⟨rfl, rfl⟩
  | cons i items ih =>
    obtain ⟨⟨hstructs, htraits⟩, hitems⟩ := List.forall_mem_cons.1 h
    obtain ⟨hstructs', htraits'⟩ := ih hitems
    rw [Item.structsOf, Item.traitsOf, hstructs, htraits, hstructs', htraits']
    exact ⟨rfl, rfl⟩

/-- A source of routes can be parsed and declares nothing, if the names in it can stand there. -/
theorem parse_render {names : SourceNames} {module crate : List String}
    (hmodule : IsPathOf module names.protoModule) (hcrate : IsPathOf crate names.runtimeCrate)
    {groups : List RouteGroup} (hgroups : ∀ group ∈ groups, IsNameable group) (path : String) :
    ∃ f, SourceFile.parse path (names.render groups).value = .ok f ∧ f.IsSilent := by
  have hfits := fitAll_source (fun w hw => (hmodule.word w hw).1) (fun w hw => (hcrate.word w hw).1)
    fun group hgroup => (hgroups group hgroup).toIsWritable
  obtain ⟨tokens, htokens, hbare⟩ :=
    Lexer.tokenizeFile_pieces hfits (toList_render hmodule.toIsJoined hcrate.toIsJoined groups)
  rw [tokensAll_source] at hbare
  have hpiece := fun g => isQuietItem_source (g := g) (fun w hw => (hmodule.word w hw).2)
    (fun w hw => (hcrate.word w hw).2) hgroups
  have hne : tokens ≠ [] := by
    rintro rfl
    cases hbare
  obtain ⟨items, hitems, hquiet⟩ := exists_items hbare hne rfl hpiece
  obtain ⟨hstructs, htraits⟩ := structsOf_of_quiet hquiet
  refine ⟨⟨path, items⟩, ?_, ?_, ?_⟩
  · rw [SourceFile.parse, htokens]
    simp only [bind, Except.bind, hitems]
    rfl
  · rw [SourceFile.collected, SourceFile.structs, hstructs]
    rfl
  · rw [SourceFile.traits, htraits]
    rfl

/-! ## Compilations -/

theorem isPathOf_defaultProtoModule : IsPathOf ["crate", "proto"] defaultProtoModule :=
  ⟨⟨List.cons_ne_nil _ _, rfl⟩, by decide⟩

theorem isPathOf_defaultRuntimeCrate : IsPathOf ["apicat_rpc"] defaultRuntimeCrate :=
  ⟨⟨List.cons_ne_nil _ _, rfl⟩, by decide⟩

/-- The module of the services and the crate of the adapter are paths. -/
structure ArePaths (names : SourceNames) : Prop where
  protoModule : ∃ words, IsPathOf words names.protoModule
  runtimeCrate : ∃ words, IsPathOf words names.runtimeCrate

/-- The route can stand in a source: its name is not reserved, and every character of its path stands
for itself in a literal. -/
def IsUsable (g : RouteGroup) (r : Route) : Prop :=
  r.name ∉ Peek.reservedWords ∧ '"' ∉ (g.fullPath r).toList ∧ '\\' ∉ (g.fullPath r).toList

instance (g : RouteGroup) (r : Route) : Decidable (IsUsable g r) :=
  inferInstanceAs (Decidable (_ ∧ _ ∧ _))

/-- The source of some groups can be read again. If there are none, the names do not matter. -/
structure IsReadable (names : SourceNames) (groups : List RouteGroup) : Prop where
  paths : groups ≠ [] → names.ArePaths
  routes : ∀ g ∈ groups, ∀ r ∈ g.routes, IsUsable g r

theorem not_reserved_of_service {name : String}
    (h : serviceEnding.toList.isSuffixOf name.toList = true) : name ∉ Peek.reservedWords := by
  have hnone : ∀ w ∈ Peek.reservedWords, serviceEnding.toList.isSuffixOf w.toList = false := by
    decide +kernel
  intro hmem
  rw [hnone name hmem] at h
  cases h

/-- The names in a compilation are those of traits and methods, which are words in a parsed file. -/
theorem isNameable_of_mem_groups {files : List SourceFile}
    (hfiles : ∀ f ∈ files, IsWorded f.traits) {k : Compilation}
    (hk : (compile files).result = .ok k) {g : RouteGroup} (hg : g ∈ k.groups)
    (hroutes : ∀ r ∈ g.routes, IsUsable g r) : IsNameable g := by
  obtain ⟨s, hs, hdeclared⟩ := exists_of_mem_right (groups_declared hk) hg
  obtain ⟨f, hf, hs⟩ := List.mem_flatMap.1 hs
  obtain ⟨t, ht, rfl⟩ := List.mem_map.1 hs
  have hworded : IsIdentifier t.name ∧ IsWorded t.methods := hfiles f hf t (List.mem_filter.1 ht).1
  refine ⟨⟨?_, fun r hr => ⟨?_, fun c hc => ?_⟩⟩,
    not_reserved_of_service (service_of_mem_groups hk hg), fun r hr => (hroutes r hr).1⟩
  · rw [IsPlain, hdeclared.name]
    exact plainWord_plainName hworded.1.1
  · obtain ⟨m, hm, hr⟩ := hdeclared.exists_method hr
    have hmethod : IsIdentifier m.name ∧ _ := hworded.2 m hm
    rw [IsPlain, hr.name]
    exact plainWord_plainName hmethod.1.1
  · obtain ⟨-, hquote, hslash⟩ := hroutes r hr
    have hpath := hdeclared.isUnbroken_fullPath hr
    have hmem : ∀ d, d ≠ '/' → d ≠ '\x7b' → d ≠ '\x7d' → d ≠ ':' → c = d →
        d ∈ (g.fullPath r).toList := by
      rintro d hd hopen hclose hcolon rfl
      exact (mem_routerPath hd hopen hclose hcolon _).1 hc
    refine ⟨fun h => hquote ?_, fun h => hslash ?_, fun h => absurd (hpath '\r' ?_) (by decide)⟩
    all_goals exact hmem _ (by decide) (by decide) (by decide) (by decide) h

/-- The source of a compilation of parsed files can be parsed and declares nothing, if it can be
read again. -/
theorem IsReadable.parse_render {files : List SourceFile}
    (hfiles : ∀ f ∈ files, IsWorded f.traits) {k : Compilation}
    (hk : (compile files).result = .ok k) {names : SourceNames} (h : names.IsReadable k.groups)
    (path : String) :
    ∃ f, SourceFile.parse path (names.render k.groups).value = .ok f ∧ f.IsSilent := by
  have hgroups : ∀ g ∈ k.groups, IsNameable g := fun g hg =>
    isNameable_of_mem_groups hfiles hk hg (h.routes g hg)
  by_cases hnone : k.groups = []
  · have hsame : names.render k.groups =
        render ⟨defaultProtoModule, defaultRuntimeCrate⟩ k.groups := by
      rw [hnone]
      rfl
    rw [hsame]
    exact SourceNames.parse_render isPathOf_defaultProtoModule isPathOf_defaultRuntimeCrate hgroups path
  · obtain ⟨⟨module, hmodule⟩, crate, hcrate⟩ := h.paths hnone
    exact SourceNames.parse_render hmodule hcrate hgroups path

end SourceNames

end ApiDecl
