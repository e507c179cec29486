import ApiDecl.Proofs.ParsingItems
import ApiDecl.Proofs.SourcePieces

/-!
# Proofs: the tokens of the source of routes

The pieces of the source of routes are read as the tokens of its items (`SourceNames.tokensAll_source`).
They fit if all names in them are words and the paths of the routes can stand between quotes
(`SourceNames.fitAll_source`).
-/

namespace ApiDecl

open Syntax Syntax.Lexer Syntax.Lexer.Piece

namespace SourceNames

/-! ## The tokens of the source -/

section Tokens

open Syntax.Parser Syntax.StringLiteral
open Syntax.TypeExpr (lifetimeTokens)

/-- The tokens of the call that adds a route. -/
def callTokens (crate : List String) (path method name : String) : List Token :=
  methodTokens "route" [[.literal ("\"" ++ path ++ "\"") default],
    pathTokens ["on"] ++ [argumentTokens [pathTokens ["MethodFilter", method]]
      (some (pathTokens (crate ++ ["handle"]) ++ [argumentTokens
        [pathTokens ["srv"] ++ methodTokens "clone" [] none] (some (pathTokens ["S", name]))]))]] none

/-- The tokens of a function. -/
def functionTokens (name : String) (parameters : List (List Token)) (service : List String)
    (content : List Token) : List Token :=
  .word "pub" default :: (signatureTokens name parameters (pathTokens ["Router"])
    (whereTokens "S" (pathTokens service)
      [pathTokens ["Send"], pathTokens ["Sync"], lifetimeTokens "static"]) ++
    [.group .brace content default default])

/-- The tokens of a service that is shared, as a parameter. -/
def sharedTokens : List Token := parameterTokens "srv" (genericTokens "Arc" ["S"])

/-- The tokens of the items of a block. -/
def blockTokens (module crate : List String) (g : RouteGroup) : List (List Token) :=
  [[spell (" Routes of `" ++ g.name ++
      "` on their own router, for group-scoped layers.").toList].flatMap documentationTokens ++
    functionTokens (routesFunction g.name) [sharedTokens] (module ++ [g.name])
      (pathTokens ["Router", "new"] ++ ([argumentTokens [] none] :: g.routes.map fun r =>
        callTokens crate (routerPath (g.fullPath r)) r.method.name r.name).flatMap id),
  functionTokens (addFunction g.name) [parameterTokens "router" (pathTokens ["Router"]),
    sharedTokens] (module ++ [g.name])
    (pathTokens ["router"] ++ [methodTokens "merge" [] (some (pathTokens [routesFunction g.name] ++
      [argumentTokens [] (some (pathTokens ["srv"]))]))].flatMap id)]

/-- The tokens of the imports. -/
def headerTokens : List (List Token) :=
  [importTokens (pathTokens ["std", "sync", "Arc"]),
    importTokens (pathTokens ["axum", "routing"] ++ (colons ++ [importedNames ["on"] "MethodFilter"])),
    importTokens (pathTokens ["axum", "Router"])]

theorem tokensAll_steps (words : List String) (rest : List Piece) :
    tokensAll (stepPieces words ++ rest) =
      (words.flatMap fun w => colons ++ [.word w default]) ++ tokensAll rest := by
  induction words with
  | nil => rfl
  | cons w words ih =>
    rw [List.flatMap_cons, List.append_assoc, ← ih]
    rfl

theorem tokensAll_path (words : List String) (rest : List Piece) :
    tokensAll (pathPieces words ++ rest) = pathTokens words ++ tokensAll rest := by
  cases words with
  | nil => rfl
  | cons v words => exact congrArg (.word v default :: ·) (tokensAll_steps words rest)

theorem tokensAll_pathPieces (words : List String) :
    tokensAll (pathPieces words) = pathTokens words := by
  have h := tokensAll_path words []
  rwa [List.append_nil, tokensAll, List.append_nil] at h

theorem pathTokens_singleton (v : String) : pathTokens [v] = [.word v default] := rfl

theorem tokensAll_call (crate : List String) (path method name : String)
    (rest : List Piece) : tokensAll (callPieces crate path method name ++ rest) =
      callTokens crate path method name ++ tokensAll rest := by
  simp [callPieces, newLine, List.replicate, tokensAll, tokens, isMark, tokensAll_path,
    tokensAll_pathPieces, pathTokens_singleton, callTokens, methodTokens, argumentTokens,
    symbolTokens]

theorem tokensAll_calls (crate : List String) (g : RouteGroup) (routes : List Route)
    (rest : List Piece) :
    tokensAll ((routes.flatMap fun r =>
        callPieces crate (routerPath (g.fullPath r)) r.method.name r.name) ++ rest) =
      (routes.map fun r =>
        callTokens crate (routerPath (g.fullPath r)) r.method.name r.name).flatMap id ++
        tokensAll rest := by
  induction routes with
  | nil => rfl
  | cons r routes ih =>
    rw [List.flatMap_cons, List.append_assoc, tokensAll_call, ih, List.map_cons, List.flatMap_cons,
      List.append_assoc]
    rfl

theorem tokensAll_function (name : String) {parameters : List Piece}
    {parameters' : List (List Token)} (hparameters : tokensAll parameters = listTokens parameters')
    (service : List String) (content rest : List Piece) :
    tokensAll (functionPieces name parameters service content ++ rest) =
      functionTokens name parameters' service (tokensAll content) ++ tokensAll rest := by
  simp [functionPieces, newLine, List.replicate, tokensAll, tokens, isMark, tokensAll_path,
    hparameters, functionTokens, signatureTokens, genericParameterTokens, whereTokens,
    conditionTokens, symbolTokens, pathTokens_singleton, lifetimeTokens, TypeExpr.wordToken,
    Text.apostrophe]

theorem tokensAll_shared : tokensAll (parameterPieces "srv" sharedPieces) = sharedTokens := by
  simp [parameterPieces, sharedPieces, sharedTokens, parameterTokens, genericTokens, tokensAll,
    tokens, isMark, symbolTokens, pathTokens_singleton]

theorem tokensAll_parameters : tokensAll (parameterPieces "router" [.word "Router"] ++
    [.mark ',', .gap ' '] ++ parameterPieces "srv" sharedPieces) =
    listTokens [parameterTokens "router" (pathTokens ["Router"]), sharedTokens] := by
  simp [parameterPieces, sharedPieces, sharedTokens, parameterTokens, genericTokens, tokensAll,
    tokens, isMark, symbolTokens, pathTokens_singleton, listTokens]

theorem tokensAll_block (module crate : List String) (g : RouteGroup) (rest : List Piece) :
    tokensAll (blockPieces module crate g ++ rest) =
      (blockTokens module crate g).flatten ++ tokensAll rest := by
  have hshared : tokensAll (parameterPieces "srv" sharedPieces) = listTokens [sharedTokens] :=
    tokensAll_shared
  have hfirst := tokensAll_function (routesFunction g.name) hshared
  have hsecond := tokensAll_function (addFunction g.name) tokensAll_parameters
  have hcontent : tokensAll (newLine 4 ++ pathPieces ["Router", "new"] ++ [.group .paren []] ++
      g.routes.flatMap (fun r =>
        callPieces crate (routerPath (g.fullPath r)) r.method.name r.name) ++ newLine 0) =
      pathTokens ["Router", "new"] ++ ([argumentTokens [] none] :: g.routes.map fun r =>
        callTokens crate (routerPath (g.fullPath r)) r.method.name r.name).flatMap id := by
    simp [newLine, List.replicate, tokensAll, tokens, tokensAll_path, tokensAll_calls,
      argumentTokens]
  have hmerge : tokensAll (newLine 4 ++ [.word "router", .mark '.', .word "merge", .group .paren
      [.word (routesFunction g.name), .group .paren [.word "srv"]]] ++ newLine 0) =
      pathTokens ["router"] ++ [methodTokens "merge" [] (some (pathTokens [routesFunction g.name] ++
        [argumentTokens [] (some (pathTokens ["srv"]))]))].flatMap id := by
    simp [newLine, List.replicate, tokensAll, tokens, isMark, methodTokens, argumentTokens,
      symbolTokens, pathTokens_singleton]
  have hdoc : ∀ (s : String) rest, tokensAll ([.doc s] ++ rest) =
      documentationTokens (spell s.toList) ++ tokensAll rest := fun _ _ => rfl
  have hline : ∀ rest, tokensAll (newLine 0 ++ rest) = tokensAll rest := fun _ => rfl
  rw [blockPieces, blockTokens]
  simp only [List.append_assoc] at hsecond hcontent hmerge ⊢
  rw [hline, hdoc, hfirst, hline, hsecond, hcontent, hmerge]
  simp

theorem tokensAll_header (rest : List Piece) :
    tokensAll (headerPieces ++ rest) = headerTokens.flatten ++ tokensAll rest := rfl

/-- The tokens of the items of the source. -/
def sourceTokens (module crate : List String) (groups : List RouteGroup) : List (List Token) :=
  headerTokens ++ groups.flatMap (blockTokens module crate)

theorem tokensAll_source (module crate : List String) (groups : List RouteGroup) :
    tokensAll (sourcePieces module crate groups) = (sourceTokens module crate groups).flatten := by
  have hblocks : tokensAll (groups.flatMap (blockPieces module crate)) =
      (groups.flatMap (blockTokens module crate)).flatten := by
    induction groups with
    | nil => rfl
    | cons g groups ih =>
      rw [List.flatMap_cons, tokensAll_block, ih, List.flatMap_cons, List.flatten_append]
  rw [sourcePieces, tokensAll_header, hblocks, sourceTokens, List.flatten_append]

end Tokens

/-! ## Fitting pieces -/

section Fitting

variable {rest : List Piece}

/-- A name that is a word without a raw marker. -/
def IsPlain (name : String) : Prop := Lexeme.plainWord name.toList = some (name.toList, [])

/-- The names and paths of a group can stand in a source. -/
structure IsWritable (g : RouteGroup) : Prop where
  name : IsPlain g.name
  route : ∀ r ∈ g.routes, IsPlain r.name ∧ ∀ c ∈ (routerPath (g.fullPath r)).toList, StandsForItself c

theorem fitAll_nil : FitAll [] := trivial

section Rules

variable {s : String} {c : Char}

theorem fitAll_loose {p : Piece} (hp : p.isTight = false) :
    FitAll (p :: rest) ↔ p.Fits ∧ FitAll rest :=
  ⟨fun h => ⟨h.1, h.2.2⟩, fun h => ⟨h.1, fun htight => absurd (hp ▸ htight) Bool.false_ne_true, h.2⟩⟩

theorem fitAll_tight {p : Piece} (hp : p.isTight = true) :
    FitAll (p :: rest) ↔ p.Fits ∧ rest.head?.any isTight = false ∧ FitAll rest :=
  ⟨fun h => ⟨h.1, h.2.1 hp, h.2.2⟩, fun h => ⟨h.1, fun _ => h.2.1, h.2.2⟩⟩

theorem fitAll_gap : FitAll (.gap c :: rest) ↔ c ∈ [' ', '\n'] ∧ FitAll rest := fitAll_loose rfl

theorem fitAll_mark : FitAll (.mark c :: rest) ↔ c ∈ plainMarks ∧ FitAll rest := fitAll_loose rfl

theorem fitAll_group {d : Delimiter} {content : List Piece} :
    FitAll (.group d content :: rest) ↔ FitAll content ∧ FitAll rest := fitAll_loose rfl

theorem fitAll_word :
    FitAll (.word s :: rest) ↔ IsWord s ∧ rest.head?.any isTight = false ∧ FitAll rest :=
  fitAll_tight rfl

theorem fitAll_steps {v : String} {words : List String} (hwords : ∀ w ∈ v :: words, IsWord w) :
    FitAll (.word v :: (stepPieces words ++ rest)) ↔
      rest.head?.any isTight = false ∧ FitAll rest := by
  have hcolon : ':' ∈ plainMarks := by decide
  induction words generalizing v with
  | nil => exact fitAll_word.trans (and_iff_right (hwords v List.mem_cons_self))
  | cons w words ih =>
    obtain ⟨hv, hwords⟩ := List.forall_mem_cons.1 hwords
    have hhead : (stepPieces (w :: words) ++ rest).head?.any isTight = false := rfl
    rw [fitAll_word, hhead, and_iff_right hv, and_iff_right rfl, stepPieces, List.flatMap_cons,
      List.append_assoc, List.cons_append, List.cons_append, fitAll_mark, fitAll_mark,
      and_iff_right hcolon, and_iff_right hcolon]
    exact ih hwords

/-- A path fits if it ends. -/
theorem fitAll_path {words : List String} (hwords : ∀ w ∈ words, IsWord w) (hne : words ≠ []) :
    FitAll (pathPieces words ++ rest) ↔ rest.head?.any isTight = false ∧ FitAll rest := by
  obtain ⟨v, words, rfl⟩ := List.exists_cons_of_ne_nil hne
  exact fitAll_steps hwords

theorem fitAll_pathPieces {words : List String} (hwords : ∀ w ∈ words, IsWord w)
    (hne : words ≠ []) : FitAll (pathPieces words) := by
  rw [← List.append_nil (pathPieces words), fitAll_path hwords hne]
  exact ⟨rfl, fitAll_nil⟩

theorem fitAll_newLine (indent : Nat) : FitAll (newLine indent ++ rest) ↔ FitAll rest := by
  have hblanks : FitAll (List.replicate indent (.gap ' ') ++ rest) ↔ FitAll rest := by
    induction indent with
    | zero => rfl
    | succ n ih =>
      rw [List.replicate_succ, List.cons_append, fitAll_gap, ih]
      exact and_iff_right (by decide)
  rw [newLine, List.cons_append, fitAll_gap, hblanks]
  exact and_iff_right (by decide)

theorem fitAll_lineEnd (indent : Nat) : FitAll (newLine indent) := by
  rw [← List.append_nil (newLine indent), fitAll_newLine]
  exact fitAll_nil

end Rules

theorem isWord_of_isPlain {name : String} (h : IsPlain name) : IsWord name := anyWord_of_plainWord h

/-- The marks of the source. -/
theorem mem_plainMarks : '+' ∈ plainMarks ∧ '-' ∈ plainMarks ∧ ':' ∈ plainMarks ∧ ';' ∈ plainMarks ∧
    ',' ∈ plainMarks ∧ '.' ∈ plainMarks ∧ '<' ∈ plainMarks ∧ '>' ∈ plainMarks := by
  decide

theorem fitAll_call {crate : List String} (hcrate : ∀ w ∈ crate, IsWord w) {path name : String}
    (hpath : ∀ c ∈ path.toList, StandsForItself c) (hname : IsPlain name) (method : HttpMethod)
    (rest : List Piece) : FitAll (callPieces crate path method.name name ++ rest) ↔ FitAll rest := by
  have hmethod : ∀ w ∈ ["MethodFilter", method.name], IsWord w := by cases method <;> decide
  have hhandle : ∀ w ∈ crate ++ ["handle"], IsWord w :=
    List.forall_mem_append.2 ⟨hcrate, by decide⟩
  have hservice : ∀ w ∈ ["S", name], IsWord w :=
    List.forall_mem_cons.2 ⟨by decide, List.forall_mem_singleton.2 (isWord_of_isPlain hname)⟩
  have hroute : IsWord "route" := by decide
  have hon : IsWord "on" := by decide
  have hsrv : IsWord "srv" := by decide
  have hclone : IsWord "clone" := by decide
  have hblank : ' ' ∈ [' ', '\n'] := by decide
  have hliteral : ∀ rest,
      FitAll (.literal path :: rest) ↔ rest.head?.any isTight = false ∧ FitAll rest :=
    fun rest => (fitAll_tight rfl).trans (and_iff_right hpath)
  simp only [callPieces, List.append_assoc, fitAll_newLine, fitAll_lineEnd, List.cons_append,
    List.nil_append, fitAll_gap, fitAll_mark, fitAll_word, fitAll_group, hliteral, fitAll_nil,
    fitAll_path hmethod (List.cons_ne_nil _ _), fitAll_path hhandle (by simp),
    fitAll_pathPieces hservice (List.cons_ne_nil _ _), hroute, hon, hsrv, hclone, hblank,
    mem_plainMarks, isTight, List.head?_cons, Option.any_some, true_and, and_true]

theorem fitAll_calls {crate : List String} (hcrate : ∀ w ∈ crate, IsWord w) (g : RouteGroup)
    {routes : List Route} (hroutes : ∀ r ∈ routes, IsPlain r.name ∧
      ∀ c ∈ (routerPath (g.fullPath r)).toList, StandsForItself c) (rest : List Piece) :
    FitAll ((routes.flatMap fun r =>
      callPieces crate (routerPath (g.fullPath r)) r.method.name r.name) ++ rest) ↔ FitAll rest := by
  induction routes with
  | nil => rfl
  | cons r routes ih =>
    obtain ⟨⟨hname, hpath⟩, hroutes⟩ := List.forall_mem_cons.1 hroutes
    rw [List.flatMap_cons, List.append_assoc, fitAll_call hcrate hpath hname, ih hroutes]

theorem fitAll_function {name : String} (hname : IsWord name) {service : List String}
    (hservice : ∀ w ∈ service, IsWord w) (hne : service ≠ []) {parameters content : List Piece}
    (hparameters : FitAll parameters) (hcontent : FitAll content) :
    FitAll (functionPieces name parameters service content ++ rest) ↔ FitAll rest := by
  have hpub : IsWord "pub" := by decide
  have hfn : IsWord "fn" := by decide
  have hS : IsWord "S" := by decide
  have hrouter : IsWord "Router" := by decide
  have hwhere : IsWord "where" := by decide
  have hsend : IsWord "Send" := by decide
  have hsync : IsWord "Sync" := by decide
  have hblank : ' ' ∈ [' ', '\n'] := by decide
  have hstatic : ∀ rest,
      FitAll (.lifetime "static" :: rest) ↔ rest.head?.any isTight = false ∧ FitAll rest :=
    fun rest => (fitAll_tight rfl).trans (and_iff_right (by rw [Fits]; decide))
  have hline : ∀ n rest, (newLine n ++ rest).head?.any isTight = false := fun _ _ => rfl
  simp only [functionPieces, List.append_assoc, fitAll_newLine, List.cons_append, List.nil_append,
    fitAll_gap, fitAll_mark, fitAll_word, fitAll_group, hstatic, fitAll_path hservice hne, hname,
    hparameters, hcontent, hpub, hfn, hS, hrouter, hwhere, hsend, hsync, hblank, hline,
    mem_plainMarks, isTight, List.head?_cons, Option.any_some, true_and]

theorem fitAll_shared : FitAll (parameterPieces "srv" sharedPieces) := by
  have hsrv : IsWord "srv" := by decide
  have harc : IsWord "Arc" := by decide
  have hS : IsWord "S" := by decide
  have hblank : ' ' ∈ [' ', '\n'] := by decide
  simp only [parameterPieces, sharedPieces, List.cons_append, List.nil_append, fitAll_gap,
    fitAll_mark, fitAll_word, fitAll_nil, hsrv, harc, hS, hblank, mem_plainMarks, isTight,
    List.head?_cons, Option.any_some, and_true]

theorem fitAll_parameters : FitAll (parameterPieces "router" [.word "Router"] ++
    [.mark ',', .gap ' '] ++ parameterPieces "srv" sharedPieces) := by
  have hrouter : IsWord "router" := by decide
  have hRouter : IsWord "Router" := by decide
  have hblank : ' ' ∈ [' ', '\n'] := by decide
  have hshared := fitAll_shared
  simp only [parameterPieces, List.cons_append, List.nil_append] at hshared ⊢
  simp only [fitAll_gap, fitAll_mark, fitAll_word, hrouter, hRouter, hblank, hshared,
    mem_plainMarks, isTight, List.head?_cons, Option.any_some, and_true]

theorem isLine_of_isPlain {name : String} (h : IsPlain name) : IsLine name := by
  intro c hc
  have htail := isWordTail_of_plainWord h c hc
  refine ⟨?_, ?_⟩
  all_goals
    rintro rfl
    exact absurd htail (by decide)

theorem fits_doc {name : String} (h : IsPlain name) :
    (Piece.doc (" Routes of `" ++ name ++ "` on their own router, for group-scoped layers.")).Fits := by
  have hbefore : IsLine " Routes of `" := List.all_iff_forall_prop.1 (by decide)
  have hbehind : IsLine "` on their own router, for group-scoped layers." :=
    List.all_iff_forall_prop.1 (by decide)
  refine ⟨?_, ?_⟩
  · rw [IsLine, String.toList_append, String.toList_append, List.forall_mem_append,
      List.forall_mem_append]
    exact ⟨⟨hbefore, isLine_of_isPlain h⟩, hbehind⟩
  · rw [String.toList_append, String.toList_append, List.append_assoc]
    rintro _ ⟨⟩
    decide

theorem fitAll_block {module crate : List String} (hmodule : ∀ w ∈ module, IsWord w)
    (hcrate : ∀ w ∈ crate, IsWord w) {g : RouteGroup} (hg : IsWritable g) :
    FitAll (blockPieces module crate g ++ rest) ↔ FitAll rest := by
  have hdoc : ∀ rest, FitAll ([.doc (" Routes of `" ++ g.name ++
      "` on their own router, for group-scoped layers.")] ++ rest) ↔ FitAll rest :=
    fun rest => (fitAll_loose rfl).trans (and_iff_right (fits_doc hg.name))
  have hservice : ∀ w ∈ module ++ [g.name], IsWord w :=
    List.forall_mem_append.2 ⟨hmodule, List.forall_mem_singleton.2 (isWord_of_isPlain hg.name)⟩
  have hroutes : IsWord (routesFunction g.name) := (isIdentifier_routesFunction hg.name).1
  have hadd : IsWord (addFunction g.name) := (isIdentifier_addFunction hg.name).1
  have hcontent : FitAll (newLine 4 ++ pathPieces ["Router", "new"] ++ [.group .paren []] ++
      g.routes.flatMap (fun r =>
        callPieces crate (routerPath (g.fullPath r)) r.method.name r.name) ++ newLine 0) := by
    have hnew : ∀ w ∈ ["Router", "new"], IsWord w := by decide
    simp only [List.append_assoc, fitAll_newLine, fitAll_path hnew (List.cons_ne_nil _ _),
      List.cons_append, List.nil_append, fitAll_group, fitAll_calls hcrate g hg.route, fitAll_lineEnd,
      fitAll_nil, List.head?_cons, Option.any_some, isTight, and_true]
  have hmerge : FitAll (newLine 4 ++ [.word "router", .mark '.', .word "merge", .group .paren
      [.word (routesFunction g.name), .group .paren [.word "srv"]]] ++ newLine 0) := by
    have hrouter : IsWord "router" := by decide
    have hword : IsWord "merge" := by decide
    have hsrv : IsWord "srv" := by decide
    simp only [List.append_assoc, fitAll_newLine, List.cons_append, List.nil_append, fitAll_mark,
      fitAll_word, fitAll_group, fitAll_lineEnd, fitAll_nil, hrouter, hword, hsrv, hroutes,
      mem_plainMarks, isTight, List.head?_cons, List.head?_nil, Option.any_some, Option.any_none,
      and_true]
  have hne : module ++ [g.name] ≠ [] := by simp
  have hfirst := fun rest => @fitAll_function rest _ hroutes _ hservice hne _ _ fitAll_shared hcontent
  have hsecond := fun rest => @fitAll_function rest _ hadd _ hservice hne _ _ fitAll_parameters hmerge
  rw [blockPieces]
  simp only [List.append_assoc] at hfirst hsecond ⊢
  rw [fitAll_newLine, hdoc, hfirst, fitAll_newLine, hsecond]

theorem fitAll_header : FitAll (headerPieces ++ rest) ↔ FitAll rest := by
  have hcomment : ∀ rest, FitAll (.comment " Code generated by apicat-from-source. DO NOT EDIT." ::
      rest) ↔ FitAll rest := by
    refine fun rest => (fitAll_loose rfl).trans (and_iff_right ⟨?_, ?_⟩)
    · exact List.all_iff_forall_prop.1 (by decide)
    · rintro _ ⟨⟩
      decide
  have hblank : ' ' ∈ [' ', '\n'] := by decide
  have huse : IsWord "use" := by decide
  have hon : IsWord "on" := by decide
  have hfilter : IsWord "MethodFilter" := by decide
  have harc : ∀ w ∈ ["std", "sync", "Arc"], IsWord w := by decide
  have hrouting : ∀ w ∈ ["axum", "routing"], IsWord w := by decide
  have hrouter : ∀ w ∈ ["axum", "Router"], IsWord w := by decide
  simp only [headerPieces, importPieces, List.append_assoc, fitAll_newLine, hcomment,
    List.cons_append, List.nil_append, fitAll_gap, fitAll_mark, fitAll_word, fitAll_group, fitAll_nil,
    fitAll_path harc (List.cons_ne_nil _ _), fitAll_path hrouting (List.cons_ne_nil _ _),
    fitAll_path hrouter (List.cons_ne_nil _ _), hblank, huse, hon, hfilter, mem_plainMarks, isTight,
    List.head?_cons, List.head?_nil, Option.any_some, Option.any_none, true_and, and_true]

theorem fitAll_source {module crate : List String} (hmodule : ∀ w ∈ module, IsWord w)
    (hcrate : ∀ w ∈ crate, IsWord w) {groups : List RouteGroup}
    (hgroups : ∀ g ∈ groups, IsWritable g) : FitAll (sourcePieces module crate groups) := by
  rw [sourcePieces, fitAll_header]
  induction groups with
  | nil => exact fitAll_nil
  | cons g groups ih =>
    obtain ⟨hg, hgroups⟩ := List.forall_mem_cons.1 hgroups
    rw [List.flatMap_cons, fitAll_block hmodule hcrate hg]
    exact ih hgroups

end Fitting

end SourceNames

end ApiDecl
