import ApiDecl.Proofs.FieldRemoval

/-!
# Proofs: what can stop a compilation

Types that mean nothing and tags that are malformed never stop a compilation: they leave a field or
an element out. What stops one is a directive, a method without a route or with a wrong signature,
or a struct that would have to be written out inside itself (`Error.IsDeclarationFault`).
-/

namespace ApiDecl

open Compile Syntax

variable {α β : Type} {P Q : Error → Prop}

/-! ## Errors of computations -/

/-- All errors that a computation may give have a property. -/
def Compile.Blames (P : Error → Prop) (x : Compile α) : Prop :=
  ∀ log e, (x.after log).1 = .error e → P e

namespace Compile.Blames

theorem lift (x : Traced α) : Compile.Blames P (liftM x : Compile α) := by
  intro log e he
  cases he

theorem pure (a : α) : Compile.Blames P (pure a) := by
  intro log e he
  cases he

theorem throw {e : Error} (h : P e) : Compile.Blames P (throw e : Compile α) := by
  intro log e' he
  cases he
  exact h

theorem ofExcept {r : Except Error α} (h : ∀ e, r = .error e → P e) :
    Compile.Blames P (liftExcept r : Compile α) := by
  cases r with
  | ok a => exact .pure a
  | error e => exact .throw (h e rfl)

theorem mono {x : Compile α} (hx : Compile.Blames P x) (h : ∀ e, P e → Q e) :
    Compile.Blames Q x := fun log e he => h e (hx log e he)

theorem of_steady {x : Compile α} (hx : x.Steady) (h : ∀ e, x.result = .error e → P e) :
    Compile.Blames P x := fun log e he => h e ((hx log).symm.trans he)

theorem bind {x : Compile α} {f : α → Compile β} (hx : Compile.Blames P x)
    (hf : ∀ a, Compile.Blames P (f a)) : Compile.Blames P (x >>= f) := by
  intro log e he
  rw [after_bind] at he
  cases hfirst : x.after log with
  | mk r log' =>
    rw [hfirst] at he
    cases r with
    | ok a => exact hf a log' e he
    | error e' =>
      have hx' := hx log e'
      rw [hfirst] at hx'
      cases he
      exact hx' rfl

theorem mapM {f : α → Compile β} (hf : ∀ a, Compile.Blames P (f a)) (l : List α) :
    Compile.Blames P (l.mapM f) := by
  induction l with
  | nil => exact .pure []
  | cons a l ih =>
    rw [List.mapM_cons]
    exact (hf a).bind fun b => ih.bind fun bs => .pure (b :: bs)

theorem optionMapM {f : α → Compile β} (hf : ∀ a, Compile.Blames P (f a)) (o : Option α) :
    Compile.Blames P (o.mapM f) := by
  cases o with
  | none => exact .pure none
  | some a =>
    have hmap : (some a).mapM f = f a >>= fun b => Pure.pure (some b) := rfl
    rw [hmap]
    exact (hf a).bind fun b => .pure (some b)

end Compile.Blames

/-! ## Faults of declarations -/

/-- A directive line is refused, a service method has no route or is no route handler, or a struct
would have to be written out inside itself. -/
inductive Error.IsDeclarationFault : Error → Prop
  | directive (location : Location) (owner : String) (fault : DirectiveFault) :
      IsDeclarationFault (.directive location owner fault)
  | missingRoute (route : String) : IsDeclarationFault (.missingRoute route)
  | signature (route : String) (fault : SignatureFault) :
      IsDeclarationFault (.signature route fault)
  | recursion (chain : List String) : IsDeclarationFault (.recursion chain)

/-- A struct would have to be written out inside itself. -/
def Error.IsRecursion (e : Error) : Prop := ∃ chain, e = .recursion chain

theorem Error.IsRecursion.isDeclarationFault (e : Error) (h : e.IsRecursion) :
    e.IsDeclarationFault := by
  obtain ⟨chain, rfl⟩ := h
  exact .recursion chain

/-! ## Documentation -/

theorem DocLine.directive?_fault {line : DocLine} {owner : String} {e : Error}
    (h : line.directive? owner = .error e) : e.IsDeclarationFault := by
  have herror : ∀ fault, (line.error owner fault).IsDeclarationFault := fun fault =>
    .directive line.location owner fault
  unfold DocLine.directive? at h
  dsimp only at h
  repeat' split at h
  all_goals cases h
  all_goals exact herror _

theorem fault_of_foldlM {step : β → α → Except Error β}
    (hstep : ∀ b a e, step b a = .error e → P e) {l : List α} {b : β} {e : Error}
    (h : l.foldlM step b = .error e) : P e := by
  induction l generalizing b with
  | nil => cases h
  | cons a l ih =>
    rw [List.foldlM_cons] at h
    cases hfirst : step b a with
    | error e' =>
      rw [hfirst] at h
      cases h
      exact hstep b a e hfirst
    | ok b' =>
      rw [hfirst] at h
      exact ih h

theorem GroupDoc.add_fault {owner : String} {doc : GroupDoc} {line : DocLine} {e : Error}
    (h : doc.add owner line = .error e) : e.IsDeclarationFault := by
  unfold GroupDoc.add at h
  cases hline : line.directive? owner with
  | error e' =>
    rw [hline] at h
    cases h
    exact line.directive?_fault hline
  | ok found =>
    rw [hline, ok_bind] at h
    split at h
    · cases h
    · cases h
    · cases h

theorem RouteDoc.add_fault {owner : String} {doc : RouteDoc} {line : DocLine} {e : Error}
    (h : doc.add owner line = .error e) : e.IsDeclarationFault := by
  unfold RouteDoc.add at h
  cases hline : line.directive? owner with
  | error e' =>
    rw [hline] at h
    cases h
    exact line.directive?_fault hline
  | ok found =>
    rw [hline, ok_bind] at h
    split at h
    · cases h
    · split at h
      · cases h
        exact .directive line.location owner .secondRoute
      · cases h
    · cases h
    · cases h

/-! ## Schemas -/

namespace Catalog

variable (c : Catalog)

theorem Explains.recursion {c : Catalog} {path : List String} {start : String → Prop}
    {written : Schema → Prop} {r : Except Error Schema} (h : c.Explains path start written r) {e : Error}
    (he : r = .error e) : e.IsRecursion := by
  subst he
  obtain ⟨n, rest, rfl, -, -⟩ := h
  exact ⟨_, rfl⟩

theorem fieldSchema_blames (f : Field) : (c.fieldSchema f).Blames Error.IsRecursion := by
  refine Blames.bind (.of_steady ?_ fun e he => ?_) fun schema => .pure _
  · exact steady_typeSchema c [] f.type
  · exact (c.typeSchema_explains [] f.type).recursion he

theorem inlineSchema_blames (s : StructDescriptor) (name : Option String) :
    (c.inlineSchema s name).Blames Error.IsRecursion :=
  .of_steady (steady_inlineSchema c s name) fun _ he =>
    (c.objectSchema_explains name.toList s).recursion he

theorem bodySchema_blames (s : StructDescriptor) :
    (c.bodySchema s).Blames Error.IsRecursion := by
  unfold bodySchema structSchema
  split
  · exact .pure _
  · exact inlineSchema_blames c s _

theorem definitions_blame : c.definitions.Blames Error.IsRecursion := by
  unfold definitions
  refine Blames.bind (.mapM (fun s => ?_) _) fun defs => (Blames.lift _).bind fun _ => .pure _
  exact (Blames.lift _).bind fun _ => (inlineSchema_blames c s _).bind fun schema => .pure _

/-! ## Routes -/

theorem parameters_blame (owner : String) (s : StructDescriptor) :
    (c.parameters owner s).Blames Error.IsRecursion := by
  unfold parameters
  refine Blames.bind (.mapM (fun f => .mapM (fun place => ?_) _) _) fun found => .pure _
  unfold parameter?
  split
  · exact .pure none
  · split
    · exact (Blames.lift _).bind fun _ => .pure none
    · exact (fieldSchema_blames c f).bind fun schema => .pure _

theorem compileRoute_blames (h : RouteHead) (request answer : Option StructDescriptor) :
    (c.compileRoute h request answer).Blames Error.IsRecursion := by
  have hparameters : (request.elim (return {}) (c.parameters h.owner) :
      Compile ParameterTable).Blames Error.IsRecursion := by
    cases request with
    | none => exact .pure ({} : ParameterTable)
    | some s => exact parameters_blame c _ s
  refine hparameters.bind fun parameters => ?_
  refine (Blames.optionMapM (bodySchema_blames c) _).bind fun requestBody => ?_
  refine (Blames.optionMapM (bodySchema_blames c) _).bind fun response => ?_
  exact (Blames.lift _).bind fun _ => .pure _

theorem routeWithHead_blames (h : RouteHead) : (c.routeWithHead h).Blames Error.IsRecursion :=
  (Blames.lift _).bind fun request => (Blames.lift _).bind fun answer =>
    compileRoute_blames c h request answer

/-- What stops a method before its schemas are compiled: its documentation, a missing route, or its
signature. -/
theorem ofMethod_error {file group : String} {m : MethodDecl} {e : Error}
    (h : RouteHead.ofMethod file group m = .error e) :
    RouteDoc.ofLines (group ++ "." ++ plainName m.name) (docLines file m.attributes) = .error e ∨
      (∃ doc, RouteDoc.ofLines (group ++ "." ++ plainName m.name) (docLines file m.attributes) =
        .ok doc ∧ doc.route = none ∧ e = .missingRoute (group ++ "." ++ plainName m.name)) ∨
      ∃ fault, e = .signature (group ++ "." ++ plainName m.name) fault := by
  unfold RouteHead.ofMethod at h
  dsimp only at h
  cases hdoc : RouteDoc.ofLines (group ++ "." ++ plainName m.name) (docLines file m.attributes) with
  | error e' =>
    rw [hdoc] at h
    cases h
    exact .inl rfl
  | ok doc =>
    rw [hdoc, ok_bind] at h
    cases hroute : doc.route with
    | none =>
      rw [hroute] at h
      cases h
      exact .inr (.inl ⟨doc, rfl, hroute, rfl⟩)
    | some declared =>
      rw [hroute] at h
      cases hsignature : m.signature? file with
      | ok signature =>
        rw [hsignature] at h
        cases h
      | error fault =>
        rw [hsignature] at h
        cases h
        exact .inr (.inr ⟨fault, rfl⟩)

theorem ofMethod_fault {file group : String} {m : MethodDecl} {e : Error}
    (h : RouteHead.ofMethod file group m = .error e) : e.IsDeclarationFault := by
  rcases ofMethod_error h with hdoc | ⟨doc, -, -, rfl⟩ | ⟨fault, rfl⟩
  · exact fault_of_foldlM (fun _ _ _ => RouteDoc.add_fault) hdoc
  · exact .missingRoute _
  · exact .signature _ fault

theorem route_blames (file group : String) (m : MethodDecl) :
    (c.route file group m).Blames Error.IsDeclarationFault := by
  rw [route_eq]
  refine (Blames.ofExcept fun e => ofMethod_fault).bind fun h => ?_
  exact (routeWithHead_blames c h).mono Error.IsRecursion.isDeclarationFault

theorem groups_blame (files : List SourceFile) :
    (c.groups files).Blames Error.IsDeclarationFault := by
  unfold groups
  refine Blames.bind (.mapM (fun f => .mapM (fun t => ?_) _) _) fun found =>
    (Blames.lift _).bind fun _ => .pure _
  unfold group
  refine (Blames.lift _).bind fun _ => ?_
  refine (Blames.ofExcept fun e he => fault_of_foldlM (fun _ _ _ => GroupDoc.add_fault) he).bind
    fun doc => ?_
  exact (Blames.mapM (route_blames c f.path (plainName t.name)) _).bind fun routes => .pure _

end Catalog

theorem compile_blames (files : List SourceFile) :
    (compile files).Blames Error.IsDeclarationFault := by
  unfold compile
  refine (Blames.lift _).bind fun _ => (Blames.lift _).bind fun c => ?_
  refine (c.definitions_blame.mono Error.IsRecursion.isDeclarationFault).bind fun definitions => ?_
  refine (Blames.lift _).bind fun _ => ?_
  exact (c.groups_blame files).bind fun groups => .pure _

/-- Fields that are no good do not stop a compilation: it succeeds, or one of the faults of
declarations stops it; and without a field that is skipped, from whatever body, the same structs are
collected and the compilation gives the same or fails alike. -/
theorem compile_passes_over_skipped (files : List SourceFile) :
    ((∃ k, (compile files).result = .ok k) ∨
      ∃ e, (compile files).result = .error e ∧ e.IsDeclarationFault) ∧
    ∀ files', FilesLose files files' →
      (Catalog.collect files').value = (Catalog.collect files).value ∧
        (compile files').result = (compile files).result := by
  refine ⟨?_, fun files' h => ⟨h.collect, h.compile⟩⟩
  cases hresult : (compile files).result with
  | ok k => exact .inl ⟨k, rfl⟩
  | error e => exact .inr ⟨e, rfl, compile_blames files #[] e hresult⟩

/-- A page with a list of lines, which are structs in place. -/
def page (line : List Token) (fields : List FieldDecl) : List SourceFile :=
  [⟨"page.rs", [.struct ⟨[], "Page",
    some [⟨[⟨⟨false, ["api"]⟩, .list [.word "json" ⟨2, 9⟩], ⟨2, 3⟩⟩], "lines", true,
      .path false [.generic "Vec" false [.type (.inlineStruct .brace line fields)] false]⟩]⟩]⟩]

/-- A field with a tag without entries, which is malformed. -/
def untidyMark : FieldDecl :=
  ⟨[⟨⟨false, ["api"]⟩, .flag, ⟨2, 30⟩⟩], "mark", true, .path false [.plain "i64"]⟩

/-- The tokens of that field. -/
def untidyMarkTokens : List Token :=
  [.mark '#' false ⟨2, 30⟩, .group .bracket [.word "api" ⟨2, 32⟩] ⟨2, 31⟩ ⟨2, 35⟩,
    .word "pub" ⟨2, 37⟩, .word "mark" ⟨2, 41⟩, .mark ':' false ⟨2, 45⟩, .word "i64" ⟨2, 47⟩]

/-- A page whose lines have an untidy mark compiles as one whose lines have nothing. -/
theorem page_without_mark : FilesLose (page untidyMarkTokens [untidyMark]) (page [] []) ∧
    (Catalog.collect (page [] [])).value =
      (Catalog.collect (page untidyMarkTokens [untidyMark])).value ∧
    (compile (page [] [])).result = (compile (page untidyMarkTokens [untidyMark])).result := by
  have hmark : untidyMark.IsSkipped "page.rs" := .malformedTag rfl rfl
  have hlost : FilesLose (page untidyMarkTokens [untidyMark]) (page [] []) :=
    .head (.head (.struct (.type (.path (.head (.head (.body (.field hmark))))))))
  exact ⟨hlost, (compile_passes_over_skipped _).2 _ hlost⟩

end ApiDecl
