import ApiDecl.Proofs.DeclarationFaults
import ApiDecl.Proofs.DirectiveGrammar
import ApiDecl.Proofs.RouteDeclarations

/-!
# Proofs: the documentation of services

Reading the documentation of a service or of a method stops at the first line with a fault
(`FirstFault`). If there is none, every line that is not blank counts once: as a directive of its
owner, or as a line of the description (`GroupDoc.Tells`, `RouteDoc.Tells`).
-/

namespace ApiDecl

open Compile Syntax

/-! ## What lines say -/

/-- These are the lines that are not blank, in order, with what they say. -/
inductive DocLine.AllSay : List DocLine → List (DocLine × Directive) → Prop
  | nil : AllSay [] []
  | blank {line : DocLine} {lines : List DocLine} {said : List (DocLine × Directive)}
      (h : line.Says none) (hlines : AllSay lines said) : AllSay (line :: lines) said
  | line {line : DocLine} {d : Directive} {lines : List DocLine} {said : List (DocLine × Directive)}
      (h : line.Says (some d)) (hlines : AllSay lines said) :
      AllSay (line :: lines) ((line, d) :: said)

/-- The base path that a directive declares. -/
def Directive.basePath? : Directive → Option String
  | .group path => some path
  | _ => none

/-- The method and the path that a directive declares. -/
def Directive.route? : Directive → Option (HttpMethod × String)
  | .route method path => some (method, path)
  | _ => none

/-- The status that a directive declares. -/
def Directive.code? : Directive → Option Nat
  | .code status => some status
  | _ => none

section Said

variable (said : List (DocLine × Directive))

/-- The base paths that lines declare, in order. -/
def basePathsOf : List String := said.filterMap fun s => s.2.basePath?

/-- The routes that lines declare, in order and with the places of the lines. -/
def routesOf : List (HttpMethod × String × Location) :=
  said.filterMap fun s => s.2.route?.map fun route => (route.1, route.2, s.1.location)

/-- The statuses that lines declare, in order. -/
def codesOf : List Nat := said.filterMap fun s => s.2.code?

/-- The lines that describe a service: those that do not declare a base path. -/
def serviceTexts : List String := (said.filter fun s => s.2.basePath?.isNone).map fun s => s.1.text

/-- The lines that describe a method: those that declare neither a route nor a status. -/
def methodTexts : List String :=
  (said.filter fun s => s.2.route?.isNone && s.2.code?.isNone).map fun s => s.1.text

end Said

/-- The documentation of a service is what its lines say. -/
structure GroupDoc.Tells (doc : GroupDoc) (said : List (DocLine × Directive)) : Prop where
  basePath : doc.basePath = (basePathsOf said).getLast?.getD ""
  description : doc.description = serviceTexts said

/-- The documentation of a method is what its lines say. There is one route at most. -/
structure RouteDoc.Tells (doc : RouteDoc) (said : List (DocLine × Directive)) : Prop where
  route : doc.route.toList = routesOf said
  code : doc.code = (codesOf said).getLast?
  description : doc.description = methodTexts said

/-- The line declares a route. -/
def DocLine.IsRoute (line : DocLine) : Prop := ∃ method path, line.Says (some (.route method path))

namespace DocLine.AllSay

variable {line : DocLine} {d : Directive} {lines : List DocLine} {said : List (DocLine × Directive)}

theorem cons_blank_iff (h : line.Says none) : AllSay (line :: lines) said ↔ AllSay lines said := by
  refine ⟨?_, .blank h⟩
  rintro (_ | ⟨-, hlines⟩ | ⟨hd, -⟩)
  · exact hlines
  · cases h.unique hd

theorem cons_line_iff (h : line.Says (some d)) :
    AllSay (line :: lines) said ↔ ∃ rest, said = (line, d) :: rest ∧ AllSay lines rest := by
  constructor
  · rintro (_ | ⟨hnone, -⟩ | ⟨hd, hlines⟩)
    · cases h.unique hnone
    · cases h.unique hd
      exact ⟨_, rfl, hlines⟩
  · rintro ⟨rest, rfl, hlines⟩
    exact .line h hlines

theorem not_of_malformed {fault : DirectiveFault} (h : line.Malformed fault) :
    ¬ AllSay (line :: lines) said := by
  rintro (_ | ⟨htold, -⟩ | ⟨htold, -⟩)
  · exact h.tells_nothing htold
  · exact h.tells_nothing htold

/-- Routes are declared if a line declares one. -/
theorem routesOf_ne_nil (h : AllSay lines said) :
    routesOf said ≠ [] ↔ ∃ line ∈ lines, line.IsRoute := by
  induction h with
  | nil => simp [routesOf]
  | @blank line lines said h _ ih =>
    have hline : ¬ line.IsRoute := by
      rintro ⟨method, path, hroute⟩
      cases h.unique hroute
    simp only [ih, List.mem_cons, exists_eq_or_imp, hline, false_or]
  | @line line d lines said h _ ih =>
    cases d with
    | route method path =>
      exact iff_of_true (List.cons_ne_nil _ _) ⟨line, List.mem_cons_self, method, path, h⟩
    | group | code | schema | text =>
      have hline : ¬ line.IsRoute := by
        rintro ⟨method, path, htold⟩
        cases h.unique htold
      change routesOf said ≠ [] ↔ _
      simp only [ih, List.mem_cons, exists_eq_or_imp, hline, false_or]

end DocLine.AllSay

/-! ## Faults of lines -/

/-- The line with this index has a fault; which ones are faults may depend on the lines before. -/
structure FaultAt (Faulty : List DocLine → DocLine → DirectiveFault → Prop) (lines : List DocLine)
    (i : Nat) (line : DocLine) (fault : DirectiveFault) : Prop where
  get : lines[i]? = some line
  faulty : Faulty (lines.take i) line fault

/-- The line has a fault, and none before it has one. -/
def FirstFault (Faulty : List DocLine → DocLine → DirectiveFault → Prop) (lines : List DocLine)
    (line : DocLine) (fault : DirectiveFault) : Prop :=
  ∃ i, FaultAt Faulty lines i line fault ∧
    ∀ j < i, ∀ line' fault', ¬ FaultAt Faulty lines j line' fault'

theorem exists_firstFault {Faulty : List DocLine → DocLine → DirectiveFault → Prop}
    {lines : List DocLine} {i : Nat} {line : DocLine} {fault : DirectiveFault}
    (h : FaultAt Faulty lines i line fault) :
    ∃ line fault, FirstFault Faulty lines line fault := by
  classical
  have hexists : ∃ i, ∃ line fault, FaultAt Faulty lines i line fault := ⟨i, line, fault, h⟩
  obtain ⟨line, fault, hfirst⟩ := Nat.find_spec hexists
  refine ⟨line, fault, Nat.find hexists, hfirst, fun j hj line' fault' hfault => ?_⟩
  exact Nat.find_min hexists hj ⟨line', fault', hfault⟩

/-- Reading lines gives what they say, or it stops at the first fault with an error that has the
place of the line and the name of the owner. -/
structure ReadsLines {α : Type} (read : Except Error α) (owner : String) (lines : List DocLine)
    (Faulty : List DocLine → DocLine → DirectiveFault → Prop)
    (Tells : α → List (DocLine × Directive) → Prop) : Prop where
  fails : (∃ e, read = .error e) ↔ ∃ i line fault, FaultAt Faulty lines i line fault
  error : ∀ e, read = .error e ↔
    ∃ line fault, FirstFault Faulty lines line fault ∧ e = .directive line.location owner fault
  ok : ∀ doc, read = .ok doc ↔ ∃ said, DocLine.AllSay lines said ∧ Tells doc said

/-- What is wrong with a line of the documentation of a service. -/
def GroupDoc.Faulty (_before : List DocLine) (line : DocLine) (fault : DirectiveFault) : Prop :=
  line.Malformed fault

/-- What is wrong with a line of the documentation of a method, behind others. -/
inductive RouteDoc.Faulty (before : List DocLine) (line : DocLine) : DirectiveFault → Prop
  | malformed {fault : DirectiveFault} (h : line.Malformed fault) : Faulty before line fault
  | secondRoute (hline : line.IsRoute) (hbefore : ∃ earlier ∈ before, earlier.IsRoute) :
      Faulty before line .secondRoute

/-! ## Reading lines one after the other -/

section Reading

variable {α : Type} {add : α → DocLine → Except Error α} {start : α} {owner : String}
  {lines : List DocLine} {Faulty : List DocLine → DocLine → DirectiveFault → Prop}

section Faults

variable (hadd : ∀ before doc, before.foldlM add start = .ok doc → ∀ line e,
  add doc line = .error e ↔ ∃ fault, Faulty before line fault ∧ e = line.error owner fault)

include hadd

/-- Lines without faults are read. -/
theorem foldlM_take_ok {n : Nat} (h : ∀ i < n, ∀ line fault, ¬ FaultAt Faulty lines i line fault) :
    ∃ doc, (lines.take n).foldlM add start = .ok doc := by
  induction n with
  | zero => exact ⟨start, rfl⟩
  | succ n ih =>
    obtain ⟨doc, hdoc⟩ := ih fun i hi => h i (by omega)
    rw [List.take_add_one]
    cases hline : lines[n]? with
    | none => exact ⟨doc, by rw [Option.toList_none, List.append_nil, hdoc]⟩
    | some line =>
      cases hnext : add doc line with
      | ok next =>
        refine ⟨next, ?_⟩
        rw [Option.toList_some, List.foldlM_append, hdoc, ok_bind, List.foldlM_cons, hnext]
        rfl
      | error e =>
        obtain ⟨fault, hfault, -⟩ := (hadd _ _ hdoc _ _).1 hnext
        exact absurd ⟨hline, hfault⟩ (h n (by omega) line fault)

theorem foldlM_of_firstFault {line : DocLine} {fault : DirectiveFault}
    (h : FirstFault Faulty lines line fault) :
    lines.foldlM add start = .error (line.error owner fault) := by
  obtain ⟨i, hi, hbefore⟩ := h
  obtain ⟨doc, hdoc⟩ := foldlM_take_ok hadd hbefore
  have hnext := (hadd _ _ hdoc line _).2 ⟨fault, hi.faulty, rfl⟩
  obtain ⟨hlength, hget⟩ := List.getElem?_eq_some_iff.1 hi.get
  have hlines : lines = lines.take i ++ line :: lines.drop (i + 1) := by
    rw [← hget, List.getElem_cons_drop, List.take_append_drop]
  rw [hlines, List.foldlM_append, hdoc, ok_bind, List.foldlM_cons, hnext]
  rfl

theorem foldlM_error {e : Error} (h : lines.foldlM add start = .error e) :
    ∃ line fault, FirstFault Faulty lines line fault ∧ e = line.error owner fault := by
  have hexists : ∃ i line fault, FaultAt Faulty lines i line fault := by
    by_contra hnone
    push Not at hnone
    obtain ⟨doc, hdoc⟩ := foldlM_take_ok hadd fun i (_ : i < lines.length) => hnone i
    rw [List.take_length, h] at hdoc
    cases hdoc
  obtain ⟨i, line, fault, hfault⟩ := hexists
  obtain ⟨line, fault, hfirst⟩ := exists_firstFault hfault
  have heq := foldlM_of_firstFault hadd hfirst
  rw [h] at heq
  cases heq
  exact ⟨line, fault, hfirst, rfl⟩

/-- A reader that stops at faults is right if it is right on lines that it reads. -/
theorem readsLines {Tells : α → List (DocLine × Directive) → Prop}
    (hok : ∀ doc, lines.foldlM add start = .ok doc ↔
      ∃ said, DocLine.AllSay lines said ∧ Tells doc said) :
    ReadsLines (lines.foldlM add start) owner lines Faulty Tells := by
  refine ⟨⟨?_, ?_⟩, fun e => ⟨foldlM_error hadd, ?_⟩, hok⟩
  · rintro ⟨e, he⟩
    obtain ⟨line, fault, ⟨i, hfault, -⟩, -⟩ := foldlM_error hadd he
    exact ⟨i, line, fault, hfault⟩
  · rintro ⟨i, line, fault, hfault⟩
    obtain ⟨line, fault, hfirst⟩ := exists_firstFault hfault
    exact ⟨_, foldlM_of_firstFault hadd hfirst⟩
  · rintro ⟨line, fault, hfirst, rfl⟩
    exact foldlM_of_firstFault hadd hfirst

end Faults

/-- Lines are read if each of them says something and can be added. -/
theorem foldlM_eq_ok {Adds : α → α → List (DocLine × Directive) → Prop}
    (hblank : ∀ doc line, line.Says none → add doc line = .ok doc)
    (hmalformed : ∀ doc line fault, line.Malformed fault →
      add doc line = .error (line.error owner fault))
    (hnil : ∀ start doc, Adds start doc [] ↔ doc = start)
    (hline : ∀ start doc line d said, line.Says (some d) → (Adds start doc ((line, d) :: said) ↔
      ∃ next, add start line = .ok next ∧ Adds next doc said)) (doc : α) :
    lines.foldlM add start = .ok doc ↔ ∃ said, DocLine.AllSay lines said ∧ Adds start doc said := by
  induction lines generalizing start with
  | nil =>
    rw [List.foldlM_nil]
    constructor
    · rintro ⟨⟩
      exact ⟨[], .nil, (hnil _ _).2 rfl⟩
    · rintro ⟨said, ⟨⟩, hadds⟩
      rw [(hnil _ _).1 hadds]
      rfl
  | cons line lines ih =>
    rw [List.foldlM_cons]
    rcases line.says_or_malformed with ⟨_ | d, htold⟩ | ⟨fault, hfault⟩
    · simp only [hblank start line htold, ok_bind, ih, DocLine.AllSay.cons_blank_iff htold]
    · simp only [DocLine.AllSay.cons_line_iff htold]
      constructor
      · intro h
        obtain ⟨next, hnext, hrest⟩ := exists_of_bind_ok h
        obtain ⟨said, hsaid, hadds⟩ := ih.1 hrest
        exact ⟨_, ⟨said, rfl, hsaid⟩, (hline _ _ _ _ _ htold).2 ⟨next, hnext, hadds⟩⟩
      · rintro ⟨_, ⟨said, rfl, hsaid⟩, hadds⟩
        obtain ⟨next, hnext, hrest⟩ := (hline _ _ _ _ _ htold).1 hadds
        rw [hnext, ok_bind]
        exact ih.2 ⟨said, hsaid, hrest⟩
    · rw [hmalformed start line fault hfault]
      exact iff_of_false nofun fun ⟨said, hsaid, _⟩ => DocLine.AllSay.not_of_malformed hfault hsaid

end Reading

/-! ## The documentation of a service -/

section Group

variable {owner : String} {start doc : GroupDoc} {line : DocLine}

/-- The documentation is another one with what lines say added. -/
@[mk_iff]
structure GroupDoc.Adds (start doc : GroupDoc) (said : List (DocLine × Directive)) : Prop where
  basePath : doc.basePath = (basePathsOf said).getLast?.getD start.basePath
  description : doc.description = start.description ++ serviceTexts said

theorem GroupDoc.adds_nil : start.Adds doc [] ↔ doc = start := by
  cases doc
  cases start
  simp [GroupDoc.adds_iff, basePathsOf, serviceTexts]

theorem GroupDoc.adds_empty {said : List (DocLine × Directive)} :
    GroupDoc.Adds {} doc said ↔ doc.Tells said := by
  constructor
  · rintro ⟨hbasePath, hdescription⟩
    exact ⟨hbasePath, hdescription⟩
  · rintro ⟨hbasePath, hdescription⟩
    exact ⟨hbasePath, hdescription⟩

theorem GroupDoc.add_blank (h : line.Says none) : start.add owner line = .ok start := by
  rw [add, h.directive?_eq]
  rfl

theorem GroupDoc.add_malformed {fault : DirectiveFault} (h : line.Malformed fault) :
    start.add owner line = .error (line.error owner fault) := by
  rw [add, h.directive?_eq]
  rfl

theorem GroupDoc.adds_cons {d : Directive} {said : List (DocLine × Directive)}
    (h : line.Says (some d)) : start.Adds doc ((line, d) :: said) ↔
      ∃ next, start.add owner line = .ok next ∧ next.Adds doc said := by
  rw [add, h.directive?_eq, ok_bind]
  cases d <;>
    simp [GroupDoc.adds_iff, basePathsOf, serviceTexts, Directive.basePath?, List.getLast?_cons,
      pure, Except.pure]

theorem GroupDoc.add_error_iff {e : Error} : start.add owner line = .error e ↔
    ∃ fault, line.Malformed fault ∧ e = line.error owner fault := by
  constructor
  · intro h
    rcases line.says_or_malformed with ⟨_ | d, htold⟩ | ⟨fault, hfault⟩
    · rw [add_blank htold] at h
      cases h
    · rw [add, htold.directive?_eq, ok_bind] at h
      cases d <;> cases h
    · rw [add_malformed hfault] at h
      cases h
      exact ⟨fault, hfault, rfl⟩
  · rintro ⟨fault, hfault, rfl⟩
    exact add_malformed hfault

theorem GroupDoc.readsLines (owner : String) (lines : List DocLine) :
    ReadsLines (GroupDoc.ofLines owner lines) owner lines GroupDoc.Faulty GroupDoc.Tells := by
  refine ApiDecl.readsLines (fun _ _ _ _ _ => add_error_iff) fun doc => ?_
  simp only [← adds_empty]
  exact foldlM_eq_ok (fun _ _ => add_blank) (fun _ _ _ => add_malformed) (fun _ _ => adds_nil)
    (fun _ _ _ _ _ => adds_cons) doc

end Group

/-! ## The documentation of a method -/

section Route

variable {owner : String} {start doc : RouteDoc} {line : DocLine}

/-- The same of a method. A second route cannot be added. -/
@[mk_iff]
structure RouteDoc.Adds (start doc : RouteDoc) (said : List (DocLine × Directive)) : Prop where
  route : doc.route.toList = start.route.toList ++ routesOf said
  code : doc.code = (codesOf said).getLast?.or start.code
  description : doc.description = start.description ++ methodTexts said

theorem RouteDoc.adds_nil : start.Adds doc [] ↔ doc = start := by
  obtain ⟨route, code, description⟩ := doc
  obtain ⟨route', code', description'⟩ := start
  have hroute : route.toList = route'.toList ↔ route = route' := by
    cases route <;> cases route' <;> simp
  simp [RouteDoc.adds_iff, routesOf, codesOf, methodTexts, hroute]

theorem RouteDoc.adds_empty {said : List (DocLine × Directive)} :
    RouteDoc.Adds {} doc said ↔ doc.Tells said := by
  constructor
  · rintro ⟨hroute, hcode, hdescription⟩
    exact ⟨hroute, by rwa [Option.or_none] at hcode, hdescription⟩
  · rintro ⟨hroute, hcode, hdescription⟩
    exact ⟨hroute, by rwa [Option.or_none], hdescription⟩

theorem RouteDoc.add_blank (h : line.Says none) : start.add owner line = .ok start := by
  rw [add, h.directive?_eq]
  rfl

theorem RouteDoc.add_malformed {fault : DirectiveFault} (h : line.Malformed fault) :
    start.add owner line = .error (line.error owner fault) := by
  rw [add, h.directive?_eq]
  rfl

theorem RouteDoc.adds_cons {d : Directive} {said : List (DocLine × Directive)}
    (h : line.Says (some d)) : start.Adds doc ((line, d) :: said) ↔
      ∃ next, start.add owner line = .ok next ∧ next.Adds doc said := by
  rw [add, h.directive?_eq, ok_bind]
  cases d with
  | route method path =>
    cases hstart : start.route with
    | none =>
      simp [RouteDoc.adds_iff, routesOf, codesOf, methodTexts, Directive.route?, Directive.code?,
        hstart, pure, Except.pure]
    | some earlier =>
      -- the documentation would have two routes, and adding the second one is refused
      refine iff_of_false (fun hadds => ?_) fun ⟨next, hnext, _⟩ => ?_
      · have hroute := hadds.route
        rw [hstart] at hroute
        cases hdoc : doc.route <;> simp [hdoc, routesOf, Directive.route?] at hroute
      · cases hnext
  | group | code | schema | text =>
    simp [RouteDoc.adds_iff, routesOf, codesOf, methodTexts, Directive.route?, Directive.code?,
      List.getLast?_cons, pure, Except.pure]

theorem RouteDoc.foldlM_add_eq_ok {lines : List DocLine} :
    lines.foldlM (RouteDoc.add owner) {} = .ok doc ↔
      ∃ said, DocLine.AllSay lines said ∧ doc.Tells said := by
  simp only [← adds_empty]
  exact foldlM_eq_ok (fun _ _ => add_blank) (fun _ _ _ => add_malformed) (fun _ _ => adds_nil)
    (fun _ _ _ _ _ => adds_cons) doc

theorem RouteDoc.add_error_iff {before : List DocLine} {e : Error}
    (h : before.foldlM (RouteDoc.add owner) {} = .ok doc) : doc.add owner line = .error e ↔
      ∃ fault, RouteDoc.Faulty before line fault ∧ e = line.error owner fault := by
  obtain ⟨said, hsaid, htells⟩ := foldlM_add_eq_ok.1 h
  have hsecond : doc.route.isSome = true ↔ ∃ earlier ∈ before, earlier.IsRoute := by
    rw [← hsaid.routesOf_ne_nil, ← htells.route]
    cases doc.route <;> simp
  constructor
  · intro he
    rcases line.says_or_malformed with ⟨_ | d, htold⟩ | ⟨fault, hfault⟩
    · rw [add_blank htold] at he
      cases he
    · rw [add, htold.directive?_eq, ok_bind] at he
      cases d with
      | route method path =>
        dsimp only at he
        split at he
        · next hsome =>
          cases he
          exact ⟨.secondRoute, .secondRoute ⟨method, path, htold⟩ (hsecond.1 hsome), rfl⟩
        · cases he
      | group | code | schema | text => cases he
    · rw [add_malformed hfault] at he
      cases he
      exact ⟨fault, .malformed hfault, rfl⟩
  · rintro ⟨_, hfault | ⟨⟨method, path, htold⟩, hbefore⟩, rfl⟩
    · exact add_malformed hfault
    · rw [add, htold.directive?_eq, ok_bind]
      dsimp only
      rw [if_pos (hsecond.2 hbefore)]
      rfl

theorem RouteDoc.readsLines (owner : String) (lines : List DocLine) :
    ReadsLines (RouteDoc.ofLines owner lines) owner lines RouteDoc.Faulty RouteDoc.Tells :=
  ApiDecl.readsLines (fun _ _ h _ _ => add_error_iff h) fun _ => foldlM_add_eq_ok

end Route

/-! ## Services and methods -/

namespace Catalog

variable (c : Catalog) (file group : String) (t : TraitDecl) (m : MethodDecl)

/-- What stops a method: its documentation, a missing route, its signature or a schema. -/
theorem route_error {e : Error} (h : (c.route file group m).result = .error e) :
    RouteHead.ofMethod file group m = .error e ∨ e.IsRecursion := by
  rw [route_result] at h
  cases hhead : RouteHead.ofMethod file group m with
  | error e' =>
    rw [hhead] at h
    cases h
    exact .inl rfl
  | ok head =>
    rw [hhead, ok_bind, ← result_compileRoute] at h
    exact .inr (compileRoute_blames c head _ _ #[] e h)

theorem route_error_of_ofMethod {e : Error} (h : RouteHead.ofMethod file group m = .error e) :
    (c.route file group m).result = .error e := by
  rw [route_result, h]
  rfl

theorem route_directive_iff {location : Location} {owner : String} {fault : DirectiveFault} :
    (c.route file group m).result = .error (.directive location owner fault) ↔
      owner = group ++ "." ++ plainName m.name ∧ ∃ line,
        FirstFault RouteDoc.Faulty (docLines file m.attributes) line fault ∧
          location = line.location := by
  have hreads := RouteDoc.readsLines (group ++ "." ++ plainName m.name) (docLines file m.attributes)
  constructor
  · intro h
    rcases c.route_error file group m h with h | ⟨chain, h⟩
    · rcases ofMethod_error h with hdoc | ⟨doc, -, -, h⟩ | ⟨fault, h⟩
      · obtain ⟨line, fault', hfirst, he⟩ := (hreads.error _).1 hdoc
        cases he
        exact ⟨rfl, line, hfirst, rfl⟩
      · cases h
      · cases h
    · cases h
  · rintro ⟨rfl, line, hfirst, rfl⟩
    refine c.route_error_of_ofMethod file group m ?_
    rw [RouteHead.ofMethod, (hreads.error _).2 ⟨line, fault, hfirst, rfl⟩]
    rfl

theorem route_missingRoute_iff {name : String} :
    (c.route file group m).result = .error (.missingRoute name) ↔
      name = group ++ "." ++ plainName m.name ∧ ∃ said,
        DocLine.AllSay (docLines file m.attributes) said ∧ routesOf said = [] := by
  have hreads := RouteDoc.readsLines (group ++ "." ++ plainName m.name) (docLines file m.attributes)
  constructor
  · intro h
    rcases c.route_error file group m h with h | ⟨chain, h⟩
    · rcases ofMethod_error h with hdoc | ⟨doc, hdoc, hroute, h⟩ | ⟨fault, h⟩
      · obtain ⟨line, fault, -, he⟩ := (hreads.error _).1 hdoc
        cases he
      · cases h
        obtain ⟨said, hsaid, htells⟩ := (hreads.ok _).1 hdoc
        exact ⟨rfl, said, hsaid, by rw [← htells.route, hroute, Option.toList_none]⟩
      · cases h
    · cases h
  · rintro ⟨rfl, said, hsaid, hnone⟩
    have hdoc := (hreads.ok ⟨none, (codesOf said).getLast?, methodTexts said⟩).2
      ⟨said, hsaid, hnone.symm, rfl, rfl⟩
    refine c.route_error_of_ofMethod file group m ?_
    rw [RouteHead.ofMethod, hdoc]
    rfl

theorem route_told {r : Route} (h : (c.route file group m).result = .ok r) :
    ∃ said, DocLine.AllSay (docLines file m.attributes) said ∧
      routesOf said = [(r.method, r.path, r.location)] ∧ r.code = (codesOf said).getLast? ∧
      r.description = "\n".intercalate (methodTexts said) := by
  obtain ⟨-, doc, hdoc, hroute, hcode, hdescription⟩ := route_declares c file group m #[] r h
  obtain ⟨said, hsaid, htells⟩ := ((RouteDoc.readsLines _ _).ok _).1 hdoc
  refine ⟨said, hsaid, ?_, by rw [hcode, htells.code], by rw [hdescription, htells.description]⟩
  rw [← htells.route, hroute, Option.toList_some]

theorem group_result :
    (c.group file t).result = GroupDoc.ofLines (plainName t.name) (docLines file t.attributes) >>=
      fun doc => (t.methods.mapM fun m => (c.route file (plainName t.name) m).result) >>=
        fun routes => .ok ⟨plainName t.name, "\n".intercalate doc.description, doc.basePath,
          routes.foldl (fun found r => putByKey Route.name r found) []⟩ := by
  have hroutes := Steady.mapM (route_steady c file (plainName t.name)) t.methods
  rw [group,
    result_bind fun _ => (steady_liftExcept _).bind fun _ => hroutes.bind fun _ => steady_pure _,
    result_note, ok_bind, result_bind fun _ => hroutes.bind fun _ => steady_pure _,
    result_liftExcept]
  refine bind_congr fun doc => ?_
  rw [result_bind fun _ => steady_pure _, result_mapM (route_steady c file (plainName t.name))]
  rfl

theorem group_directive_iff {location : Location} {fault : DirectiveFault} :
    (c.group file t).result = .error (.directive location (plainName t.name) fault) ↔
      ∃ line, FirstFault GroupDoc.Faulty (docLines file t.attributes) line fault ∧
        location = line.location := by
  have hreads := GroupDoc.readsLines (plainName t.name) (docLines file t.attributes)
  rw [group_result]
  constructor
  · intro h
    cases hdoc : GroupDoc.ofLines (plainName t.name) (docLines file t.attributes) with
    | error e =>
      rw [hdoc] at h
      cases h
      obtain ⟨line, fault', hfirst, he⟩ := (hreads.error _).1 hdoc
      cases he
      exact ⟨line, hfirst, rfl⟩
    | ok doc =>
      rw [hdoc, ok_bind] at h
      cases hroutes : t.methods.mapM fun m => (c.route file (plainName t.name) m).result with
      | ok routes =>
        rw [hroutes] at h
        cases h
      | error e =>
        rw [hroutes] at h
        cases h
        obtain ⟨m, -, hm⟩ := exists_of_mapM_error hroutes
        -- what is wrong with a method is reported with a longer name
        obtain ⟨hname, -⟩ := (c.route_directive_iff file (plainName t.name) m).1 hm
        have hlength := congrArg String.length hname
        have hdot : ".".length = 1 := by decide
        rw [String.length_append, String.length_append] at hlength
        omega
  · rintro ⟨line, hfirst, rfl⟩
    rw [(hreads.error _).2 ⟨line, fault, hfirst, rfl⟩]
    rfl

theorem group_told {g : RouteGroup} (h : (c.group file t).result = .ok g) :
    ∃ said, DocLine.AllSay (docLines file t.attributes) said ∧
      g.basePath = (basePathsOf said).getLast?.getD "" ∧
      g.description = "\n".intercalate (serviceTexts said) := by
  obtain ⟨-, ⟨doc, hdoc, hbasePath, hdescription⟩, -⟩ := group_declares c file t #[] g h
  obtain ⟨said, hsaid, htells⟩ := ((GroupDoc.readsLines _ _).ok _).1 hdoc
  exact ⟨said, hsaid, by rw [hbasePath, htells.basePath],
    by rw [hdescription, htells.description]⟩

/-- The documentation of a service is read line by line: the first malformed line stops the service,
and otherwise each line that is not blank is a base path or a line of the description. -/
structure ReadsService : Prop where
  lines : ReadsLines (GroupDoc.ofLines (plainName t.name) (docLines file t.attributes))
    (plainName t.name) (docLines file t.attributes) GroupDoc.Faulty GroupDoc.Tells
  fault : ∀ location fault,
    (c.group file t).result = .error (.directive location (plainName t.name) fault) ↔
      ∃ line, FirstFault GroupDoc.Faulty (docLines file t.attributes) line fault ∧
        location = line.location
  group : ∀ g, (c.group file t).result = .ok g →
    ∃ said, DocLine.AllSay (docLines file t.attributes) said ∧
      g.basePath = (basePathsOf said).getLast?.getD "" ∧
      g.description = "\n".intercalate (serviceTexts said)

/-- The documentation of a method is read line by line: the first line that is malformed or a second
route stops the method, a method without a route is refused, and otherwise each line that is not
blank is the route, a status or a line of the description. -/
structure ReadsMethod : Prop where
  lines : ReadsLines (RouteDoc.ofLines (group ++ "." ++ plainName m.name)
    (docLines file m.attributes)) (group ++ "." ++ plainName m.name) (docLines file m.attributes)
    RouteDoc.Faulty RouteDoc.Tells
  fault : ∀ location owner fault,
    (c.route file group m).result = .error (.directive location owner fault) ↔
      owner = group ++ "." ++ plainName m.name ∧ ∃ line,
        FirstFault RouteDoc.Faulty (docLines file m.attributes) line fault ∧
          location = line.location
  missingRoute : ∀ name, (c.route file group m).result = .error (.missingRoute name) ↔
    name = group ++ "." ++ plainName m.name ∧ ∃ said,
      DocLine.AllSay (docLines file m.attributes) said ∧ routesOf said = []
  route : ∀ r, (c.route file group m).result = .ok r →
    ∃ said, DocLine.AllSay (docLines file m.attributes) said ∧
      routesOf said = [(r.method, r.path, r.location)] ∧ r.code = (codesOf said).getLast? ∧
      r.description = "\n".intercalate (methodTexts said)

/-- No line of documentation is lost, and it is the first fault that is reported. -/
theorem documentation_read :
    c.ReadsService file t ∧ c.ReadsMethod file group m :=
  ⟨⟨GroupDoc.readsLines _ _, fun _ _ => c.group_directive_iff file t,
      fun _ => c.group_told file t⟩,
    RouteDoc.readsLines _ _, fun _ _ _ => c.route_directive_iff file group m,
    fun _ => c.route_missingRoute_iff file group m, fun _ => c.route_told file group m⟩

/-- A line that declares a route. -/
def booksLine : DocLine := ⟨"@route GET /books", ⟨"shelf.rs", ⟨3, 8⟩⟩⟩

/-- A line that declares another one. -/
def shelfLine : DocLine := ⟨"@route GET /shelf", ⟨"shelf.rs", ⟨4, 1⟩⟩⟩

/-- A method whose documentation consists of both lines. -/
def twice : MethodDecl := plainMethod "list" "@route GET /books\n@route GET /shelf"

/-- The second route is what stops that method. -/
theorem twice_refused : (Catalog.empty.route "shelf.rs" "Shelf" twice).result =
    .error (.directive shelfLine.location "Shelf.list" .secondRoute) := by
  have hlines : docLines "shelf.rs" twice.attributes = [booksLine, shelfLine] := by decide
  have hbooks : booksLine.directive? "" = .ok (some (.route .get "/books")) := by decide
  have hshelf : shelfLine.directive? "" = .ok (some (.route .get "/shelf")) := by decide
  rw [DocLine.directive?_ok_iff] at hbooks hshelf
  have hread := (documentation_read .empty "shelf.rs" "Shelf" default twice).2
  refine (hread.fault _ _ _).2 ⟨rfl, shelfLine, ⟨1, ⟨?_, ?_⟩, ?_⟩, rfl⟩
  · rw [hlines]
    rfl
  · rw [hlines]
    exact .secondRoute ⟨_, _, hshelf⟩ ⟨booksLine, List.mem_cons_self, _, _, hbooks⟩
  · intro j hj line fault hfault
    obtain rfl : j = 0 := by omega
    obtain ⟨hget, hfaulty⟩ := hfault
    rw [hlines] at hget hfaulty
    obtain rfl : booksLine = line := Option.some.inj hget
    rcases hfaulty with hmalformed | ⟨-, _, ⟨⟩, -⟩
    exact hmalformed.tells_nothing hbooks

end Catalog

end ApiDecl
