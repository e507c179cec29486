import ApiDecl.Proofs.Denoting

/-!
# Proofs: which methods are handlers

Types without content, types that stand for a struct and results are told apart by what is written
(`TypeExpr.IsSentinel`, `TypeExpr.Names`, `TypeExpr.IsResult`). A method is a handler if its request,
its error and its response are as they have to be (`MethodDecl.IsHandler`). The signature of a method
is accepted exactly if it is one, and else refused for the first of the conditions that it breaks
(`MethodDecl.signature?_contract`).
-/

namespace ApiDecl

open Compile Syntax

namespace Syntax

/-! ## Types as they are written -/

/-- The type is a path that ends in a segment; the path may start below another type. -/
inductive TypeExpr.EndsIn : TypeExpr → PathSegment → Prop
  | path (absolute : Bool) (before : List PathSegment) (s : PathSegment) :
      EndsIn (.path absolute (before ++ [s])) s
  | projection (base : TypeExpr) (traitPath : List Token) (before : List PathSegment)
      (s : PathSegment) : EndsIn (.projection base traitPath (before ++ [s])) s

/-- The type is `()` or a path that ends in `Empty`, with or without round brackets around it. -/
inductive TypeExpr.IsSentinel : TypeExpr → Prop
  | unit (trailingComma : Bool) : IsSentinel (.tuple [] trailingComma)
  | path {t : TypeExpr} {s : PathSegment} (ht : t.EndsIn s) (hs : s.name = emptyName) : IsSentinel t
  | paren {t : TypeExpr} (h : IsSentinel t) : IsSentinel (.paren t)

/-- The type is a path that ends in `Result` with exactly two types among its arguments. -/
def TypeExpr.IsResult (t ok error : TypeExpr) : Prop :=
  ∃ s, t.EndsIn s ∧ s.name = resultName ∧ s.typeArguments = [ok, error]

/-- The names make the path of a scalar: its name is alone or behind those of the standard
library. -/
def IsScalarPath (before : List String) (name : String) : Prop :=
  (∃ s : Scalar, s.name = name) ∧
    (before = [] ∨ ∃ crate ∈ standardCrates, before = [crate] ∨
      ∃ module ∈ standardModules, before = [crate, module])

/-- The names make the path of a struct: it ends in none of the names with a meaning of their own. -/
structure IsStructPath (before : List String) (name : String) : Prop where
  wrapper : name ∉ wrapperNames
  sequence : name ∉ sequenceNames
  map : name ∉ mapNames
  scalar : ¬ IsScalarPath before name

/-- The type stands for a struct with a name. References, pointers and round brackets are looked
through, and so is a wrapper, to its first type argument; without one it stands for nothing. -/
inductive TypeExpr.Names : TypeExpr → TypeName → Prop
  | name {absolute : Bool} {before : List PathSegment} {s : PathSegment}
      (hs : IsStructPath (before.map (·.name)) s.name) :
      Names (.path absolute (before ++ [s])) ⟨before.map (·.name), s.name⟩
  | wrapper {absolute : Bool} {before : List PathSegment} {s : PathSegment} {t : TypeExpr}
      {n : TypeName} (hs : s.name ∈ wrapperNames) (ht : s.typeArguments.head? = some t)
      (h : Names t n) : Names (.path absolute (before ++ [s])) n
  | reference {lifetime : Option String} {mutable : Bool} {t : TypeExpr} {n : TypeName}
      (h : Names t n) : Names (.reference lifetime mutable t) n
  | pointer {mutable : Bool} {t : TypeExpr} {n : TypeName} (h : Names t n) :
      Names (.pointer mutable t) n
  | paren {t : TypeExpr} {n : TypeName} (h : Names t n) : Names (.paren t) n

/-- The type stands for a struct. -/
def TypeExpr.IsStructType (t : TypeExpr) : Prop := ∃ n, t.Names n

/-- The type is one of what a request or a response may hold. -/
def TypeExpr.IsContent (t : TypeExpr) : Prop := t.IsSentinel ∨ t.IsStructType

/-- The type is one of requests: without content, or a reference to what has a content or not. -/
def TypeExpr.IsRequest (t : TypeExpr) : Prop :=
  t.IsSentinel ∨ ∃ lifetime mutable target, t = .reference lifetime mutable target ∧
    target.IsContent

/-- The type is a path that ends in `Error`. -/
def TypeExpr.IsError (t : TypeExpr) : Prop := ∃ s, t.EndsIn s ∧ s.name = errorName

/-- What the method of a route handler looks like. -/
def MethodDecl.IsHandler (m : MethodDecl) : Prop :=
  ∃ context request result ok error, m.parameters = [context, request] ∧ request.IsRequest ∧
    m.result = some result ∧ result.IsResult ok error ∧ error.IsError ∧ ok.IsContent

/-- The first of the conditions on handlers that a method does not meet has this fault. -/
inductive MethodDecl.Breaks (m : MethodDecl) : SignatureFault → Prop
  | parameterCount (h : m.parameters.length ≠ 2) : Breaks m (.parameterCount m.parameters.length)
  | requestByValue {context request : TypeExpr} (hparameters : m.parameters = [context, request])
      (hsentinel : ¬ request.IsSentinel)
      (h : ∀ lifetime mutable target, request ≠ .reference lifetime mutable target) :
      Breaks m .requestByValue
  | requestNotStruct {context target : TypeExpr} {lifetime : Option String} {mutable : Bool}
      (hparameters : m.parameters = [context, .reference lifetime mutable target])
      (h : ¬ target.IsContent) : Breaks m .requestNotStruct
  | noResult {context request : TypeExpr} (hparameters : m.parameters = [context, request])
      (hrequest : request.IsRequest) (h : m.result = none) : Breaks m .noResult
  | resultShape {context request result : TypeExpr} (hparameters : m.parameters = [context, request])
      (hrequest : request.IsRequest) (hresult : m.result = some result)
      (h : ∀ ok error, ¬ result.IsResult ok error) : Breaks m .resultShape
  | errorType {context request result ok error : TypeExpr}
      (hparameters : m.parameters = [context, request]) (hrequest : request.IsRequest)
      (hresult : m.result = some result) (htypes : result.IsResult ok error)
      (h : ¬ error.IsError) : Breaks m .errorType
  | responseNotStruct {context request result ok error : TypeExpr}
      (hparameters : m.parameters = [context, request]) (hrequest : request.IsRequest)
      (hresult : m.result = some result) (htypes : result.IsResult ok error)
      (herror : error.IsError) (h : ¬ ok.IsContent) : Breaks m .responseNotStruct

/-! ## Types without content -/

namespace TypeExpr

variable {t : TypeExpr} {s : PathSegment} {name : String}

theorem lastSegment?_eq_some_iff : t.lastSegment? = some s ↔ t.EndsIn s := by
  constructor
  · intro h
    cases t with
    | path absolute segments =>
      obtain ⟨before, rfl⟩ := List.getLast?_eq_some_iff.1 h
      exact .path absolute before s
    | projection base traitPath segments =>
      obtain ⟨before, rfl⟩ := List.getLast?_eq_some_iff.1 h
      exact .projection base traitPath before s
    | _ => cases h
  · intro h
    cases h with
    | path absolute before s => exact List.getLast?_concat
    | projection base traitPath before s => exact List.getLast?_concat

theorem lastName?_eq_some_iff : t.lastName? = some name ↔ ∃ s, t.EndsIn s ∧ s.name = name := by
  simp [lastName?, lastSegment?_eq_some_iff]

theorem isEmptyType_iff : t.isEmptyType = true ↔ t.IsSentinel := by
  constructor
  · intro h
    induction t using isEmptyType.induct with
    | case1 elements trailingComma =>
      rw [isEmptyType, List.isEmpty_iff] at h
      rw [h]
      exact .unit trailingComma
    | case2 inner ih =>
      rw [isEmptyType] at h
      exact .paren (ih h)
    | case3 t htuple hparen =>
      rw [isEmptyType] at h
      · obtain ⟨s, ht, hs⟩ := lastName?_eq_some_iff.1 (beq_iff_eq.1 h)
        exact .path ht hs
      · exact htuple
      · exact hparen
  · intro h
    induction h with
    | unit trailingComma => rfl
    | path ht hs =>
      have hname := lastName?_eq_some_iff.2 ⟨_, ht, hs⟩
      cases ht with
      | path absolute before s => exact beq_iff_eq.2 hname
      | projection base traitPath before s => exact beq_iff_eq.2 hname
    | paren _ ih =>
      rw [isEmptyType]
      exact ih

theorem isEmptyType_eq_false_iff : t.isEmptyType = false ↔ ¬ t.IsSentinel := by
  rw [← isEmptyType_iff, Bool.not_eq_true]

end TypeExpr

end Syntax

/-! ## Types that stand for a struct -/

theorem isStandardPrefix_iff {before : List String} :
    isStandardPrefix before = true ↔ ∃ crate ∈ standardCrates, before = [crate] ∨
      ∃ module ∈ standardModules, before = [crate, module] := by
  match before with
  | [] => simp [isStandardPrefix]
  | [crate] => simp [isStandardPrefix]
  | [crate, module] => simp [isStandardPrefix]
  | first :: second :: third :: rest => simp [isStandardPrefix]

theorem Scalar.ofName?_eq_none_iff {name : String} :
    Scalar.ofName? name = none ↔ ∀ s : Scalar, s.name ≠ name := by
  have hall : ∀ s, s ∈ Scalar.all := by
    intro s
    cases s <;> decide
  simp only [Scalar.ofName?, List.find?_eq_none, beq_iff_eq]
  exact ⟨fun h s => h s (hall s), fun h s _ => h s⟩

/-- A path that is no scalar means its name. -/
theorem classifyName_eq_named_iff {before : List String} {name : String} {n : TypeName} :
    classifyName before name = .named n ↔ ¬ IsScalarPath before name ∧ n = ⟨before, name⟩ := by
  have hplace : (before.isEmpty || isStandardPrefix before) = true ↔
      before = [] ∨ ∃ crate ∈ standardCrates, before = [crate] ∨
        ∃ module ∈ standardModules, before = [crate, module] := by
    rw [Bool.or_eq_true, List.isEmpty_iff, isStandardPrefix_iff]
  unfold classifyName IsScalarPath
  rw [← hplace]
  cases hs : Scalar.ofName? name with
  | none =>
    have hnone : ¬ ∃ s : Scalar, s.name = name := by
      rintro ⟨s, hname⟩
      exact Scalar.ofName?_eq_none_iff.1 hs s hname
    constructor
    · intro h
      exact ⟨fun hscalar => hnone hscalar.1, (FieldType.named.inj h).symm⟩
    · rintro ⟨-, rfl⟩
      rfl
  | some s =>
    have hsome : ∃ s : Scalar, s.name = name := ⟨s, by simpa using List.find?_some hs⟩
    by_cases hb : (before.isEmpty || isStandardPrefix before) = true
    · simp [hsome, hb]
    · simp [hb, eq_comm]

section Shallow

variable (file : String)

/-- A type that stands for a struct means its name. -/
theorem Syntax.TypeExpr.Names.classify_eq {t : TypeExpr} {n : TypeName} (h : t.Names n) :
    classify file true t = pure (.named n) := by
  induction h with
  | name hs =>
    rw [classify_path, classifySegment_other hs.wrapper hs.sequence hs.map,
      classifyName_eq_named_iff.2 ⟨hs.scalar, rfl⟩]
  | wrapper hs ht _ ih =>
    rw [classify_path, classifySegment_wrapper hs, classifyArgument_head ht, ih]
  | reference _ ih => rw [classify, ih]
  | pointer _ ih => rw [classify, ih]
  | paren _ ih => rw [classify, ih]

theorem result_container_ne {α : Type} (x : Compile α) {f : α → FieldType} {n : TypeName}
    (hf : ∀ a, f a ≠ .named n) : (do return f (← x) : Compile FieldType).result ≠ .ok (.named n) := by
  rw [result_bind fun a => steady_pure (f a)]
  intro h
  obtain ⟨a, -, ha⟩ := exists_of_bind_ok h
  exact hf a (Except.ok.inj ha)

/-- Only a type that stands for a struct means a name. -/
theorem names_of_classify {n : TypeName} (t : TypeExpr)
    (h : (classify file true t).result = .ok (.named n)) : t.Names n := by
  induction t using TypeExpr.induction_on_parts with
  | path absolute before s ih =>
    rw [classify_path] at h
    cases nameKind s.name with
    | wrapper hs =>
      rw [classifySegment_wrapper hs, classifyArgument_eq] at h
      cases ht : (typesAmong s.arguments)[0]? with
      | none =>
        rw [ht] at h
        cases h
      | some t =>
        rw [ht] at h
        exact .wrapper hs (List.head?_eq_getElem?.trans ht) (ih t (List.mem_of_getElem? ht) h)
    | sequence hs =>
      rw [classifySegment_sequence hs] at h
      exact absurd h (result_container_ne _ fun a => by simp)
    | map hs =>
      rw [classifySegment_map hs] at h
      exact absurd h (result_container_ne _ fun a => by simp)
    | other hwrapper hsequence hmap =>
      rw [classifySegment_other hwrapper hsequence hmap] at h
      obtain ⟨hscalar, rfl⟩ := classifyName_eq_named_iff.1 (Except.ok.inj h)
      exact .name ⟨hwrapper, hsequence, hmap, hscalar⟩
  | reference _ _ target ih =>
    rw [classify] at h
    exact .reference (ih h)
  | pointer _ target ih =>
    rw [classify] at h
    exact .pointer (ih h)
  | paren inner ih =>
    rw [classify] at h
    exact .paren (ih h)
  | emptyPath absolute =>
    rw [classify, classifyPath] at h
    cases h
  | _ =>
    rw [classify] at h
    cases h

theorem structName?_eq_some_iff {t : TypeExpr} {n : TypeName} :
    t.structName? file = some n ↔ t.Names n := by
  constructor
  · intro h
    unfold TypeExpr.structName? at h
    split at h
    · next name hclassify =>
      cases h
      exact names_of_classify file t hclassify
    · cases h
  · intro h
    rw [TypeExpr.structName?, h.classify_eq file]
    rfl

theorem structName?_eq_none_iff {t : TypeExpr} :
    t.structName? file = none ↔ ¬ t.IsStructType := by
  rw [Option.eq_none_iff_forall_ne_some, TypeExpr.IsStructType, not_exists]
  exact forall_congr' fun n => not_congr (structName?_eq_some_iff file)

end Shallow

/-! ## Requests, results and responses -/

namespace Syntax.TypeExpr

variable {file : String} {t ok error : TypeExpr}

theorem resultTypes?_eq_some_iff : t.resultTypes? = some (ok, error) ↔ t.IsResult ok error := by
  unfold resultTypes?
  constructor
  · intro h
    split at h
    · next s hs =>
      split at h
      · next hname =>
        split at h
        · next htypes =>
          cases h
          exact ⟨s, lastSegment?_eq_some_iff.1 hs, beq_iff_eq.1 hname, htypes⟩
        · cases h
      · cases h
    · cases h
  · rintro ⟨s, hs, hname, htypes⟩
    simp [lastSegment?_eq_some_iff.2 hs, hname, htypes]

theorem resultTypes?_eq_none_iff : t.resultTypes? = none ↔ ∀ ok error, ¬ t.IsResult ok error := by
  rw [Option.eq_none_iff_forall_ne_some]
  constructor
  · intro h ok error htypes
    exact h (ok, error) (resultTypes?_eq_some_iff.2 htypes)
  · rintro h ⟨ok, error⟩ htypes
    exact h ok error (resultTypes?_eq_some_iff.1 htypes)

theorem not_isSentinel_reference {lifetime : Option String} {mutable : Bool} :
    ¬ (TypeExpr.reference lifetime mutable t).IsSentinel := by
  rw [← isEmptyType_eq_false_iff]
  rfl

theorem IsRequest.accepted (h : t.IsRequest) (file : String) :
    ∃ input, t.request? file = .ok input := by
  unfold request?
  by_cases ht : t.IsSentinel
  · rw [if_pos (isEmptyType_iff.2 ht)]
    exact ⟨none, rfl⟩
  rw [if_neg (mt isEmptyType_iff.1 ht)]
  obtain ⟨lifetime, mutable, target, rfl, htarget⟩ := h.resolve_left ht
  dsimp only
  by_cases hempty : target.IsSentinel
  · rw [if_pos (isEmptyType_iff.2 hempty)]
    exact ⟨none, rfl⟩
  rw [if_neg (mt isEmptyType_iff.1 hempty)]
  obtain ⟨n, hn⟩ := htarget.resolve_left hempty
  rw [(structName?_eq_some_iff file).2 hn]
  exact ⟨some n, rfl⟩

theorem request?_of_byValue (hsentinel : ¬ t.IsSentinel)
    (h : ∀ lifetime mutable target, t ≠ .reference lifetime mutable target) (file : String) :
    t.request? file = .error .requestByValue := by
  unfold request?
  rw [if_neg (mt isEmptyType_iff.1 hsentinel)]
  split
  · next lifetime mutable target => exact absurd rfl (h lifetime mutable target)
  · rfl

theorem request?_of_notStruct {lifetime : Option String} {mutable : Bool} (h : ¬ t.IsContent)
    (file : String) :
    (TypeExpr.reference lifetime mutable t).request? file = .error .requestNotStruct := by
  obtain ⟨hsentinel, hstruct⟩ := not_or.1 h
  unfold request?
  rw [if_neg (mt isEmptyType_iff.1 not_isSentinel_reference)]
  dsimp only
  rw [if_neg (mt isEmptyType_iff.1 hsentinel), (structName?_eq_none_iff file).2 hstruct]

theorem IsContent.accepted (h : t.IsContent) (file : String) :
    ∃ output, t.response? file = .ok output := by
  unfold response?
  by_cases ht : t.IsSentinel
  · rw [if_pos (isEmptyType_iff.2 ht)]
    exact ⟨none, rfl⟩
  rw [if_neg (mt isEmptyType_iff.1 ht)]
  obtain ⟨n, hn⟩ := h.resolve_left ht
  rw [(structName?_eq_some_iff file).2 hn]
  exact ⟨_, rfl⟩

theorem response?_of_notStruct (h : ¬ t.IsContent) (file : String) :
    t.response? file = .error .responseNotStruct := by
  obtain ⟨hsentinel, hstruct⟩ := not_or.1 h
  rw [response?, if_neg (mt isEmptyType_iff.1 hsentinel), (structName?_eq_none_iff file).2 hstruct]

end Syntax.TypeExpr

/-! ## Signatures -/

namespace Syntax.MethodDecl

variable {m : MethodDecl}

/-- The signature of a handler is accepted. -/
theorem IsHandler.accepted (h : m.IsHandler) (file : String) : ∃ s, m.signature? file = .ok s := by
  obtain ⟨context, request, result, ok, error, hparameters, hrequest, hresult, htypes, ⟨s, hs, hname⟩,
    hok⟩ := h
  obtain ⟨input, hinput⟩ := hrequest.accepted file
  obtain ⟨output, houtput⟩ := hok.accepted file
  have herror := TypeExpr.lastName?_eq_some_iff.2 ⟨s, hs, hname⟩
  refine ⟨(input, output), ?_⟩
  simp [signature?, hparameters, hinput, hresult, TypeExpr.resultTypes?_eq_some_iff.2 htypes, herror,
    houtput, ok_bind]

/-- The signature of a method that breaks a condition is refused for it. -/
theorem Breaks.refused {fault : SignatureFault} (h : m.Breaks fault) (file : String) :
    m.signature? file = .error fault := by
  cases h with
  | parameterCount h =>
    unfold signature?
    split
    · next context request hparameters =>
      rw [hparameters] at h
      exact absurd rfl h
    · rfl
  | requestByValue hparameters hsentinel h =>
    simp [signature?, hparameters, TypeExpr.request?_of_byValue hsentinel h]
    rfl
  | requestNotStruct hparameters h =>
    simp [signature?, hparameters, TypeExpr.request?_of_notStruct h]
    rfl
  | noResult hparameters hrequest h =>
    obtain ⟨input, hinput⟩ := hrequest.accepted file
    simp [signature?, hparameters, hinput, h]
    rfl
  | resultShape hparameters hrequest hresult h =>
    obtain ⟨input, hinput⟩ := hrequest.accepted file
    simp [signature?, hparameters, hinput, hresult, TypeExpr.resultTypes?_eq_none_iff.2 h]
    rfl
  | errorType hparameters hrequest hresult htypes h =>
    obtain ⟨input, hinput⟩ := hrequest.accepted file
    have herror := mt TypeExpr.lastName?_eq_some_iff.1 h
    simp [signature?, hparameters, hinput, hresult, TypeExpr.resultTypes?_eq_some_iff.2 htypes,
      herror]
    rfl
  | responseNotStruct hparameters hrequest hresult htypes herror h =>
    obtain ⟨input, hinput⟩ := hrequest.accepted file
    have herror := TypeExpr.lastName?_eq_some_iff.2 herror
    simp [signature?, hparameters, hinput, hresult, TypeExpr.resultTypes?_eq_some_iff.2 htypes,
      herror, TypeExpr.response?_of_notStruct h]
    rfl

/-- A method is a handler, or it breaks a condition. -/
theorem isHandler_or_breaks (m : MethodDecl) : m.IsHandler ∨ ∃ fault, m.Breaks fault := by
  by_cases hlength : m.parameters.length = 2
  swap
  · exact .inr ⟨_, .parameterCount hlength⟩
  obtain ⟨context, request, hparameters⟩ := List.length_eq_two.1 hlength
  by_cases hrequest : request.IsRequest
  swap
  · obtain ⟨hsentinel, hcontent⟩ := not_or.1 hrequest
    by_cases hreference : ∃ lifetime mutable target, request = .reference lifetime mutable target
    · obtain ⟨lifetime, mutable, target, rfl⟩ := hreference
      exact .inr ⟨_, .requestNotStruct hparameters fun h => hcontent ⟨_, _, _, rfl, h⟩⟩
    · exact .inr ⟨_, .requestByValue hparameters hsentinel fun l m t h => hreference ⟨l, m, t, h⟩⟩
  cases hresult : m.result with
  | none => exact .inr ⟨_, .noResult hparameters hrequest hresult⟩
  | some result =>
    by_cases htypes : ∃ ok error, result.IsResult ok error
    swap
    · exact .inr ⟨_, .resultShape hparameters hrequest hresult fun ok error h => htypes ⟨ok, error, h⟩⟩
    obtain ⟨ok, error, htypes⟩ := htypes
    by_cases herror : error.IsError
    swap
    · exact .inr ⟨_, .errorType hparameters hrequest hresult htypes herror⟩
    by_cases hok : ok.IsContent
    · exact .inl ⟨context, request, result, ok, error, hparameters, hrequest, hresult, htypes, herror,
        hok⟩
    · exact .inr ⟨_, .responseNotStruct hparameters hrequest hresult htypes herror hok⟩

/-- The signature of a method is accepted exactly if the method is a handler, and refused with a
fault exactly if that is the one of the first condition that the method breaks. -/
theorem signature?_contract (file : String) (m : MethodDecl) :
    ((∃ s, m.signature? file = .ok s) ↔ m.IsHandler) ∧
      ∀ fault, m.signature? file = .error fault ↔ m.Breaks fault := by
  rcases isHandler_or_breaks m with h | ⟨fault, h⟩
  · obtain ⟨s, hs⟩ := h.accepted file
    refine ⟨⟨fun _ => h, fun _ => ⟨s, hs⟩⟩, fun fault => ⟨fun hf => ?_, fun hf => hf.refused file⟩⟩
    rw [hs] at hf
    cases hf
  · have hfault := h.refused file
    refine ⟨⟨?_, fun hm => hm.accepted file⟩, fun other => ⟨fun hf => ?_, fun hf => hf.refused file⟩⟩
    · rintro ⟨s, hs⟩
      rw [hfault] at hs
      cases hs
    · rw [hfault] at hf
      cases hf
      exact h

end Syntax.MethodDecl

end ApiDecl
