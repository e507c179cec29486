import ApiDecl.Proofs.HandlerContract
import ApiDecl.Proofs.RouteResult

/-!
# Proofs: types without content in signatures

A response that names the type without content has no struct, whatever is around the name. A request
has none only if it is written so: if the name is behind a reference, a pointer or a wrapper
(`TypeExpr.HidesEmpty`), the request has a struct of this name. So a type is treated alike as a
request and as a response exactly if it does not hide the name (`MethodDecl.empty_types`).
-/

namespace ApiDecl

open Compile Syntax

namespace Syntax

/-! ## Types that hide the empty type -/

/-- The type is not written as one without content, but is looked through to its name. -/
def TypeExpr.HidesEmpty (t : TypeExpr) : Prop :=
  ¬ t.IsSentinel ∧ ∃ n, t.Names n ∧ n.base = emptyName

/-- The request of the method is a reference to the type. -/
def MethodDecl.Requests (m : MethodDecl) (t : TypeExpr) : Prop :=
  ∃ context lifetime mutable, m.parameters = [context, .reference lifetime mutable t]

/-- The response of the method is the type. -/
def MethodDecl.Responds (m : MethodDecl) (t : TypeExpr) : Prop :=
  ∃ result error, m.result = some result ∧ result.IsResult t error

namespace TypeExpr

variable {file : String} {t : TypeExpr} {n : TypeName}

theorem Names.unique {n' : TypeName} (h : t.Names n) (h' : t.Names n') : n = n' := by
  have hn := (structName?_eq_some_iff "").2 h
  have hn' := (structName?_eq_some_iff "").2 h'
  exact Option.some.inj (hn.symm.trans hn')

/-- A type that names a struct and is not written as one without content hides the empty type if
that is the name. -/
theorem hidesEmpty_iff (ht : ¬ t.IsSentinel) (hn : t.Names n) :
    t.HidesEmpty ↔ n.base = emptyName := by
  constructor
  · rintro ⟨-, n', hn', hbase⟩
    rwa [hn.unique hn']
  · exact fun hbase => ⟨ht, n, hn, hbase⟩

/-- A request that is accepted is written as one without content, or refers to a type that is or
that names a struct. -/
theorem request?_ok {input : Option TypeName} (h : t.request? file = .ok input) :
    (t.IsSentinel ∧ input = none) ∨ ∃ lifetime mutable target,
      t = .reference lifetime mutable target ∧
        ((target.IsSentinel ∧ input = none) ∨
          (¬ target.IsSentinel ∧ ∃ n, target.Names n ∧ input = some n)) := by
  unfold request? at h
  split at h
  · next hempty =>
    cases h
    exact .inl ⟨isEmptyType_iff.1 hempty, rfl⟩
  · split at h
    · next lifetime mutable target hempty =>
      refine .inr ⟨lifetime, mutable, target, rfl, ?_⟩
      split at h
      · next htarget =>
        cases h
        exact .inl ⟨isEmptyType_iff.1 htarget, rfl⟩
      · next htarget =>
        split at h
        · next n hn =>
          cases h
          exact .inr ⟨mt isEmptyType_iff.2 htarget, n, (structName?_eq_some_iff file).1 hn, rfl⟩
        · cases h
    · cases h

/-- A response that is accepted is written as one without content, or it names a struct, which it
has unless that is the empty type. -/
theorem response?_ok {output : Option TypeName} (h : t.response? file = .ok output) :
    (t.IsSentinel ∧ output = none) ∨
      (¬ t.IsSentinel ∧ ∃ n, t.Names n ∧ output = if n.base = emptyName then none else some n) := by
  unfold response? at h
  split at h
  · next hempty =>
    cases h
    exact .inl ⟨isEmptyType_iff.1 hempty, rfl⟩
  · next hempty =>
    split at h
    · next n hn =>
      cases h
      refine .inr ⟨mt isEmptyType_iff.2 hempty, n, (structName?_eq_some_iff file).1 hn, ?_⟩
      simp only [beq_iff_eq]
    · cases h

end TypeExpr

/-! ## Signatures -/

namespace MethodDecl

variable {file : String} {m : MethodDecl} {t : TypeExpr} {s : Option TypeName × Option TypeName}

/-- What a request of a type gives. -/
theorem Requests.input (hm : m.Requests t) (h : m.signature? file = .ok s) :
    (t.IsSentinel ∧ s.1 = none) ∨ (¬ t.IsSentinel ∧ ∃ n, t.Names n ∧ s.1 = some n) := by
  obtain ⟨context, lifetime, mutable, hparameters⟩ := hm
  rcases TypeExpr.request?_ok (signature_request h hparameters) with ⟨href, -⟩ | ⟨_, _, _, href, ht⟩
  · exact absurd href TypeExpr.not_isSentinel_reference
  · cases href
    exact ht

/-- What a response of a type gives. -/
theorem Responds.output (hm : m.Responds t) (h : m.signature? file = .ok s) :
    (t.IsSentinel ∧ s.2 = none) ∨
      (¬ t.IsSentinel ∧ ∃ n, t.Names n ∧ s.2 = if n.base = emptyName then none else some n) := by
  obtain ⟨result, error, hresult, htypes⟩ := hm
  exact TypeExpr.response?_ok
    (signature_response h hresult (TypeExpr.resultTypes?_eq_some_iff.2 htypes))

/-- A method with a signature is a handler. -/
theorem isHandler_of_signature (h : m.signature? file = .ok s) : m.IsHandler := by
  rcases isHandler_or_breaks m with hm | ⟨fault, hm⟩
  · exact hm
  · cases h.symm.trans (hm.refused file)

/-- The struct of a response is never the empty type. -/
theorem base_output (h : m.signature? file = .ok s) : ∀ n ∈ s.2, n.base ≠ emptyName := by
  obtain ⟨_, _, result, ok, error, -, -, hresult, htypes, -⟩ := isHandler_of_signature h
  have hm : m.Responds ok := ⟨result, error, hresult, htypes⟩
  intro n hn
  rcases hm.output h with ⟨-, hnone⟩ | ⟨-, n', -, houtput⟩
  · rw [hnone] at hn
    cases hn
  · rw [houtput] at hn
    split at hn
    · cases hn
    · next hbase =>
      cases hn
      exact hbase

/-- The struct of a request is the empty type if the request refers to a type that hides it. -/
theorem base_input (h : m.signature? file = .ok s) :
    (∃ n ∈ s.1, n.base = emptyName) ↔ ∃ t, m.Requests t ∧ t.HidesEmpty := by
  constructor
  · rintro ⟨n, hn, hbase⟩
    obtain ⟨context, request, _, _, _, hparameters, -⟩ := isHandler_of_signature h
    rcases TypeExpr.request?_ok (signature_request h hparameters) with
      ⟨-, hnone⟩ | ⟨lifetime, mutable, t, rfl, ht⟩
    · rw [hnone] at hn
      cases hn
    · refine ⟨t, ⟨context, lifetime, mutable, hparameters⟩, ?_⟩
      rcases ht with ⟨-, hnone⟩ | ⟨ht, n', hn', hinput⟩
      · rw [hnone] at hn
        cases hn
      · rw [hinput] at hn
        cases hn
        exact ⟨ht, n, hn', hbase⟩
  · rintro ⟨t, hm, ht, n, hn, hbase⟩
    rcases hm.input h with ⟨hsentinel, -⟩ | ⟨-, n', hn', hinput⟩
    · exact absurd hsentinel ht
    · rw [hn.unique hn'] at hbase
      exact ⟨n', hinput, hbase⟩

/-- A type is without content as a request exactly if it is as a response, unless it hides the empty
type. -/
theorem alike_iff {m' : MethodDecl} {file' : String} {s' : Option TypeName × Option TypeName}
    (h : m.signature? file = .ok s) (h' : m'.signature? file' = .ok s') (hm : m.Requests t)
    (hm' : m'.Responds t) : (s.1 = none ↔ s'.2 = none) ↔ ¬ t.HidesEmpty := by
  rcases hm.input h with ⟨ht, hinput⟩ | ⟨ht, n, hn, hinput⟩
  · rcases hm'.output h' with ⟨-, houtput⟩ | ⟨ht', -⟩
    · simp [hinput, houtput, TypeExpr.HidesEmpty, ht]
    · exact absurd ht ht'
  · rcases hm'.output h' with ⟨ht', -⟩ | ⟨-, n', hn', houtput⟩
    · exact absurd ht' ht
    · obtain rfl := hn.unique hn'
      rw [TypeExpr.hidesEmpty_iff ht hn, hinput, houtput]
      by_cases hbase : n.base = emptyName
      · simp [hbase]
      · simp [hbase]

/-- In a signature that is accepted, the struct of the response is never the empty type, and that of
the request is exactly if the request refers to a type that hides it. As the request and as the
response of two such signatures, a type is treated alike exactly if it does not hide it. -/
theorem empty_types (m m' : MethodDecl) (file file' : String)
    (s s' : Option TypeName × Option TypeName) (h : m.signature? file = .ok s)
    (h' : m'.signature? file' = .ok s') :
    (∀ n ∈ s.2, n.base ≠ emptyName) ∧
      ((∃ n ∈ s.1, n.base = emptyName) ↔ ∃ t, m.Requests t ∧ t.HidesEmpty) ∧
      ∀ t, m.Requests t → m'.Responds t → ((s.1 = none ↔ s'.2 = none) ↔ ¬ t.HidesEmpty) :=
  ⟨base_output h, base_input h, fun _ hm hm' => alike_iff h h' hm hm'⟩

/-- A method that takes and gives a type, by a reference to it and in a result. -/
def exchanging (t : TypeExpr) : MethodDecl :=
  ⟨[], "exchange", [.path false [.plain "Context"], .reference none false t],
    some (.path false [.generic "Result" false
      [.type t, .type (.path false [.plain "Error"])] false])⟩

/-- The empty type in a box. -/
def boxedEmpty : TypeExpr :=
  .path false [.generic "Box" false [.type (.path false [.plain "Empty"])] false]

theorem requests_exchanging (t : TypeExpr) : (exchanging t).Requests t := ⟨_, _, _, rfl⟩

theorem responds_exchanging (t : TypeExpr) : (exchanging t).Responds t :=
  ⟨_, _, rfl, _, .path false [] _, rfl, rfl⟩

/-- A method that takes and gives the empty type in a box has a struct of this name as its request,
and nothing as its response. -/
theorem boxed_empty_not_alike :
    (exchanging boxedEmpty).signature? "m.rs" = .ok (some ⟨[], "Empty"⟩, none) ∧
      (exchanging boxedEmpty).Requests boxedEmpty ∧ (exchanging boxedEmpty).Responds boxedEmpty ∧
      (∃ n ∈ some (⟨[], "Empty"⟩ : TypeName), n.base = emptyName) ∧
      ¬ (some (⟨[], "Empty"⟩ : TypeName) = none ↔ (none : Option TypeName) = none) := by
  refine ⟨by decide +kernel, requests_exchanging _, responds_exchanging _, ⟨_, rfl, rfl⟩, ?_⟩
  simp

/-- The box is why. -/
theorem boxed_empty_types :
    (exchanging boxedEmpty).signature? "m.rs" = .ok (some ⟨[], "Empty"⟩, none) ∧
      (∀ n ∈ (none : Option TypeName), n.base ≠ emptyName) ∧
      ((∃ n ∈ some (⟨[], "Empty"⟩ : TypeName), n.base = emptyName) ↔
        ∃ t, (exchanging boxedEmpty).Requests t ∧ t.HidesEmpty) ∧
      ∀ t, (exchanging boxedEmpty).Requests t → (exchanging boxedEmpty).Responds t →
        ((some (⟨[], "Empty"⟩ : TypeName) = none ↔ (none : Option TypeName) = none) ↔
          ¬ t.HidesEmpty) := by
  have h : (exchanging boxedEmpty).signature? "m.rs" = .ok (some ⟨[], "Empty"⟩, none) := by
    decide +kernel
  exact ⟨h, empty_types _ _ _ _ _ _ h h⟩

end MethodDecl

end Syntax

end ApiDecl
