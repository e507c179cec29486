import ApiDecl.Proofs.SkippedFields

/-!
# Proofs: shallow classification

A type is looked through to its core (`TypeExpr.Covers`): references, pointers, round brackets and
wrappers mean what they are around, in a shallow classification as well. The core alone decides
whether a type means something (`TypeExpr.IsBare`): a sequence, a dictionary and an inline struct do,
whatever is in them. So a shallow classification gives the outline of the meaning
(`FieldType.outline`) or the same error, but for inline structs whose body does not parse
(`TypeExpr.classifications_agree`).
-/

namespace ApiDecl

open Compile Syntax

/-- A meaning without what is in it: no element, no value and no fields. -/
def FieldType.outline : FieldType → FieldType
  | .array _ => .array none
  | .map _ => .map none
  | .struct _ => .struct (.blank "")
  | .scalar s => .scalar s
  | .named n => .named n

namespace Syntax.TypeExpr

/-! ## Cores -/

/-- The type is another one with references, pointers, round brackets and wrappers around it, or with
nothing; a wrapper is around its first type argument. -/
inductive Covers : TypeExpr → TypeExpr → Prop
  | refl (t : TypeExpr) : Covers t t
  | reference {lifetime : Option String} {mutable : Bool} {t core : TypeExpr} (h : Covers t core) :
      Covers (.reference lifetime mutable t) core
  | pointer {mutable : Bool} {t core : TypeExpr} (h : Covers t core) :
      Covers (.pointer mutable t) core
  | paren {t core : TypeExpr} (h : Covers t core) : Covers (.paren t) core
  | wrapper {absolute : Bool} {before : List PathSegment} {s : PathSegment} {t core : TypeExpr}
      (hs : s.name ∈ wrapperNames) (ht : s.typeArguments.head? = some t) (h : Covers t core) :
      Covers (.path absolute (before ++ [s])) core

/-- The type is a sequence, with this type of its elements if one is written. -/
inductive IsSequenceOf : TypeExpr → Option TypeExpr → Prop
  | array (element : TypeExpr) (length : List Token) : IsSequenceOf (.array element length) element
  | slice (element : TypeExpr) : IsSequenceOf (.slice element) element
  | path {absolute : Bool} {before : List PathSegment} {s : PathSegment}
      (hs : s.name ∈ sequenceNames) :
      IsSequenceOf (.path absolute (before ++ [s])) s.typeArguments[0]?

/-- The type is a dictionary, with this type of its values if one is written. -/
inductive IsMapOf : TypeExpr → Option TypeExpr → Prop
  | path {absolute : Bool} {before : List PathSegment} {s : PathSegment} (hs : s.name ∈ mapNames) :
      IsMapOf (.path absolute (before ++ [s])) s.typeArguments[1]?

/-- The type has no meaning in a declaration. -/
inductive IsMeaningless : TypeExpr → Prop
  | emptyPath (absolute : Bool) : IsMeaningless (.path absolute [])
  | emptyWrapper {absolute : Bool} {before : List PathSegment} {s : PathSegment}
      (hs : s.name ∈ wrapperNames) (h : s.typeArguments = []) :
      IsMeaningless (.path absolute (before ++ [s]))
  | projection (base : TypeExpr) (traitPath : List Token) (members : List PathSegment) :
      IsMeaningless (.projection base traitPath members)
  | tuple (elements : List TypeExpr) (trailingComma : Bool) :
      IsMeaningless (.tuple elements trailingComma)
  | bareBound (enclosed : Bool) (bound : List Token) : IsMeaningless (.bareBound enclosed bound)
  | other (tokens : List Token) : IsMeaningless (.other tokens)

/-- The type is not looked through. -/
inductive IsBare : TypeExpr → Prop
  | name {absolute : Bool} {before : List PathSegment} {s : PathSegment}
      (hwrapper : s.name ∉ wrapperNames) (hsequence : s.name ∉ sequenceNames)
      (hmap : s.name ∉ mapNames) : IsBare (.path absolute (before ++ [s]))
  | sequence {t : TypeExpr} {element : Option TypeExpr} (h : t.IsSequenceOf element) : IsBare t
  | map {t : TypeExpr} {value : Option TypeExpr} (h : t.IsMapOf value) : IsBare t
  | inlineStruct (delimiter : Delimiter) (body : List Token) (fields : List FieldDecl) :
      IsBare (.inlineStruct delimiter body fields)
  | brokenInlineStruct (delimiter : Delimiter) (body : List Token) (reason : String) :
      IsBare (.brokenInlineStruct delimiter body reason)
  | meaningless {t : TypeExpr} (h : t.IsMeaningless) : IsBare t

/-- Every type is looked through to one that is not. -/
theorem exists_bare (t : TypeExpr) : ∃ core, t.Covers core ∧ core.IsBare := by
  induction t using TypeExpr.induction_on_parts with
  | emptyPath absolute => exact ⟨_, .refl _, .meaningless (.emptyPath absolute)⟩
  | path absolute before s ih =>
    -- a wrapper is looked through if it has a type argument, and no other path is
    cases nameKind s.name with
    | wrapper hs =>
      cases htypes : s.typeArguments with
      | nil => exact ⟨_, .refl _, .meaningless (.emptyWrapper hs htypes)⟩
      | cons t rest =>
        obtain ⟨core, hcore, hbare⟩ := ih t (htypes ▸ List.mem_cons_self)
        exact ⟨core, .wrapper hs (by rw [htypes, List.head?_cons]) hcore, hbare⟩
    | sequence hs => exact ⟨_, .refl _, .sequence (.path hs)⟩
    | map hs => exact ⟨_, .refl _, .map (.path hs)⟩
    | other hwrapper hsequence hmap => exact ⟨_, .refl _, .name hwrapper hsequence hmap⟩
  | reference _ _ target ih =>
    obtain ⟨core, hcore, hbare⟩ := ih
    exact ⟨core, .reference hcore, hbare⟩
  | pointer _ target ih =>
    obtain ⟨core, hcore, hbare⟩ := ih
    exact ⟨core, .pointer hcore, hbare⟩
  | paren inner ih =>
    obtain ⟨core, hcore, hbare⟩ := ih
    exact ⟨core, .paren hcore, hbare⟩
  | array element length => exact ⟨_, .refl _, .sequence (.array element length)⟩
  | slice element => exact ⟨_, .refl _, .sequence (.slice element)⟩
  | inlineStruct delimiter body fields => exact ⟨_, .refl _, .inlineStruct delimiter body fields⟩
  | brokenInlineStruct delimiter body reason =>
    exact ⟨_, .refl _, .brokenInlineStruct delimiter body reason⟩
  | projection base traitPath members =>
    exact ⟨_, .refl _, .meaningless (.projection base traitPath members)⟩
  | tuple elements trailingComma =>
    exact ⟨_, .refl _, .meaningless (.tuple elements trailingComma)⟩
  | bareBound enclosed bound => exact ⟨_, .refl _, .meaningless (.bareBound enclosed bound)⟩
  | other tokens => exact ⟨_, .refl _, .meaningless (.other tokens)⟩

/-! ## Classifying a core -/

section Cores

variable (file : String) (shallow : Bool)

/-- A type means what it is looked through to. -/
theorem Covers.classify_eq {t core : TypeExpr} (h : t.Covers core) :
    classify file shallow t = classify file shallow core := by
  induction h with
  | refl t => rfl
  | reference _ ih => rw [classify, ih]
  | pointer _ ih => rw [classify, ih]
  | paren _ ih => rw [classify, ih]
  | wrapper hs ht _ ih =>
    rw [classify_path, classifySegment_wrapper hs, classifyArgument_head ht, ih]

/-- What the type means, if it means something. -/
def meaning? (t : TypeExpr) : Option FieldType := (classify file false t).result.toOption

theorem result_classifyElement (index : Nat) (s : PathSegment) :
    (classifyElement file shallow index s.arguments).result =
      .ok (if shallow then none else s.typeArguments[index]?.bind (meaning? file)) := by
  have htypes : typesAmong s.arguments = s.typeArguments := rfl
  rw [classifyElement_eq, htypes]
  cases s.typeArguments[index]? with
  | none =>
    rw [Option.elim_none, Option.bind_none, ite_self]
    rfl
  | some t => exact result_elementType shallow _

/-- A sequence means one, with what its elements mean if they mean something. -/
theorem IsSequenceOf.classify_eq {t : TypeExpr} {element : Option TypeExpr}
    (h : t.IsSequenceOf element) : (classify file shallow t).result =
      .ok (.array (if shallow then none else element.bind (meaning? file))) := by
  cases h with
  | array element length =>
    rw [classify, result_bind fun a => steady_pure (FieldType.array a), result_elementType]
    rfl
  | slice element =>
    rw [classify, result_bind fun a => steady_pure (FieldType.array a), result_elementType]
    rfl
  | @path absolute before s hs =>
    rw [classify_path, classifySegment_sequence hs,
      result_bind fun a => steady_pure (FieldType.array a), result_classifyElement]
    rfl

/-- A dictionary means one, with what its values mean if they mean something. -/
theorem IsMapOf.classify_eq {t : TypeExpr} {value : Option TypeExpr} (h : t.IsMapOf value) :
    (classify file shallow t).result =
      .ok (.map (if shallow then none else value.bind (meaning? file))) := by
  obtain @⟨absolute, before, s, hs⟩ := h
  rw [classify_path, classifySegment_map hs, result_bind fun a => steady_pure (FieldType.map a),
    result_classifyElement]
  rfl

/-- Any other path means its name. -/
theorem classify_name {absolute : Bool} {before : List PathSegment} {s : PathSegment}
    (hwrapper : s.name ∉ wrapperNames) (hsequence : s.name ∉ sequenceNames)
    (hmap : s.name ∉ mapNames) : (classify file shallow (.path absolute (before ++ [s]))).result =
      .ok (classifyName (before.map (·.name)) s.name) := by
  rw [classify_path, classifySegment_other hwrapper hsequence hmap]
  rfl

theorem classify_inlineStruct (delimiter : Delimiter) (body : List Token)
    (fields : List FieldDecl) :
    (classify file false (.inlineStruct delimiter body fields)).result =
      .ok (.struct (collectFields file inlineStructName fields).value) := by
  rw [classify, if_neg (by simp), result_bind fun _ => steady_pure _]
  rfl

/-- A type without meaning is refused with its text. -/
theorem IsMeaningless.classify_eq {t : TypeExpr} (h : t.IsMeaningless) :
    (classify file shallow t).result = .error (.unsupportedType t.text) := by
  cases h with
  | emptyPath absolute =>
    rw [classify, classifyPath]
    rfl
  | @emptyWrapper absolute before s hs h =>
    have htypes : typesAmong s.arguments = [] := h
    rw [classify_path, classifySegment_wrapper hs, classifyArgument_eq, htypes]
    rfl
  | projection base traitPath members =>
    rw [classify]
    rfl
  | tuple elements trailingComma =>
    rw [classify]
    rfl
  | bareBound enclosed bound =>
    rw [classify]
    rfl
  | other tokens =>
    rw [classify]
    rfl

end Cores

/-! ## Agreement -/

theorem outline_classifyName (qualifiers : List String) (name : String) :
    (classifyName qualifiers name).outline = classifyName qualifiers name := by
  unfold classifyName
  split
  · split <;> rfl
  · rfl

/-- A type that is looked through to an inline struct that does not parse is refused for that by a
deep classification, and means an inline struct to a shallow one. -/
theorem Covers.classify_broken (file : String) {t : TypeExpr} {delimiter : Delimiter}
    {body : List Token} {reason : String}
    (h : t.Covers (.brokenInlineStruct delimiter body reason)) :
    (classify file false t).result = .error (.brokenInlineStruct reason) ∧
      (classify file true t).result = .ok (.struct (.blank "")) := by
  rw [h.classify_eq, h.classify_eq, classify, classify]
  exact ⟨rfl, rfl⟩

/-- A shallow classification of a core gives the outline of its meaning, or the same error; it does
not look into an inline struct, so one that does not parse is refused by a deep one only. -/
theorem IsBare.agree (file : String) {t : TypeExpr} (h : t.IsBare) :
    (∃ u, (classify file false t).result = .ok u ∧ (classify file true t).result = .ok u.outline) ∨
      (t.IsMeaningless ∧ ∃ e, (classify file false t).result = .error e ∧
        (classify file true t).result = .error e) ∨
      ∃ delimiter body reason, t = .brokenInlineStruct delimiter body reason := by
  cases h with
  | name hwrapper hsequence hmap =>
    refine .inl ⟨_, classify_name file false hwrapper hsequence hmap, ?_⟩
    rw [outline_classifyName]
    exact classify_name file true hwrapper hsequence hmap
  | sequence h => exact .inl ⟨_, h.classify_eq file false, h.classify_eq file true⟩
  | map h => exact .inl ⟨_, h.classify_eq file false, h.classify_eq file true⟩
  | inlineStruct delimiter body fields =>
    refine .inl ⟨_, classify_inlineStruct file delimiter body fields, ?_⟩
    rw [classify]
    rfl
  | brokenInlineStruct delimiter body reason => exact .inr (.inr ⟨_, _, _, rfl⟩)
  | meaningless h => exact .inr (.inl ⟨h, _, h.classify_eq file false, h.classify_eq file true⟩)

section Agreement

variable {file : String} {t : TypeExpr}

/-- The same of any type, by its core. -/
theorem agree (file : String) (t : TypeExpr) :
    (∃ u, (classify file false t).result = .ok u ∧ (classify file true t).result = .ok u.outline) ∨
      (∃ core e, t.Covers core ∧ core.IsMeaningless ∧ (classify file false t).result = .error e ∧
        (classify file true t).result = .error e) ∨
      ∃ delimiter body reason, t.Covers (.brokenInlineStruct delimiter body reason) := by
  obtain ⟨core, hcore, hbare⟩ := t.exists_bare
  rw [hcore.classify_eq, hcore.classify_eq]
  rcases hbare.agree file with hmeaning | ⟨hmeaningless, e, hdeep, hshallow⟩ | ⟨_, _, _, rfl⟩
  · exact .inl hmeaning
  · exact .inr (.inl ⟨core, e, hcore, hmeaningless, hdeep, hshallow⟩)
  · exact .inr (.inr ⟨_, _, _, hcore⟩)

theorem classify_outline {u : FieldType} (h : (classify file false t).result = .ok u) :
    (classify file true t).result = .ok u.outline := by
  rcases agree file t with ⟨u', hdeep, hshallow⟩ | ⟨_, e, -, -, hdeep, -⟩ | ⟨_, _, _, hbroken⟩
  · cases h.symm.trans hdeep
    exact hshallow
  · cases h.symm.trans hdeep
  · cases h.symm.trans (hbroken.classify_broken file).1

theorem classify_error {e : Error} (h : (classify file false t).result = .error e) :
    (classify file true t).result = .error e ∨
      ∃ delimiter body reason, t.Covers (.brokenInlineStruct delimiter body reason) := by
  rcases agree file t with ⟨u, hdeep, -⟩ | ⟨_, e', -, -, hdeep, hshallow⟩ | hbroken
  · cases h.symm.trans hdeep
  · cases h.symm.trans hdeep
    exact .inl hshallow
  · exact .inr hbroken

theorem error_of_shallow {e : Error} (h : (classify file true t).result = .error e) :
    (classify file false t).result = .error e := by
  rcases agree file t with ⟨u, -, hshallow⟩ | ⟨_, e', -, -, hdeep, hshallow⟩ | ⟨_, _, _, hbroken⟩
  · cases h.symm.trans hshallow
  · cases h.symm.trans hshallow
    exact hdeep
  · cases h.symm.trans (hbroken.classify_broken file).2

/-- Whether a type is refused depends on its core alone. -/
theorem refused_iff : (∃ e, (classify file false t).result = .error e) ↔
    ∃ core, t.Covers core ∧ (core.IsMeaningless ∨
      ∃ delimiter body reason, core = .brokenInlineStruct delimiter body reason) := by
  constructor
  · rintro ⟨e, he⟩
    rcases agree file t with
      ⟨u, hdeep, -⟩ | ⟨core, _, hcore, hmeaningless, -⟩ | ⟨delimiter, body, reason, hbroken⟩
    · cases he.symm.trans hdeep
    · exact ⟨core, hcore, .inl hmeaningless⟩
    · exact ⟨_, hbroken, .inr ⟨delimiter, body, reason, rfl⟩⟩
  · rintro ⟨core, hcore, hmeaningless | ⟨_, _, _, rfl⟩⟩
    · rw [hcore.classify_eq]
      exact ⟨_, hmeaningless.classify_eq file false⟩
    · exact ⟨_, (hcore.classify_broken file).1⟩

end Agreement

/-- What a deep classification gives, a shallow one gives the outline of. What a deep one refuses, a
shallow one refuses with the same error, but for what is looked through to an inline struct that does
not parse; and a shallow one refuses nothing else. Whether a type is refused depends on its core:
what is in a sequence, a dictionary or an inline struct is left out if it means nothing. -/
theorem classifications_agree (file : String) (t : TypeExpr) :
    (∀ u, (classify file false t).result = .ok u → (classify file true t).result = .ok u.outline) ∧
      (∀ e, (classify file false t).result = .error e →
        (classify file true t).result = .error e ∨
          ∃ delimiter body reason, t.Covers (.brokenInlineStruct delimiter body reason)) ∧
      (∀ delimiter body reason, t.Covers (.brokenInlineStruct delimiter body reason) →
        (classify file false t).result = .error (.brokenInlineStruct reason) ∧
          (classify file true t).result = .ok (.struct (.blank ""))) ∧
      (∀ e, (classify file true t).result = .error e → (classify file false t).result = .error e) ∧
      ((∃ e, (classify file false t).result = .error e) ↔ ∃ core, t.Covers core ∧
        (core.IsMeaningless ∨ ∃ delimiter body reason,
          core = .brokenInlineStruct delimiter body reason)) ∧
      (∀ core element, t.Covers core → core.IsSequenceOf element →
        (classify file false t).result = .ok (.array (element.bind (meaning? file)))) ∧
      (∀ core value, t.Covers core → core.IsMapOf value →
        (classify file false t).result = .ok (.map (value.bind (meaning? file)))) ∧
      ∀ delimiter body fields, t.Covers (.inlineStruct delimiter body fields) →
        (classify file false t).result =
          .ok (.struct (collectFields file inlineStructName fields).value) := by
  refine ⟨fun _ => classify_outline, fun _ => classify_error, fun _ _ _ h => h.classify_broken file,
    fun _ => error_of_shallow, refused_iff, ?_, ?_, ?_⟩
  · intro core element hcore helement
    rw [hcore.classify_eq, helement.classify_eq]
    rfl
  · intro core value hcore hvalue
    rw [hcore.classify_eq, hvalue.classify_eq]
    rfl
  · intro delimiter body fields hcore
    rw [hcore.classify_eq, classify_inlineStruct]

/-- An inline struct whose body stops behind the name of a field. -/
def stopped : TypeExpr := .brokenInlineStruct .brace [wordToken "a"] "unexpected end of input"

/-- The type in a box, behind a reference. -/
def boxed (t : TypeExpr) : TypeExpr :=
  .reference none false (.path false [.generic "Box" false [.type t] false])

theorem covers_boxed (t : TypeExpr) : (boxed t).Covers t := by
  have hbox : (TypeExpr.path false ([] ++ [.generic "Box" false [.type t] false])).Covers t :=
    .wrapper (List.contains_iff_mem.1 rfl) rfl (.refl t)
  exact .reference hbox

/-- In a box, an inline struct that does not parse is refused by a deep classification only, and a
slice of units is a sequence, although a unit means nothing. -/
theorem boxed_classifications :
    (boxed stopped).Covers stopped ∧ (boxed (.slice (.tuple [] false))).Covers
        (.slice (.tuple [] false)) ∧
      (classify "m.rs" false (boxed stopped)).result =
        .error (.brokenInlineStruct "unexpected end of input") ∧
      (classify "m.rs" true (boxed stopped)).result = .ok (.struct (.blank "")) ∧
      (classify "m.rs" false (boxed (.slice (.tuple [] false)))).result = .ok (.array none) ∧
      (classify "m.rs" true (boxed (.slice (.tuple [] false)))).result = .ok (.array none) := by
  have hunit : meaning? "m.rs" (.tuple [] false) = none := by
    rw [meaning?, classify]
    rfl
  obtain ⟨-, -, hbroken, -⟩ := classifications_agree "m.rs" (boxed stopped)
  obtain ⟨hdeep, hshallow⟩ := hbroken _ _ _ (covers_boxed stopped)
  obtain ⟨houtline, -, -, -, -, hsequence, -⟩ :=
    classifications_agree "m.rs" (boxed (.slice (.tuple [] false)))
  have hslice := hsequence _ _ (covers_boxed _) (.slice _)
  rw [Option.bind_some, hunit] at hslice
  exact ⟨covers_boxed _, covers_boxed _, hdeep, hshallow, hslice, houtline _ hslice⟩

end Syntax.TypeExpr

end ApiDecl
