import ApiDecl.Proofs.HandlerContract
import ApiDecl.Proofs.Hosting

/-!
# Proofs: fields that are skipped

A field that contributes nothing to its struct is skipped (`FieldDecl.IsSkipped`). A type loses a
field if one that is skipped is removed from a struct in place, however deep that is in the type
(`TypeExpr.Loses`). Such a type is like the one before (`TypeExpr.Loses.alike`): it means the same or
is refused as well, and it is told from others in the same way. So a body that loses a field makes
the same struct (`FieldsLose.collectFields_value`).
-/

namespace ApiDecl

open Compile Syntax

variable {file : String}

/-! ## Losing a field -/

/-- The field is not embedded and has no tag, an empty or a malformed one, or a type that means
nothing; or it is embedded, and its type is no struct. -/
inductive Syntax.FieldDecl.IsSkipped (file : String) (d : FieldDecl) : Prop
  | untagged (hd : isEmbedded d.attributes = false)
      (htag : Tag.ofAttributes? d.attributes = .ok none)
  | emptyTag {tag : Tag} (hd : isEmbedded d.attributes = false)
      (htag : Tag.ofAttributes? d.attributes = .ok (some tag)) (hempty : tag.isEmpty = true)
  | malformedTag {e : SyntaxError} (hd : isEmbedded d.attributes = false)
      (htag : Tag.ofAttributes? d.attributes = .error e)
  | unclassifiable {e : Error} (hd : isEmbedded d.attributes = false)
      (htype : (classify file false d.type).result = .error e)
  | notStruct (hd : isEmbedded d.attributes = true) (htype : ¬ d.type.IsStructType)

namespace Syntax

mutual

/-- A field that is skipped is removed from a struct in place, somewhere in the type. -/
inductive TypeExpr.Loses (file : String) : TypeExpr → TypeExpr → Prop
  | body {delimiter : Delimiter} {body body' : List Token} {fields fields' : List FieldDecl}
      (h : FieldsLose file fields fields') :
      TypeExpr.Loses file (.inlineStruct delimiter body fields) (.inlineStruct delimiter body' fields')
  | path {absolute : Bool} {segments segments' : List PathSegment}
      (h : SegmentsLose file segments segments') :
      TypeExpr.Loses file (.path absolute segments) (.path absolute segments')
  | base {t t' : TypeExpr} {traitPath : List Token} {members : List PathSegment}
      (h : TypeExpr.Loses file t t') :
      TypeExpr.Loses file (.projection t traitPath members) (.projection t' traitPath members)
  | members {t : TypeExpr} {traitPath : List Token} {members members' : List PathSegment}
      (h : SegmentsLose file members members') :
      TypeExpr.Loses file (.projection t traitPath members) (.projection t traitPath members')
  | reference {lifetime : Option String} {mutable : Bool} {t t' : TypeExpr}
      (h : TypeExpr.Loses file t t') :
      TypeExpr.Loses file (.reference lifetime mutable t) (.reference lifetime mutable t')
  | pointer {mutable : Bool} {t t' : TypeExpr} (h : TypeExpr.Loses file t t') :
      TypeExpr.Loses file (.pointer mutable t) (.pointer mutable t')
  | paren {t t' : TypeExpr} (h : TypeExpr.Loses file t t') : TypeExpr.Loses file (.paren t) (.paren t')
  | tuple {before after : List TypeExpr} {trailingComma : Bool} {t t' : TypeExpr}
      (h : TypeExpr.Loses file t t') :
      TypeExpr.Loses file (.tuple (before ++ t :: after) trailingComma)
        (.tuple (before ++ t' :: after) trailingComma)
  | array {t t' : TypeExpr} {length : List Token} (h : TypeExpr.Loses file t t') :
      TypeExpr.Loses file (.array t length) (.array t' length)
  | slice {t t' : TypeExpr} (h : TypeExpr.Loses file t t') : TypeExpr.Loses file (.slice t) (.slice t')

/-- The same in the arguments of a path. -/
inductive SegmentsLose (file : String) : List PathSegment → List PathSegment → Prop
  | head {name : String} {turbofish trailingComma : Bool} {arguments arguments' : List GenericArgument}
      {rest : List PathSegment} (h : ArgumentsLose file arguments arguments') :
      SegmentsLose file (.generic name turbofish arguments trailingComma :: rest)
        (.generic name turbofish arguments' trailingComma :: rest)
  | tail {s : PathSegment} {rest rest' : List PathSegment} (h : SegmentsLose file rest rest') :
      SegmentsLose file (s :: rest) (s :: rest')

/-- The same in one of some arguments. -/
inductive ArgumentsLose (file : String) : List GenericArgument → List GenericArgument → Prop
  | head {t t' : TypeExpr} {rest : List GenericArgument} (h : TypeExpr.Loses file t t') :
      ArgumentsLose file (.type t :: rest) (.type t' :: rest)
  | tail {a : GenericArgument} {rest rest' : List GenericArgument}
      (h : ArgumentsLose file rest rest') : ArgumentsLose file (a :: rest) (a :: rest')

/-- A field of a body that is skipped is removed, or one is from a struct in place in the type of
another field. -/
inductive FieldsLose (file : String) : List FieldDecl → List FieldDecl → Prop
  | field {d : FieldDecl} {rest : List FieldDecl} (hd : d.IsSkipped file) :
      FieldsLose file (d :: rest) rest
  | type {attributes : List Attribute} {name : String} {isPublic : Bool} {t t' : TypeExpr}
      {rest : List FieldDecl} (h : TypeExpr.Loses file t t') :
      FieldsLose file (⟨attributes, name, isPublic, t⟩ :: rest)
        (⟨attributes, name, isPublic, t'⟩ :: rest)
  | tail {d : FieldDecl} {rest rest' : List FieldDecl} (h : FieldsLose file rest rest') :
      FieldsLose file (d :: rest) (d :: rest')

end

/-! ## Types that are alike -/

/-- The types mean the same, or are both refused; and they look alike where a signature tells types
apart by their form. -/
structure TypeExpr.Alike (file : String) (t t' : TypeExpr) : Prop where
  meaning : ∀ shallow,
    (classify file shallow t).result.toOption = (classify file shallow t').result.toOption
  isEmptyType : t.isEmptyType = t'.isEmptyType
  lastName? : t.lastName? = t'.lastName?

theorem TypeExpr.Alike.refl (t : TypeExpr) : t.Alike file t := ⟨fun _ => rfl, rfl, rfl⟩

/-- The segments have the same name, and types for arguments that are alike. -/
structure PathSegment.Alike (file : String) (s s' : PathSegment) : Prop where
  name : s.name = s'.name
  types : List.Forall₂ (TypeExpr.Alike file) s.typeArguments s'.typeArguments

theorem PathSegment.Alike.refl (s : PathSegment) : s.Alike file s :=
  ⟨rfl, List.forall₂_same.2 fun t _ => .refl t⟩

end Syntax

/-! ## What a meaning is used for -/

theorem value_orNote (event : Error → Event) (x : Compile FieldType) :
    (orNote event x).value = x.result.toOption := by
  have hrun : Traced.value x.run = x.result := rfl
  unfold orNote
  rw [Traced.value_bind, hrun]
  · cases x.result with
    | ok a => rfl
    | error e => rfl
  · intro r
    cases r with
    | ok a => exact Traced.steady_pure _
    | error e => exact (Traced.steady_note _).bind fun _ => Traced.steady_pure _

theorem result_elementType (shallow : Bool) (x : Compile FieldType) :
    (elementType file shallow x).result = .ok (if shallow then none else x.result.toOption) := by
  unfold elementType
  cases shallow with
  | true => rfl
  | false =>
    rw [if_neg (by simp), if_neg (by simp), Traced.result_lift, value_orNote]

theorem value_embedOutcome (owner field : String) (x : Compile FieldType) :
    (embedOutcome file owner field x).value =
      match x.result.toOption with
      | some (.named n) => .embed n.base
      | _ => .skipped := by
  unfold embedOutcome
  rw [Traced.value_bind, value_orNote]
  · cases x.result.toOption with
    | none => rfl
    | some t => cases t <;> rfl
  · intro found
    split
    · exact Traced.steady_pure _
    · exact (Traced.steady_note _).bind fun _ => Traced.steady_pure _
    · exact Traced.steady_pure _

theorem value_taggedOutcome (owner field : String) (d : FieldDecl) (x : Compile FieldType) :
    (taggedOutcome file owner field d x).value =
      match Tag.ofAttributes? d.attributes with
      | .ok (some tag) =>
        if tag.isEmpty then .skipped
        else match x.result.toOption with
          | some t => .field ⟨field, t, tag, docText (docLines file d.attributes), d.isPublic⟩
          | none => .skipped
      | _ => .skipped := by
  unfold taggedOutcome
  rcases Tag.ofAttributes? d.attributes with e | _ | tag
  · rfl
  · rfl
  · dsimp only
    by_cases hempty : tag.isEmpty = true
    · rw [if_pos hempty, if_pos hempty]
      rfl
    · rw [if_neg hempty, if_neg hempty, Traced.value_bind, value_orNote]
      · cases x.result.toOption with
        | none => rfl
        | some t => rfl
      · intro found
        cases found with
        | none => exact Traced.steady_pure _
        | some t => exact Traced.steady_pure _

/-- An embedded field contributes the struct that its type means. -/
theorem value_fieldOutcome_embedded (owner : String) {d : FieldDecl}
    (hd : isEmbedded d.attributes = true) :
    (fieldOutcome file owner d).value =
      match (classify file true d.type).result.toOption with
      | some (.named n) => .embed n.base
      | _ => .skipped := by
  obtain ⟨attributes, name, isPublic, type⟩ := d
  rw [fieldOutcome, if_pos hd, value_embedOutcome]

/-- Any other field contributes one if it has a tag with something in it and its type means
something. -/
theorem value_fieldOutcome_tagged (owner : String) {d : FieldDecl}
    (hd : isEmbedded d.attributes = false) :
    (fieldOutcome file owner d).value =
      match Tag.ofAttributes? d.attributes with
      | .ok (some tag) =>
        if tag.isEmpty then .skipped
        else match (classify file false d.type).result.toOption with
          | some t => .field ⟨plainName d.name, t, tag, docText (docLines file d.attributes),
            d.isPublic⟩
          | none => .skipped
      | _ => .skipped := by
  obtain ⟨attributes, name, isPublic, type⟩ := d
  rw [fieldOutcome, if_neg (by simpa using hd), value_taggedOutcome]

/-- What a field contributes depends on what its type means, if it is not refused. -/
theorem fieldOutcome_congr (owner : String) {attributes : List Attribute} {name : String}
    {isPublic : Bool} {t t' : TypeExpr}
    (h : ∀ shallow,
      (classify file shallow t).result.toOption = (classify file shallow t').result.toOption) :
    (fieldOutcome file owner ⟨attributes, name, isPublic, t⟩).value =
      (fieldOutcome file owner ⟨attributes, name, isPublic, t'⟩).value := by
  cases hd : isEmbedded attributes with
  | true => rw [value_fieldOutcome_embedded owner hd, value_fieldOutcome_embedded owner hd, h true]
  | false => rw [value_fieldOutcome_tagged owner hd, value_fieldOutcome_tagged owner hd, h false]

/-- A field that is skipped contributes nothing. -/
theorem Syntax.FieldDecl.IsSkipped.outcome {d : FieldDecl} (h : d.IsSkipped file) (owner : String) :
    (fieldOutcome file owner d).value = .skipped := by
  cases h with
  | untagged hd htag => rw [value_fieldOutcome_tagged owner hd, htag]
  | emptyTag hd htag hempty =>
    rw [value_fieldOutcome_tagged owner hd, htag]
    exact if_pos hempty
  | malformedTag hd htag => rw [value_fieldOutcome_tagged owner hd, htag]
  | unclassifiable hd htype =>
    rw [value_fieldOutcome_tagged owner hd, htype]
    split
    · exact ite_self _
    · rfl
  | notStruct hd htype =>
    rw [value_fieldOutcome_embedded owner hd]
    split
    · next n hn =>
      have hnames : d.type.Names n := by
        refine names_of_classify file d.type ?_
        cases hresult : (classify file true d.type).result with
        | error e => simp [hresult, Except.toOption] at hn
        | ok u =>
          rw [hresult] at hn
          rw [Option.some.inj hn]
      exact absurd ⟨n, hnames⟩ htype
    · rfl

/-! ## Paths -/

theorem rel_getElem? {α β : Type} {R : α → β → Prop} {l : List α} {l' : List β}
    (h : List.Forall₂ R l l') (i : Nat) : Option.Rel R l[i]? l'[i]? := by
  induction h generalizing i with
  | nil => exact .none
  | cons hab _ ih =>
    cases i with
    | zero => exact .some hab
    | succ n => exact ih n

theorem rel_elim {α β γ : Type} {R : α → β → Prop} {P : γ → γ → Prop} {a : Option α} {b : Option β}
    {d d' : γ} {f : α → γ} {g : β → γ} (h : Option.Rel R a b) (hnone : P d d')
    (hsome : ∀ x y, R x y → P (f x) (g y)) : P (a.elim d f) (b.elim d' g) := by
  cases h with
  | none => exact hnone
  | some hxy => exact hsome _ _ hxy

section Alike

variable {arguments arguments' : List GenericArgument}

theorem classifyElement_alike
    (h : List.Forall₂ (TypeExpr.Alike file) (typesAmong arguments) (typesAmong arguments'))
    (shallow : Bool) (index : Nat) :
    (classifyElement file shallow index arguments).result =
      (classifyElement file shallow index arguments').result := by
  rw [classifyElement_eq, classifyElement_eq]
  refine rel_elim (P := fun x y : Compile (Option FieldType) => x.result = y.result)
    (rel_getElem? h index) rfl fun t t' ht => ?_
  rw [result_elementType, result_elementType, ht.meaning false]

theorem classifyArgument_alike
    (h : List.Forall₂ (TypeExpr.Alike file) (typesAmong arguments) (typesAmong arguments'))
    (shallow : Bool) (index : Nat) (e e' : Error) :
    (classifyArgument file shallow index (throw e) arguments).result.toOption =
      (classifyArgument file shallow index (throw e') arguments').result.toOption := by
  rw [classifyArgument_eq, classifyArgument_eq]
  exact rel_elim (P := fun x y : Compile FieldType => x.result.toOption = y.result.toOption)
    (rel_getElem? h index) rfl fun _ _ ht => ht.meaning shallow

end Alike

/-- A path means the same if its last segment has arguments that are alike. -/
theorem classifySegment_alike (shallow : Bool) (text text' : String) (before : List String)
    {s s' : PathSegment} (h : s.Alike file s') :
    (classifySegment file shallow text before s).result.toOption =
      (classifySegment file shallow text' before s').result.toOption := by
  have htypes : List.Forall₂ (TypeExpr.Alike file) (typesAmong s.arguments)
      (typesAmong s'.arguments) := h.types
  cases nameKind s'.name with
  | wrapper hs =>
    rw [classifySegment_wrapper (h.name ▸ hs), classifySegment_wrapper hs]
    exact classifyArgument_alike htypes shallow 0 _ _
  | sequence hs =>
    rw [classifySegment_sequence (h.name ▸ hs), classifySegment_sequence hs,
      result_bind fun a => steady_pure (FieldType.array a),
      result_bind fun a => steady_pure (FieldType.array a), classifyElement_alike htypes]
  | map hs =>
    rw [classifySegment_map (h.name ▸ hs), classifySegment_map hs,
      result_bind fun a => steady_pure (FieldType.map a),
      result_bind fun a => steady_pure (FieldType.map a), classifyElement_alike htypes]
  | other hwrapper hsequence hmap =>
    rw [classifySegment_other (h.name ▸ hwrapper) (h.name ▸ hsequence) (h.name ▸ hmap),
      classifySegment_other hwrapper hsequence hmap, h.name]

theorem classifyPath_alike (shallow : Bool) (text text' : String) (before : List String)
    {segments segments' : List PathSegment}
    (h : List.Forall₂ (PathSegment.Alike file) segments segments') :
    (classifyPath file shallow text before segments).result.toOption =
      (classifyPath file shallow text' before segments').result.toOption := by
  induction h generalizing before with
  | nil =>
    rw [classifyPath, classifyPath]
    rfl
  | cons hs hrest ih =>
    cases hrest with
    | nil =>
      rw [classifyPath, classifyPath]
      exact classifySegment_alike shallow text text' before hs
    | cons hnext hrest =>
      rw [classifyPath, classifyPath, hs.name]
      exact ih _

theorem lastSegment_alike {segments segments' : List PathSegment}
    (h : List.Forall₂ (PathSegment.Alike file) segments segments') :
    Option.Rel (PathSegment.Alike file) segments.getLast? segments'.getLast? := by
  induction h with
  | nil => exact .none
  | cons hs hrest ih =>
    cases hrest with
    | nil => exact .some hs
    | cons hnext hrest =>
      rw [List.getLast?_cons_cons, List.getLast?_cons_cons]
      exact ih

theorem map_name_of_rel {s s' : Option PathSegment} (h : Option.Rel (PathSegment.Alike file) s s') :
    s.map (·.name) = s'.map (·.name) := by
  cases h with
  | none => rfl
  | some hs => rw [Option.map_some, Option.map_some, hs.name]

theorem Syntax.TypeExpr.Alike.path {segments segments' : List PathSegment}
    (h : List.Forall₂ (PathSegment.Alike file) segments segments') (absolute : Bool) :
    (TypeExpr.path absolute segments).Alike file (.path absolute segments') := by
  have hlast : (TypeExpr.path absolute segments).lastName? =
      (TypeExpr.path absolute segments').lastName? := map_name_of_rel (lastSegment_alike h)
  refine ⟨fun shallow => ?_, congrArg (· == some emptyName) hlast, hlast⟩
  rw [classify, classify]
  exact classifyPath_alike shallow _ _ [] h

theorem Syntax.TypeExpr.Alike.projection {t t' : TypeExpr} {members members' : List PathSegment}
    (h : List.Forall₂ (PathSegment.Alike file) members members') (traitPath : List Token) :
    (TypeExpr.projection t traitPath members).Alike file (.projection t' traitPath members') := by
  have hlast : (TypeExpr.projection t traitPath members).lastName? =
      (TypeExpr.projection t' traitPath members').lastName? := map_name_of_rel (lastSegment_alike h)
  refine ⟨fun shallow => ?_, congrArg (· == some emptyName) hlast, hlast⟩
  rw [classify, classify]
  rfl

/-! ## Types that lose a field -/

theorem isEmpty_append_cons (before after : List TypeExpr) (t : TypeExpr) :
    (before ++ t :: after).isEmpty = false := by
  cases before <;> rfl

/-- A field that contributes nothing does not change the struct. -/
theorem contribute_skipped (s : StructDescriptor) : s.contribute .skipped = s := rfl

mutual

/-- A type that loses a field is like the one before. -/
theorem Syntax.TypeExpr.Loses.alike {t t' : TypeExpr} (h : t.Loses file t') : t.Alike file t' := by
  match h with
  | .body h =>
    refine ⟨fun shallow => ?_, rfl, rfl⟩
    rw [classify, classify]
    cases shallow with
    | true => rfl
    | false =>
      rw [if_neg (by simp), if_neg (by simp), result_bind fun _ => steady_pure _,
        result_bind fun _ => steady_pure _, Traced.result_lift, Traced.result_lift,
        fieldOutcomes_value, fieldOutcomes_value]
      exact congrArg (some ∘ FieldType.struct) (h.contribute inlineStructName _)
  | .path h => exact .path h.alike _
  | .base h => exact .projection (List.forall₂_same.2 fun s _ => .refl s) _
  | .members h => exact .projection h.alike _
  | .reference h | .pointer h =>
    refine ⟨fun shallow => ?_, rfl, rfl⟩
    rw [classify, classify]
    exact h.alike.meaning shallow
  | .paren h =>
    refine ⟨fun shallow => ?_, h.alike.isEmptyType, rfl⟩
    rw [classify, classify]
    exact h.alike.meaning shallow
  | .tuple h =>
    refine ⟨fun shallow => ?_, ?_, rfl⟩
    · rw [classify, classify]
      rfl
    · rw [TypeExpr.isEmptyType, TypeExpr.isEmptyType, isEmpty_append_cons, isEmpty_append_cons]
  | .array h | .slice h =>
    refine ⟨fun shallow => ?_, rfl, rfl⟩
    rw [classify, classify, result_bind fun a => steady_pure (FieldType.array a),
      result_bind fun a => steady_pure (FieldType.array a), result_elementType, result_elementType,
      h.alike.meaning false]

theorem Syntax.SegmentsLose.alike {segments segments' : List PathSegment}
    (h : SegmentsLose file segments segments') :
    List.Forall₂ (PathSegment.Alike file) segments segments' := by
  match h with
  | .head h => exact .cons ⟨rfl, h.alike⟩ (List.forall₂_same.2 fun s _ => .refl s)
  | .tail h => exact .cons (.refl _) h.alike

theorem Syntax.ArgumentsLose.alike {arguments arguments' : List GenericArgument}
    (h : ArgumentsLose file arguments arguments') :
    List.Forall₂ (TypeExpr.Alike file) (typesAmong arguments) (typesAmong arguments') := by
  match h with
  | .head h => exact .cons h.alike (List.forall₂_same.2 fun t _ => .refl t)
  | .tail (a := a) h =>
    cases a with
    | type t => exact .cons (.refl t) h.alike
    | lifetime name => exact h.alike
    | other tokens => exact h.alike

/-- A body that loses a field makes the same of a struct. -/
theorem Syntax.FieldsLose.contribute {fields fields' : List FieldDecl}
    (h : FieldsLose file fields fields') (owner : String) (s : StructDescriptor) :
    (fields.map fun d => (fieldOutcome file owner d).value).foldl .contribute s =
      (fields'.map fun d => (fieldOutcome file owner d).value).foldl .contribute s := by
  match h with
  | .field hd => rw [List.map_cons, List.foldl_cons, hd.outcome owner, contribute_skipped]
  | .type h => rw [List.map_cons, List.map_cons, fieldOutcome_congr owner h.alike.meaning]
  | .tail h =>
    rw [List.map_cons, List.map_cons, List.foldl_cons, List.foldl_cons]
    exact h.contribute owner _

end

/-- A body that loses a field makes the same struct. -/
theorem Syntax.FieldsLose.collectFields_value {fields fields' : List FieldDecl}
    (h : FieldsLose file fields fields') (owner : String) :
    (collectFields file owner fields).value = (collectFields file owner fields').value := by
  rw [ApiDecl.collectFields_value, ApiDecl.collectFields_value]
  exact h.contribute owner _

end ApiDecl
