import ApiDecl.Proofs.WordedTokens
import ApiDecl.Syntax.Parser.Basic
import Mathlib

/-!
# Proofs: parsers keep words

A parser takes the names in its answer from the tokens that it reads. So if those are made of words,
then the names in its answer and in the items it comes across are words too, and what is left is made
of words again (`Parser.KeepsWords`). Here that is proved for the parsers that all others are made
of.
-/

-- The generator of verification conditions says that it is experimental.
set_option mvcgen.warning false

namespace ApiDecl.Syntax

open Std.Do
open Worded (IsWorded)

/-! ## Trees -/

mutual

/-- The names by which a type expression is classified, at every depth. -/
def TypeExpr.names : TypeExpr → List String
  | .path _ segments => segmentNames segments
  | .reference _ _ target | .pointer _ target | .paren target | .slice target => target.names
  | .array element _ => element.names
  | .inlineStruct _ _ fields => fieldTypeNames fields
  | .projection .. | .tuple .. | .brokenInlineStruct .. | .bareBound .. | .other _ => []

/-- The names in path segments and their arguments. -/
def segmentNames : List PathSegment → List String
  | [] => []
  | s :: rest => s.names ++ segmentNames rest

/-- The names in a path segment and its arguments. -/
def PathSegment.names : PathSegment → List String
  | .plain name => [name]
  | .generic name _ arguments _ => name :: argumentNames arguments

/-- The names in arguments. -/
def argumentNames : List GenericArgument → List String
  | [] => []
  | .type t :: rest => t.names ++ argumentNames rest
  | .lifetime _ :: rest | .other _ :: rest => argumentNames rest

/-- The names in the types of some fields. -/
def fieldTypeNames : List FieldDecl → List String
  | [] => []
  | ⟨_, _, _, type⟩ :: rest => type.names ++ fieldTypeNames rest

end

instance : Worded TypeExpr := ⟨fun t => ∀ w ∈ t.names, IsWord w⟩

instance : Worded PathSegment := ⟨fun s => ∀ w ∈ s.names, IsWord w⟩

instance : Worded GenericArgument := ⟨fun a => ∀ w ∈ argumentNames [a], IsWord w⟩

instance : Worded FieldDecl := ⟨fun d => IsWorded d.type⟩

theorem isWorded_segments {segments : List PathSegment} :
    IsWorded segments ↔ ∀ w ∈ segmentNames segments, IsWord w := by
  induction segments with
  | nil => simp [segmentNames]
  | cons s rest ih =>
    rw [Worded.isWorded_cons, ih, segmentNames, List.forall_mem_append]
    rfl

theorem isWorded_arguments {arguments : List GenericArgument} :
    IsWorded arguments ↔ ∀ w ∈ argumentNames arguments, IsWord w := by
  induction arguments with
  | nil => simp [argumentNames]
  | cons a rest ih =>
    rw [Worded.isWorded_cons, ih]
    cases a <;> simp [IsWorded, argumentNames, or_imp, forall_and]

theorem isWorded_fields {fields : List FieldDecl} :
    IsWorded fields ↔ ∀ w ∈ fieldTypeNames fields, IsWord w := by
  induction fields with
  | nil => simp [fieldTypeNames]
  | cons d rest ih =>
    cases d
    rw [Worded.isWorded_cons, ih, fieldTypeNames, List.forall_mem_append]
    rfl

section

variable {name : String} {segments : List PathSegment} {arguments : List GenericArgument}
  {fields : List FieldDecl} {t : TypeExpr} {tokens tokens' : List Token}

@[simp] theorem isWorded_path {absolute : Bool} :
    IsWorded (TypeExpr.path absolute segments) ↔ IsWorded segments := isWorded_segments.symm

@[simp] theorem isWorded_reference {lifetime : Option String} {mutable : Bool} :
    IsWorded (TypeExpr.reference lifetime mutable t) ↔ IsWorded t := .rfl

@[simp] theorem isWorded_pointer {mutable : Bool} :
    IsWorded (TypeExpr.pointer mutable t) ↔ IsWorded t := .rfl

@[simp] theorem isWorded_paren : IsWorded (TypeExpr.paren t) ↔ IsWorded t := .rfl

@[simp] theorem isWorded_slice : IsWorded (TypeExpr.slice t) ↔ IsWorded t := .rfl

@[simp] theorem isWorded_array : IsWorded (TypeExpr.array t tokens) ↔ IsWorded t := .rfl

@[simp] theorem isWorded_inlineStruct {d : Delimiter} :
    IsWorded (TypeExpr.inlineStruct d tokens fields) ↔ IsWorded fields := isWorded_fields.symm

@[simp] theorem isWorded_projection : IsWorded (TypeExpr.projection t tokens segments) := nofun

@[simp] theorem isWorded_tuple {elements : List TypeExpr} {trailingComma : Bool} :
    IsWorded (TypeExpr.tuple elements trailingComma) := nofun

@[simp] theorem isWorded_brokenInlineStruct {d : Delimiter} {reason : String} :
    IsWorded (TypeExpr.brokenInlineStruct d tokens reason) := nofun

@[simp] theorem isWorded_bareBound {enclosed : Bool} :
    IsWorded (TypeExpr.bareBound enclosed tokens) := nofun

@[simp] theorem isWorded_other : IsWorded (TypeExpr.other tokens) := nofun

@[simp] theorem isWorded_plain : IsWorded (PathSegment.plain name) ↔ IsWord name :=
  List.forall_mem_singleton

@[simp] theorem isWorded_generic {turbofish trailingComma : Bool} :
    IsWorded (PathSegment.generic name turbofish arguments trailingComma) ↔
      IsWord name ∧ IsWorded arguments := by
  rw [isWorded_arguments]
  exact List.forall_mem_cons

@[simp] theorem isWorded_typeArgument : IsWorded (GenericArgument.type t) ↔ IsWorded t := by
  simp [IsWorded, argumentNames]

@[simp] theorem isWorded_lifetimeArgument : IsWorded (GenericArgument.lifetime name) := nofun

@[simp] theorem isWorded_otherArgument : IsWorded (GenericArgument.other tokens) := nofun

@[simp] theorem isWorded_field {attributes : List Attribute} {isPublic : Bool} :
    IsWorded (FieldDecl.mk attributes name isPublic t) ↔ IsWorded t := .rfl

end

/-! ## Items -/

instance : Worded StructDecl := ⟨fun d => IsIdentifier d.name ∧ IsWorded d.fields⟩

instance : Worded MethodDecl :=
  ⟨fun m => IsIdentifier m.name ∧ IsWorded m.parameters ∧ IsWorded m.result⟩

instance : Worded TraitDecl := ⟨fun t => IsIdentifier t.name ∧ IsWorded t.methods⟩

instance : Worded Item := ⟨fun i => IsWorded i.structs ∧ IsWorded i.traits⟩

@[simp] theorem isWorded_structDecl {attributes : List Attribute} {name : String}
    {fields : Option (List FieldDecl)} : IsWorded (StructDecl.mk attributes name fields) ↔
      IsIdentifier name ∧ IsWorded fields := .rfl

@[simp] theorem isWorded_methodDecl {attributes : List Attribute} {name : String}
    {parameters : List TypeExpr} {result : Option TypeExpr} :
    IsWorded (MethodDecl.mk attributes name parameters result) ↔
      IsIdentifier name ∧ IsWorded parameters ∧ IsWorded result := .rfl

@[simp] theorem isWorded_traitDecl {attributes : List Attribute} {name : String}
    {methods : List MethodDecl} : IsWorded (TraitDecl.mk attributes name methods) ↔
      IsIdentifier name ∧ IsWorded methods := .rfl

theorem isWorded_items {items : List Item} :
    IsWorded items ↔ IsWorded (Item.structsOf items) ∧ IsWorded (Item.traitsOf items) := by
  induction items with
  | nil => simp [Item.structsOf, Item.traitsOf]
  | cons i rest ih =>
    have hi : IsWorded i ↔ IsWorded i.structs ∧ IsWorded i.traits := .rfl
    rw [Worded.isWorded_cons, ih, hi, Item.structsOf, Item.traitsOf, Worded.isWorded_append,
      Worded.isWorded_append, and_and_and_comm]

section

variable {items : List Item}

@[simp] theorem isWorded_structItem {d : StructDecl} : IsWorded (Item.struct d) ↔ IsWorded d := by
  simp [IsWorded, Item.structs, Item.traits]

@[simp] theorem isWorded_traitItem {d : TraitDecl} : IsWorded (Item.trait d) ↔ IsWorded d := by
  simp [IsWorded, Item.structs, Item.traits]

@[simp] theorem isWorded_moduleItem : IsWorded (Item.module items) ↔ IsWorded items := by
  rw [isWorded_items]
  simp [IsWorded, Item.structs, Item.traits]

@[simp] theorem isWorded_otherItem : IsWorded (Item.other items) ↔ IsWorded items := by
  rw [isWorded_items]
  simp [IsWorded, Item.structs, Item.traits]

@[simp] theorem isWorded_functionItem : IsWorded (Item.function items) :=
  ⟨Worded.isWorded_nil, Worded.isWorded_nil⟩

@[simp] theorem isWorded_implementationItem : IsWorded (Item.implementation items) :=
  ⟨Worded.isWorded_nil, Worded.isWorded_nil⟩

end

/-! ## States of parsers -/

instance : Worded Trace := ⟨fun t => IsWorded t.items⟩

instance : Worded ParseState := ⟨fun s => IsWorded s.tokens ∧ IsWorded s.trace⟩

section

variable {t t' : Trace}

@[simp] theorem isWorded_trace {printed : List Token} {items : List Item} :
    IsWorded (Trace.mk printed items) ↔ IsWorded items := .rfl

@[simp] theorem isWorded_emptyTrace : IsWorded Trace.empty := Worded.isWorded_nil

@[simp] theorem isWorded_ofTokens {tokens : List Token} : IsWorded (Trace.ofTokens tokens) :=
  Worded.isWorded_nil

@[simp] theorem isWorded_unprinted : IsWorded t.unprinted ↔ IsWorded t := .rfl

@[simp] theorem isWorded_withoutItems : IsWorded t.withoutItems := Worded.isWorded_nil

@[simp] theorem isWorded_appendTrace : IsWorded (t.append t') ↔ IsWorded t' ∧ IsWorded t :=
  Worded.isWorded_append

@[simp] theorem isWorded_traceItems : IsWorded t.items ↔ IsWorded t := .rfl

theorem isWorded_parseState {s : ParseState} :
    IsWorded s ↔ IsWorded s.tokens ∧ IsWorded s.trace := .rfl

end

/-! ## Keeping words -/

namespace Parser

variable {α β : Type} [Worded α] [Worded β]

/-- The names in the answer, and those in what is left and in what has been read, are words if this
is so for what there was. -/
@[reducible] def KeepsWords (p : Parser α) : Prop :=
  ⦃fun s => ⌜IsWorded s⌝⦄ p ⦃⇓? a s => ⌜IsWorded a ∧ IsWorded s⌝⦄

omit [Worded α] in
/-- What holds after a run of a parser, if it answers. -/
theorem wp_run (p : Parser α) (Q : α → ParseState → Prop) (s : ParseState) :
    (wp⟦p⟧ (⇓? a s' => ⌜Q a s'⌝) s).down ↔ ∀ a s', p.run s = .ok (a, s') → Q a s' := by
  have hrun : wp⟦p⟧ (⇓? a s' => ⌜Q a s'⌝) s = wp⟦p.run s⟧ (⇓? r => ⌜Q r.1 r.2⌝) := rfl
  rw [hrun]
  cases p.run s with
  | error e => exact ⟨fun _ => nofun, fun _ => trivial⟩
  | ok r =>
    refine ⟨fun h a s' he => ?_, fun h => h r.1 r.2 rfl⟩
    cases he
    exact h

theorem wp_ok {ε γ : Type} (x : Except ε γ) (Q : γ → Assertion .pure) :
    (wp⟦x⟧ (Q, ExceptConds.true)).down ↔ ∀ a, x = .ok a → (Q a).down := by
  cases x with
  | error e => exact ⟨fun _ => nofun, fun _ => trivial⟩
  | ok a => exact ⟨fun h b hb => Except.ok.inj hb ▸ h, fun h => h a rfl⟩

omit [Worded α] in
theorem triple_run {p : Parser α} {Q : PostCond α (.arg ParseState (.except SyntaxError .pure))}
    (h : ⦃⌜True⌝⦄ p ⦃Q⦄) (s : ParseState) : (wp⟦p⟧ Q s).down := Triple.iff.1 h s trivial

theorem keepsWords_iff {p : Parser α} : p.KeepsWords ↔
    ∀ s a s', IsWorded s → p.run s = .ok (a, s') → IsWorded a ∧ IsWorded s' := by
  rw [KeepsWords, Triple.iff]
  constructor
  · exact fun h s a s' hs => (wp_run p _ s).1 (h s hs) a s'
  · exact fun h s hs => (wp_run p _ s).2 fun a s' => h s a s' hs

omit [Worded α] in
theorem never_iff {p : Parser α} :
    ⦃⌜True⌝⦄ p ⦃⇓? _ _ => ⌜False⌝⦄ ↔ ∀ s a s', p.run s ≠ .ok (a, s') := by
  rw [Triple.iff]
  constructor
  · exact fun h s a s' hrun => (wp_run p _ s).1 (h s trivial) a s' hrun
  · exact fun h s _ => (wp_run p _ s).2 fun a s' hrun => h s a s' hrun

omit [Worded α] in
@[spec] theorem failHere_spec (message : String) :
    ⦃⌜True⌝⦄ (failHere message : Parser α) ⦃⇓? _ _ => ⌜False⌝⦄ := by
  rw [never_iff]
  exact nofun

omit [Worded α] in
@[spec] theorem fail_spec (message : String) :
    ⦃⌜True⌝⦄ (fail message : Parser α) ⦃⇓? _ _ => ⌜False⌝⦄ := by
  rw [never_iff]
  exact nofun

omit [Worded α] in
@[spec] theorem failExpecting_spec (expected : List Expectation) :
    ⦃⌜True⌝⦄ (failExpecting expected : Parser α) ⦃⇓? _ _ => ⌜False⌝⦄ := by
  mvcgen [failExpecting]

omit [Worded α] in
@[spec 2000] theorem throw_spec (e : SyntaxError) :
    ⦃⌜True⌝⦄ (throw e : Parser α) ⦃⇓? _ _ => ⌜False⌝⦄ := by
  rw [never_iff]
  exact nofun

@[spec] theorem discard_spec {p : Parser α} (h : p.KeepsWords) : (discard p).KeepsWords := by
  have hdiscard : discard p = p >>= fun _ => Pure.pure () := by
    simp [discard, Functor.mapConst]
    rfl
  rw [hdiscard]
  mvcgen [h] with simp_all

/-! ### Looking ahead -/

@[spec] theorem here_spec : here.KeepsWords := by
  mvcgen [here]

@[spec] theorem peek_spec (test : Peek) : (peek test).KeepsWords := by
  mvcgen [peek]

@[spec] theorem atEnd_spec : atEnd.KeepsWords := by
  mvcgen [atEnd]

omit [Worded α] in
@[spec] theorem wouldSucceed_spec (p : Parser α) : (wouldSucceed p).KeepsWords := by
  mvcgen [wouldSucceed]

@[spec] theorem attempt_spec {p : Parser α} (h : p.KeepsWords) : (attempt p).KeepsWords := by
  mvcgen [attempt]
  · rename_i s hs a s' hrun
    simpa using keepsWords_iff.1 h s a s' hs hrun
  · simp_all

/-! ### Traces -/

@[spec] theorem leave_spec {t : Trace} (h : IsWorded t) : (leave t).KeepsWords := by
  mvcgen [leave] with simp_all +zetaDelta [isWorded_parseState]

@[spec] theorem emit_spec (tokens : List Token) : (emit tokens).KeepsWords := by
  mvcgen [emit] with simp_all

@[spec] theorem recordItem_spec {i : Item} (h : IsWorded i) : (recordItem i).KeepsWords := by
  mvcgen [recordItem] with simp_all

@[spec] theorem tracing_spec {p : Parser α} (h : p.KeepsWords) : (tracing p).KeepsWords := by
  mvcgen [tracing, h] with simp_all +zetaDelta [isWorded_parseState]

/-- Nothing is said of the tokens beside the answer. -/
@[spec] theorem printing_spec {p : Parser α} (h : p.KeepsWords) :
    ⦃fun s => ⌜IsWorded s⌝⦄ printing p ⦃⇓? r s => ⌜IsWorded r.1 ∧ IsWorded s⌝⦄ := by
  mvcgen [printing, h] with simp_all

@[spec] theorem printedAs_spec {p : Parser α} (tokens : α → List Token) (h : p.KeepsWords) :
    (printedAs tokens p).KeepsWords := by
  mvcgen [printedAs, h] with simp_all

@[spec] theorem unprinted_spec {p : Parser α} (h : p.KeepsWords) : (unprinted p).KeepsWords := by
  mvcgen [unprinted, h]

@[spec] theorem nesting_spec {p : Parser α} (h : p.KeepsWords) : (nesting p).KeepsWords := by
  mvcgen [nesting, h] with simp_all

@[spec] theorem unlessEmpty_spec {p : Parser (List α)} (h : p.KeepsWords) :
    (unlessEmpty p).KeepsWords := by
  mvcgen [unlessEmpty, h] with simp_all

@[spec] theorem sourceSince_spec (tokens : List Token) :
    ⦃fun s => ⌜IsWorded s⌝⦄ sourceSince tokens ⦃⇓? _ s => ⌜IsWorded s⌝⦄ := by
  mvcgen [sourceSince]

@[spec] theorem asWrittenIfNone_spec {p : Parser (Option α)} (h : p.KeepsWords) :
    (asWrittenIfNone p).KeepsWords := by
  mvcgen [asWrittenIfNone, h] with simp_all

@[spec] theorem asWritten_spec {p : Parser Unit} (h : p.KeepsWords) :
    (asWritten p).KeepsWords := by
  mvcgen [asWritten, h] with simp_all

@[spec] theorem asWrittenUnless_spec {p : Parser Bool} (h : p.KeepsWords) :
    (asWrittenUnless p).KeepsWords := by
  mvcgen [asWrittenUnless, h] with simp_all

/-! ### Reading tokens -/

@[spec] theorem skip_spec (count : Nat) : (skip count).KeepsWords := by
  mvcgen [skip] with simp_all +zetaDelta [isWorded_parseState, Worded.isWorded_drop]

@[spec] theorem symbol_spec (s : String) : (symbol s).KeepsWords := by
  mvcgen [symbol] with simp_all

@[spec] theorem optionalSymbol_spec (s : String) : (optionalSymbol s).KeepsWords := by
  mvcgen [optionalSymbol] with simp_all

@[spec] theorem keyword_spec (w : String) : (keyword w).KeepsWords := by
  mvcgen [keyword] with simp_all

@[spec] theorem optionalKeyword_spec (w : String) : (optionalKeyword w).KeepsWords := by
  mvcgen [optionalKeyword] with simp_all

/-- The name that is read is an identifier. -/
@[spec] theorem name_spec :
    ⦃fun s => ⌜IsWorded s⌝⦄ name ⦃⇓? v s => ⌜IsIdentifier v ∧ IsWorded s⌝⦄ := by
  mvcgen [name, anyWord] with simp_all [isWorded_parseState, isIdentifier_iff]

/-- The word that is read is one. -/
@[spec] theorem anyWord_spec :
    ⦃fun s => ⌜IsWorded s⌝⦄ anyWord ⦃⇓? v s => ⌜IsWord v ∧ IsWorded s⌝⦄ := by
  mvcgen [anyWord] with simp_all [isWorded_parseState]

@[spec] theorem nameOr_spec (words : List String) :
    ⦃fun s => ⌜IsWorded s⌝⦄ nameOr words ⦃⇓? v s => ⌜IsWord v ∧ IsWorded s⌝⦄ := by
  mvcgen [nameOr] with simp_all [isIdentifier_iff]

@[spec] theorem lifetime_spec : lifetime.KeepsWords := by
  mvcgen [lifetime] with simp_all

@[spec] theorem optionalLifetime_spec : optionalLifetime.KeepsWords := by
  mvcgen [optionalLifetime] with simp_all

@[spec] theorem literal_spec : literal.KeepsWords := by
  mvcgen [literal] with simp_all

@[spec] theorem fieldNumber_spec : fieldNumber.KeepsWords := by
  mvcgen [fieldNumber] with simp_all

/-- What holds of the answer in a group holds after it, and so does what the next parser adds. -/
theorem groupThen_triple {γ δ : Type} {d : Delimiter} {p : Parser γ} {next : γ → Parser δ}
    {P : γ → Prop} {Q : δ → Prop}
    (hp : ⦃fun s => ⌜IsWorded s⌝⦄ p ⦃⇓? a s => ⌜P a ∧ IsWorded s⌝⦄)
    (hnext : ∀ a, P a → ⦃fun s => ⌜IsWorded s⌝⦄ next a ⦃⇓? b s => ⌜Q b ∧ IsWorded s⌝⦄) :
    ⦃fun s => ⌜IsWorded s⌝⦄ groupThen d p next ⦃⇓? b s => ⌜Q b ∧ IsWorded s⌝⦄ := by
  mvcgen [groupThen]
  case vc1 s hs e content opening closing rest htokens hd =>
    obtain ⟨hcontent, hrest⟩ : IsWorded content ∧ IsWorded rest := by
      simpa [htokens] using hs.1
    refine (wp_ok _ _).2 fun r hr => ?_
    have hr := (wp_run p _ _).1 (Triple.iff.1 hp _ ⟨hcontent, isWorded_emptyTrace⟩) r.1 r.2 hr
    have hnext := hnext r.1 hr.1
    refine triple_run ?_ s
    mvcgen [hnext] with simp_all [isWorded_parseState]
  all_goals simp

@[spec] theorem groupThen_spec (d : Delimiter) {p : Parser α} {next : α → Parser β}
    (hp : p.KeepsWords) (hnext : ∀ a, IsWorded a → (next a).KeepsWords) :
    (groupThen d p next).KeepsWords := groupThen_triple hp hnext

@[spec] theorem group_spec (d : Delimiter) {p : Parser α} (h : p.KeepsWords) :
    (group d p).KeepsWords := by
  unfold group
  exact groupThen_spec d h fun a ha => Triple.pure a fun s hs => ⟨ha, hs⟩

@[spec] theorem anyGroup_spec :
    ⦃fun s => ⌜IsWorded s⌝⦄ anyGroup ⦃⇓? r s => ⌜IsWorded r.2 ∧ IsWorded s⌝⦄ := by
  mvcgen [anyGroup] with simp_all [isWorded_parseState]

@[spec] theorem wholeGroup_spec (d : Delimiter) : (wholeGroup d).KeepsWords := by
  mvcgen [wholeGroup] with simp_all

/-! ### Repetition -/

theorem repeatWithin_keepsWords {p : Parser (Option α)} (h : p.KeepsWords) (fuel : Nat) :
    (repeatWithin p fuel).KeepsWords := by
  induction fuel with
  | zero =>
    mvcgen [repeatWithin]
    simp_all
  | succ fuel ih =>
    mvcgen [repeatWithin, h, ih]
    all_goals simp_all

@[spec] theorem many_spec {p : Parser (Option α)} (h : p.KeepsWords) : (many p).KeepsWords := by
  have hrepeat := repeatWithin_keepsWords h
  mvcgen [many, hrepeat]

@[spec] theorem manyWhile_spec (test : Peek) {p : Parser α} (h : p.KeepsWords) :
    (manyWhile test p).KeepsWords := by
  mvcgen [manyWhile, h] with simp_all

@[spec] theorem manyToEnd_spec {p : Parser α} (h : p.KeepsWords) :
    (manyToEnd p).KeepsWords := by
  mvcgen [manyToEnd, h] with simp_all

@[spec] theorem separatedUntil_spec (stop : Peek) (separator : String) {p : Parser α}
    (h : p.KeepsWords) : (separatedUntil stop separator p).KeepsWords := by
  mvcgen [separatedUntil, h] with simp_all
  rename_i hfound
  exact Worded.isWorded_map (fun _ => And.left) hfound.1

@[spec] theorem commaSeparated_spec {p : Parser α} (h : p.KeepsWords) :
    (commaSeparated p).KeepsWords := by
  mvcgen [commaSeparated, h]

@[spec] theorem chainUntil_spec (stop : Peek) (separator : String) {p : Parser α}
    (h : p.KeepsWords) : (chainUntil stop separator p).KeepsWords := by
  mvcgen [chainUntil, h] with simp_all

/-- A parser that is run on all of some tokens gives words too. -/
theorem isWorded_runAll {p : Parser α} (h : p.KeepsWords) {tokens : List Token}
    (htokens : IsWorded tokens) {a : α} {items : List Item}
    (hrun : runAll p tokens = .ok (a, items)) : IsWorded a ∧ IsWorded items := by
  obtain ⟨⟨b, s⟩, hb, hrun⟩ := exists_of_bind_ok hrun
  obtain ⟨ha, hs⟩ := keepsWords_iff.1 h _ b s ⟨htokens, isWorded_emptyTrace⟩ hb
  dsimp only at hrun
  split at hrun
  · cases hrun
  · cases hrun
  · cases hrun
    exact ⟨ha, Worded.isWorded_reverse.2 hs.2⟩

end Parser

end ApiDecl.Syntax
