import ApiDecl.Proofs.WordedExpressions
import ApiDecl.Syntax.Parser.Complete

/-!
# Proofs: names in parsed files are words

The parsers of items keep words, and so do those of every level of the grammar
(`Grammar.keepsWords_ofDepth`). So in a file that can be parsed, what is declared is called by an
identifier, and the names by which types are told apart are words (`SourceFile.isWorded_parse`).
-/

-- The generator of verification conditions says that it is experimental.
set_option mvcgen.warning false

namespace ApiDecl.Syntax

open Std.Do
open Worded (IsWorded)

namespace Parser

variable (g : Grammar) [hg : g.KeepsWords]

/-! ### Signatures -/

instance : Worded Parameter := ⟨fun p => IsWorded p.type?⟩

instance : Worded Signature :=
  ⟨fun s => IsIdentifier s.name ∧ IsWorded s.parameters ∧ IsWorded s.result⟩

theorem isWorded_parameter {p : Parameter} : IsWorded p ↔ IsWorded p.type? := .rfl

theorem isWorded_signature {s : Signature} :
    IsWorded s ↔ IsIdentifier s.name ∧ IsWorded s.parameters ∧ IsWorded s.result := .rfl

@[spec] theorem functionMarkers_spec (allowSafe : Bool) :
    (functionMarkers allowSafe).KeepsWords := by
  mvcgen [functionMarkers] with simp_all

@[spec] theorem startsSignature_spec (allowSafe : Bool) :
    (startsSignature allowSafe).KeepsWords := by
  mvcgen [startsSignature]

@[spec] theorem receiver_spec : (receiver g).KeepsWords := by
  have htype := hg.type
  mvcgen [receiver, htype] with simp_all

@[spec] theorem parameter_spec : (parameter g).KeepsWords := by
  have htype := hg.type
  have hpattern := hg.pattern
  mvcgen [parameter, htype, hpattern] with simp_all [isWorded_parameter, Parameter.type?]

@[spec] theorem checkReceiver_spec (before : List Parameter) (p : Parameter) :
    (checkReceiver before p).KeepsWords := by
  mvcgen [checkReceiver] with simp_all

theorem parametersAfter_keepsWords {before : List Parameter} (hbefore : IsWorded before)
    (fuel : Nat) : (parametersAfter g before fuel).KeepsWords := by
  induction fuel generalizing before with
  | zero =>
    mvcgen [parametersAfter]
    simp_all
  | succ fuel ih =>
    mvcgen [parametersAfter, ih]
    all_goals simp_all

@[spec] theorem signature_spec (allowSafe : Bool) : (signature g allowSafe).KeepsWords := by
  have hparameters := parametersAfter_keepsWords g (Worded.isWorded_nil (α := Parameter))
  mvcgen [signature, hparameters] with
    simp_all [isWorded_signature, isWorded_parameter, Worded.isWorded_filterMap]

/-! ### Declarations -/

@[spec] theorem macroBody_spec : macroBody.KeepsWords := by
  mvcgen [macroBody] with simp_all

@[spec] theorem macroItem_spec : macroItem.KeepsWords := by
  mvcgen [macroItem] with simp_all

@[spec] theorem macroMember_spec : macroMember.KeepsWords := by
  mvcgen [macroMember] with simp_all

@[spec] theorem fieldBlock_spec : (fieldBlock g).KeepsWords := by
  mvcgen [fieldBlock]

@[spec] theorem unnamedFields_spec : (unnamedFields g).KeepsWords := by
  have htype := hg.type
  mvcgen [unnamedFields, htype] with simp_all

@[spec] theorem expectedConditions_spec : (expectedConditions g).KeepsWords := by
  mvcgen [expectedConditions] with simp_all

@[spec] theorem unnamedFieldsEnd_spec : (unnamedFieldsEnd g).KeepsWords := by
  mvcgen [unnamedFieldsEnd] with simp_all

@[spec] theorem structBody_spec : (structBody g).KeepsWords := by
  mvcgen [structBody] with simp_all

@[spec] theorem structItem_spec (attributes : List Attribute) :
    (structItem g attributes).KeepsWords := by
  mvcgen [structItem] with simp_all

@[spec] theorem variant_spec : (variant g).KeepsWords := by
  have hexpression := hg.expression
  mvcgen [variant, hexpression] with simp_all

@[spec] theorem enumItem_spec : (enumItem g).KeepsWords := by
  mvcgen [enumItem] with simp_all

@[spec] theorem unionItem_spec : (unionItem g).KeepsWords := by
  mvcgen [unionItem] with simp_all

@[spec] theorem typeItem_spec (place : ConditionPlace) : (typeItem g place).KeepsWords := by
  have htype := hg.type
  have hbound := hg.bound
  mvcgen [typeItem, htype, hbound] with simp_all

@[spec] theorem constRest_spec : (constRest g).KeepsWords := by
  have htype := hg.type
  have hexpression := hg.expression
  mvcgen [constRest, htype, hexpression] with simp_all

@[spec] theorem constItem_spec : (constItem g).KeepsWords := by
  mvcgen [constItem] with simp_all

@[spec] theorem staticItem_spec : (staticItem g).KeepsWords := by
  have htype := hg.type
  have hexpression := hg.expression
  mvcgen [staticItem, htype, hexpression] with simp_all

@[spec] theorem useBranches_spec (allowRoot : Bool) : (useBranches g allowRoot).KeepsWords := by
  have huseTree := hg.useTree
  mvcgen [useBranches, huseTree] with simp_all

@[spec] theorem useTree_spec (allowRoot : Bool) : (useTree g allowRoot).KeepsWords := by
  have huseTree := hg.useTree
  mvcgen [useTree, huseTree] with simp_all

@[spec] theorem useItem_spec : (useItem g).KeepsWords := by
  have huseTree := hg.useTree
  mvcgen [useItem, huseTree] with simp_all

@[spec] theorem externCrate_spec : externCrate.KeepsWords := by
  mvcgen [externCrate] with simp_all

/-! ### Containers of items -/

@[spec] theorem foreignFunction_spec : (foreignFunction g).KeepsWords := by
  mvcgen [foreignFunction] with simp_all

@[spec] theorem foreignStatic_spec : (foreignStatic g).KeepsWords := by
  have htype := hg.type
  have hexpression := hg.expression
  mvcgen [foreignStatic, htype, hexpression] with simp_all

@[spec] theorem foreignItem_spec : (foreignItem g).KeepsWords := by
  mvcgen [foreignItem] with simp_all

@[spec] theorem foreignModule_spec : (foreignModule g).KeepsWords := by
  mvcgen [foreignModule] with simp_all

@[spec] theorem traitMethod_spec (attributes : List Attribute) :
    (traitMethod g attributes).KeepsWords := by
  mvcgen [traitMethod] with simp_all [isWorded_signature]

@[spec] theorem traitConst_spec : (traitConst g).KeepsWords := by
  mvcgen [traitConst] with simp_all

@[spec] theorem traitMember_spec : (traitMember g).KeepsWords := by
  mvcgen [traitMember] with simp_all +zetaDelta

@[spec] theorem traitAliasRest_spec : (traitAliasRest g).KeepsWords := by
  have hbound := hg.bound
  mvcgen [traitAliasRest, hbound] with simp_all

@[spec] theorem traitRest_spec : (traitRest g).KeepsWords := by
  have hbound := hg.bound
  mvcgen [traitRest, hbound] with simp_all [Worded.isWorded_filterMap]

@[spec] theorem traitItem_spec (attributes : List Attribute) (allowAlias : Bool) :
    (traitItem g attributes allowAlias).KeepsWords := by
  mvcgen [traitItem] with simp_all
  split <;> simp_all

@[spec] theorem implementationFunction_spec : (implementationFunction g).KeepsWords := by
  mvcgen [implementationFunction] with simp_all

@[spec] theorem implementationMember_spec : (implementationMember g).KeepsWords := by
  mvcgen [implementationMember] with simp_all

@[spec] theorem implementationHead_spec : (implementationHead g).KeepsWords := by
  have htype := hg.type
  mvcgen [implementationHead, htype] with simp_all

@[spec] theorem implementation_spec : (implementation g).KeepsWords := by
  mvcgen [implementation] with simp_all

@[spec] theorem moduleItem_spec : (moduleItem g).KeepsWords := by
  have hitem := hg.item
  mvcgen [moduleItem, hitem] with simp_all

@[spec] theorem macroDefinition_spec : macroDefinition.KeepsWords := by
  mvcgen [macroDefinition] with simp_all

/-! ### Items -/

@[spec] theorem otherItem_spec {p : Parser Bool} (h : p.KeepsWords) :
    (otherItem p).KeepsWords := by
  mvcgen [otherItem, h] with simp_all

@[spec] theorem completeItem_spec {p : Parser Unit} (h : p.KeepsWords) :
    (completeItem p).KeepsWords := by
  mvcgen [completeItem, h]

@[spec] theorem functionItem_spec : (functionItem g).KeepsWords := by
  mvcgen [functionItem] with simp_all

@[spec] theorem implementationItem_spec (visible : Visibility) :
    (implementationItem g visible).KeepsWords := by
  mvcgen [implementationItem] with simp_all

@[spec] theorem modItem_spec : (modItem g).KeepsWords := by
  mvcgen [modItem] with simp_all

@[spec] theorem foreignModuleItem_spec (start : Position) (visible : Visibility) :
    (foreignModuleItem g start visible).KeepsWords := by
  mvcgen [foreignModuleItem]

@[spec] theorem markedTrait_spec (attributes : List Attribute) :
    (markedTrait g attributes).KeepsWords := by
  mvcgen [markedTrait] with simp_all

@[spec] theorem unsafeItem_spec (attributes : List Attribute) (start : Position)
    (visible : Visibility) : (unsafeItem g attributes start visible).KeepsWords := by
  mvcgen [unsafeItem] with simp_all

@[spec] theorem externItem_spec (start : Position) (visible : Visibility) :
    (externItem g start visible).KeepsWords := by
  mvcgen [externItem] with simp_all

@[spec] theorem itemAfterAttributes_spec (attributes : List Attribute) :
    (itemAfterAttributes g attributes).KeepsWords := by
  mvcgen [itemAfterAttributes] with simp_all

theorem isWorded_prependInner {items : List Item} (hitems : IsWorded items) {i : Item}
    (hi : IsWorded i) : IsWorded (prependInner items i) := by
  unfold prependInner
  split <;> simp_all

@[spec] theorem restOfItem_spec (start : List Token) (attributes : List Attribute)
    {attributeTrace : Trace} (h : IsWorded attributeTrace) :
    (restOfItem g start attributes attributeTrace).KeepsWords := by
  mvcgen [restOfItem] with simp_all [isWorded_prependInner]

@[spec] theorem item_spec : (item g).KeepsWords := by
  mvcgen [item] with simp_all

/-! ### Statements -/

@[spec] theorem macroStatement?_spec : macroStatement?.KeepsWords := by
  mvcgen [macroStatement?] with simp_all

@[spec] theorem macroStatement_spec : macroStatement.KeepsWords := by
  mvcgen [macroStatement] with simp_all

@[spec] theorem binding_spec : (binding g).KeepsWords := by
  have htype := hg.type
  have hexpression := hg.expression
  have hpattern := hg.pattern
  mvcgen [binding, htype, hexpression, hpattern] with simp_all

@[spec] theorem expressionStatement_spec {attributes : Trace} (h : IsWorded attributes) :
    (expressionStatement g attributes).KeepsWords := by
  have hleadingExpression := hg.leadingExpression
  mvcgen [expressionStatement, hleadingExpression] with simp_all

@[spec] theorem statement_spec : (statement g).KeepsWords := by
  mvcgen [statement] with simp_all

@[spec] theorem statements_spec : (statements g).KeepsWords := by
  mvcgen [statements]

end Parser

/-! ## All levels -/

namespace Grammar

/-- The parsers of a level keep words if those of the level below do. -/
theorem KeepsWords.above (g : Grammar) [g.KeepsWords] : g.above.KeepsWords where
  type := Parser.typeExpr_spec g
  bound := Parser.bound_spec g
  expression := Parser.expression_spec g
  leadingExpression := Parser.leadingExpression_spec g
  unary := Parser.unary_spec g
  operators := Parser.operators_spec g
  statements := Parser.statements_spec g
  pattern := Parser.singlePattern_spec g
  namedFields := Parser.namedFields_spec g
  item := Parser.item_spec g
  useTree := Parser.useTree_spec g

theorem keepsWords_ofDepth (depth : Nat) : (ofDepth depth).KeepsWords := by
  induction depth with
  | zero =>
    have hfail {α : Type} [Worded α] :
        (Parser.failHere "nesting too deep" : Parser α).KeepsWords :=
      Parser.keepsWords_iff.2 fun _ _ _ _ => nofun
    exact ⟨fun _ => hfail, fun _ => hfail, fun _ => hfail, hfail, fun _ => hfail,
      fun _ _ _ => hfail, hfail, hfail, hfail, hfail, fun _ => hfail⟩
  | succ depth ih => exact KeepsWords.above _

end Grammar

theorem isWorded_items? {tokens : List Token} (htokens : IsWorded tokens) {items : List Item}
    (h : items? tokens = .ok items) : IsWorded items := by
  obtain ⟨⟨⟨⟩, found⟩, hrun, hitems⟩ := exists_of_bind_ok h
  cases hitems
  have hg : (Grammar.for tokens).KeepsWords := Grammar.keepsWords_ofDepth _
  have hitem := hg.item
  refine (Parser.isWorded_runAll ?_ htokens hrun).2
  mvcgen [hitem] with simp_all

/-- In a parsed file the names of structs, traits and methods are identifiers, and the names in the
types of fields, parameters and results are words. -/
theorem SourceFile.isWorded_parse {path text : String} {f : SourceFile}
    (h : SourceFile.parse path text = .ok f) : IsWorded f.structs ∧ IsWorded f.traits := by
  obtain ⟨tokens, htokens, h⟩ := exists_of_bind_ok h
  obtain ⟨items, hitems, h⟩ := exists_of_bind_ok h
  cases h
  exact isWorded_items.1 (isWorded_items? (isWorded_tokenize htokens) hitems)

end ApiDecl.Syntax
