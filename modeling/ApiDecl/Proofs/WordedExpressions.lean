import ApiDecl.Proofs.WordedTypes
import ApiDecl.Syntax.Parser.Expression

/-!
# Proofs: parsers of expressions keep words

Expressions hold no types that a declaration needs, but items stand in their blocks, and those are
found with the others.
-/

-- The generator of verification conditions says that it is experimental.
set_option mvcgen.warning false

namespace ApiDecl.Syntax

open Std.Do
open Worded (IsWorded)

namespace Parser

variable (g : Grammar) [hg : g.KeepsWords]

/-! ### Operators -/

theorem tighten_keepsWords (allowStruct : Bool) (precedence : Precedence) (right : ExprShape)
    (fuel : Nat) : (rightOperand.tighten g allowStruct precedence right fuel).KeepsWords := by
  have hoperators := hg.operators
  induction fuel generalizing right with
  | zero =>
    mvcgen [rightOperand.tighten]
  | succ fuel ih =>
    mvcgen [rightOperand.tighten, hoperators, ih]
    all_goals simp_all

@[spec] theorem rightOperand_spec (allowStruct : Bool) (precedence : Precedence) :
    (rightOperand g allowStruct precedence).KeepsWords := by
  have hunary := hg.unary
  have htighten := tighten_keepsWords g allowStruct precedence
  mvcgen [rightOperand, hunary, htighten] with simp_all

@[spec] theorem rangeRest_spec (allowStruct : Bool) : (rangeRest g allowStruct).KeepsWords := by
  mvcgen [rangeRest] with simp_all

@[spec] theorem refuseAfterCast_spec : refuseAfterCast.KeepsWords := by
  mvcgen [refuseAfterCast] with simp_all

theorem go_keepsWords (allowStruct : Bool) (base : Precedence) (left : ExprShape) (fuel : Nat) :
    (operators.go g allowStruct base left fuel).KeepsWords := by
  have htype := hg.type
  induction fuel generalizing left with
  | zero =>
    mvcgen [operators.go]
  | succ fuel ih =>
    mvcgen [operators.go, htype, ih]
    all_goals simp_all

@[spec] theorem operators_spec (left : ExprShape) (allowStruct : Bool) (base : Precedence) :
    (operators g left allowStruct base).KeepsWords := by
  have hgo := go_keepsWords g allowStruct base
  mvcgen [operators, hgo]

@[spec] theorem expression_spec (allowStruct : Bool) : (expression g allowStruct).KeepsWords := by
  have hunary := hg.unary
  mvcgen [expression, hunary] with simp_all

/-! ### Expressions -/

@[spec] theorem fieldChain_spec : fieldChain.KeepsWords := by
  mvcgen [fieldChain] with simp_all

@[spec] theorem parenExpressions_spec : (parenExpressions g).KeepsWords := by
  have hexpression := hg.expression
  mvcgen [parenExpressions, hexpression]

@[spec] theorem memberAccess_spec : (memberAccess g).KeepsWords := by
  mvcgen [memberAccess] with simp_all

@[spec] theorem trailer_spec (isRange : Bool) : (trailer g isRange).KeepsWords := by
  have hexpression := hg.expression
  mvcgen [trailer, hexpression] with simp_all

@[spec] theorem trailers_spec (shape : ExprShape) : (trailers g shape).KeepsWords := by
  mvcgen [trailers] with simp_all

@[spec] theorem fieldValue_spec : (fieldValue g).KeepsWords := by
  have hexpression := hg.expression
  mvcgen [fieldValue, hexpression] with simp_all

@[spec] theorem structLiteral_spec : (structLiteral g).KeepsWords := by
  have hexpression := hg.expression
  mvcgen [structLiteral, hexpression] with simp_all

@[spec] theorem pathExpression_spec (allowStruct : Bool) :
    (pathExpression g allowStruct).KeepsWords := by
  mvcgen [pathExpression] with simp_all

@[spec] theorem jumpOperand_spec : (jumpOperand g).KeepsWords := by
  have hexpression := hg.expression
  mvcgen [jumpOperand, hexpression] with simp_all

@[spec] theorem breakExpression_spec (allowStruct : Bool) :
    (breakExpression g allowStruct).KeepsWords := by
  have hexpression := hg.expression
  mvcgen [breakExpression, hexpression] with simp_all

@[spec] theorem closureParameter_spec : (closureParameter g).KeepsWords := by
  have htype := hg.type
  have hpattern := hg.pattern
  mvcgen [closureParameter, htype, hpattern] with simp_all

@[spec] theorem closure_spec (allowStruct : Bool) : (closure g allowStruct).KeepsWords := by
  have hexpression := hg.expression
  mvcgen [closure, hexpression] with simp_all

@[spec] theorem conditional_spec : (conditional g).KeepsWords := by
  have hexpression := hg.expression
  mvcgen [conditional, hexpression] with simp_all

@[spec] theorem loopExpression_spec : (loopExpression g).KeepsWords := by
  have hexpression := hg.expression
  have hstatements := hg.statements
  mvcgen [loopExpression, hexpression, hstatements] with simp_all

@[spec] theorem labeledExpression_spec : (labeledExpression g).KeepsWords := by
  mvcgen [labeledExpression] with simp_all

@[spec] theorem leaveAttributed_spec {attributes t : Trace} (shape : ExprShape)
    (hattributes : IsWorded attributes) (ht : IsWorded t) :
    (leaveAttributed attributes shape t).KeepsWords := by
  mvcgen [leaveAttributed] with simp_all

@[spec] theorem armBody_spec : (armBody g).KeepsWords := by
  have hleadingExpression := hg.leadingExpression
  mvcgen [armBody, hleadingExpression] with simp_all

@[spec] theorem matchArm_spec : (matchArm g).KeepsWords := by
  have hexpression := hg.expression
  mvcgen [matchArm, hexpression] with simp_all

@[spec] theorem matchExpression_spec : (matchExpression g).KeepsWords := by
  have hexpression := hg.expression
  mvcgen [matchExpression, hexpression] with simp_all

@[spec] theorem arrayExpression_spec : (arrayExpression g).KeepsWords := by
  have hexpression := hg.expression
  mvcgen [arrayExpression, hexpression] with simp_all

@[spec] theorem letExpression_spec (allowStruct : Bool) :
    (letExpression g allowStruct).KeepsWords := by
  have hunary := hg.unary
  mvcgen [letExpression, hunary] with simp_all

@[spec] theorem builtinExpression_spec : builtinExpression.KeepsWords := by
  mvcgen [builtinExpression] with simp_all

@[spec] theorem becomeExpression_spec : (becomeExpression g).KeepsWords := by
  have hexpression := hg.expression
  mvcgen [becomeExpression, hexpression] with simp_all

@[spec] theorem asyncBlock_spec : (asyncBlock g).KeepsWords := by
  mvcgen [asyncBlock] with simp_all

@[spec] theorem atom_spec (allowStruct : Bool) : (atom g allowStruct).KeepsWords := by
  mvcgen [atom] with simp_all

@[spec] theorem referenceExpression_spec (allowStruct : Bool) :
    (referenceExpression g allowStruct).KeepsWords := by
  have hunary := hg.unary
  mvcgen [referenceExpression, hunary] with simp_all

@[spec] theorem attributedAtom_spec (allowStruct : Bool) (start : List Token)
    (attributes : List Attribute) {attributeTrace : Trace} (h : IsWorded attributeTrace) :
    (attributedAtom g allowStruct start attributes attributeTrace).KeepsWords := by
  mvcgen [attributedAtom] with simp_all

@[spec] theorem findSymbol_spec (symbols : List String) :
    (symbols.findM? fun s => peek (Peek.symbol s)).KeepsWords := by
  induction symbols with
  | nil =>
    mvcgen [List.findM?]
    simp_all
  | cons s rest ih =>
    mvcgen [List.findM?, ih]
    all_goals simp_all

@[spec] theorem unary_spec (allowStruct : Bool) : (unary g allowStruct).KeepsWords := by
  have hunary := hg.unary
  mvcgen [unary, hunary] with simp_all

@[spec] theorem leadingExpression_spec : (leadingExpression g).KeepsWords := by
  have hunary := hg.unary
  mvcgen [leadingExpression, hunary] with simp_all

end Parser

end ApiDecl.Syntax
