import ApiDecl.Proofs.WordedParsers
import ApiDecl.Syntax.Parser.Pattern

/-!
# Proofs: parsers of types and patterns keep words

The parsers of one level of the grammar keep words if those of the level below do
(`Grammar.KeepsWords`). Here that is proved for attributes, paths, types and patterns.
-/

-- The generator of verification conditions says that it is experimental.
set_option mvcgen.warning false

namespace ApiDecl.Syntax

open Std.Do
open Worded (IsWorded)

/-- The parsers of all recursive parts keep words. -/
class Grammar.KeepsWords (g : Grammar) : Prop where
  type : ∀ allowPlus, (g (.type allowPlus) : Parser TypeExpr).KeepsWords
  bound : ∀ place, (g (.bound place) : Parser BoundKind).KeepsWords
  expression : ∀ allowStruct, (g (.expression allowStruct) : Parser ExprShape).KeepsWords
  leadingExpression : (g .leadingExpression : Parser LeadingShape).KeepsWords
  unary : ∀ allowStruct, (g (.unary allowStruct) : Parser ExprShape).KeepsWords
  operators : ∀ left allowStruct base,
    (g (.operators left allowStruct base) : Parser ExprShape).KeepsWords
  statements : (g .statements : Parser Unit).KeepsWords
  pattern : (g .pattern : Parser PatternShape).KeepsWords
  namedFields : (g .namedFields : Parser (List FieldDecl)).KeepsWords
  item : (g .item : Parser Unit).KeepsWords
  useTree : ∀ allowRoot, (g (.useTree allowRoot) : Parser Bool).KeepsWords

namespace Parser

variable (g : Grammar) [hg : g.KeepsWords] {α β : Type} [Worded α] [Worded β]

/-! ### Attributes, visibility and blocks -/

@[spec] theorem modulePath_spec : modulePath.KeepsWords := by
  mvcgen [modulePath] with simp_all

@[spec] theorem finalLiteral_spec : finalLiteral.KeepsWords := by
  mvcgen [finalLiteral] with simp_all

@[spec] theorem attributeValue_spec : (attributeValue g).KeepsWords := by
  have hexpression := hg.expression
  mvcgen [attributeValue, hexpression] with simp_all

@[spec] theorem metaItem_spec : (metaItem g).KeepsWords := by
  mvcgen [metaItem] with simp_all

@[spec] theorem attributeBody_spec (position : Position) :
    (attributeBody g position).KeepsWords := by
  mvcgen [attributeBody] with simp_all

@[spec] theorem outerAttributes_spec : (outerAttributes g).KeepsWords := by
  mvcgen [outerAttributes] with simp_all

@[spec] theorem innerAttributes_spec : (innerAttributes g).KeepsWords := by
  mvcgen [innerAttributes] with simp_all

@[spec] theorem block_spec : (block g).KeepsWords := by
  have hstatements := hg.statements
  mvcgen [block, hstatements]

@[spec] theorem body_spec : (body g).KeepsWords := by
  have hstatements := hg.statements
  mvcgen [body, hstatements] with simp_all

@[spec] theorem headWithBody_spec {head content : Parser Unit} (hhead : head.KeepsWords)
    (hcontent : content.KeepsWords) : (headWithBody g head content).KeepsWords := by
  mvcgen [headWithBody, hhead, hcontent] with simp_all

@[spec] theorem secondMetFirst_spec {p : Parser α} {q : Parser β} (hp : p.KeepsWords)
    (hq : q.KeepsWords) : (secondMetFirst p q).KeepsWords := by
  mvcgen [secondMetFirst, hp, hq] with simp_all

@[spec] theorem visibilityRestriction_spec : visibilityRestriction.KeepsWords := by
  mvcgen [visibilityRestriction] with simp_all

@[spec] theorem visibility_spec : visibility.KeepsWords := by
  mvcgen [visibility] with simp_all

/-! ### Paths, bounds and generic parameters -/

@[spec] theorem constantArgument_spec : (constantArgument g).KeepsWords := by
  mvcgen [constantArgument] with simp_all

@[spec] theorem resultType_spec (allowPlus : Bool) : (resultType g allowPlus).KeepsWords := by
  have htype := hg.type
  mvcgen [resultType, htype] with simp_all

@[spec] theorem genericArgument_spec : (genericArgument g).KeepsWords := by
  have htype := hg.type
  have hbound := hg.bound
  mvcgen [genericArgument, htype, hbound] with simp_all

@[spec] theorem angleArguments_spec : (angleArguments g).KeepsWords := by
  mvcgen [angleArguments] with simp_all

@[spec] theorem pathSegment_spec (inExpression : Bool) :
    (pathSegment g inExpression).KeepsWords := by
  mvcgen [pathSegment] with simp_all

@[spec] theorem moreSegments_spec (inExpression : Bool) :
    (moreSegments g inExpression).KeepsWords := by
  mvcgen [moreSegments] with simp_all

@[spec] theorem path_spec (inExpression : Bool) : (path g inExpression).KeepsWords := by
  mvcgen [path] with simp_all

@[spec] theorem lifetimesFirst_spec {element : Parser (Option Bool)} {comma : Parser Bool}
    (helement : element.KeepsWords) (hcomma : comma.KeepsWords) :
    (lifetimesFirst element comma).KeepsWords := by
  mvcgen [lifetimesFirst, helement, hcomma] with simp_all

@[spec] theorem bounds_spec (stop : Peek) : (bounds g stop).KeepsWords := by
  have hbound := hg.bound
  mvcgen [bounds, hbound] with simp_all

@[spec] theorem lifetimeParameter_spec : lifetimeParameter.KeepsWords := by
  mvcgen [lifetimeParameter] with simp_all

@[spec] theorem typeParameter_spec : (typeParameter g).KeepsWords := by
  have htype := hg.type
  mvcgen [typeParameter, htype] with simp_all

@[spec] theorem constantParameter_spec : (constantParameter g).KeepsWords := by
  have htype := hg.type
  mvcgen [constantParameter, htype] with simp_all

@[spec] theorem genericParameter_spec (expected : List Expectation) :
    (genericParameter g expected).KeepsWords := by
  mvcgen [genericParameter] with simp_all

@[spec] theorem boundLifetimes_spec : (boundLifetimes g).KeepsWords := by
  mvcgen [boundLifetimes] with simp_all

@[spec] theorem optionalBoundLifetimes_spec : (optionalBoundLifetimes g).KeepsWords := by
  mvcgen [optionalBoundLifetimes] with simp_all

@[spec] theorem genericParameters_spec : (genericParameters g).KeepsWords := by
  mvcgen [genericParameters] with simp_all

@[spec] theorem boundPath_spec : (boundPath g).KeepsWords := by
  have htype := hg.type
  mvcgen [boundPath, htype] with simp_all

@[spec] theorem traitBound_spec (place : BoundPlace) : (traitBound g place).KeepsWords := by
  mvcgen [traitBound] with simp_all

@[spec] theorem capturedParameters_spec : capturedParameters.KeepsWords := by
  mvcgen [capturedParameters] with simp_all

@[spec] theorem bound_spec (place : BoundPlace) : (bound g place).KeepsWords := by
  mvcgen [bound] with simp_all

@[spec] theorem furtherBounds_spec (place : BoundPlace) : (furtherBounds g place).KeepsWords := by
  have hbound := hg.bound
  mvcgen [furtherBounds, hbound] with simp_all

@[spec] theorem objectBounds_spec (place : BoundPlace) (allowPlus : Bool) (start : Position)
    (message : String) : (objectBounds g place allowPlus start message).KeepsWords := by
  have hbound := hg.bound
  mvcgen [objectBounds, hbound] with simp_all

@[spec] theorem condition_spec : (condition g).KeepsWords := by
  have htype := hg.type
  have hbound := hg.bound
  mvcgen [condition, htype, hbound] with simp_all

@[spec] theorem whereClause_spec : (whereClause g).KeepsWords := by
  mvcgen [whereClause] with simp_all

/-! ### Types -/

@[spec] theorem anonymousBody_spec : (anonymousBody g).KeepsWords := by
  have hnamedFields := hg.namedFields
  mvcgen [anonymousBody, hnamedFields] with simp_all

@[spec] theorem namedField_spec : (namedField g).KeepsWords := by
  have htype := hg.type
  mvcgen [namedField, htype] with simp_all

@[spec] theorem namedFields_spec : (namedFields g).KeepsWords := by
  mvcgen [namedFields] with simp_all

@[spec] theorem projection_spec (inExpression : Bool) : (projection g inExpression).KeepsWords := by
  have htype := hg.type
  mvcgen [projection, htype] with simp_all

theorem isWorded_inlineBody (d : Delimiter) {body : List Token} (hbody : IsWorded body) :
    IsWorded (inlineStruct g d body) := by
  unfold inlineStruct
  split
  · next fields items hrun =>
    exact isWorded_inlineStruct.2 (isWorded_runAll hg.namedFields hbody hrun).1
  · exact isWorded_brokenInlineStruct

@[spec] theorem macroType_spec (absolute : Bool) (segments : List PathSegment) :
    (macroType g absolute segments).KeepsWords := by
  mvcgen [macroType] with simp_all [isWorded_inlineBody]

@[spec] theorem pathType_spec (allowPlus : Bool) {lifetimes : Option Trace}
    (h : IsWorded lifetimes) : (pathType g allowPlus lifetimes).KeepsWords := by
  mvcgen [pathType] with simp_all [Worded.isWorded_getD]

@[spec] theorem lifetimeObject_spec : (lifetimeObject g).KeepsWords := by
  mvcgen [lifetimeObject] with simp_all

@[spec] theorem plusBounds_spec : (plusBounds g).KeepsWords := by
  have hbound := hg.bound
  mvcgen [plusBounds, hbound] with simp_all

@[spec] theorem relaxedType_spec : (relaxedType g).KeepsWords := by
  unfold relaxedType
  refine groupThen_triple (printing_spec (traitBound_spec g .object)) fun r _ => ?_
  mvcgen with simp_all

@[spec] theorem enclosedType_spec : (enclosedType g).KeepsWords := by
  have htype := hg.type
  mvcgen [enclosedType, htype] with simp_all

@[spec] theorem parenType_spec (allowPlus : Bool) : (parenType g allowPlus).KeepsWords := by
  mvcgen [parenType] with simp_all

@[spec] theorem bracketType_spec : (bracketType g).KeepsWords := by
  have htype := hg.type
  have hexpression := hg.expression
  mvcgen [bracketType, htype, hexpression] with simp_all

@[spec] theorem pointerArgument_spec (allowSelf : Bool) :
    (pointerArgument g allowSelf).KeepsWords := by
  have htype := hg.type
  mvcgen [pointerArgument, htype] with simp_all

@[spec] theorem pointerParameter_spec (allowSelf : Bool) :
    (pointerParameter g allowSelf).KeepsWords := by
  mvcgen [pointerParameter] with simp_all

@[spec] theorem optionalAbi_spec : optionalAbi.KeepsWords := by
  mvcgen [optionalAbi] with simp_all

@[spec] theorem pointerParameters_spec : (pointerParameters g).KeepsWords := by
  mvcgen [pointerParameters] with simp_all

@[spec] theorem functionPointer_spec : (functionPointer g).KeepsWords := by
  mvcgen [functionPointer] with simp_all

@[spec] theorem opaqueType_spec {p : Parser Unit} (h : p.KeepsWords) :
    (opaqueType p).KeepsWords := by
  mvcgen [opaqueType, h] with simp_all

@[spec] theorem traitObject_spec (allowPlus : Bool) : (traitObject g allowPlus).KeepsWords := by
  mvcgen [traitObject] with simp_all

@[spec] theorem anonymousType_spec (allowPlus : Bool) : (anonymousType g allowPlus).KeepsWords := by
  mvcgen [anonymousType] with simp_all

@[spec] theorem pointerType_spec : (pointerType g).KeepsWords := by
  have htype := hg.type
  mvcgen [pointerType, htype] with simp_all

@[spec] theorem referenceType_spec : (referenceType g).KeepsWords := by
  have htype := hg.type
  mvcgen [referenceType, htype] with simp_all

@[spec] theorem unboundType_spec (allowPlus : Bool) : (unboundType g allowPlus).KeepsWords := by
  mvcgen [unboundType] with simp_all

@[spec] theorem boundType_spec (allowPlus : Bool) : (boundType g allowPlus).KeepsWords := by
  mvcgen [boundType] with simp_all

@[spec] theorem typeExpr_spec (allowPlus : Bool) : (typeExpr g allowPlus).KeepsWords := by
  mvcgen [typeExpr] with simp_all

/-! ### Patterns -/

@[spec] theorem valuePath_spec : (valuePath g).KeepsWords := by
  mvcgen [valuePath] with simp_all

@[spec] theorem member_spec : member.KeepsWords := by
  mvcgen [member] with simp_all

@[spec] theorem alternativePattern_spec : (alternativePattern g).KeepsWords := by
  have hpattern := hg.pattern
  mvcgen [alternativePattern, hpattern] with simp_all

@[spec] theorem patternList_spec : (patternList g).KeepsWords := by
  mvcgen [patternList]

@[spec] theorem patternBound_spec : (patternBound g).KeepsWords := by
  mvcgen [patternBound] with simp_all

@[spec] theorem patternRangeOperator_spec : patternRangeOperator.KeepsWords := by
  mvcgen [patternRangeOperator] with simp_all

@[spec] theorem rangePattern_spec (hasLower : Bool) : (rangePattern g hasLower).KeepsWords := by
  mvcgen [rangePattern] with simp_all

@[spec] theorem bindingPattern_spec : (bindingPattern g).KeepsWords := by
  have hpattern := hg.pattern
  mvcgen [bindingPattern, hpattern] with simp_all

@[spec] theorem fieldPattern_spec : (fieldPattern g).KeepsWords := by
  mvcgen [fieldPattern] with simp_all

@[spec] theorem fieldPatterns_spec : (fieldPatterns g).KeepsWords := by
  mvcgen [fieldPatterns] with simp_all

@[spec] theorem pathPattern_spec : (pathPattern g).KeepsWords := by
  mvcgen [pathPattern] with simp_all

@[spec] theorem slicePattern_spec : (slicePattern g).KeepsWords := by
  mvcgen [slicePattern] with simp_all

@[spec] theorem singlePattern_spec : (singlePattern g).KeepsWords := by
  have hpattern := hg.pattern
  mvcgen [singlePattern, hpattern] with simp_all


end Parser

end ApiDecl.Syntax
