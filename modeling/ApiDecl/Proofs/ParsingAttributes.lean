import ApiDecl.Proofs.ParsingCalls

/-!
# Proofs: reading attributes

An item of an attribute is read that is a word alone, or a word with a literal after an equals sign.
Of the reserved words only those are read that may be a path, and `unsafe` (`IsItemKey`).
-/

namespace ApiDecl.Syntax.Parser

open Token TypeExpr

variable {g : Grammar} {rest after : List Token} {key : String} {words : List String}

/-! ## Paths without arguments -/

instance : Peek.Blind segmentWord := by
  unfold segmentWord
  infer_instance

theorem segmentWord_word (key : String) (after : List Token) :
    segmentWord (.word key default :: after) = true ↔
      key ∉ Peek.reservedWords ∨ key ∈ ["super", "self", "Self", "crate"] := by
  simp [segmentWord, Peek.oneOf, Peek.name, Peek.oneKeyword]

theorem reads_modulePath (hwords : ∀ v ∈ words, IsSegment v) (hne : words ≠ [])
    (hrest : Peek.symbol "::" rest = false) :
    modulePath.Reads (pathTokens words ++ rest) rest := by
  have hsegment : ∀ v later, IsSegment v → segmentWord (.word v default :: later) = true := by
    have hpaths : ∀ w ∈ pathWords, w ∈ ["super", "self", "Self", "crate"] := by decide
    exact fun v later hv => (segmentWord_word v later).2 (hv.imp_right (hpaths v))
  obtain ⟨v, words, rfl⟩ := List.exists_cons_of_ne_nil hne
  obtain ⟨hv, hwords⟩ := List.forall_mem_cons.1 hwords
  refine (reads_noSymbol rfl).andThen (.of_peek (hsegment v _ hv) ?_)
  refine (reads_anyWord v).bind fun _ _ => ?_
  refine Reads.bind (Q := fun _ => True) (m := rest) (reads_many
    (fun w => colons ++ [.word w default]) ?_ (fun _ _ => List.cons_ne_nil _ _)
    ((reads_noSymbol hrest).andThen ?_)) fun _ _ => .pure trivial
  · intro w later hlater
    have hw : IsSegment w := hwords w (hlater.subset List.mem_cons_self)
    exact (reads_printedOptional "::").andThen (.peek_pos (hsegment w _ hw)
      ((reads_anyWord w).bind fun _ _ => .pure rfl))
  · exact .pure rfl

/-- A word that may be a path is read as one. -/
theorem reads_singlePath (hkey : segmentWord (.word key default :: after) = true)
    (hafter : Peek.symbol "::" after = false) :
    modulePath.Reads (.word key default :: after) after (· = ⟨false, [key]⟩) := by
  refine (reads_noSymbol rfl).andThen (.peek_pos hkey ((reads_anyWord key).andThen ?_))
  refine (reads_manyNil ?_).andThen (.pure rfl)
  exact (reads_noSymbol hafter).andThen (.answer none)

theorem refuses_modulePath (hkey : segmentWord (.word key default :: after) = false)
    (hreserved : key ∈ Peek.reservedWords) : modulePath.Refuses (.word key default :: after) := by
  refine (reads_noSymbol rfl).refuses fun absolute _ => ?_
  refine (reads_peek segmentWord).refuses fun b hb => ?_
  rw [hb.trans hkey]
  exact (refuses_name hreserved).bind

/-! ## Items -/

/-- The path of an item. -/
def metaPath : Parser ModulePath := do
  if ← peek (Peek.keyword "unsafe") then do
    keyword "unsafe"
    pure ⟨false, ["unsafe"]⟩
  else modulePath

/-- What stands behind the path of an item. -/
def metaContent (g : Grammar) (path : ModulePath) : Parser (ModulePath × AttributeContent) := do
  if ← peek Peek.anyGroup then
    let (_, tokens) ← anyGroup
    return (path, .list tokens)
  if ← peek (Peek.butNot (Peek.symbol "=") (Peek.oneOf [Peek.symbol "==", Peek.symbol "=>"])) then
    symbol "="
    return (path, .value (← attributeValue g))
  return (path, .flag)

theorem metaItem_eq (g : Grammar) : metaItem g = metaPath >>= metaContent g := by
  rw [metaItem, metaPath, bind_assoc]
  refine congrArg _ (funext fun marked => ?_)
  cases marked with
  | false => rfl
  | true => exact (bind_assoc (keyword "unsafe") _ (metaContent g)).symm

/-- The words that an item can start with: names, and the reserved words that may be a path. -/
def IsItemKey (key : String) : Prop :=
  key ∉ Peek.reservedWords ∨ key ∈ ["super", "self", "Self", "crate", "unsafe"]

theorem reads_metaPath (hkey : IsItemKey key) (hafter : Peek.symbol "::" after = false) :
    metaPath.Reads (.word key default :: after) after (· = ⟨false, [key]⟩) := by
  by_cases hmark : key = "unsafe"
  · subst hmark
    exact .peek_pos rfl ((reads_keyword "unsafe").bind fun _ _ => .pure rfl)
  · refine .peek_neg (beq_false_of_ne hmark) (reads_singlePath ?_ hafter)
    refine (segmentWord_word key after).2 (hkey.imp_right fun h => ?_)
    simpa [hmark] using h

theorem refuses_metaPath (hkey : ¬ IsItemKey key) :
    metaPath.Refuses (.word key default :: after) := by
  obtain ⟨hreserved, hpath⟩ := not_or.1 hkey
  have hmark : key ≠ "unsafe" := by
    rintro rfl
    exact hpath (by decide)
  refine (reads_peek (Peek.keyword "unsafe")).refuses fun b hb => ?_
  rw [hb.trans (beq_false_of_ne hmark)]
  refine refuses_modulePath ?_ (not_not.1 hreserved)
  refine Bool.eq_false_iff.2 fun h => hkey ?_
  refine ((segmentWord_word key after).1 h).imp_right fun h => ?_
  exact List.mem_append_left ["unsafe"] h

/-- At the end and before a comma, the item is a word alone. -/
theorem reads_flagContent (path : ModulePath) (hrest : EndsExpression rest) :
    (metaContent g path).Reads rest rest (· = (path, .flag)) := by
  rcases hrest with rfl | ⟨glued, l, rfl⟩
  · exact .peek_neg rfl (.peek_neg rfl (.answer _))
  · exact .peek_neg rfl (.peek_neg rfl (.answer _))

theorem reads_valueContent (path : ModulePath) (glued : Bool) {text : String}
    (hvalue : (attributeValue g).Reads (.literal text default :: rest) rest) :
    (metaContent g path).Reads (.mark '=' glued default :: .literal text default :: rest) rest
      fun item => ∃ value, item = (path, .value value) := by
  refine .peek_neg rfl (.peek_pos ?_ ?_)
  · cases glued <;> rfl
  · have hequals : Peek.symbol "="
        (.mark '=' glued default :: .literal text default :: rest) = true := rfl
    exact (reads_symbol hequals).bind fun _ _ => hvalue.bind fun value _ => .pure ⟨value, rfl⟩

/-! ## Values -/

theorem reads_finalLiteral (text : String) :
    finalLiteral.Reads [.literal text default] [] (· = some text) := by
  have hliteral : (do
      let spelling ← literal
      unless ← atEnd do fail "expected nothing"
      return spelling : Parser String).Reads [.literal text default] [] (· = text) :=
    (reads_literal text).andThen (.peek_pos rfl (.pure rfl))
  refine (reads_attempt hliteral).mono ?_
  rintro _ ⟨_, rfl, rfl⟩
  rfl

theorem reads_noFinalLiteral (text : String) (t : Token) :
    finalLiteral.Reads (.literal text default :: t :: rest) (.literal text default :: t :: rest)
      (· = none) := by
  refine reads_attempt_of_refuses ((reads_literal text).refuses fun _ _ => ?_)
  refine (reads_peek Peek.atEnd).refuses fun b hb => ?_
  subst hb
  exact (refuses_fail _).bind

/-- A literal is read as a value if it is the last token. -/
theorem reads_lastValue (text : String) :
    (attributeValue g).Reads [.literal text default] [] :=
  (reads_finalLiteral text).andThen (.pure trivial)

/-- A literal is read as a value before a comma, where it is an expression. -/
theorem reads_attributeValue (text : String) (hrest : EndsExpression rest) :
    (attributeValue g.above.above).Reads (.literal text default :: rest) rest := by
  rcases hrest with rfl | ⟨glued, l, rfl⟩
  · exact reads_lastValue text
  · have hends : EndsExpression (.mark ',' glued default :: l) := .inr ⟨glued, l, rfl⟩
    have hexpression : (g.above.above (.expression true)).Reads
        (.literal text default :: .mark ',' glued default :: l) (.mark ',' glued default :: l) :=
      reads_expression (isOperand_literal text) (List.forall_mem_nil _) hends
    refine (reads_noFinalLiteral text _).andThen (.peek_neg rfl ?_)
    refine hexpression.bind fun shape _ => ?_
    split <;> exact .pure trivial

/-! ## Documentation -/

/-- The tokens of a comment that is documentation. -/
def documentationTokens (spelling : String) : List Token :=
  [.mark '#' false default, .group .bracket [.word "doc" default, .mark '=' false default,
    .literal spelling default] default default]

theorem reads_documentation (spelling : String) (position : Position) :
    (attributeBody g position).Reads ((documentationTokens spelling).tail ++ rest) rest := by
  refine (reads_group (Q := fun _ => True) ?_).bind fun _ _ => .pure trivial
  rw [metaItem_eq]
  refine (reads_metaPath (.inl (by decide)) rfl).andThen ?_
  exact (reads_valueContent _ false (reads_lastValue spelling)).mono fun _ _ => trivial

theorem reads_documentations {comments : List String} (hrest : Peek.symbol "#" rest = false) :
    (outerAttributes g).Reads (comments.flatMap documentationTokens ++ rest) rest := by
  refine reads_manyWhile (fun spelling later _ => ⟨rfl, ?_⟩) (fun _ _ => List.cons_ne_nil _ _) hrest
  refine reads_here.bind fun position _ => (reads_symbol rfl).bind fun _ _ => ?_
  exact reads_documentation spelling position

end ApiDecl.Syntax.Parser
