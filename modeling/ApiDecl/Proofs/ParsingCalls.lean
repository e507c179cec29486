import ApiDecl.Proofs.ParsingSignatures

/-!
# Proofs: reading calls

An expression is read that is a literal, or a path with calls of functions and methods after it.
-/

namespace ApiDecl.Syntax

open Token TypeExpr

section Words

variable {v : String} {rest : List Token} (hv : IsSegment v)
include hv

theorem IsSegment.notLiteral : Peek.literal (.word v default :: rest) = false := by
  have htrue := hv.ne (w := "true") (by decide) (by decide)
  have hfalse := hv.ne (w := "false") (by decide) (by decide)
  simp [Peek.literal, htrue, hfalse]

theorem IsSegment.notKeyword {w : String} (hw : w ∈ Peek.reservedWords) (hpath : w ∉ pathWords)
    (test : Peek) : Peek.followedBy (Peek.keyword w) test (.word v default :: rest) = false := by
  rw [Peek.followedBy, Peek.allOf, List.all_cons, hv.keyword hw hpath]
  rfl

theorem IsSegment.notClosure : Parser.startsClosure (.word v default :: rest) = false := by
  have hmove : Peek.oneKeyword ["move", "static"] (.word v default :: rest) = false :=
    hv.oneKeyword (by decide)
  have hconst : Peek.keyword "const" (.word v default :: rest) = false :=
    hv.keyword (by decide) (by decide)
  have hfor := @IsSegment.notKeyword v rest hv "for" (by decide) (by decide)
  have hasync := @IsSegment.notKeyword v rest hv "async" (by decide) (by decide)
  simp [Parser.startsClosure, Peek.oneOf, Peek.butNot, hmove, hconst, hfor, hasync, Peek.symbol,
    Peek.symbolChars]

theorem IsSegment.startsValuePath : Parser.startsValuePath (.word v default :: rest) = true := by
  rcases hv with hv | hv
  · simp [Parser.startsValuePath, Peek.itemPath, Peek.oneOf, Peek.name, hv]
  · rcases by simpa [pathWords] using hv with rfl | rfl | rfl <;> rfl

theorem IsSegment.notBlock : Parser.startsBlock (.word v default :: rest) = false := by
  have hif : Peek.oneKeyword ["if", "while", "loop", "match", "unsafe"]
      (.word v default :: rest) = false := hv.oneKeyword (by decide)
  have hfor : Peek.keyword "for" (.word v default :: rest) = false :=
    hv.keyword (by decide) (by decide)
  have htry : Peek.oneKeyword ["try", "const"] (.word v default :: rest) = false :=
    hv.oneKeyword (by decide)
  have hlifetime : Peek.lifetime (.word v default :: rest) = false := rfl
  simp [Parser.startsBlock, Peek.oneOf, Peek.butNot, Peek.followedBy, Peek.allOf, hif, hfor, htry,
    hlifetime, Peek.group]

end Words

namespace Parser

variable {g : Grammar} {rest : List Token} {v : String} {words : List String}

instance : Peek.Blind startsAsyncBlock := by
  unfold startsAsyncBlock
  infer_instance

instance : Peek.Blind startsTryBlock := by
  unfold startsTryBlock
  infer_instance

instance : Peek.Blind startsClosure := by
  unfold startsClosure
  infer_instance

instance : Peek.Blind startsValuePath := by
  unfold startsValuePath
  infer_instance

instance : Peek.Blind startsBlock := by
  unfold startsBlock
  infer_instance

/-! ## Paths -/

/-- The tokens do not go on with a path or what it names. -/
structure EndsOperand (rest : List Token) : Prop extends EndsPath rest where
  bang : Peek.symbol "!" rest = false
  hash : Peek.symbol "#" rest = false
  brace : Peek.group .brace rest = false

/-- A path is read as an operand. -/
theorem reads_pathAtom (hwords : ∀ v ∈ words, IsSegment v) (hne : words ≠ [])
    (hrest : EndsOperand rest) :
    (atom g true).Reads (pathTokens words ++ rest) rest (·.isRange = false) := by
  have hpath := reads_path (g := g) hwords hne true hrest.toEndsPath
  have hhash : ∃ v behind, pathTokens words ++ rest = .word v default :: behind ∧ IsSegment v ∧
      Peek.symbol "#" behind = false := by
    obtain ⟨v, words, rfl⟩ := List.exists_cons_of_ne_nil hne
    refine ⟨v, _, rfl, hwords v List.mem_cons_self, ?_⟩
    cases words with
    | nil => exact hrest.hash
    | cons w words => rfl
  obtain ⟨v, behind, htokens, hv, hhash⟩ := hhash
  rw [htokens] at hpath ⊢
  have hbuiltin : Peek.followedBy (Peek.keyword "builtin") (Peek.symbol "#")
      (.word v default :: behind) = false := by
    have hsecond : Peek.second (Peek.symbol "#") (.word v default :: behind) = false := hhash
    simp [Peek.followedBy, Peek.allOf, hsecond]
  have hasync : startsAsyncBlock (.word v default :: behind) = false := by
    have hword : Peek.keyword "async" (.word v default :: behind) = false :=
      hv.keyword (by decide) (by decide)
    simp [startsAsyncBlock, Peek.allOf, hword]
  refine .peek_neg hv.notLiteral (.peek_neg hasync ?_)
  refine .peek_neg (hv.notKeyword (by decide) (by decide) _) (.peek_neg hv.notClosure ?_)
  refine .peek_neg hbuiltin (.peek_pos hv.startsValuePath ?_)
  refine Reads.bind (Q := fun _ => True) (m := rest) ?_ fun plain _ => ?_
  · exact .peek_neg rfl (hpath.bind fun _ _ => .pure trivial)
  · refine .of_peek (b := false) (by simp [Peek.butNot, hrest.bang]) ?_
    rw [Bool.and_false]
    refine .of_peek hrest.brace ?_
    exact .pure rfl

theorem reads_literalAtom (text : String) :
    (atom g true).Reads (.literal text default :: rest) rest (·.isRange = false) := by
  refine .peek_pos rfl ((reads_literal text).bind fun spelling _ => .pure ?_)
  rw [literalShape]
  split <;> rfl

/-! ## Calls -/

/-- The tokens are the end of their group, or a comma follows. -/
def EndsElement (rest : List Token) : Prop := rest = [] ∨ ∃ l, rest = symbolTokens ",".toList ++ l

/-- The tokens are the end of their group, or a comma follows, which may be glued to what is behind
it. -/
def EndsExpression (rest : List Token) : Prop :=
  rest = [] ∨ ∃ glued l, rest = .mark ',' glued default :: l

theorem EndsElement.endsExpression (h : EndsElement rest) : EndsExpression rest := by
  rcases h with rfl | ⟨l, rfl⟩
  · exact .inl rfl
  · exact .inr ⟨false, l, rfl⟩

/-- The tokens are read as an expression, as the last ones or before a comma. -/
def IsExpression (g : Grammar) (tokens : List Token) : Prop :=
  tokens ≠ [] ∧ ∀ later, EndsElement later → (g (.expression true)).Reads (tokens ++ later) later

/-- The tokens of arguments in round brackets: some with a comma behind each, and perhaps one more
without. -/
def argumentTokens (terminated : List (List Token)) (last : Option (List Token)) : Token :=
  .group .paren (terminated.flatMap (· ++ symbolTokens ",".toList) ++ last.getD []) default default

theorem reads_parenExpressions {terminated : List (List Token)} {last : Option (List Token)}
    (hterminated : ∀ e ∈ terminated, IsExpression g e) (hlast : ∀ e ∈ last, IsExpression g e) :
    (parenExpressions g).Reads (argumentTokens terminated last :: rest) rest := by
  have helements := reads_separatedUntil (p := g (.expression true)) Peek.atEnd "," terminated last
    ?_ ?_ (List.cons_ne_nil _ _) (rfl : Peek.atEnd [] = true)
  · rw [List.append_nil] at helements
    exact reads_group helements.discard
  · intro e he behind
    obtain ⟨hne, hread⟩ := hterminated e he
    refine ⟨?_, rfl, hread _ (.inr ⟨behind, rfl⟩)⟩
    simp [Peek.atEnd, hne]
  · intro e he
    obtain ⟨hne, hread⟩ := hlast e he
    refine ⟨?_, hne, hread [] (.inl rfl)⟩
    simp [Peek.atEnd, hne]

/-- The tokens of a call of a method. -/
def methodTokens (name : String) (terminated : List (List Token)) (last : Option (List Token)) :
    List Token :=
  symbolTokens ".".toList ++ [.word name default, argumentTokens terminated last]

/-- The tokens are a call after an expression. -/
inductive IsCall (g : Grammar) : List Token → Prop where
  /-- The expression is called. -/
  | function {terminated : List (List Token)} {last : Option (List Token)}
    (hterminated : ∀ e ∈ terminated, IsExpression g e) (hlast : ∀ e ∈ last, IsExpression g e) :
    IsCall g [argumentTokens terminated last]
  /-- A method of the expression is called. -/
  | method {name : String} {terminated : List (List Token)} {last : Option (List Token)}
    (hname : name ∉ Peek.reservedWords) (hterminated : ∀ e ∈ terminated, IsExpression g e)
    (hlast : ∀ e ∈ last, IsExpression g e) : IsCall g (methodTokens name terminated last)

theorem IsCall.ne_nil {call : List Token} (h : IsCall g call) : call ≠ [] := by
  cases h <;> exact List.cons_ne_nil _ _

theorem reads_trailer {call : List Token} (h : IsCall g call) (rest : List Token) :
    (trailer g false).Reads (call ++ rest) rest (·.isSome) := by
  cases h with
  | function hterminated hlast =>
    exact .peek_pos rfl ((reads_parenExpressions hterminated hlast).bind fun _ _ => .pure rfl)
  | @method name terminated last hname hterminated hlast =>
    have hmember : member.Reads (.word name default :: argumentTokens terminated last :: rest)
        (argumentTokens terminated last :: rest) (· = true) :=
      .peek_pos (by simpa [Peek.name] using hname) ((reads_name hname).discard.bind
        fun _ _ => .answer true)
    have haccess : (memberAccess g).Reads
        (.word name default :: argumentTokens terminated last :: rest) rest := by
      refine (reads_noKeyword (keyword_of_not_reserved hname (by decide))).andThen ?_
      refine hmember.andThen ((reads_noSymbol rfl).andThen (.peek_pos rfl ?_))
      exact reads_parenExpressions hterminated hlast
    refine .peek_neg rfl (.of_peek (b := true) rfl ?_)
    refine (reads_printedSymbol ".").bind fun _ _ => .peek_neg rfl (Reads.andThen (.answer false) ?_)
    exact haccess.bind fun _ _ => .pure rfl

theorem reads_noTrailer (hrest : EndsExpression rest) :
    (trailer g false).Reads rest rest (· = none) := by
  rcases hrest with rfl | ⟨glued, l, rfl⟩
  · exact .peek_neg rfl (.of_peek (b := false) rfl (.peek_neg rfl ((reads_noSymbol rfl).andThen
      (.answer none))))
  · exact .peek_neg rfl (.of_peek (b := false) rfl (.peek_neg rfl ((reads_noSymbol rfl).andThen
      (.answer none))))

theorem reads_trailers {calls : List (List Token)} (hcalls : ∀ c ∈ calls, IsCall g c)
    (hrest : EndsExpression rest) {shape : ExprShape} (hshape : shape.isRange = false) :
    (trailers g shape).Reads (calls.flatMap id ++ rest) rest (·.isRange = false) := by
  unfold trailers
  rw [hshape]
  refine (reads_many id ?_ (fun c hc => (hcalls c hc).ne_nil)
    (reads_noTrailer hrest)).bind fun steps _ => .pure ?_
  · exact fun c later hlater => reads_trailer (hcalls c (hlater.subset List.mem_cons_self)) _
  · split
    · exact hshape
    · rfl

/-! ## Operators -/

theorem binaryOperator?_bareAll (tokens : List Token) :
    binaryOperator? (bareAll tokens) = binaryOperator? tokens := by
  simp only [binaryOperator?, Peek.bareAll_eq]

instance : Peek.Blind assignSign := by
  unfold assignSign
  infer_instance

theorem reads_operators {left : ExprShape} (hleft : left.isRange = false) (allowStruct : Bool)
    (base : Precedence) (hrest : EndsExpression rest) :
    (operators g left allowStruct base).Reads rest rest (·.isRange = false) := by
  refine reads_get.bind fun s hs => ?_
  refine reads_get.bind fun s' hs' => ?_
  have hnone : binaryOperator? s'.tokens = none := by
    rw [← binaryOperator?_bareAll, hs']
    rcases hrest with rfl | ⟨glued, l, rfl⟩ <;> rfl
  have hassign : assignSign s'.tokens = false :=
    (test_eq _ hs').trans (by rcases hrest with rfl | ⟨glued, l, rfl⟩ <;> rfl)
  have hrange : Peek.symbol ".." s'.tokens = false :=
    (test_eq _ hs').trans (by rcases hrest with rfl | ⟨glued, l, rfl⟩ <;> rfl)
  have hcast : Peek.keyword "as" s'.tokens = false :=
    (test_eq _ hs').trans (by rcases hrest with rfl | ⟨glued, l, rfl⟩ <;> rfl)
  simp only [hleft, hnone, hassign, hrange, hcast, Bool.and_false, Bool.false_eq_true, if_false]
  exact .pure hleft

/-! ## Expressions -/

theorem EndsExpression.endsOperand (h : EndsExpression rest) : EndsOperand rest := by
  rcases h with rfl | ⟨glued, l, rfl⟩ <;> exact ⟨⟨rfl, rfl⟩, rfl, rfl, rfl⟩

theorem endsOperand_calls {calls : List (List Token)} (hcalls : ∀ c ∈ calls, IsCall g c)
    (hrest : EndsExpression rest) : EndsOperand (calls.flatMap id ++ rest) := by
  cases calls with
  | nil => exact hrest.endsOperand
  | cons call calls =>
    cases hcalls call List.mem_cons_self <;> exact ⟨⟨rfl, rfl⟩, rfl, rfl, rfl⟩

theorem reads_findNone (test : String → Peek) [∀ s, Peek.Blind (test s)] {l : List String}
    (h : ∀ s ∈ l, test s rest = false) :
    (l.findM? fun s => peek (test s)).Reads rest rest (· = none) := by
  induction l with
  | nil => exact .answer none
  | cons s l ih =>
    obtain ⟨hs, hl⟩ := List.forall_mem_cons.1 h
    exact .of_peek hs (ih hl)

/-- The tokens are read as an operand without calls. -/
structure IsOperand (g : Grammar) (tokens : List Token) : Prop where
  starts : ∀ later, ["#", "*", "!", "-", "&", ";"].any (Peek.symbol · (tokens ++ later)) = false
  reads : ∀ later, EndsOperand later →
    (atom g true).Reads (tokens ++ later) later (·.isRange = false)

/-- An operand is read with the calls after it. -/
theorem reads_unary {operand : List Token} {calls : List (List Token)} (h : IsOperand g operand)
    (hcalls : ∀ c ∈ calls, IsCall g c) (hrest : EndsExpression rest) :
    (unary g true).Reads (operand ++ (calls.flatMap id ++ rest)) rest (·.isRange = false) := by
  have hstart := fun s hs => Bool.not_eq_true _ ▸
    List.any_eq_false.1 (h.starts (calls.flatMap id ++ rest)) s hs
  have hatom := h.reads _ (endsOperand_calls hcalls hrest)
  have hnone := reads_findNone Peek.symbol (l := ["*", "!", "-"])
    fun s hs => hstart s (by revert s; decide)
  refine reads_get.bind fun s hs => ?_
  refine (reads_tracing (reads_noAttributes (hstart "#" (by decide)))).bind fun r hr => ?_
  refine hnone.andThen (.peek_neg (hstart "&" (by decide)) ?_)
  refine (reads_tracing (hatom.bind fun _ hshape =>
    reads_trailers hcalls hrest hshape)).bind fun r' hr' => ?_
  obtain ⟨shape, t⟩ := r'
  have hshape : shape.isRange = false := hr'.1
  have hitems : t.items = [] := hr'.2
  have hboth : (r.2.append t).items = [] := by simp [Trace.append, hr.2, hitems]
  cases shape with
  | range => cases hshape
  | spelled =>
    exact (reads_sourceSince _).bind fun _ _ => (reads_emit _).bind fun _ _ => .pure hshape
  | _ => exact (reads_leave hboth).bind fun _ _ => .pure hshape

theorem reads_expression {operand : List Token} {calls : List (List Token)} (h : IsOperand g operand)
    (hcalls : ∀ c ∈ calls, IsCall g c) (hrest : EndsExpression rest) :
    (expression g.above true).Reads (operand ++ (calls.flatMap id ++ rest)) rest :=
  (reads_unary h hcalls hrest).bind fun _ hshape =>
    (reads_operators hshape true _ hrest).mono fun _ _ => trivial

theorem isOperand_literal (text : String) : IsOperand g [.literal text default] where
  starts _ := rfl
  reads _ _ := reads_literalAtom text

theorem isOperand_path (hwords : ∀ v ∈ words, IsSegment v) (hne : words ≠ []) :
    IsOperand g (pathTokens words) where
  starts _ := by
    obtain ⟨v, words, rfl⟩ := List.exists_cons_of_ne_nil hne
    rfl
  reads _ hlater := reads_pathAtom hwords hne hlater

/-- An operand with calls after it is an expression. -/
theorem isExpression_calls {operand : List Token} {calls : List (List Token)}
    (h : IsOperand g operand) (hne : operand ≠ []) (hcalls : ∀ c ∈ calls, IsCall g c) :
    IsExpression g.above.above (operand ++ calls.flatMap id) := by
  refine ⟨List.append_ne_nil_of_left_ne_nil hne _, fun later hlater => ?_⟩
  rw [List.append_assoc]
  exact reads_expression h hcalls hlater.endsExpression

end Parser

end ApiDecl.Syntax
