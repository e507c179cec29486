import ApiDecl.Proofs.Parsing

/-!
# Proofs: reading paths

A path of plain segments is read as a path, as a type and as a bound.
-/

namespace ApiDecl.Syntax

open Token TypeExpr

/-! ## Words -/

/-- The words that may be segments of a path although they are reserved. -/
def pathWords : List String := ["crate", "self", "super"]

/-- The word may be a segment of a path. -/
def IsSegment (v : String) : Prop := v ∉ Peek.reservedWords ∨ v ∈ pathWords

instance (v : String) : Decidable (IsSegment v) := inferInstanceAs (Decidable (_ ∨ _))

section Words

variable {v w : String} {p : Position} {rest : List Token}

theorem IsSegment.ne (h : IsSegment v) (hw : w ∈ Peek.reservedWords) (hpath : w ∉ pathWords) :
    v ≠ w := by
  rintro rfl
  exact h.elim (· hw) hpath

theorem IsSegment.keyword (h : IsSegment v) (hw : w ∈ Peek.reservedWords) (hpath : w ∉ pathWords) :
    Peek.keyword w (.word v p :: rest) = false := beq_false_of_ne (h.ne hw hpath)

theorem IsSegment.oneKeyword (h : IsSegment v) {words : List String}
    (hwords : ∀ w ∈ words, w ∈ Peek.reservedWords ∧ w ∉ pathWords) :
    Peek.oneKeyword words (.word v p :: rest) = false := by
  simp only [Peek.oneKeyword, List.contains_eq_mem, decide_eq_false_iff_not]
  intro hv
  exact h.ne (hwords v hv).1 (hwords v hv).2 rfl

theorem IsSegment.startsPathType (hv : IsSegment v) :
    Parser.startsPathType (.word v p :: rest) = true := by
  rcases hv with hv | hv
  · simp [Parser.startsPathType, Peek.oneOf, Peek.name, hv]
  · rcases by simpa [pathWords] using hv with rfl | rfl | rfl <;> rfl

theorem oneKeyword_of_not_reserved (hv : v ∉ Peek.reservedWords) {words : List String}
    (hwords : ∀ w ∈ words, w ∈ Peek.reservedWords) :
    Peek.oneKeyword words (.word v p :: rest) = false := by
  simp only [Peek.oneKeyword, List.contains_eq_mem, decide_eq_false_iff_not]
  exact fun hmem => hv (hwords v hmem)

theorem keyword_of_not_reserved (hv : v ∉ Peek.reservedWords) (hw : w ∈ Peek.reservedWords) :
    Peek.keyword w (.word v p :: rest) = false :=
  beq_false_of_ne fun heq => hv (heq ▸ hw)

end Words

namespace Parser

variable {g : Grammar} {rest : List Token} {v : String} {words : List String}

/-! ## Paths -/

/-- The marks between the segments of a path. -/
abbrev colons : List Token := symbolTokens "::".toList

/-- The tokens of a path of plain segments. -/
def pathTokens : List String → List Token
  | [] => []
  | v :: words => .word v default :: words.flatMap fun w => colons ++ [.word w default]

/-- The tokens do not go on with a path. -/
structure EndsPath (rest : List Token) : Prop where
  angle : Peek.symbol "<" rest = false
  colons : Peek.symbol "::" rest = false

theorem reads_pathSegment (hv : IsSegment v) (inExpression : Bool)
    (hangle : Peek.symbol "<" rest = false)
    (hturbofish : Peek.allOf [Peek.symbol "::", Peek.third (Peek.symbol "<")] rest = false) :
    (pathSegment g inExpression).Reads (.word v default :: rest) rest := by
  unfold pathSegment
  by_cases hpath : Peek.oneKeyword ["super", "self", "crate", "try"] (.word v default :: rest)
  · exact .peek_pos hpath ((reads_anyWord v).bind fun _ _ => .pure trivial)
  · refine .peek_neg (by simpa using hpath) ((reads_nameOr ?_).bind fun _ _ => ?_)
    · refine .inr (hv.resolve_right fun hmem => hpath ?_)
      rcases by simpa [pathWords] using hmem with rfl | rfl | rfl <;> rfl
    · refine .of_peek (b := false) (by simp [Peek.butNot, hangle]) ?_
      refine .of_peek hturbofish ?_
      exact .pure trivial

theorem reads_moreSegments (hwords : ∀ v ∈ words, IsSegment v) (inExpression : Bool)
    (hrest : EndsPath rest) :
    (moreSegments g inExpression).Reads
      ((words.flatMap fun w => colons ++ [.word w default]) ++ rest) rest := by
  refine reads_manyWhile (fun w later hlater => ⟨rfl, ?_⟩) (fun _ _ => List.cons_ne_nil _ _)
    (by simp [Peek.butNot, hrest.colons])
  refine (reads_printedSymbol "::").bind fun _ _ => ?_
  have hw : IsSegment w := hwords w (hlater.subset List.mem_cons_self)
  cases later with
  | nil => exact reads_pathSegment hw _ hrest.angle (by simp [Peek.allOf, hrest.colons])
  | cons w' later => exact reads_pathSegment hw _ rfl rfl

theorem reads_path (hwords : ∀ v ∈ words, IsSegment v) (hne : words ≠ []) (inExpression : Bool)
    (hrest : EndsPath rest) :
    (path g inExpression).Reads (pathTokens words ++ rest) rest := by
  obtain ⟨v, words, rfl⟩ := List.exists_cons_of_ne_nil hne
  obtain ⟨hv, hwords⟩ := List.forall_mem_cons.1 hwords
  refine (reads_noSymbol rfl).andThen ?_
  refine Reads.bind (Q := fun _ => True) ?_ fun _ _ =>
    (reads_moreSegments hwords inExpression hrest).bind fun _ _ => .pure trivial
  cases words with
  | nil => exact reads_pathSegment hv _ hrest.angle (by simp [Peek.allOf, hrest.colons])
  | cons w words => exact reads_pathSegment hv _ rfl rfl

/-! ## Types -/

/-- The tokens do not go on with a type. -/
structure EndsType (rest : List Token) : Prop extends EndsPath rest where
  bang : Peek.symbol "!" rest = false
  plus : Peek.symbol "+" rest = false

instance : Peek.Blind startsPathType := by
  unfold startsPathType
  infer_instance

instance : Peek.Blind endsConditions := by
  unfold endsConditions
  infer_instance

theorem reads_noBounds {place : BoundPlace} (hplus : Peek.symbol "+" rest = false) :
    (furtherBounds g place).Reads rest rest :=
  .of_peek hplus ((reads_manyNone ((reads_noSymbol hplus).andThen (.answer none))).bind
    fun _ _ => .pure trivial)

/-- What is read as a path is read as a type. -/
theorem reads_typeExpr {behind : List Token} (hv : IsSegment v) (allowPlus : Bool)
    (hpath : (path g false).Reads (.word v default :: behind) rest) (hrest : EndsType rest) :
    (typeExpr g allowPlus).Reads (.word v default :: behind) rest := by
  refine reads_printedAs (.peek_neg (hv.keyword (by decide) (by decide)) ?_)
  refine .peek_neg rfl (.peek_neg (hv.oneKeyword (by decide)) (.peek_pos ?_ (.peek_neg rfl ?_)))
  · exact hv.startsPathType
  refine (reads_tracing hpath).bind fun r hr => ?_
  refine .of_peek (b := false) (by simp [Peek.butNot, hrest.bang]) ?_
  have hitems : ((none : Option Trace).getD .empty |>.append r.2).items = [] := by
    simp [Trace.append, Trace.empty, hr.2]
  refine (reads_leave hitems).bind fun _ _ => ?_
  refine Reads.bind (Q := fun _ => True) (m := rest) ?_ fun _ _ => .pure trivial
  refine reads_printing (Q := fun _ => True) ?_
  split
  · exact reads_noBounds hrest.plus
  · exact .pure trivial

/-- A path is read as a type. -/
theorem reads_pathType (hwords : ∀ v ∈ words, IsSegment v) (hne : words ≠ []) (allowPlus : Bool)
    (hrest : EndsType rest) : (typeExpr g allowPlus).Reads (pathTokens words ++ rest) rest := by
  have hpath := reads_path (g := g) hwords hne false hrest.toEndsPath
  obtain ⟨v, words, rfl⟩ := List.exists_cons_of_ne_nil hne
  exact reads_typeExpr (hwords v List.mem_cons_self) allowPlus hpath hrest

theorem reads_genericArgument (hwords : ∀ v ∈ words, IsSegment v) (hne : words ≠ [])
    (hrest : EndsType rest) (hequals : Peek.symbol "=" rest = false)
    (hcolon : Peek.symbol ":" rest = false) :
    (genericArgument g.above).Reads (pathTokens words ++ rest) rest := by
  have htype := reads_pathType (g := g) hwords hne true hrest
  obtain ⟨v, words, rfl⟩ := List.exists_cons_of_ne_nil hne
  have hv := hwords v List.mem_cons_self
  have hliteral : Peek.oneOf [Peek.literal, Peek.group .brace]
      (.word v default :: (words.flatMap fun w => colons ++ [.word w default]) ++ rest) = false := by
    have htrue := hv.ne (w := "true") (by decide) (by decide)
    have hfalse := hv.ne (w := "false") (by decide) (by decide)
    simp [Peek.oneOf, Peek.literal, Peek.group, htrue, hfalse]
  refine .peek_neg rfl (.peek_neg hliteral ?_)
  refine (reads_printing (p := g.above (.type true)) htype).bind fun r _ => ?_
  dsimp only
  split
  · exact .peek_neg hequals (.peek_neg hcolon (.pure trivial))
  · exact .pure trivial

/-- The tokens of a path with a path as its only argument. -/
def genericTokens (v : String) (words : List String) : List Token :=
  .word v default :: (symbolTokens "<".toList ++ (pathTokens words ++ symbolTokens ">".toList))

theorem reads_angleArguments (hwords : ∀ v ∈ words, IsSegment v) (hne : words ≠ []) :
    (angleArguments g.above).Reads
      (symbolTokens "<".toList ++ (pathTokens words ++ (symbolTokens ">".toList ++ rest))) rest := by
  have hends : EndsType (symbolTokens ">".toList ++ rest) := ⟨⟨rfl, rfl⟩, rfl, rfl⟩
  have hgoes : Peek.symbol ">" (pathTokens words ++ (symbolTokens ">".toList ++ rest)) = false ∧
      pathTokens words ≠ [] := by
    obtain ⟨v, words, rfl⟩ := List.exists_cons_of_ne_nil hne
    exact ⟨rfl, List.cons_ne_nil _ _⟩
  have hargument := reads_genericArgument (g := g) hwords hne hends rfl rfl
  have harguments : (separatedUntil (Peek.symbol ">") "," (genericArgument g.above)).Reads
      (pathTokens words ++ (symbolTokens ">".toList ++ rest)) (symbolTokens ">".toList ++ rest) :=
    reads_separatedUntil (Peek.symbol ">") "," [] (some (pathTokens words)) (by simp)
      (by rintro _ ⟨⟩; exact ⟨hgoes.1, hgoes.2, hargument⟩) (List.cons_ne_nil _ _) rfl
  exact reads_printedAs ((reads_printedSymbol "<").bind fun _ _ => harguments.bind fun _ _ =>
    (reads_printedSymbol ">").bind fun _ _ => .pure trivial)

/-- A path with a path as its only argument is read as a type. -/
theorem reads_genericType (hv : v ∉ Peek.reservedWords) (hwords : ∀ v ∈ words, IsSegment v)
    (hne : words ≠ []) (allowPlus : Bool) (hrest : EndsType rest) :
    (typeExpr g.above allowPlus).Reads (genericTokens v words ++ rest) rest := by
  rw [genericTokens, List.cons_append, List.append_assoc, List.append_assoc]
  refine reads_typeExpr (.inl hv) allowPlus ?_ hrest
  have hkeyword : Peek.oneKeyword ["super", "self", "crate", "try"] (.word v default ::
      (symbolTokens "<".toList ++ (pathTokens words ++ (symbolTokens ">".toList ++ rest)))) =
      false := oneKeyword_of_not_reserved hv (by decide)
  refine (reads_noSymbol rfl).andThen ?_
  have hmore : (moreSegments g.above false).Reads rest rest :=
    reads_moreSegments (List.forall_mem_nil IsSegment) false hrest.toEndsPath
  refine Reads.bind (Q := fun _ => True) ?_ fun _ _ => hmore.bind fun _ _ => .pure trivial
  refine .peek_neg hkeyword ((reads_nameOr (.inr hv)).bind fun _ _ => ?_)
  refine .of_peek (b := true) rfl (.of_peek (b := false) rfl ?_)
  exact (reads_angleArguments hwords hne).bind fun _ _ => .pure trivial

/-! ## Bounds -/

theorem reads_bound (hwords : ∀ v ∈ words, IsSegment v) (hne : words ≠ []) (place : BoundPlace)
    (hrest : EndsPath rest) (hparen : Peek.group .paren rest = false) :
    (bound g place).Reads (pathTokens words ++ rest) rest := by
  have hpath := reads_path (g := g) hwords hne false hrest
  obtain ⟨v, words, rfl⟩ := List.exists_cons_of_ne_nil hne
  have hv := hwords v List.mem_cons_self
  have hnot : ∀ w ∈ Peek.reservedWords, w ∉ pathWords → Peek.keyword w (.word v default ::
      (words.flatMap fun w => colons ++ [.word w default]) ++ rest) = false :=
    fun w hw hpath => hv.keyword hw hpath
  have hcalled : Peek.oneOf [Peek.group .paren,
      Peek.allOf [Peek.symbol "::", Peek.third (Peek.group .paren)]] rest = false := by
    simp [Peek.oneOf, Peek.allOf, hrest.colons, hparen]
  refine .peek_neg rfl (.peek_neg (hnot "use" (by decide) (by decide)) ?_)
  refine (reads_asWrittenUnless (.peek_neg rfl ?_)).bind fun _ _ => .pure trivial
  refine (Reads.peek_neg (hnot "for" (by decide) (by decide)) (.answer false)).andThen ?_
  refine reads_here.bind fun start _ => ?_
  refine .of_peek (b := false) rfl (.of_peek (hnot "const" (by decide) (by decide)) ?_)
  dsimp only [Bool.false_eq_true, if_false]
  refine reads_here.bind fun mark _ => (reads_noSymbol rfl).andThen ?_
  refine Reads.andThen (.answer false) ?_
  refine Reads.bind (Q := fun _ => True) (m := rest) ?_ fun _ _ => .pure trivial
  refine (reads_tracing hpath).bind fun r hr => .of_peek hcalled ?_
  cases r.1.2.getLast? with
  | none => exact reads_leave hr.2
  | some last =>
    dsimp only
    rw [Bool.and_false]
    exact reads_leave hr.2

theorem reads_lifetimeBound (v : String) (place : BoundPlace) :
    (bound g place).Reads (TypeExpr.lifetimeTokens v ++ rest) rest :=
  .peek_pos rfl ((reads_lifetime v).discard.bind fun _ _ => .pure trivial)

end Parser

end ApiDecl.Syntax
