import ApiDecl.Proofs.ParsingPaths

/-!
# Proofs: reading signatures

The signature of a function is read that has one generic parameter with bounds, parameters with
names, and a result type.
-/

namespace ApiDecl.Syntax.Parser

open Token TypeExpr

variable {g : Grammar} {rest : List Token} {v : String} {words : List String}

instance : Peek.Blind startsPathPattern := by
  unfold startsPathPattern afterPatternName
  infer_instance

/-! ## Conditions -/

/-- The tokens of a type with several bounds, as a condition. -/
def conditionTokens (v : String) (first : List Token) (others : List (List Token)) : List Token :=
  .word v default :: (symbolTokens ":".toList ++
    (first ++ others.flatMap (symbolTokens "+".toList ++ ·)))

/-- The tokens are read as a bound, in a sum or before a comma. -/
def IsBound (g : Grammar) (tokens : List Token) : Prop :=
  ∀ later, (∃ l, later = symbolTokens ",".toList ++ l ∨ later = symbolTokens "+".toList ++ l) →
    endsConditions (tokens ++ later) = false ∧ (bound g .parameter).Reads (tokens ++ later) later

theorem isBound_path (hwords : ∀ v ∈ words, IsSegment v) (hne : words ≠ []) :
    IsBound g (pathTokens words) := by
  rintro later ⟨l, hlater⟩
  have hends : EndsPath later ∧ Peek.group .paren later = false := by
    rcases hlater with rfl | rfl <;> exact ⟨⟨rfl, rfl⟩, rfl⟩
  refine ⟨?_, reads_bound hwords hne .parameter hends.1 hends.2⟩
  obtain ⟨v, words, rfl⟩ := List.exists_cons_of_ne_nil hne
  rfl

theorem isBound_lifetime (v : String) : IsBound g (lifetimeTokens v) :=
  fun _ _ => ⟨rfl, reads_lifetimeBound v .parameter⟩

theorem reads_condition (hv : IsSegment v) {first : List Token} {others : List (List Token)}
    (hbounds : ∀ e ∈ first :: others, IsBound g e) :
    (condition g.above).Reads (conditionTokens v first others ++ (symbolTokens ",".toList ++ rest))
      (symbolTokens ",".toList ++ rest) := by
  have hchain := reads_chainUntil (p := bound g .parameter) endsConditions "+" first others
    (symbolTokens ",".toList ++ rest) ?_ (List.cons_ne_nil _ _) (.inl ⟨rfl, rfl⟩)
  · have htype : ∀ later, (typeExpr g true).Reads (pathTokens [v] ++ (symbolTokens ":".toList ++ later))
        (symbolTokens ":".toList ++ later) := fun later =>
      reads_pathType (List.forall_mem_singleton.2 hv) (List.cons_ne_nil _ _) true
        ⟨⟨rfl, rfl⟩, rfl, rfl⟩
    have htokens : conditionTokens v first others ++ (symbolTokens ",".toList ++ rest) =
        pathTokens [v] ++ (symbolTokens ":".toList ++ (first ++
          (others.flatMap (symbolTokens "+".toList ++ ·) ++ (symbolTokens ",".toList ++ rest)))) := by
      simp [conditionTokens, pathTokens]
    rw [htokens]
    refine .peek_neg rfl ?_
    refine (Reads.peek_neg ?_ (.answer false)).discard.bind fun _ _ => ?_
    · exact hv.keyword (by decide) (by decide)
    refine (htype _).discard.bind fun _ _ => (reads_printedSymbol ":").bind fun _ _ => ?_
    exact hchain.discard
  · intro e he later hlater
    refine hbounds e he later ?_
    rcases hlater with rfl | ⟨l, rfl⟩
    · exact ⟨rest, .inl rfl⟩
    · exact ⟨l, .inr rfl⟩

/-- The tokens of a clause with one condition. -/
def whereTokens (v : String) (first : List Token) (others : List (List Token)) : List Token :=
  .word "where" default :: (conditionTokens v first others ++ symbolTokens ",".toList)

theorem reads_whereClause (hv : IsSegment v) {first : List Token} {others : List (List Token)}
    (hbounds : ∀ e ∈ first :: others, IsBound g e) (hrest : endsConditions rest = true) :
    (whereClause g.above).Reads (whereTokens v first others ++ rest) rest := by
  have hchain := reads_chainUntil (p := condition g.above) endsConditions ","
    (conditionTokens v first others) [] (symbolTokens ",".toList ++ rest) ?_ (List.cons_ne_nil _ _)
    (.inr ⟨rfl, hrest⟩)
  · refine .peek_pos rfl ?_
    refine (reads_unlessEmpty (Q := fun _ => True) ?_).discard.bind fun _ _ => .pure trivial
    rw [whereTokens, List.cons_append, List.append_assoc]
    exact (reads_keyword "where").bind fun _ _ => .peek_neg rfl hchain
  · intro e he later hlater
    obtain rfl := List.mem_singleton.1 he
    rcases hlater with rfl | ⟨l, rfl⟩ <;> exact ⟨rfl, reads_condition hv hbounds⟩

/-! ## Parameters -/

/-- The tokens of one generic parameter in angle brackets. -/
def genericParameterTokens (v : String) : List Token :=
  symbolTokens "<".toList ++ .word v default :: symbolTokens ">".toList

theorem reads_noAttributes (h : Peek.symbol "#" rest = false) : (outerAttributes g).Reads rest rest :=
  reads_noneWhile h

theorem reads_typeParameter (hv : v ∉ Peek.reservedWords) (hcolon : Peek.symbol ":" rest = false)
    (hequals : Peek.symbol "=" rest = false) :
    (typeParameter g).Reads (.word v default :: rest) rest := by
  have hbounds : (unlessEmpty do
      unless ← optionalSymbol ":" do return []
      chainUntil (Peek.oneOf [Peek.atEnd, Peek.symbol ",", Peek.symbol ">", Peek.symbol "="]) "+"
        (g (.bound .parameter))).Reads rest rest :=
    reads_unlessEmpty ((reads_noSymbol hcolon).andThen (.pure trivial))
  refine (reads_name hv).discard.bind fun _ _ => hbounds.discard.bind fun _ _ => ?_
  exact (reads_noSymbol hequals).andThen (.pure trivial)

/-- A list in angle brackets with one element. -/
theorem reads_lifetimesFirst {element : Parser (Option Bool)} {comma : Parser Bool}
    {tokens : List Token} (helement : element.Reads tokens rest (·.isSome))
    (hcomma : comma.Reads rest rest) (hend : element.Reads rest rest (· = none))
    (hne : tokens ≠ []) : (lifetimesFirst element comma).Reads tokens rest := by
  refine reads_printedAs (Repeats.many (.step (m := rest) ?_ (.stop ?_)) ?_)
  · refine (reads_tracing helement).bind fun r hr => ?_
    obtain ⟨b, hb⟩ := Option.isSome_iff_exists.1 hr.1
    have hitems : r.2.unprinted.items = [] := hr.2
    refine (reads_leave hitems).bind fun _ _ => ?_
    rw [hb]
    exact hcomma.bind fun _ _ => .pure rfl
  · refine (reads_tracing hend).bind fun r hr => ?_
    have hitems : r.2.unprinted.items = [] := hr.2
    refine (reads_leave hitems).bind fun _ _ => ?_
    rw [hr.1]
    exact .answer none
  · exact List.length_pos_iff.2 hne

theorem reads_genericParameters (hv : v ∉ Peek.reservedWords) :
    (genericParameters g).Reads (genericParameterTokens v ++ rest) rest := by
  have hparameter : (genericParameter g [.lifetime, .name, .keyword "const"]).Reads
      (.word v default :: (symbolTokens ">".toList ++ rest)) (symbolTokens ">".toList ++ rest) := by
    refine .peek_neg rfl (.peek_pos (by simpa [Peek.name] using hv) ?_)
    exact (reads_typeParameter hv rfl rfl).bind fun _ _ => .pure trivial
  refine .peek_pos rfl ?_
  refine (reads_unlessEmpty (Q := fun _ => True) ?_).discard.bind fun _ _ => .pure trivial
  refine (reads_printedSymbol "<").bind fun _ _ => ?_
  refine Reads.bind (m := symbolTokens ">".toList ++ rest) (reads_lifetimesFirst ?_ ?_ ?_ ?_)
    fun _ _ => (reads_printedSymbol ">").bind fun _ _ => .pure trivial
  · refine .peek_neg rfl ((reads_noAttributes rfl).discard.bind fun _ _ => ?_)
    refine .peek_neg (keyword_of_not_reserved hv (by decide)) ?_
    exact hparameter.bind fun _ _ => .pure rfl
  · exact .peek_pos rfl (.pure trivial)
  · exact .peek_pos rfl (.answer none)
  · exact List.cons_ne_nil _ _

section Patterns

variable (hv : v ∉ Peek.reservedWords)
include hv

theorem startsPathPattern_word (hafter : afterPatternName rest = false) :
    startsPathPattern (.word v default :: rest) = false := by
  have hself : Peek.keyword "self" (.word v default :: rest) = false :=
    keyword_of_not_reserved hv (by decide)
  have hwords : Peek.oneKeyword ["Self", "super", "crate"] (.word v default :: rest) = false :=
    oneKeyword_of_not_reserved hv (by decide)
  have hsecond : Peek.second afterPatternName (.word v default :: rest) = false := hafter
  simp [startsPathPattern, Peek.oneOf, Peek.followedBy, Peek.allOf, hself, hwords, hsecond,
    Peek.symbol, Peek.symbolChars]

theorem literal_word : Peek.literal (.word v default :: rest) = false := by
  have htrue : v ≠ "true" := fun heq => hv (heq ▸ by decide)
  have hfalse : v ≠ "false" := fun heq => hv (heq ▸ by decide)
  simp [Peek.literal, htrue, hfalse]

theorem reads_bindingPattern (hat : Peek.symbol "@" rest = false) :
    (bindingPattern g).Reads (.word v default :: rest) rest := by
  have hword : ∀ w ∈ Peek.reservedWords, Peek.keyword w (.word v default :: rest) = false :=
    fun w hw => keyword_of_not_reserved hv hw
  refine (reads_noKeyword (hword "ref" (by decide))).discard.bind fun _ _ => ?_
  refine (reads_noKeyword (hword "mut" (by decide))).discard.bind fun _ _ => ?_
  refine (reads_nameOr (.inr hv)).discard.bind fun _ _ => ?_
  exact (reads_noSymbol hat).andThen (.pure trivial)

/-- A name is read as a pattern. -/
theorem reads_namePattern (hafter : afterPatternName rest = false)
    (hat : Peek.symbol "@" rest = false) :
    (singlePattern g).Reads (.word v default :: rest) rest := by
  have hword : ∀ w ∈ Peek.reservedWords, Peek.keyword w (.word v default :: rest) = false :=
    fun w hw => keyword_of_not_reserved hv hw
  have hbound : Peek.oneOf [Peek.symbol "-", Peek.literal, Peek.keyword "const"]
      (.word v default :: rest) = false := by
    simp [Peek.oneOf, literal_word hv, hword "const" (by decide), Peek.symbol, Peek.symbolChars]
  have hname : Peek.oneOf [Peek.oneKeyword ["ref", "mut", "self"], Peek.name]
      (.word v default :: rest) = true := by
    simp [Peek.oneOf, Peek.name, hv]
  refine .peek_neg (startsPathPattern_word hv hafter) (.peek_neg (hword "_" (by decide)) ?_)
  refine .peek_neg (hword "box" (by decide)) (.peek_neg hbound (.peek_pos hname ?_))
  exact (reads_bindingPattern hv hat).bind fun _ _ => .pure trivial

theorem receiver_word : Peek.receiver (.word v default :: rest) = false := by
  have hmut : Peek.keyword "mut" (.word v default :: rest) = false :=
    keyword_of_not_reserved hv (by decide)
  have hself : Peek.keyword "self" (.word v default :: rest) = false :=
    keyword_of_not_reserved hv (by decide)
  simp [Peek.receiver, Peek.followedBy, Peek.allOf, hmut, hself, Peek.symbol, Peek.symbolChars]

end Patterns

/-! ## Signatures -/

/-- The tokens of a parameter with its type. -/
def parameterTokens (v : String) (type : List Token) : List Token :=
  .word v default :: (symbolTokens ":".toList ++ type)

theorem reads_parameter (hv : v ∉ Peek.reservedWords) {type : List Token}
    (htype : (g.above (.type true)).Reads (type ++ rest) rest)
    (hdots : Peek.symbol "..." (type ++ rest) = false) :
    (parameter g.above).Reads (parameterTokens v type ++ rest) rest fun p => ∃ t, p = .typed t := by
  have hangle : Peek.followedBy Peek.name (Peek.symbol "<") (parameterTokens v type ++ rest) =
      false := by
    rw [Peek.followedBy, Peek.allOf]
    exact Bool.and_false _
  refine (reads_noSymbol rfl).andThen (.peek_neg (receiver_word hv) (.peek_neg hangle ?_))
  rw [parameterTokens, List.cons_append, List.append_assoc]
  refine (reads_namePattern (g := g) hv rfl rfl).discard.bind fun _ _ => ?_
  refine (reads_printedSymbol ":").bind fun _ _ => ?_
  exact (reads_noSymbol hdots).andThen (htype.bind fun t _ => .pure ⟨t, rfl⟩)

/-- The tokens are read as a parameter, as the last one or before a comma. -/
def IsParameter (g : Grammar) (tokens : List Token) : Prop :=
  ∀ later, (later = [] ∨ ∃ l, later = symbolTokens ",".toList ++ l) →
    Peek.atEnd (tokens ++ later) = false ∧ Peek.symbol "#" (tokens ++ later) = false ∧
    (parameter g).Reads (tokens ++ later) later fun p => ∃ t, p = .typed t

/-- The tokens of parameters with commas between them. -/
def listTokens : List (List Token) → List Token
  | [] => []
  | [e] => e
  | e :: more => e ++ (symbolTokens ",".toList ++ listTokens more)

theorem listTokens_cons (e : List Token) (more : List (List Token)) :
    ∃ later, listTokens (e :: more) = e ++ later ∧
      ((later = [] ∧ more = []) ∨ later = symbolTokens ",".toList ++ listTokens more) := by
  cases more with
  | nil => exact ⟨[], (List.append_nil e).symm, .inl ⟨rfl, rfl⟩⟩
  | cons e' more => exact ⟨_, rfl, .inr rfl⟩

theorem reads_parametersAfter {parameters : List (List Token)}
    (hparameters : ∀ e ∈ parameters, IsParameter g e) (before : List Parameter) {fuel : Nat}
    (hfuel : parameters.length < fuel) :
    (parametersAfter g before fuel).Reads (listTokens parameters) [] := by
  induction parameters generalizing before fuel with
  | nil =>
    obtain ⟨n, rfl⟩ : ∃ n, fuel = n + 1 := ⟨fuel - 1, by omega⟩
    exact .peek_pos rfl (.pure trivial)
  | cons e more ih =>
    obtain ⟨n, rfl⟩ : ∃ n, fuel = n + 1 := ⟨fuel - 1, by omega⟩
    obtain ⟨he, hmore⟩ := List.forall_mem_cons.1 hparameters
    obtain ⟨later, htokens, hlater⟩ := listTokens_cons e more
    rw [htokens]
    obtain ⟨hend, hattributes, hread⟩ := he later (hlater.imp And.left fun h => ⟨_, h⟩)
    refine .peek_neg hend ((reads_noAttributes hattributes).discard.bind fun _ _ => ?_)
    refine hread.bind ?_
    rintro _ ⟨t, rfl⟩
    refine Reads.bind (Q := fun _ => True) (.pure trivial) fun _ _ => ?_
    have hrest := ih hmore (.typed t :: before) (Nat.lt_of_succ_lt_succ hfuel)
    rcases hlater with ⟨rfl, rfl⟩ | rfl
    · exact .peek_pos rfl hrest
    · exact .peek_neg rfl ((reads_printedSymbol ",").bind fun _ _ => hrest)

/-- The tokens of a signature with one generic parameter. -/
def signatureTokens (name : String) (parameters : List (List Token)) (result where_ : List Token) :
    List Token :=
  .word "fn" default :: .word name default :: (genericParameterTokens "S" ++
    (.group .paren (listTokens parameters) default default ::
      (symbolTokens "->".toList ++ (result ++ where_))))

theorem reads_functionMarkers (rest : List Token) :
    (functionMarkers false).Reads (.word "fn" default :: rest) rest := by
  refine (reads_noKeyword rfl).discard.bind fun _ _ => (reads_noKeyword rfl).discard.bind fun _ _ => ?_
  refine (reads_noKeyword rfl).andThen (Reads.andThen (.answer false) ?_)
  have habi : optionalAbi.Reads (.word "fn" default :: rest) (.word "fn" default :: rest) :=
    (reads_noKeyword rfl).andThen (.pure trivial)
  exact habi.bind fun _ _ => (reads_keyword "fn").bind fun _ _ => .pure trivial

theorem length_le_listTokens {elements : List (List Token)} (h : ∀ e ∈ elements, e ≠ []) :
    elements.length ≤ (listTokens elements).length := by
  induction elements with
  | nil => exact Nat.le_refl _
  | cons e more ih =>
    obtain ⟨he, hmore⟩ := List.forall_mem_cons.1 h
    have hpos := List.length_pos_iff.2 he
    have hlength := ih hmore
    obtain ⟨later, htokens, ⟨rfl, rfl⟩ | rfl⟩ := listTokens_cons e more
    · rw [htokens, List.append_nil]
      exact hpos
    · rw [htokens, List.length_cons, List.length_append, List.length_append]
      omega

theorem reads_parameterGroup {parameters : List (List Token)} {rest' : List Token}
    (hparameters : ∀ e ∈ parameters, IsParameter g e) {result : List Token}
    (hresult : (g (.type true)).Reads (result ++ rest') rest') :
    (groupThen .paren (do parametersAfter g [] ((← get).tokens.length + 1)) fun all => do
      return (all.filterMap Parameter.type?, ← resultType g true)).Reads
      (.group .paren (listTokens parameters) default default ::
        (symbolTokens "->".toList ++ (result ++ rest'))) rest' := by
  refine reads_groupThen (Q := fun _ => True) ?_ fun all _ => ?_
  · refine reads_get.bind fun s hs => reads_parametersAfter hparameters [] ?_
    have hne : ∀ e ∈ parameters, e ≠ [] := by
      rintro e he rfl
      obtain ⟨hend, -⟩ := hparameters _ he [] (.inl rfl)
      exact absurd hend (by decide)
    have hlength := length_le_listTokens hne
    rw [← hs, length_bareAll] at hlength
    omega
  · refine Reads.bind (Q := fun _ => True) ?_ fun _ _ => .pure trivial
    exact (reads_printedOptional "->").andThen (hresult.bind fun _ _ => .pure trivial)

theorem reads_signature {name : String} {parameters : List (List Token)} {result where_ : List Token}
    (hname : name ∉ Peek.reservedWords) (hparameters : ∀ e ∈ parameters, IsParameter g e)
    (hresult : (g (.type true)).Reads (result ++ (where_ ++ rest)) (where_ ++ rest))
    (hwhere : (whereClause g).Reads (where_ ++ rest) rest) :
    (signature g false).Reads (signatureTokens name parameters result where_ ++ rest) rest := by
  simp only [signatureTokens, List.cons_append, List.append_assoc]
  refine (reads_functionMarkers _).bind fun _ _ => (reads_name hname).bind fun _ _ => ?_
  refine (reads_genericParameters (by decide)).discard.bind fun _ _ => ?_
  exact (reads_secondMetFirst (reads_parameterGroup hparameters hresult) hwhere).bind
    fun _ _ => .pure trivial

end ApiDecl.Syntax.Parser
