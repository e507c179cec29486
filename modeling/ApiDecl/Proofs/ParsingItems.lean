import ApiDecl.Proofs.ParsingAttributes
import ApiDecl.Proofs.SilentFiles

/-!
# Proofs: reading items

Imports are read, and public functions whose body is one expression. A file that has nothing else
declares nothing.
-/

namespace ApiDecl.Syntax.Parser

open Token TypeExpr

variable {g : Grammar} {tokens rest : List Token} {v : String} {words : List String}

instance : Peek.Blind startsItem := by
  unfold startsItem startsAutoTrait
  infer_instance

/-! ## Bodies -/

theorem reads_noMacroStatement (hwords : ∀ v ∈ words, IsSegment v) (hne : words ≠ [])
    (hrest : EndsOperand rest) : macroStatement?.Reads (pathTokens words ++ rest)
      (pathTokens words ++ rest) (· = none) := by
  intro s hs
  obtain ⟨path, s', hrun, -, hs', -⟩ := reads_modulePath hwords hne hrest.colons s hs
  have hbang : Peek.symbol "!" s'.tokens = false := (test_eq _ hs').trans hrest.bang
  refine ⟨none, s, ?_, rfl, hs, rfl, rfl⟩
  simp only [macroStatement?, attempt, StateT.run_bind, StateT.run_get, pure_bind, hrun,
    StateT.run_set, StateT.run_pure, hbang, Bool.not_false, Bool.or_true, if_true]
  rfl

theorem reads_leaveAttributed {attributes t : Trace} (hattributes : attributes.items = [])
    (ht : t.items = []) (shape : ExprShape) :
    (leaveAttributed attributes shape t).Reads tokens tokens := by
  unfold leaveAttributed
  split
  · exact (reads_leave hattributes).bind fun _ _ => reads_leave ht
  · split
    · exact reads_leave ht
    · exact (reads_leave hattributes).bind fun _ _ => reads_leave ht

/-- The tokens of a body whose only statement is a path with calls. -/
structure IsBody (g : Grammar) (tokens : List Token) : Prop where
  reads : (statement g).Reads tokens []
  ne_nil : tokens ≠ []
  hash : Peek.symbol "#" tokens = false

theorem isBody_calls {calls : List (List Token)} (hwords : ∀ v ∈ words, IsSegment v)
    (hne : words ≠ []) (hcalls : ∀ c ∈ calls, IsCall g c)
    (hitem : startsItem (pathTokens words ++ calls.flatMap id) = false) :
    IsBody g.above.above (pathTokens words ++ calls.flatMap id) := by
  have hends : EndsOperand (calls.flatMap id) := by
    simpa using endsOperand_calls hcalls (.inl rfl)
  have hunary : (g.above (.unary true)).Reads (pathTokens words ++ calls.flatMap id) []
      (·.isRange = false) := by
    have h := reads_unary (isOperand_path hwords hne) hcalls (.inl rfl)
    rwa [List.append_nil] at h
  have hmacro := reads_noMacroStatement hwords hne hends
  obtain ⟨v, words, rfl⟩ := List.exists_cons_of_ne_nil hne
  have hv := hwords v List.mem_cons_self
  refine ⟨?_, List.cons_ne_nil _ _, rfl⟩
  have hleading : (g.above.above .leadingExpression).Reads
      (pathTokens (v :: words) ++ calls.flatMap id) [] (·.shape.isRange = false) := by
    refine .peek_neg hv.notBlock (hunary.bind fun first hfirst => ?_)
    exact (reads_operators hfirst true _ (.inl rfl)).bind fun _ hshape => .pure hshape
  have hlet : Peek.keyword "let" (pathTokens (v :: words) ++ calls.flatMap id) = false :=
    hv.keyword (by decide) (by decide)
  refine (reads_noSymbol rfl).andThen (reads_get.bind fun s hs => ?_)
  refine (reads_tracing (reads_noAttributes rfl)).bind fun r hr => hmacro.andThen ?_
  refine .peek_neg hlet (.of_peek hitem ?_)
  refine (reads_tracing hleading).bind fun r' hr' => ?_
  refine (reads_leaveAttributed hr.2 hr'.2 _).bind fun _ _ => (reads_noSymbol rfl).andThen ?_
  refine .of_peek (b := true) rfl ?_
  rw [Bool.not_true, Bool.and_false]
  exact .pure trivial

theorem reads_body {content : List Token} (h : IsBody g content) :
    (body g.above).Reads (.group .brace content default default :: rest) rest := by
  refine reads_group (Q := fun _ => True) ?_
  have hinner : Peek.followedBy (Peek.symbol "#") (Peek.symbol "!") content = false := by
    simp [Peek.followedBy, Peek.allOf, h.hash]
  have hstatements := reads_manyToEnd (p := statement g) (l := [content]) id ?_ ?_
  · rw [List.flatMap_cons, List.flatMap_nil, List.append_nil] at hstatements
    exact (reads_noneWhile hinner).bind fun _ _ => hstatements.discard.bind fun _ _ => .pure trivial
  · rintro c later hlater
    obtain ⟨rfl, rfl⟩ : c = content ∧ later = [] := by
      have hlength := hlater.length_le
      obtain rfl : later = [] := List.length_eq_zero_iff.1 (by simpa using hlength)
      exact ⟨by simpa using hlater.subset List.mem_cons_self, rfl⟩
    simpa using h.reads
  · intro c hc
    obtain rfl := List.mem_singleton.1 hc
    exact h.ne_nil

/-! ## Functions -/

/-- Nothing is declared by the item, or inside it where it would be visible. -/
def IsQuiet (i : Item) : Prop := i.structs = [] ∧ i.traits = []

/-- The tokens of a function, without its attributes. -/
structure IsFunction (g : Grammar) (tokens : List Token) : Prop where
  starts : ∃ later, tokens = .word "pub" default :: .word "fn" default :: later
  reads : ∀ later, (implementationFunction g).Reads (tokens.tail ++ later) later

theorem isFunction_signature {name : String} {parameters : List (List Token)}
    {result where_ content : List Token} (hname : name ∉ Peek.reservedWords)
    (hparameters : ∀ e ∈ parameters, IsParameter g.above e)
    (hresult : ∀ later, ((g.above) (.type true)).Reads (result ++ (where_ ++ later)) (where_ ++ later))
    (hwhere : ∀ later, endsConditions later = true →
      (whereClause g.above).Reads (where_ ++ later) later)
    (hcontent : IsBody g content) :
    IsFunction g.above (.word "pub" default :: (signatureTokens name parameters result where_ ++
      [.group .brace content default default])) := by
  refine ⟨⟨_, rfl⟩, fun later => ?_⟩
  rw [List.tail_cons, List.append_assoc]
  refine (reads_signature hname hparameters (hresult _) (hwhere _ rfl)).discard.bind fun _ _ => ?_
  refine (reads_noSymbol rfl).andThen ?_
  exact (reads_body hcontent).discard.bind fun _ _ => .pure trivial

theorem reads_functionItem (h : IsFunction g tokens) (later : List Token) (attributes : List Attribute) :
    (itemAfterAttributes g attributes).Reads (tokens ++ later) later (∀ i ∈ ·, IsQuiet i) := by
  obtain ⟨behind, rfl⟩ := h.starts
  have hread := h.reads later
  have hvisible : visibility.Reads
      (.word "pub" default :: .word "fn" default :: behind ++ later)
      (.word "fn" default :: behind ++ later) :=
    (reads_optionalKeyword "pub").andThen (.peek_neg rfl (.pure trivial))
  refine reads_here.bind fun start _ => hvisible.bind fun visible _ => ?_
  refine (reads_wouldSucceed (reads_functionMarkers _)).andThen ?_
  refine (reads_nesting hread).bind fun r hr => ?_
  obtain ⟨complete, items⟩ := r
  obtain ⟨-, rfl⟩ := hr
  refine .pure fun i hi => ?_
  cases complete with
  | false => cases hi
  | true =>
    obtain rfl : Item.function [] = i := by simpa using hi
    exact ⟨rfl, rfl⟩

/-! ## Imports -/

theorem reads_importedName (hv : v ∉ Peek.reservedWords) (allowRoot : Bool)
    (hcolons : Peek.symbol "::" rest = false) (has : Peek.keyword "as" rest = false) :
    (useTree g allowRoot).Reads (.word v default :: rest) rest := by
  refine .peek_pos (by simp [Peek.oneOf, Peek.name, hv]) ?_
  refine (reads_anyWord v).discard.bind fun _ _ => (reads_noSymbol hcolons).andThen ?_
  exact (reads_noKeyword has).andThen (.pure trivial)

theorem reads_importedStep (hv : v ∉ Peek.reservedWords) (allowRoot : Bool)
    (h : (g (.useTree false)).Reads tokens rest) :
    (useTree g allowRoot).Reads (.word v default :: (colons ++ tokens)) rest := by
  refine .peek_pos (by simp [Peek.oneOf, Peek.name, hv]) ?_
  refine (reads_anyWord v).discard.bind fun _ _ => (reads_printedOptional "::").andThen ?_
  exact h.discard.bind fun _ _ => .pure trivial

/-- The tokens of names in braces, with commas between them. -/
def importedNames (names : List String) (last : String) : Token :=
  .group .brace (names.flatMap (fun v => [.word v default] ++ symbolTokens ",".toList) ++
    [.word last default]) default default

theorem reads_importedNames {names : List String} {last : String}
    (hnames : ∀ v ∈ names, v ∉ Peek.reservedWords) (hlast : last ∉ Peek.reservedWords) :
    (useTree g.above false).Reads (importedNames names last :: rest) rest := by
  have hbranch : ∀ v later, v ∉ Peek.reservedWords → Peek.symbol "::" later = false →
      Peek.keyword "as" later = false →
      (do let root ← if false then optionalSymbol "::" else pure false
          let complete ← g.above (.useTree (false && !root))
          return complete && !root : Parser Bool).Reads (.word v default :: later) later :=
    fun v later hv hcolons has => Reads.andThen (.answer false)
      ((reads_importedName hv _ hcolons has).bind fun _ _ => .pure trivial)
  have hbranches := reads_separatedUntil
    (p := do let root ← if false then optionalSymbol "::" else pure false
             let complete ← g.above (.useTree (false && !root))
             return complete && !root)
    Peek.atEnd "," (names.map fun v => [.word v default]) (some [.word last default]) ?_ ?_
    (List.cons_ne_nil _ _) (rfl : Peek.atEnd [] = true)
  · refine .peek_neg rfl ((reads_noSymbol rfl).andThen (.of_peek (b := true) rfl ?_))
    refine reads_group (Q := fun _ => True) ?_
    rw [List.append_nil, List.flatMap_map] at hbranches
    exact hbranches.bind fun _ _ => .pure trivial
  · intro e he behind
    obtain ⟨v, hv, rfl⟩ := List.mem_map.1 he
    exact ⟨rfl, rfl, hbranch v _ (hnames v hv) rfl rfl⟩
  · rintro _ ⟨⟩
    exact ⟨rfl, List.cons_ne_nil _ _, hbranch last [] hlast rfl rfl⟩

/-- The tokens are read as an import, between its keyword and its end. -/
structure IsImport (g : Grammar) (tokens : List Token) : Prop where
  relative : ∀ later, Peek.symbol "::" (tokens ++ later) = false
  reads : ∀ later, (g (.useTree true)).Reads
    (tokens ++ (symbolTokens ";".toList ++ later)) (symbolTokens ";".toList ++ later)

/-- The tokens of an import. -/
def importTokens (tokens : List Token) : List Token :=
  .word "use" default :: (tokens ++ symbolTokens ";".toList)

theorem refuses_functionMarkers :
    (functionMarkers false).Refuses (.word "use" default :: tokens) := by
  have habi : optionalAbi.Reads (.word "use" default :: tokens) (.word "use" default :: tokens) :=
    (reads_noKeyword rfl).andThen (.pure trivial)
  refine (reads_noKeyword rfl).discard.refuses fun _ _ => ?_
  refine (reads_noKeyword rfl).discard.refuses fun _ _ => ?_
  refine (reads_noKeyword rfl).refuses fun isUnsafe _ => ?_
  refine (Reads.answer false).refuses fun _ _ => habi.refuses fun _ _ => ?_
  exact (refuses_keyword rfl).bind

theorem reads_importItem (h : IsImport g tokens) (later : List Token) (attributes : List Attribute) :
    (itemAfterAttributes g attributes).Reads (importTokens tokens ++ later) later
      (∀ i ∈ ·, IsQuiet i) := by
  have hvisible : visibility.Reads (importTokens tokens ++ later) (importTokens tokens ++ later) :=
    (reads_noKeyword rfl).andThen (.pure trivial)
  have hread : (useItem g).Reads (importTokens tokens ++ later) later := by
    rw [importTokens, List.cons_append, List.append_assoc]
    refine (reads_keyword "use").bind fun _ _ => (reads_noSymbol (h.relative _)).andThen ?_
    exact (h.reads later).bind fun _ _ => (reads_printedSymbol ";").bind fun _ _ => .pure trivial
  refine reads_here.bind fun start _ => hvisible.bind fun visible _ => ?_
  refine (reads_wouldSucceed_of_refuses refuses_functionMarkers).andThen ?_
  refine .peek_neg rfl (.peek_pos rfl ((reads_nesting hread).bind fun r hr => ?_))
  obtain ⟨complete, items⟩ := r
  obtain ⟨-, rfl⟩ := hr
  refine .pure fun i hi => ?_
  cases complete with
  | false => cases hi
  | true =>
    obtain rfl : Item.other [] = i := by simpa using hi
    exact ⟨rfl, rfl⟩

/-! ## Files -/

section Declares

variable {α β : Type} {p : Parser α} {rest' : List Token} {Q : α → Prop} {R : β → Prop}

/-- On these tokens, wherever they stand, the parser succeeds with an answer of a kind and leaves the
rest of them, and all items that it comes across declare nothing. -/
def Declares (p : Parser α) (tokens rest : List Token) (Q : α → Prop := fun _ => True) : Prop :=
  ∀ s : ParseState, bareAll s.tokens = tokens → ∃ a s' items, p.run s = .ok (a, s') ∧ Q a ∧
    bareAll s'.tokens = rest ∧ s'.leftover = s.leftover ∧
    s'.trace.items = items ++ s.trace.items ∧ ∀ i ∈ items, IsQuiet i

theorem Reads.declares (h : p.Reads tokens rest Q) : p.Declares tokens rest Q := by
  intro s hs
  obtain ⟨a, s', hrun, ha, hs', hleftover, hitems⟩ := h s hs
  exact ⟨a, s', [], hrun, ha, hs', hleftover, hitems, List.forall_mem_nil _⟩

theorem Declares.bind {f : α → Parser β} (h : p.Declares tokens rest Q)
    (hf : ∀ a, Q a → (f a).Declares rest rest' R) : (p >>= f).Declares tokens rest' R := by
  intro s hs
  obtain ⟨a, s₁, items₁, hrun₁, ha, hs₁, hleftover₁, hitems₁, hquiet₁⟩ := h s hs
  obtain ⟨b, s₂, items₂, hrun₂, hb, hs₂, hleftover₂, hitems₂, hquiet₂⟩ := hf a ha s₁ hs₁
  refine ⟨b, s₂, items₂ ++ items₁, ?_, hb, hs₂, hleftover₂.trans hleftover₁, ?_, ?_⟩
  · rw [StateT.run_bind, hrun₁]
    exact hrun₂
  · rw [hitems₂, hitems₁, List.append_assoc]
  · exact fun i hi => (List.mem_append.1 hi).elim (hquiet₂ i) (hquiet₁ i)

theorem Declares.discard (h : p.Declares tokens rest Q) : (discard p).Declares tokens rest := by
  have hmap : ((fun _ => ()) <$> p).Declares tokens rest := by
    rw [← bind_pure_comp]
    exact h.bind fun _ _ => (Reads.pure trivial).declares
  exact hmap

theorem declares_recordItem {i : Item} (hi : IsQuiet i) : (recordItem i).Declares tokens tokens :=
  fun s hs => ⟨(), { s with trace := s.trace.append ⟨[], [i]⟩ }, [i], rfl, trivial, hs, rfl, rfl,
    by simpa using hi⟩

/-- An item is recorded after its documentation. -/
theorem declares_item {comments : List String} (hhash : Peek.symbol "#" tokens = false)
    (h : ∀ attributes, (itemAfterAttributes g attributes).Reads tokens rest (∀ i ∈ ·, IsQuiet i)) :
    (item g).Declares (comments.flatMap documentationTokens ++ tokens) rest := by
  refine reads_get.declares.bind fun s hs => ?_
  refine (reads_tracing (reads_documentations hhash)).declares.bind fun r hr => ?_
  refine (reads_tracing (h _)).declares.bind fun r' hr' => ?_
  obtain ⟨attributes, t⟩ := r
  obtain ⟨i?, t'⟩ := r'
  have ht : t.items = [] := hr.2
  have ht' : t'.items = [] := hr'.2
  cases i? with
  | some i =>
    have hi : IsQuiet (prependInner (t.items.reverse ++ t'.items.reverse) i) := by
      rw [ht, ht']
      have hquiet := hr'.1 i rfl
      cases i <;> exact hquiet
    exact (reads_leave rfl).declares.bind fun _ _ => declares_recordItem hi
  | none =>
    exact (reads_sourceSince _).declares.bind fun _ _ => (reads_emit _).declares.bind fun _ _ =>
      declares_recordItem ⟨rfl, rfl⟩

theorem declares_repeated {l : List (List Token)}
    (hpiece : ∀ e ∈ l, e ≠ [] ∧ ∀ later, p.Declares (e ++ later) later) {fuel : Nat}
    (hfuel : l.length < fuel) : (repeatWithin (do
      if ← atEnd then return none else return some (← p)) fuel).Declares l.flatten [] := by
  induction l generalizing fuel with
  | nil =>
    obtain ⟨n, rfl⟩ : ∃ n, fuel = n + 1 := ⟨fuel - 1, by omega⟩
    exact (Repeats.stop (.peek_pos rfl (.answer none)) _ hfuel).declares
  | cons e l ih =>
    obtain ⟨n, rfl⟩ : ∃ n, fuel = n + 1 := ⟨fuel - 1, by omega⟩
    obtain ⟨⟨hne, he⟩, hl⟩ := List.forall_mem_cons.1 hpiece
    have hatEnd : (peek Peek.atEnd).Reads (e ++ l.flatten) (e ++ l.flatten) (· = false) :=
      (reads_peek _).mono fun _ h => h.trans (by simp [Peek.atEnd, hne])
    have hstep : (do
        if ← atEnd then return none else return some (← p) : Parser (Option α)).Declares
          (e ++ l.flatten) l.flatten (·.isSome) := by
      refine hatEnd.declares.bind ?_
      rintro _ rfl
      refine (he l.flatten).bind fun a _ => ?_
      have hsome : (pure (some a) : Parser (Option α)).Reads l.flatten l.flatten (·.isSome) :=
        .pure rfl
      exact hsome.declares
    rw [List.flatten_cons, repeatWithin]
    refine hstep.bind fun a? ha => ?_
    obtain ⟨a, rfl⟩ := Option.isSome_iff_exists.1 ha
    exact (ih hl (Nat.lt_of_succ_lt_succ hfuel)).bind fun _ _ => (Reads.pure trivial).declares

/-- Pieces are read one by one to the end of the file. -/
theorem declares_manyToEnd {l : List (List Token)}
    (hpiece : ∀ e ∈ l, e ≠ [] ∧ ∀ later, p.Declares (e ++ later) later) :
    (manyToEnd p).Declares l.flatten [] := by
  refine reads_get.declares.bind fun s hs => declares_repeated hpiece ?_
  have hlength := length_le_flatMap id fun e he => (hpiece e he).1
  rw [List.flatMap_id, ← hs, length_bareAll] at hlength
  exact Nat.lt_succ_of_le hlength

end Declares

/-! ## The whole grammar -/

/-- Some levels above a grammar. -/
def raise : Nat → Grammar → Grammar
  | 0, g => g
  | n + 1, g => (raise n g).above

theorem ofDepth_add (n depth : Nat) : Grammar.ofDepth (depth + n) = raise n (.ofDepth depth) := by
  induction n with
  | zero => rfl
  | succ n ih => rw [← Nat.add_assoc, Grammar.ofDepth, ih, raise]

theorem size_pos (t : Token) : 1 ≤ t.size := by
  cases t <;> simp only [Token.size] <;> omega

/-- A text that is not empty has eleven levels. -/
theorem exists_raise {file : List Token} (h : file ≠ []) :
    ∃ g, Grammar.for file = raise 11 g := by
  obtain ⟨t, rest, rfl⟩ := List.exists_cons_of_ne_nil h
  have hpos : 1 ≤ Token.sizeAll (t :: rest) := (size_pos t).trans (Nat.le_add_right _ _)
  refine ⟨.ofDepth (3 * Token.sizeAll (t :: rest) + 8 - 11), ?_⟩
  rw [Grammar.for, ← ofDepth_add]
  congr 1
  omega

/-- A file of items that declare nothing is parsed as such items. -/
theorem exists_items {file : List Token} {l : List (List Token)} (hfile : bareAll file = l.flatten)
    (hne : file ≠ []) (hinner : Peek.followedBy (Peek.symbol "#") (Peek.symbol "!") l.flatten = false)
    (hpiece : ∀ g, ∀ e ∈ l, e ≠ [] ∧ ∀ later, (item (raise 10 g)).Declares (e ++ later) later) :
    ∃ items, items? file = .ok items ∧ ∀ i ∈ items, IsQuiet i := by
  obtain ⟨g, hg⟩ := exists_raise hne
  have hread : (do
      discard (innerAttributes (Grammar.for file))
      discard (manyToEnd (Grammar.for file .item)) : Parser Unit).Declares l.flatten [] := by
    rw [hg]
    have hattributes : (innerAttributes (raise 11 g)).Reads l.flatten l.flatten :=
      reads_noneWhile hinner
    have hitems : (manyToEnd (raise 11 g .item)).Declares l.flatten [] :=
      declares_manyToEnd (hpiece g)
    exact hattributes.discard.declares.bind fun _ _ => hitems.discard
  obtain ⟨a, s', items, hrun, -, hs', hleftover, hitems, hquiet⟩ :=
    hread ⟨file, .start, none, none, .empty⟩ hfile
  have htokens : s'.tokens = [] := by
    cases hs : s'.tokens with
    | nil => rfl
    | cons t rest =>
      rw [hs] at hs'
      cases hs'
  refine ⟨items.reverse, ?_, fun i hi => hquiet i (List.mem_reverse.1 hi)⟩
  have hleft : s'.leftover = none := hleftover
  have hall : runAll (do
      discard (innerAttributes (Grammar.for file))
      discard (manyToEnd (Grammar.for file .item)) : Parser Unit) file =
      .ok (a, items.reverse) := by
    have hitems : s'.trace.items = items := hitems.trans (List.append_nil items)
    rw [runAll, hrun]
    simp only [bind, Except.bind, hleft, htokens, hitems]
    rfl
  rw [items?, hall]
  rfl

end ApiDecl.Syntax.Parser
