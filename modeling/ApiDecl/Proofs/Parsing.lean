import ApiDecl.Proofs.BareTokens

/-!
# Proofs: what parsers read

A parser reads some tokens if it succeeds on them wherever they stand, leaves the tokens after them,
and comes across neither items nor left over tokens (`Parser.Reads`). A parser is followed through
the tokens by the rules here, one for each of the parsers that all others are made of.
-/

namespace ApiDecl.Syntax

open Token
open Peek (Blind)

namespace Parser

variable {α β : Type} {tokens rest rest' : List Token}

/-- On these tokens, wherever they stand, the parser succeeds with an answer of a kind and leaves the
rest of them. -/
def Reads (p : Parser α) (tokens rest : List Token) (Q : α → Prop := fun _ => True) : Prop :=
  ∀ s : ParseState, bareAll s.tokens = tokens → ∃ a s', p.run s = .ok (a, s') ∧ Q a ∧
    bareAll s'.tokens = rest ∧ s'.leftover = s.leftover ∧ s'.trace.items = s.trace.items

/-- On these tokens, wherever they stand, the parser fails. -/
def Refuses (p : Parser α) (tokens : List Token) : Prop :=
  ∀ s : ParseState, bareAll s.tokens = tokens → ∃ e, p.run s = .error e

section Rules

variable {p : Parser α} {Q : α → Prop} {R : β → Prop}

theorem Reads.mono {Q' : α → Prop} (h : p.Reads tokens rest Q) (hQ : ∀ a, Q a → Q' a) :
    p.Reads tokens rest Q' := by
  intro s hs
  obtain ⟨a, s', hrun, ha, hrest⟩ := h s hs
  exact ⟨a, s', hrun, hQ a ha, hrest⟩

theorem Reads.pure {a : α} (h : Q a) : Reads (pure a) tokens tokens Q :=
  fun s hs => ⟨a, s, rfl, h, hs, rfl, rfl⟩

theorem Reads.answer (a : α) : Reads (Pure.pure a) tokens tokens (· = a) := .pure rfl

theorem Reads.bind {f : α → Parser β} {m : List Token} (h : p.Reads tokens m Q)
    (hf : ∀ a, Q a → (f a).Reads m rest R) : (p >>= f).Reads tokens rest R := by
  intro s hs
  obtain ⟨a, s₁, hrun, ha, hs₁, hleftover, hitems⟩ := h s hs
  obtain ⟨b, s₂, hrun₂, hb, hs₂, hleftover₂, hitems₂⟩ := hf a ha s₁ hs₁
  refine ⟨b, s₂, ?_, hb, hs₂, hleftover₂.trans hleftover, hitems₂.trans hitems⟩
  rw [StateT.run_bind, hrun]
  exact hrun₂

/-- The answer of the first parser decides how the second one goes on. -/
theorem Reads.andThen {a : α} {f : α → Parser β} {m : List Token} (h : p.Reads tokens m (· = a))
    (hf : (f a).Reads m rest R) : (p >>= f).Reads tokens rest R :=
  h.bind fun _ ha => ha ▸ hf

theorem Reads.map {f : α → β} (h : p.Reads tokens rest Q) (hf : ∀ a, Q a → R (f a)) :
    (f <$> p).Reads tokens rest R := by
  rw [← bind_pure_comp]
  exact h.bind fun a ha => .pure (hf a ha)

theorem Reads.discard (h : p.Reads tokens rest Q) : (discard p).Reads tokens rest :=
  h.map fun _ _ => trivial

theorem Reads.refuses {f : α → Parser β} (h : p.Reads tokens rest Q)
    (hf : ∀ a, Q a → (f a).Refuses rest) : (p >>= f).Refuses tokens := by
  intro s hs
  obtain ⟨a, s₁, hrun, ha, hs₁, -⟩ := h s hs
  obtain ⟨e, he⟩ := hf a ha s₁ hs₁
  refine ⟨e, ?_⟩
  rw [StateT.run_bind, hrun]
  exact he

theorem Refuses.bind {f : α → Parser β} (h : p.Refuses tokens) : (p >>= f).Refuses tokens := by
  intro s hs
  obtain ⟨e, he⟩ := h s hs
  refine ⟨e, ?_⟩
  rw [StateT.run_bind, he]
  rfl

theorem reads_get : (get : Parser ParseState).Reads tokens tokens
    fun s => bareAll s.tokens = tokens :=
  fun s hs => ⟨s, s, rfl, hs, hs, rfl, rfl⟩

theorem reads_here : here.Reads tokens tokens := reads_get.bind fun _ _ => .pure trivial

/-! ## Tests -/

variable (test : Peek) [Blind test]

theorem test_eq {s : ParseState} (hs : bareAll s.tokens = tokens) : test s.tokens = test tokens :=
  hs ▸ (Peek.bareAll_eq s.tokens).symm

theorem reads_peek : (peek test).Reads tokens tokens (· = test tokens) :=
  reads_get.bind fun _ hs => .pure (test_eq test hs)

variable {test}

theorem Reads.of_peek {b : Bool} {f : Bool → Parser β} (htest : test tokens = b)
    (h : (f b).Reads tokens rest R) : (peek test >>= f).Reads tokens rest R :=
  (reads_peek test).andThen (htest.symm ▸ h)

theorem Reads.peek_pos {p q : Parser β} (htest : test tokens = true)
    (h : p.Reads tokens rest R) :
    (do if ← peek test then p else q).Reads tokens rest R := .of_peek htest h

theorem Reads.peek_neg {p q : Parser β} (htest : test tokens = false)
    (h : q.Reads tokens rest R) :
    (do if ← peek test then p else q).Reads tokens rest R := .of_peek htest h

theorem reads_wouldSucceed (h : p.Reads tokens rest Q) :
    (wouldSucceed p).Reads tokens tokens (· = true) := by
  intro s hs
  obtain ⟨a, s', hrun, -⟩ := h s hs
  refine ⟨true, s, ?_, rfl, hs, rfl, rfl⟩
  simp only [wouldSucceed, StateT.run_bind, StateT.run_get, pure_bind, hrun]
  rfl

theorem reads_attempt (h : p.Reads tokens rest Q) :
    (attempt p).Reads tokens rest fun a? => ∃ a, a? = some a ∧ Q a := by
  intro s hs
  obtain ⟨a, s', hrun, ha, hrest⟩ := h s hs
  refine ⟨some a, s', ?_, ⟨a, rfl, ha⟩, hrest⟩
  simp only [attempt, StateT.run_bind, StateT.run_get, pure_bind, hrun]
  rfl

theorem reads_wouldSucceed_of_refuses (h : p.Refuses tokens) :
    (wouldSucceed p).Reads tokens tokens (· = false) := by
  intro s hs
  obtain ⟨e, hrun⟩ := h s hs
  refine ⟨false, s, ?_, rfl, hs, rfl, rfl⟩
  simp only [wouldSucceed, StateT.run_bind, StateT.run_get, pure_bind, hrun]
  rfl

theorem reads_attempt_of_refuses (h : p.Refuses tokens) :
    (attempt p).Reads tokens tokens (· = none) := by
  intro s hs
  obtain ⟨e, hrun⟩ := h s hs
  refine ⟨none, s, ?_, rfl, hs, rfl, rfl⟩
  simp only [attempt, StateT.run_bind, StateT.run_get, pure_bind, hrun]
  rfl

end Rules

theorem refuses_fail (message : String) : (fail message : Parser α).Refuses tokens :=
  fun _ _ => ⟨_, rfl⟩

/-! ## Traces -/

section Traces

variable {p : Parser α} {Q : α → Prop}

theorem reads_leave {t : Trace} (h : t.items = []) : (leave t).Reads tokens tokens := by
  intro s hs
  refine ⟨(), { s with trace := s.trace.append t }, rfl, trivial, hs, rfl, ?_⟩
  rw [Trace.append, h, List.nil_append]

theorem reads_emit (printed : List Token) : (emit printed).Reads tokens tokens := reads_leave rfl

theorem reads_tracing (h : p.Reads tokens rest Q) :
    (tracing p).Reads tokens rest fun r => Q r.1 ∧ r.2.items = [] := by
  intro s hs
  obtain ⟨a, s', hrun, ha, hs', hleftover, hitems⟩ := h { s with trace := .empty } hs
  refine ⟨(a, s'.trace), { s' with trace := s.trace }, ?_, ⟨ha, hitems⟩, hs', hleftover, rfl⟩
  simp only [tracing, StateT.run_bind, StateT.run_get, StateT.run_modify, pure_bind, hrun]
  rfl

theorem reads_printing (h : p.Reads tokens rest Q) :
    (printing p).Reads tokens rest fun r => Q r.1 :=
  (reads_tracing h).bind fun _ hr => (reads_leave hr.2).bind fun _ _ => .pure hr.1

theorem reads_printedAs {print : α → List Token} (h : p.Reads tokens rest Q) :
    (printedAs print p).Reads tokens rest Q := by
  refine (reads_tracing h).bind fun r hr => ?_
  have hitems : r.2.unprinted.items = [] := hr.2
  exact (reads_leave hitems).bind fun _ _ => (reads_emit _).bind fun _ _ => .pure hr.1

theorem reads_nesting (h : p.Reads tokens rest Q) :
    (nesting p).Reads tokens rest fun r => Q r.1 ∧ r.2 = [] :=
  (reads_tracing h).bind fun _ hr => (reads_leave rfl).bind fun _ _ =>
    .pure ⟨hr.1, congrArg List.reverse hr.2⟩

theorem reads_unlessEmpty {p : Parser (List α)} {Q : List α → Prop} (h : p.Reads tokens rest Q) :
    (unlessEmpty p).Reads tokens rest Q := by
  refine (reads_tracing h).bind fun r hr => ?_
  dsimp only
  split
  · exact .pure hr.1
  · exact (reads_leave hr.2).bind fun _ _ => .pure hr.1

theorem reads_sourceSince (before : List Token) : (sourceSince before).Reads tokens tokens :=
  reads_get.bind fun _ _ => .pure trivial

theorem reads_asWrittenIfNone {p : Parser (Option α)} {Q : Option α → Prop}
    (h : p.Reads tokens rest Q) : (asWrittenIfNone p).Reads tokens rest Q := by
  refine reads_get.bind fun s _ => (reads_tracing h).bind fun r hr => ?_
  obtain ⟨answer, t⟩ := r
  obtain ⟨hQ, hitems⟩ := hr
  cases answer with
  | some a => exact (reads_leave hitems).bind fun _ _ => .pure hQ
  | none => exact (reads_sourceSince _).bind fun _ _ => (reads_emit _).bind fun _ _ => .pure hQ

theorem reads_asWrittenUnless {p : Parser Bool} (h : p.Reads tokens rest) :
    (asWrittenUnless p).Reads tokens rest :=
  (reads_asWrittenIfNone (Q := fun _ => True) (h.bind fun _ _ => .pure trivial)).discard

theorem reads_secondMetFirst {q : Parser β} {R : β → Prop} (hp : p.Reads tokens rest Q)
    (hq : q.Reads rest rest' R) :
    (secondMetFirst p q).Reads tokens rest' fun r => Q r.1 ∧ R r.2 := by
  refine (reads_tracing hp).bind fun r hr => (reads_tracing hq).bind fun r' hr' => ?_
  refine (reads_leave ?_).bind fun _ _ => .pure ⟨hr.1, hr'.1⟩
  rw [hr.2, hr'.2, List.append_nil]

end Traces

/-! ## Tokens -/

section Tokens

theorem reads_skip (count : Nat) : (skip count).Reads tokens (tokens.drop count) := by
  intro s hs
  refine ⟨(), { s with tokens := s.tokens.drop count }, rfl, trivial, ?_, rfl, rfl⟩
  rw [bareAll_drop, hs]

theorem reads_symbol {s : String} (h : Peek.symbol s tokens = true) :
    (symbol s).Reads tokens (tokens.drop s.length) :=
  .peek_pos h ((reads_skip _).bind fun _ _ => reads_emit _)

theorem symbolChars_symbolTokens (cs : List Char) (rest : List Token) :
    Peek.symbolChars cs (symbolTokens cs ++ rest) = true := by
  induction cs with
  | nil => rfl
  | cons c cs ih => cases cs <;> simp_all [symbolTokens, Peek.symbolChars]

theorem length_symbolTokens (cs : List Char) : (symbolTokens cs).length = cs.length := by
  induction cs with
  | nil => rfl
  | cons c cs ih => cases cs <;> simp_all [symbolTokens]

theorem drop_symbolTokens (s : String) (rest : List Token) :
    (symbolTokens s.toList ++ rest).drop s.length = rest := by
  rw [← String.length_toList, ← length_symbolTokens, List.drop_left]

/-- A symbol is read as it is printed. -/
theorem reads_printedSymbol (s : String) :
    (symbol s).Reads (symbolTokens s.toList ++ rest) rest := by
  have h := reads_symbol (symbolChars_symbolTokens s.toList rest)
  rwa [drop_symbolTokens] at h

theorem reads_printedOptional (s : String) :
    (optionalSymbol s).Reads (symbolTokens s.toList ++ rest) rest (· = true) :=
  .peek_pos (symbolChars_symbolTokens s.toList rest)
    ((reads_printedSymbol s).bind fun _ _ => .pure rfl)

theorem reads_noSymbol {s : String} (h : Peek.symbol s tokens = false) :
    (optionalSymbol s).Reads tokens tokens (· = false) := .peek_neg h (.pure rfl)

theorem reads_keyword (w : String) : (keyword w).Reads (.word w default :: tokens) tokens :=
  .peek_pos (beq_self_eq_true w) ((reads_skip 1).bind fun _ _ => reads_emit _)

theorem refuses_keyword {w : String} (h : Peek.keyword w tokens = false) :
    (keyword w).Refuses tokens := by
  refine (reads_peek (Peek.keyword w)).refuses fun b hb => ?_
  rw [hb.trans h]
  exact refuses_fail _

theorem reads_optionalKeyword (w : String) :
    (optionalKeyword w).Reads (.word w default :: tokens) tokens (· = true) :=
  .peek_pos (beq_self_eq_true w) ((reads_keyword w).bind fun _ _ => .pure rfl)

theorem reads_noKeyword {w : String} (h : Peek.keyword w tokens = false) :
    (optionalKeyword w).Reads tokens tokens (· = false) := .peek_neg h (.pure rfl)

theorem reads_anyWord (v : String) :
    anyWord.Reads (.word v default :: tokens) tokens (· = v) := by
  refine reads_get.bind fun s hs => ?_
  obtain ⟨p, behind, hbehind, -⟩ := exists_word hs
  rw [hbehind]
  exact (reads_skip 1).bind fun _ _ => (reads_emit _).bind fun _ _ => .pure rfl

theorem reads_name {v : String} (h : v ∉ Peek.reservedWords) :
    name.Reads (.word v default :: tokens) tokens (· = v) := by
  refine reads_get.bind fun s hs => ?_
  obtain ⟨p, behind, hbehind, -⟩ := exists_word hs
  rw [hbehind]
  dsimp only
  rw [if_neg (by simpa using h)]
  exact reads_anyWord v

theorem refuses_name {v : String} (h : v ∈ Peek.reservedWords) :
    name.Refuses (.word v default :: tokens) := by
  refine reads_get.refuses fun s hs => ?_
  obtain ⟨p, behind, hbehind, -⟩ := exists_word hs
  rw [hbehind]
  dsimp only
  rw [if_pos (by simpa using h)]
  exact refuses_fail _

theorem reads_nameOr {v : String} {words : List String}
    (h : v ∈ words ∨ v ∉ Peek.reservedWords) :
    (nameOr words).Reads (.word v default :: tokens) tokens (· = v) := by
  by_cases hv : v ∈ words
  · exact .peek_pos (List.contains_iff_mem.2 hv) (reads_anyWord v)
  · exact .peek_neg (by simpa [Peek.oneKeyword] using hv) (reads_name (h.resolve_left hv))

theorem reads_lifetime (v : String) :
    lifetime.Reads (TypeExpr.lifetimeTokens v ++ tokens) tokens := by
  refine reads_get.bind fun s hs => ?_
  refine reads_get.bind fun s' hs' => ?_
  obtain ⟨p, behind, hbehind, hs'⟩ := exists_mark hs'
  obtain ⟨q, behind', rfl, -⟩ := exists_word hs'
  have htest : Peek.lifetime s.tokens = true := test_eq _ hs
  rw [htest, hbehind]
  exact (reads_skip 2).bind fun _ _ => (reads_emit _).bind fun _ _ => .pure trivial

theorem reads_literal (text : String) :
    literal.Reads (.literal text default :: tokens) tokens (· = text) := by
  refine reads_get.bind fun s hs => ?_
  refine reads_get.bind fun s' hs' => ?_
  obtain ⟨p, behind, hbehind, -⟩ := exists_literal hs'
  have htest : Peek.literal s.tokens = true := test_eq _ hs
  rw [htest, hbehind]
  exact (reads_skip 1).bind fun _ _ => (reads_emit _).bind fun _ _ => .pure rfl

theorem reads_groupThen {d : Delimiter} {content : List Token} {p : Parser α} {Q : α → Prop}
    {next : α → Parser β} {R : β → Prop} (hp : p.Reads content [] Q)
    (hnext : ∀ a, Q a → (next a).Reads rest rest' R) :
    (groupThen d p next).Reads (.group d content default default :: rest) rest' R := by
  intro s hs
  obtain ⟨inner, opening, closing, behind, hbehind, hinner, hrest⟩ := exists_group hs
  obtain ⟨a, t, hrun, ha, ht, hleftover, hitems⟩ :=
    hp ⟨inner, closing, some d, s.leftover, .empty⟩ hinner
  obtain ⟨b, s', hrun', hb, hs', hleftover', hitems'⟩ := hnext a ha
    { s with
      tokens := behind
      leftover := t.leftover
      trace := s.trace.append ⟨[.group d t.trace.tokens opening closing], t.trace.items⟩ } hrest
  have hnone : t.tokens = [] := by
    rw [← List.length_eq_zero_iff, ← length_bareAll, ht]
    rfl
  refine ⟨b, s', ?_, hb, hs', hleftover'.trans hleftover, hitems'.trans ?_⟩
  · unfold groupThen leave
    simp only [StateT.run_bind, StateT.run_get, pure_bind, hbehind, if_true, StateT.run_set,
      StateT.run_monadLift, StateT.run_modify]
    rw [hrun]
    change (next a).run _ >>= _ = _
    rw [hrun']
    change Except.ok (b, { s' with leftover := s'.leftover <|> t.tokens.head?.map _ }) = _
    rw [hnone, List.head?_nil, Option.map_none]
    cases s' with
    | mk tokens groupEnd enclosing leftover trace => cases leftover <;> rfl
  · simp [Trace.append, hitems, Trace.empty]

theorem reads_group {d : Delimiter} {content : List Token} {p : Parser α} {Q : α → Prop}
    (h : p.Reads content [] Q) :
    (group d p).Reads (.group d content default default :: rest) rest Q :=
  reads_groupThen h fun _ ha => .pure ha

end Tokens

/-! ## Repetition -/

section Repetition

/-- The parser answers some number of times and then not any more. -/
def Repeats (p : Parser (Option α)) (k : Nat) (tokens rest : List Token) : Prop :=
  ∀ fuel, k < fuel → (repeatWithin p fuel).Reads tokens rest

variable {p : Parser (Option α)} {k : Nat}

theorem Repeats.stop (h : p.Reads tokens rest (· = none)) : Repeats p 0 tokens rest := by
  intro fuel hfuel
  obtain ⟨n, rfl⟩ := Nat.exists_eq_add_of_lt hfuel
  rw [Nat.zero_add, repeatWithin]
  exact h.andThen (.pure trivial)

theorem Repeats.step {m : List Token} (h : p.Reads tokens m (·.isSome))
    (hrest : Repeats p k m rest) : Repeats p (k + 1) tokens rest := by
  intro fuel hfuel
  obtain ⟨n, rfl⟩ : ∃ n, fuel = n + 1 := ⟨fuel - 1, by omega⟩
  rw [repeatWithin]
  refine h.bind fun o ho => ?_
  obtain ⟨a, rfl⟩ := Option.isSome_iff_exists.1 ho
  exact (hrest n (Nat.lt_of_succ_lt_succ hfuel)).bind fun _ _ => .pure trivial

/-- The parser reads pieces one by one, whatever stands behind each. -/
theorem Repeats.pieces {γ : Type} {piece : γ → List Token} {l : List γ}
    (hpiece : ∀ c later, c :: later <:+ l → p.Reads (piece c ++ (later.flatMap piece ++ rest))
      (later.flatMap piece ++ rest) (·.isSome))
    (hrest : Repeats p k rest rest') :
    Repeats p (l.length + k) (l.flatMap piece ++ rest) rest' := by
  induction l with
  | nil => simpa using hrest
  | cons c l ih =>
    have hlater := ih fun c' later h => hpiece c' later (h.trans (List.suffix_cons c l))
    rw [List.flatMap_cons, List.append_assoc, List.length_cons, Nat.succ_add]
    exact .step (hpiece c l List.suffix_rfl) hlater

theorem Repeats.many (h : Repeats p k tokens rest) (hcount : k ≤ tokens.length) :
    (many p).Reads tokens rest := by
  refine reads_get.bind fun s hs => ?_
  have hlength : tokens.length = s.tokens.length := by rw [← hs, length_bareAll]
  exact h _ (by omega)

theorem length_le_flatMap {γ : Type} (piece : γ → List Token) {l : List γ}
    (h : ∀ c ∈ l, piece c ≠ []) : l.length ≤ (l.flatMap piece).length := by
  induction l with
  | nil => exact Nat.le_refl _
  | cons c l ih =>
    obtain ⟨hc, hl⟩ := List.forall_mem_cons.1 h
    have hpos := List.length_pos_iff.2 hc
    have hlater := ih hl
    rw [List.flatMap_cons, List.length_append, List.length_cons]
    omega

/-- A repeated parser reads pieces one by one, whatever stands behind each. -/
theorem reads_many {γ : Type} (piece : γ → List Token) {l : List γ}
    (hpiece : ∀ c later, c :: later <:+ l → p.Reads (piece c ++ (later.flatMap piece ++ rest))
      (later.flatMap piece ++ rest) (·.isSome))
    (hne : ∀ c ∈ l, piece c ≠ []) (hstop : p.Reads rest rest' (· = none)) :
    (many p).Reads (l.flatMap piece ++ rest) rest' := by
  refine (Repeats.pieces hpiece (.stop hstop)).many ?_
  have hlength := length_le_flatMap piece hne
  rw [List.length_append]
  omega

theorem reads_manyNone (h : p.Reads tokens rest (· = none)) : (many p).Reads tokens rest :=
  (Repeats.stop h).many (Nat.zero_le _)

theorem reads_manyNil (h : p.Reads tokens rest (· = none)) :
    (many p).Reads tokens rest (· = []) :=
  reads_get.bind fun _ _ => h.andThen (.pure rfl)

section While

variable {test : Peek} [Blind test] {p : Parser α}

theorem reads_noneWhile (h : test tokens = false) : (manyWhile test p).Reads tokens tokens :=
  reads_manyNone (.peek_neg h (.pure rfl))

theorem reads_manyWhile {γ : Type} {piece : γ → List Token} {l : List γ}
    (hpiece : ∀ c later, c :: later <:+ l → test (piece c ++ (later.flatMap piece ++ rest)) = true ∧
      p.Reads (piece c ++ (later.flatMap piece ++ rest)) (later.flatMap piece ++ rest))
    (hne : ∀ c ∈ l, piece c ≠ []) (hstop : test rest = false) :
    (manyWhile test p).Reads (l.flatMap piece ++ rest) rest :=
  reads_many piece (fun c later h => .peek_pos (hpiece c later h).1 ((hpiece c later h).2.bind
    fun _ _ => .pure rfl)) hne (.peek_neg hstop (.pure rfl))

end While

/-- Elements are read one by one to the end of the group. -/
theorem reads_manyToEnd {γ : Type} (piece : γ → List Token) {l : List γ} {p : Parser α}
    (hpiece : ∀ c later, c :: later <:+ l →
      p.Reads (piece c ++ later.flatMap piece) (later.flatMap piece))
    (hne : ∀ c ∈ l, piece c ≠ []) : (manyToEnd p).Reads (l.flatMap piece) [] := by
  rw [← List.append_nil (l.flatMap piece)]
  refine reads_many piece (fun c later h => ?_) hne (.peek_pos rfl (.pure rfl))
  have hmem : c ∈ l := h.subset List.mem_cons_self
  have hatEnd : Peek.atEnd (piece c ++ (later.flatMap piece ++ [])) = false := by
    simp [Peek.atEnd, hne c hmem]
  refine .peek_neg hatEnd ?_
  rw [List.append_nil]
  exact (hpiece c later h).bind fun _ _ => .pure rfl

section Separated

variable (stop : Peek) [Blind stop] (separator : String) {p : Parser α}

/-- Elements with a separator behind each, and perhaps one more without, are read up to the place
where a test succeeds. -/
theorem reads_separatedUntil (elements : List (List Token)) (last : Option (List Token))
    (helement : ∀ e ∈ elements, ∀ behind,
      stop (e ++ (symbolTokens separator.toList ++ behind)) = false ∧
      stop (symbolTokens separator.toList ++ behind) = false ∧
      p.Reads (e ++ (symbolTokens separator.toList ++ behind))
        (symbolTokens separator.toList ++ behind))
    (hlast : ∀ e ∈ last, stop (e ++ rest) = false ∧ e ≠ [] ∧ p.Reads (e ++ rest) rest)
    (hmark : symbolTokens separator.toList ≠ []) (hrest : stop rest = true) :
    (separatedUntil stop separator p).Reads
      (elements.flatMap (· ++ symbolTokens separator.toList) ++ (last.getD [] ++ rest)) rest := by
  have hstop : (peek stop).Reads rest rest (· = true) :=
    (reads_peek stop).mono fun _ h => h.trans hrest
  refine Reads.bind (Q := fun _ => True) ?_ fun _ _ => .pure trivial
  refine (Repeats.pieces (k := last.toList.length) ?_ ?_).many ?_
  · intro e later hlater
    obtain ⟨hgoes, hends, hread⟩ := helement e (hlater.subset List.mem_cons_self) _
    rw [List.append_assoc]
    refine .peek_neg hgoes (hread.bind fun a _ => .peek_neg hends ?_)
    exact (reads_printedSymbol separator).bind fun _ _ => .pure rfl
  · cases last with
    | none => exact .stop (hstop.andThen (.pure rfl))
    | some e =>
      obtain ⟨hgoes, -, hread⟩ := hlast e rfl
      refine .step ?_ (.stop (hstop.andThen (.pure rfl)))
      exact .peek_neg hgoes (hread.bind fun a _ => hstop.andThen (.pure rfl))
  · have hlength := length_le_flatMap (l := elements) (· ++ symbolTokens separator.toList)
      fun e _ => List.append_ne_nil_of_right_ne_nil e hmark
    have hlast : last.toList.length ≤ (last.getD []).length := by
      cases last with
      | none => exact Nat.zero_le _
      | some e => exact List.length_pos_iff.2 (hlast e rfl).2.1
    simp only [List.length_append]
    omega

/-- Elements with a separator in front of all but the first one are read up to a place without a
separator, or up to a place behind one where a test succeeds. -/
theorem reads_chainUntil (first : List Token) (others : List (List Token)) (behind : List Token)
    (helement : ∀ e ∈ first :: others, ∀ later,
      (later = behind ∨ ∃ l, later = symbolTokens separator.toList ++ l) →
      stop (e ++ later) = false ∧ p.Reads (e ++ later) later)
    (hmark : symbolTokens separator.toList ≠ [])
    (hbehind : (Peek.symbol separator behind = false ∧ behind = rest) ∨
      (behind = symbolTokens separator.toList ++ rest ∧ stop rest = true)) :
    (chainUntil stop separator p).Reads
      (first ++ (others.flatMap (symbolTokens separator.toList ++ ·) ++ behind)) rest := by
  have hnext : ∀ l : List (List Token), ∃ later,
      l.flatMap (symbolTokens separator.toList ++ ·) ++ behind = later ∧
        (later = behind ∨ ∃ l, later = symbolTokens separator.toList ++ l) := by
    intro l
    refine ⟨_, rfl, ?_⟩
    cases l with
    | nil => exact .inl rfl
    | cons e l =>
      refine .inr ⟨e ++ (l.flatMap (symbolTokens separator.toList ++ ·) ++ behind), ?_⟩
      simp only [List.flatMap_cons, List.append_assoc]
  obtain ⟨later, hlater, hcases⟩ := hnext others
  obtain ⟨hgoes, hread⟩ := helement first List.mem_cons_self later hcases
  rw [hlater]
  refine .peek_neg hgoes (hread.bind fun a _ => ?_)
  refine Reads.bind (Q := fun _ => True) ?_ fun _ _ => .pure trivial
  rw [← hlater]
  refine reads_many _ ?_ (fun e _ => List.append_ne_nil_of_left_ne_nil hmark e) ?_
  · intro e l hsuffix
    have hmem : e ∈ first :: others :=
      List.mem_cons_of_mem _ (hsuffix.subset List.mem_cons_self)
    obtain ⟨later, hlater, hcases⟩ := hnext l
    obtain ⟨hgoes, hread⟩ := helement e hmem later hcases
    rw [hlater, List.append_assoc]
    refine (reads_printedOptional separator).andThen (.peek_neg hgoes ?_)
    exact hread.bind fun _ _ => .pure rfl
  · rcases hbehind with ⟨hno, rfl⟩ | ⟨rfl, hstop⟩
    · exact (reads_noSymbol hno).andThen (.pure rfl)
    · exact (reads_printedOptional separator).andThen (.peek_pos hstop (.pure rfl))

end Separated

end Repetition

end Parser

end ApiDecl.Syntax
