import ApiDecl.Proofs.ParsingCalls
import ApiDecl.Proofs.Result
import Mathlib.Data.List.Forall2

/-!
# Proofs: lists between commas

The tokens of a list are pieces with commas between them, and perhaps one behind the last
(`CommaList`). A parser of such lists accepts nothing else if the parser of one element accepts only
pieces, and it reads a list of pieces if each of them is read.
-/

namespace ApiDecl.Syntax

open Token

variable {α β γ : Type}

/-- The tokens are pieces with commas between them, and perhaps one behind the last. -/
inductive CommaList (Piece : List Token → γ → Prop) : List Token → List γ → Prop where
  | nil : CommaList Piece [] []
  | last {tokens : List Token} {c : γ} (h : Piece tokens c) : CommaList Piece tokens [c]
  | cons {first behind : List Token} {c : γ} {cs : List γ} (glued : Bool) (position : Position)
    (h : Piece first c) (hrest : CommaList Piece behind cs) :
    CommaList Piece (first ++ .mark ',' glued position :: behind) (c :: cs)

theorem CommaList.of_nil {Piece : List Token → γ → Prop} {cs : List γ} (h : CommaList Piece [] cs)
    (hne : ∀ tokens c, Piece tokens c → tokens ≠ []) : cs = [] := by
  generalize htokens : [] = tokens at h
  cases h with
  | nil => rfl
  | last h => exact absurd htokens.symm (hne _ _ h)
  | cons glued position h hrest => exact absurd htokens.symm (List.append_ne_nil_of_right_ne_nil _
      (List.cons_ne_nil _ _))

namespace Parser

/-! ## What a parser accepts -/

theorem discard_eq_bind (p : Parser α) : discard p = p >>= fun _ => pure () := rfl

/-- If two steps succeed, the first one does, and the second one goes on from there. -/
theorem exists_of_run_bind {p : Parser α} {f : α → Parser β} {s s' : ParseState} {b : β}
    (h : (p >>= f).run s = .ok (b, s')) :
    ∃ a m, p.run s = .ok (a, m) ∧ (f a).run m = .ok (b, s') := by
  obtain ⟨⟨a, m⟩, ha, hb⟩ := exists_of_bind_ok h
  exact ⟨a, m, ha, hb⟩

section Accepting

variable {s s' : ParseState}

theorem peek_eq_ok {test : Peek} {b : Bool} (h : (peek test).run s = .ok (b, s')) :
    b = test s.tokens ∧ s' = s := by
  cases h
  exact ⟨rfl, rfl⟩

theorem run_peek_bind (test : Peek) (f : Bool → Parser α) (s : ParseState) :
    (peek test >>= f).run s = (f (test s.tokens)).run s := rfl

theorem failHere_ne_ok {message : String} {a : α} :
    (failHere message : Parser α).run s ≠ .ok (a, s') := nofun

theorem fail_ne_ok {message : String} {a : α} :
    (fail message : Parser α).run s ≠ .ok (a, s') := nofun

theorem symbolChars_singleton {c : Char} {tokens : List Token} :
    Peek.symbolChars [c] tokens = true ↔
      ∃ glued position behind, tokens = .mark c glued position :: behind := by
  constructor
  · intro h
    match tokens with
    | .mark d glued position :: behind =>
      obtain rfl : c = d := by simpa [Peek.symbolChars] using h
      exact ⟨glued, position, behind, rfl⟩
  · rintro ⟨glued, position, behind, rfl⟩
    exact beq_self_eq_true c

theorem symbol_eq_ok {w : String} {a : Unit} (h : (symbol w).run s = .ok (a, s')) :
    Peek.symbol w s.tokens = true ∧ s'.tokens = s.tokens.drop w.length := by
  obtain ⟨b, m, hb, h⟩ := exists_of_run_bind h
  obtain ⟨rfl, rfl⟩ := peek_eq_ok hb
  split at h
  · next htest =>
    cases h
    exact ⟨htest, rfl⟩
  · exact absurd h failHere_ne_ok

theorem optionalSymbol_eq_false {w : String} (h : (optionalSymbol w).run s = .ok (false, s')) :
    Peek.symbol w s.tokens = false ∧ s' = s := by
  obtain ⟨b, m, hb, h⟩ := exists_of_run_bind h
  obtain ⟨rfl, rfl⟩ := peek_eq_ok hb
  split at h
  · obtain ⟨_, m, -, h⟩ := exists_of_run_bind h
    cases h
  · next htest =>
    cases h
    exact ⟨by simpa using htest, rfl⟩

theorem optionalSymbol_eq_true {w : String} (h : (optionalSymbol w).run s = .ok (true, s')) :
    Peek.symbol w s.tokens = true ∧ s'.tokens = s.tokens.drop w.length := by
  obtain ⟨b, m, hb, h⟩ := exists_of_run_bind h
  obtain ⟨rfl, rfl⟩ := peek_eq_ok hb
  split at h
  · obtain ⟨_, m, hsymbol, h⟩ := exists_of_run_bind h
    cases h
    exact symbol_eq_ok hsymbol
  · cases h

theorem anyWord_eq_ok {v : String} (h : anyWord.run s = .ok (v, s')) :
    ∃ p, s.tokens = .word v p :: s'.tokens := by
  obtain ⟨t, m, ht, h⟩ := exists_of_run_bind h
  cases ht
  split at h
  · next w p rest htokens =>
    have hrest : rest = s.tokens.drop 1 := by rw [htokens, List.drop_one, List.tail_cons]
    cases h
    exact ⟨p, htokens.trans (congrArg _ hrest)⟩
  · exact absurd h fail_ne_ok

theorem literal_eq_ok {text v : String} {p : Position} {rest : List Token}
    (htokens : s.tokens = .literal text p :: rest) (h : literal.run s = .ok (v, s')) :
    s'.tokens = rest := by
  obtain ⟨t, m, ht, h⟩ := exists_of_run_bind h
  cases ht
  obtain ⟨t, m, ht, h⟩ := exists_of_run_bind h
  cases ht
  rw [htokens] at h
  cases h
  change s.tokens.drop 1 = rest
  rw [htokens, List.drop_one, List.tail_cons]

theorem stringLiteral_eq_ok {v : String} (h : stringLiteral.run s = .ok (v, s')) :
    ∃ text p, s.tokens = .literal text p :: s'.tokens ∧
      Peek.stringLiteral [.literal text p] = true ∧ v = (StringLiteral.value? text).getD "" := by
  obtain ⟨t, m, ht, h⟩ := exists_of_run_bind h
  cases ht
  split at h
  · next text p rest htokens =>
    split at h
    · next htext =>
      obtain ⟨_, m, hdiscard, h⟩ := exists_of_run_bind h
      rw [discard_eq_bind] at hdiscard
      obtain ⟨spelling, m, hliteral, hm⟩ := exists_of_run_bind hdiscard
      cases hm
      cases h
      have hrest := literal_eq_ok htokens hliteral
      exact ⟨text, p, htokens.trans (congrArg _ hrest.symm), htext, rfl⟩
    · exact absurd h fail_ne_ok
  · exact absurd h fail_ne_ok

theorem manyWhile_eq_nil {test : Peek} {p : Parser α}
    (h : (manyWhile test p).run s = .ok ([], s')) : s' = s := by
  obtain ⟨t, m, hget, hmany⟩ := exists_of_run_bind h
  cases hget
  obtain ⟨answer, m, hanswer, hmore⟩ := exists_of_run_bind hmany
  cases answer with
  | some a =>
    obtain ⟨rest, m', -, hcons⟩ := exists_of_run_bind hmore
    cases hcons
  | none =>
    cases hmore
    obtain ⟨b, m', hb, hnone⟩ := exists_of_run_bind hanswer
    obtain ⟨-, rfl⟩ := peek_eq_ok hb
    split at hnone
    · obtain ⟨a, m', -, hsome⟩ := exists_of_run_bind hnone
      cases hsome
    · cases hnone
      rfl

end Accepting

/-- The parser succeeds on nothing but pieces, whatever stands behind them. -/
def Accepts (p : Parser α) (Piece : List Token → γ → Prop) (Q : γ → α → Prop) : Prop :=
  ∀ s a s', p.run s = .ok (a, s') →
    ∃ tokens c, s.tokens = tokens ++ s'.tokens ∧ Piece tokens c ∧ Q c a

/-! ## Elements between commas -/

/-- Reads an element of a list, and the comma behind it. -/
def commaElement (p : Parser α) : Parser (Option (α × Bool)) := do
  if ← peek Peek.atEnd then return none
  let a ← p
  if ← peek Peek.atEnd then return some (a, false)
  symbol ","
  return some (a, true)

theorem commaSeparated_eq (p : Parser α) : commaSeparated p = (do
    let elements ← many (commaElement p)
    return (elements.map (·.1), (elements.getLast?.map (·.2)).getD false)) := rfl

section Elements

variable {p : Parser α} {Piece : List Token → γ → Prop} {Q : γ → α → Prop}

theorem commaElement_eq_none {s s' : ParseState} (h : (commaElement p).run s = .ok (none, s')) :
    s.tokens = [] ∧ s' = s := by
  obtain ⟨b, m, hb, h⟩ := exists_of_run_bind h
  obtain ⟨rfl, rfl⟩ := peek_eq_ok hb
  split at h
  · next hend =>
    cases h
    exact ⟨List.isEmpty_iff.1 hend, rfl⟩
  · -- after an element, the answer is not empty
    obtain ⟨a, m₁, -, h⟩ := exists_of_run_bind h
    obtain ⟨b, m₂, -, h⟩ := exists_of_run_bind h
    split at h
    · cases h
    · obtain ⟨_, m₃, -, h⟩ := exists_of_run_bind h
      cases h

/-- An element is a piece at the end, or a piece with a comma behind it. -/
theorem commaElement_eq_some (hp : p.Accepts Piece Q) {s s' : ParseState} {r : α × Bool}
    (h : (commaElement p).run s = .ok (some r, s')) :
    ∃ tokens c, Piece tokens c ∧ Q c r.1 ∧ (s.tokens = tokens ∧ s'.tokens = [] ∨
      ∃ glued position, s.tokens = tokens ++ .mark ',' glued position :: s'.tokens) := by
  obtain ⟨b, m, hb, h⟩ := exists_of_run_bind h
  obtain ⟨rfl, rfl⟩ := peek_eq_ok hb
  split at h
  · cases h
  · obtain ⟨a, m₁, ha, h⟩ := exists_of_run_bind h
    obtain ⟨tokens, c, htokens, hpiece, hQ⟩ := hp _ a m₁ ha
    obtain ⟨b, m₂, hb, h⟩ := exists_of_run_bind h
    obtain ⟨rfl, rfl⟩ := peek_eq_ok hb
    split at h
    · next hend =>
      have hend : m₂.tokens = [] := List.isEmpty_iff.1 hend
      cases h
      refine ⟨tokens, c, hpiece, hQ, .inl ⟨?_, hend⟩⟩
      rw [htokens, hend, List.append_nil]
    · obtain ⟨_, m₃, hcomma, h⟩ := exists_of_run_bind h
      obtain ⟨htest, hrest⟩ := symbol_eq_ok hcomma
      obtain ⟨glued, position, behind, hbehind⟩ := symbolChars_singleton.1 htest
      rw [hbehind] at htokens hrest
      cases h
      exact ⟨tokens, c, hpiece, hQ, .inr ⟨glued, position, hrest ▸ htokens⟩⟩

theorem repeatWithin_eq_ok (hp : p.Accepts Piece Q) (hne : ∀ tokens c, Piece tokens c → tokens ≠ [])
    {fuel : Nat} {s s' : ParseState} {l : List (α × Bool)}
    (h : (repeatWithin (commaElement p) fuel).run s = .ok (l, s')) (hend : s'.tokens = []) :
    ∃ cs, CommaList Piece s.tokens cs ∧ List.Forall₂ Q cs (l.map (·.1)) := by
  induction fuel generalizing s l with
  | zero =>
    cases h
    exact ⟨[], hend ▸ .nil, .nil⟩
  | succ fuel ih =>
    obtain ⟨r, m, hr, hmore⟩ := exists_of_run_bind h
    cases r with
    | none =>
      obtain ⟨hnone, -⟩ := commaElement_eq_none hr
      cases hmore
      exact ⟨[], hnone ▸ .nil, .nil⟩
    | some r =>
      obtain ⟨rest, m', hrest, hmore⟩ := exists_of_run_bind hmore
      cases hmore
      obtain ⟨cs, hcs, hQs⟩ := ih hrest
      obtain ⟨tokens, c, hpiece, hQ, ⟨htokens, hnone⟩ | ⟨glued, position, htokens⟩⟩ :=
        commaElement_eq_some hp hr
      · rw [hnone] at hcs
        obtain rfl := hcs.of_nil hne
        exact ⟨[c], htokens ▸ .last hpiece, .cons hQ hQs⟩
      · exact ⟨c :: cs, htokens ▸ .cons glued position hpiece hcs, .cons hQ hQs⟩

/-- What is accepted as a list is a list of pieces. -/
theorem Accepts.commaSeparated (hp : p.Accepts Piece Q)
    (hne : ∀ tokens c, Piece tokens c → tokens ≠ []) {tokens : List Token} {r : List α × Bool}
    {items : List Item} (h : runAll (commaSeparated p) tokens = .ok (r, items)) :
    ∃ cs, CommaList Piece tokens cs ∧ List.Forall₂ Q cs r.1 := by
  obtain ⟨⟨a, s'⟩, hrun, h⟩ := exists_of_bind_ok h
  rw [commaSeparated_eq] at hrun
  obtain ⟨l, m, hmany, hanswer⟩ := exists_of_run_bind hrun
  cases hanswer
  dsimp only at h
  split at h
  · cases h
  · cases h
  · next hend =>
    cases h
    obtain ⟨s, m', hs, hrepeat⟩ := exists_of_run_bind hmany
    cases hs
    exact repeatWithin_eq_ok hp hne hrepeat hend

end Elements

/-! ## What a parser reads -/

section Reading

variable {p : Parser α} {Piece : List Token → γ → Prop} {Q : γ → α → Prop} {tokens : List Token}
  {cs : List γ}

theorem reads_comma (glued : Bool) (behind : List Token) :
    (symbol ",").Reads (.mark ',' glued default :: behind) behind :=
  reads_symbol (symbolChars_singleton.2 ⟨glued, default, behind, rfl⟩)

theorem atEnd_append (hne : tokens ≠ []) (behind : List Token) :
    Peek.atEnd (bareAll tokens ++ behind) = false := by
  obtain ⟨t, rest, rfl⟩ := List.exists_cons_of_ne_nil hne
  rfl

theorem reads_lastElement {c : γ} (hne : tokens ≠ []) (hread : p.Reads (bareAll tokens) [] (Q c)) :
    (commaElement p).Reads (bareAll tokens) [] fun r => ∃ a, r = some (a, false) ∧ Q c a := by
  have hgoes := atEnd_append hne []
  rw [List.append_nil] at hgoes
  exact .peek_neg hgoes (hread.bind fun a ha => .peek_pos rfl (.pure ⟨a, rfl, ha⟩))

theorem reads_commaElement {c : γ} {glued : Bool} {behind : List Token} (hne : tokens ≠ [])
    (hread : p.Reads (bareAll tokens ++ .mark ',' glued default :: behind)
      (.mark ',' glued default :: behind) (Q c)) :
    (commaElement p).Reads (bareAll tokens ++ .mark ',' glued default :: behind) behind
      fun r => ∃ a, r = some (a, true) ∧ Q c a :=
  .peek_neg (atEnd_append hne _) (hread.bind fun a ha => .peek_neg rfl
    ((reads_comma glued behind).bind fun _ _ => .pure ⟨a, rfl, ha⟩))

theorem reads_noElement : (commaElement p).Reads [] [] (· = none) := .peek_pos rfl (.pure rfl)

theorem refuses_commaElement {behind : List Token} (hne : tokens ≠ [])
    (hrefuse : p.Refuses (bareAll tokens ++ behind)) :
    (commaElement p).Refuses (bareAll tokens ++ behind) := by
  refine (reads_peek Peek.atEnd).refuses fun b hb => ?_
  rw [atEnd_append hne] at hb
  subst hb
  exact hrefuse.bind

/-- At the end and before a comma, the parser reads the pieces of a kind and refuses the others. -/
structure Decides (p : Parser α) (Piece : List Token → γ → Prop) (Ok : γ → Prop)
    (Q : γ → α → Prop) : Prop where
  ne_nil : ∀ {tokens c}, Piece tokens c → tokens ≠ []
  reads : ∀ {tokens c rest}, Piece tokens c → Ok c → EndsExpression rest →
    p.Reads (bareAll tokens ++ rest) rest (Q c)
  refuses : ∀ {tokens c rest}, Piece tokens c → ¬ Ok c → EndsExpression rest →
    p.Refuses (bareAll tokens ++ rest)

variable {Ok : γ → Prop}

namespace Decides

theorem reads_elements (hp : p.Decides Piece Ok Q) (h : CommaList Piece tokens cs)
    (hok : ∀ c ∈ cs, Ok c) {fuel : Nat} (hfuel : tokens.length < fuel) :
    (repeatWithin (commaElement p) fuel).Reads (bareAll tokens) []
      fun l => List.Forall₂ Q cs (l.map (·.1)) := by
  induction h generalizing fuel with
  | nil =>
    obtain ⟨n, rfl⟩ := Nat.exists_eq_add_of_lt hfuel
    exact reads_noElement.andThen (.pure .nil)
  | @last tokens c hc =>
    have hread := hp.reads hc (hok c (List.mem_singleton_self c)) (.inl rfl)
    have hpos := List.length_pos_iff.2 (hp.ne_nil hc)
    obtain ⟨n, rfl⟩ : ∃ n, fuel = n + 2 := ⟨fuel - 2, by omega⟩
    rw [List.append_nil] at hread
    refine (reads_lastElement (hp.ne_nil hc) hread).bind fun r hr => ?_
    obtain ⟨a, rfl, ha⟩ := hr
    exact Reads.bind (reads_noElement.andThen (.pure rfl)) fun l hl => .pure (hl ▸ .cons ha .nil)
  | @cons first behind c cs glued position hc hrest ih =>
    obtain ⟨hc', hcs⟩ := List.forall_mem_cons.1 hok
    have hread := hp.reads hc hc' (.inr ⟨glued, bareAll behind, rfl⟩)
    rw [List.length_append, List.length_cons] at hfuel
    obtain ⟨n, rfl⟩ : ∃ n, fuel = n + 1 := ⟨fuel - 1, by omega⟩
    rw [bareAll_append]
    refine (reads_commaElement (hp.ne_nil hc) hread).bind fun r hr => ?_
    obtain ⟨a, rfl, ha⟩ := hr
    exact (ih hcs (by omega)).bind fun l hl => .pure (.cons ha hl)

theorem refuses_elements (hp : p.Decides Piece Ok Q) (h : CommaList Piece tokens cs)
    (hok : ¬ ∀ c ∈ cs, Ok c) {fuel : Nat} (hfuel : tokens.length < fuel) :
    (repeatWithin (commaElement p) fuel).Refuses (bareAll tokens) := by
  induction h generalizing fuel with
  | nil => exact absurd (List.forall_mem_nil _) hok
  | @last tokens c hc =>
    obtain ⟨n, rfl⟩ : ∃ n, fuel = n + 1 := ⟨fuel - 1, by omega⟩
    have hrefuse := hp.refuses hc (fun h => hok (List.forall_mem_singleton.2 h)) (.inl rfl)
    have helement := refuses_commaElement (hp.ne_nil hc) hrefuse
    rw [List.append_nil] at helement
    exact helement.bind
  | @cons first behind c cs glued position hc hrest ih =>
    rw [List.length_append, List.length_cons] at hfuel
    obtain ⟨n, rfl⟩ : ∃ n, fuel = n + 1 := ⟨fuel - 1, by omega⟩
    have hends : EndsExpression (.mark ',' glued default :: bareAll behind) :=
      .inr ⟨glued, bareAll behind, rfl⟩
    rw [bareAll_append]
    by_cases hc' : Ok c
    · -- this piece is read, so the one that is refused comes later
      have hcs : ¬ ∀ c ∈ cs, Ok c := fun hcs => hok (List.forall_mem_cons.2 ⟨hc', hcs⟩)
      refine (reads_commaElement (hp.ne_nil hc) (hp.reads hc hc' hends)).refuses fun r hr => ?_
      obtain ⟨a, rfl, -⟩ := hr
      exact (ih hcs (by omega)).bind
    · exact (refuses_commaElement (hp.ne_nil hc) (hp.refuses hc hc' hends)).bind

/-- A list of pieces is read if each of them is. -/
theorem reads_list (hp : p.Decides Piece Ok Q) (h : CommaList Piece tokens cs)
    (hok : ∀ c ∈ cs, Ok c) :
    (commaSeparated p).Reads (bareAll tokens) [] fun r => List.Forall₂ Q cs r.1 := by
  rw [commaSeparated_eq]
  refine Reads.bind ?_ fun l hl => .pure hl
  refine reads_get.bind fun s hs => hp.reads_elements h hok ?_
  rw [← length_bareAll, ← hs, length_bareAll]
  exact Nat.lt_succ_self _

/-- A list of pieces is refused if one of them is. -/
theorem refuses_list (hp : p.Decides Piece Ok Q) (h : CommaList Piece tokens cs)
    (hok : ¬ ∀ c ∈ cs, Ok c) : (commaSeparated p).Refuses (bareAll tokens) := by
  rw [commaSeparated_eq]
  refine Refuses.bind (reads_get.refuses fun s hs => hp.refuses_elements h hok ?_)
  rw [← length_bareAll, ← hs, length_bareAll]
  exact Nat.lt_succ_self _

end Decides

/-! ## Running a parser on all tokens -/

theorem runAll_of_reads {R : α → Prop} (h : p.Reads (bareAll tokens) [] R) :
    ∃ a, runAll p tokens = .ok (a, []) ∧ R a := by
  obtain ⟨a, s, hrun, ha, hs, hleftover, hitems⟩ := h ⟨tokens, .start, none, none, .empty⟩ rfl
  have hnone : s.tokens = [] := by
    rw [← List.length_eq_zero_iff, ← length_bareAll, hs]
    rfl
  refine ⟨a, ?_, ha⟩
  rw [runAll, hrun]
  simp only [bind, Except.bind, hleftover, hnone, hitems]
  rfl

theorem runAll_of_refuses (h : p.Refuses (bareAll tokens)) : ∃ e, runAll p tokens = .error e := by
  obtain ⟨e, hrun⟩ := h ⟨tokens, .start, none, none, .empty⟩ rfl
  refine ⟨e, ?_⟩
  rw [runAll, hrun]
  rfl

end Reading

end Parser

end ApiDecl.Syntax
