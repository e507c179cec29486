import ApiDecl.Proofs.CommaLists
import ApiDecl.Proofs.ParsingAttributes
import ApiDecl.Proofs.Spelling
import ApiDecl.Proofs.TextPlaces

/-!
# Proofs: where attributes start

An attribute that a parser reads starts where its number sign stands in the text, and if there is a
comment in that place, it is the attribute that the comment stands for. Attributes that are read one
after the other start one behind the other (`Parser.attributes_stand`).
-/

namespace ApiDecl

open Syntax
open Position (inText)
open Syntax.Lexeme (DocComment)

/-- The attribute that a comment stands for. -/
def Syntax.Lexeme.DocComment.attribute (c : DocComment) (p : Position) : Attribute :=
  ⟨⟨false, ["doc"]⟩, .value (some (String.ofList c.text)), p⟩

/-- The attribute starts at a character of the text, where it is either written out or a comment. -/
def AttributeAt (text : List Char) (i : Nat) (a : Attribute) : Prop :=
  a.position = inText text i ∧
    (text[i]? = some '#' ∨ ∃ c, CommentAt text i c ∧ a = c.attribute (inText text i))

namespace Syntax

/-- What a parser of the first tokens may come to: the tokens behind some of them, and those in a
group. -/
inductive Token.Leads : List Token → List Token → Prop where
  | here (tokens : List Token) : Leads tokens tokens
  | next {t : Token} {tokens rest : List Token} (h : Leads tokens rest) : Leads (t :: tokens) rest
  | inside {d : Delimiter} {content tokens rest : List Token} {opening closing : Position}
    (h : Leads content rest) : Leads (.group d content opening closing :: tokens) rest

/-- There is no number sign inside the tokens of a comment. -/
theorem Token.Leads.behind_doc {spelling : String} {joint : Bool} {p q : Position}
    {tokens behind : List Token} (h : Leads (.group .bracket [.word "doc" p, .mark '=' false p,
      .literal spelling p] p p :: tokens) (.mark '#' joint q :: behind)) :
    Leads tokens (.mark '#' joint q :: behind) := by
  cases h with
  | next h => exact h
  | inside h =>
    cases h with
    | next h =>
      cases h with
      | next h =>
        cases h with
        | next h => cases h

section Stands

variable {text : List Char} {m n : Nat} {c : Char} {joint : Bool} {p : Position}
  {tokens rest : List Token}

/-- A mark stands for itself, or it is the first token of a comment. -/
theorem Stands.of_mark (h : Stands text m n (.mark c joint p :: rest)) :
    ∃ i, m ≤ i ∧ p = inText text i ∧
      (text[i]? = some c ∧ Stands text (i + 1) n rest ∨
        ∃ comment later, CommentAt text i comment ∧
          .mark c joint p :: rest = Lexer.docTokens comment p ++ later ∧
          Stands text (i + comment.taken.length) n later) := by
  generalize htokens : Token.mark c joint p :: rest = tokens at h
  cases h with
  | nil => cases htokens
  | @comment _ i _ comment later hm hc h =>
    obtain ⟨-, -, rfl⟩ := Token.mark.inj (List.cons.inj htokens).1
    exact ⟨i, hm, rfl, .inr ⟨comment, later, hc, rfl, h⟩⟩
  | mark hm hc h =>
    cases htokens
    exact ⟨_, hm, rfl, .inl ⟨hc, h⟩⟩
  | word => cases htokens
  | literal => cases htokens
  | group => cases htokens

theorem Stands.of_group {d : Delimiter} {content : List Token} {opening closing : Position}
    (h : Stands text m n (.group d content opening closing :: rest)) :
    ∃ j, m ≤ j ∧ Stands text (j + 1) n rest := by
  generalize htokens : Token.group d content opening closing :: rest = tokens at h
  cases h with
  | nil => cases htokens
  | comment => cases (List.cons.inj htokens).1
  | mark => cases htokens
  | word => cases htokens
  | literal => cases htokens
  | @group _ i j _ _ _ _ hm hcontent h =>
    cases htokens
    have hj := hcontent.le
    exact ⟨j, by omega, h⟩

/-- What starts with a number sign stands in the text if it is a part of what does. -/
theorem Stands.of_leads (h : Stands text m n tokens) (hrest : Token.Leads tokens rest)
    (hmark : ∃ joint p behind, rest = .mark '#' joint p :: behind) :
    ∃ m n, Stands text m n rest := by
  obtain ⟨joint, p, behind, rfl⟩ := hmark
  induction h with
  | nil => cases hrest
  | @comment m i n c tokens hm hc h ih =>
    obtain ⟨inner, text, taken⟩ := c
    cases inner with
    | false =>
      cases hrest with
      | here => exact ⟨m, n, .comment hm hc h⟩
      | next hrest => exact ih hrest.behind_doc
    | true =>
      cases hrest with
      | here => exact ⟨m, n, .comment hm hc h⟩
      | next hrest =>
        cases hrest with
        | next hrest => exact ih hrest.behind_doc
  | @mark m i n c joint tokens hm hc h ih =>
    cases hrest with
    | here => exact ⟨m, n, .mark hm hc h⟩
    | next hrest => exact ih hrest
  | word hm _ ih | literal hm _ ih =>
    cases hrest with
    | next hrest => exact ih hrest
  | group hm _ _ hcontent ih =>
    cases hrest with
    | next hrest => exact ih hrest
    | inside hrest => exact hcontent hrest

end Stands

/-! ## Reading attributes -/

namespace Parser

variable {α : Type} {g : Grammar} {s s' : ParseState}

/-- A group is read with what is in it. -/
theorem group_eq_ok {d : Delimiter} {q : Parser α} {a : α}
    (h : (group d q).run s = .ok (a, s')) : ∃ content opening closing t,
      s.tokens = .group d content opening closing :: s'.tokens ∧
      q.run ⟨content, closing, some d, s.leftover, .empty⟩ = .ok (a, t) := by
  obtain ⟨_, m, hget, h⟩ := exists_of_run_bind h
  cases hget
  split at h
  · next e content opening closing rest htokens =>
    split at h
    · next hd =>
      subst hd
      obtain ⟨⟨b, t⟩, m, hinner, h⟩ := exists_of_run_bind h
      obtain ⟨r, hrun, hinner⟩ := exists_of_bind_ok hinner
      cases hinner
      cases h
      exact ⟨content, opening, closing, t, htokens, hrun⟩
    · exact absurd h fail_ne_ok
  · exact absurd h fail_ne_ok

/-- The content of the attribute that a comment stands for is read as its text. -/
theorem reads_docContent (c : DocComment) : (metaItem g).Reads
    [.word "doc" default, .mark '=' false default, .literal (StringLiteral.spell c.text) default] []
    (· = (⟨false, ["doc"]⟩, .value (some (String.ofList c.text)))) := by
  have hvalue : (attributeValue g).Reads
      [.literal (StringLiteral.spell c.text) default] [] (· = some (String.ofList c.text)) :=
    (reads_finalLiteral _).andThen (.pure (StringLiteral.value?_spell c.text))
  rw [metaItem_eq]
  refine (reads_metaPath (.inl (by decide)) rfl).andThen ?_
  refine .peek_neg rfl (.peek_pos rfl ?_)
  exact (reads_symbol rfl).bind fun _ _ => hvalue.andThen (.pure rfl)

theorem attributeBody_eq_ok {p : Position} {a : Attribute}
    (h : (attributeBody g p).run s = .ok (a, s')) : a.position = p ∧
      ∃ content opening closing t, s.tokens = .group .bracket content opening closing :: s'.tokens ∧
        (metaItem g).run ⟨content, closing, some .bracket, s.leftover, .empty⟩ =
          .ok ((a.path, a.content), t) := by
  obtain ⟨⟨path, value⟩, m, hgroup, h⟩ := exists_of_run_bind h
  cases h
  exact ⟨rfl, group_eq_ok hgroup⟩

/-- The group of a comment is read as the attribute that the comment stands for. -/
theorem attributeBody_doc {c : DocComment} {p q opening closing : Position} {a : Attribute}
    {rest : List Token} (h : (attributeBody g p).run s = .ok (a, s'))
    (hs : s.tokens = .group .bracket [.word "doc" q, .mark '=' false q,
      .literal (StringLiteral.spell c.text) q] opening closing :: rest) :
    a = c.attribute p ∧ s'.tokens = rest := by
  obtain ⟨hp, content, o, e, t, htokens, hrun⟩ := attributeBody_eq_ok h
  rw [hs] at htokens
  cases htokens
  obtain ⟨answer, t', hread, hanswer, -⟩ := @reads_docContent g c
    ⟨[.word "doc" q, .mark '=' false q, .literal _ q], closing, some .bracket, s.leftover, .empty⟩
    rfl
  rw [hrun] at hread
  cases hread
  obtain ⟨path, content, position⟩ := a
  cases hanswer
  cases hp
  exact ⟨rfl, rfl⟩

/-- An attribute with its number sign, and with the mark of an inner one. -/
def attributeStep (g : Grammar) (inner : Bool) : Parser Attribute := do
  let position ← here
  symbol "#"
  if inner then symbol "!"
  attributeBody g position

theorem outerAttributes_eq (g : Grammar) :
    outerAttributes g = manyWhile (Peek.symbol "#") (attributeStep g false) := rfl

theorem innerAttributes_eq (g : Grammar) : innerAttributes g =
    manyWhile (Peek.followedBy (Peek.symbol "#") (Peek.symbol "!")) (attributeStep g true) := rfl

theorem mark_of_symbol {c : Char} {w : String} {a : Unit} (hw : w.toList = [c])
    (h : (symbol w).run s = .ok (a, s')) : ∃ joint p, s.tokens = .mark c joint p :: s'.tokens := by
  obtain ⟨htest, hrest⟩ := symbol_eq_ok h
  rw [Peek.symbol, hw] at htest
  obtain ⟨joint, p, behind, hs⟩ := symbolChars_singleton.1 htest
  have hlength : w.length = 1 := by
    rw [← String.length_toList, hw]
    rfl
  rw [hlength, hs] at hrest
  exact ⟨joint, p, hrest ▸ hs⟩

/-- What stands behind the number sign of an attribute, and behind the exclamation mark if it is an
inner one. -/
inductive BehindMarks : Bool → List Token → List Token → Prop where
  | outer (rest : List Token) : BehindMarks false rest rest
  | inner (joint : Bool) (p : Position) (rest : List Token) :
    BehindMarks true (.mark '!' joint p :: rest) rest

/-- An attribute is read behind its marks. -/
theorem attributeStep_eq_ok {inner : Bool} {a : Attribute}
    (h : (attributeStep g inner).run s = .ok (a, s')) : ∃ joint p behind m,
      s.tokens = .mark '#' joint p :: behind ∧ BehindMarks inner behind m.tokens ∧
      (attributeBody g p).run m = .ok (a, s') := by
  obtain ⟨position, m, hhere, h⟩ := exists_of_run_bind h
  cases hhere
  obtain ⟨_, m, hmark, h⟩ := exists_of_run_bind h
  obtain ⟨joint, p, hs⟩ := mark_of_symbol (c := '#') rfl hmark
  have hposition : (s.tokens.head?.map Token.position).getD s.groupEnd = p := by
    rw [hs]
    rfl
  rw [hposition] at h
  cases inner with
  | false => exact ⟨joint, p, m.tokens, m, hs, .outer _, h⟩
  | true =>
    obtain ⟨_, m', hbang, h⟩ := exists_of_run_bind h
    obtain ⟨joint', q, hm⟩ := mark_of_symbol (c := '!') rfl hbang
    exact ⟨joint, p, m.tokens, m', hs, hm ▸ .inner joint' q _, h⟩

section Stands

variable {text : List Char} {m n : Nat} {d : Delimiter} {inner joint : Bool} {p : Position}
  {opening closing : Position} {behind content later after : List Token}

/-- Behind an attribute that is written out, the text goes on. -/
theorem BehindMarks.stands {i : Nat} (h : Stands text i n behind)
    (hmarks : BehindMarks inner behind (.group d content opening closing :: later)) :
    Stands text i n later := by
  cases hmarks with
  | outer =>
    obtain ⟨j, hj, hlater⟩ := h.of_group
    exact hlater.from_le (Nat.le_succ_of_le hj)
  | inner joint p =>
    obtain ⟨k, hk, rfl, ⟨-, hrest⟩ | ⟨c, rest, -, hdoc, -⟩⟩ := h.of_mark
    · obtain ⟨j, hj, hlater⟩ := hrest.of_group
      exact hlater.from_le (by omega)
    · cases (List.cons.inj hdoc).1

/-- The group of a comment stands behind its marks, if they are those that are expected. -/
theorem BehindMarks.doc {c : DocComment}
    (hmarks : BehindMarks inner behind (.group d content opening closing :: later))
    (hdoc : Token.mark '#' joint p :: behind = Lexer.docTokens c p ++ after) :
    .group d content opening closing :: later = .group .bracket [.word "doc" p, .mark '=' false p,
      .literal (StringLiteral.spell c.text) p] p p :: after := by
  obtain ⟨inner', text, taken⟩ := c
  have hbehind := (List.cons.inj hdoc).2
  cases hmarks with
  | outer =>
    cases inner' with
    | false => exact hbehind
    | true => cases (List.cons.inj hbehind).1
  | inner joint q =>
    cases inner' with
    | false => cases (List.cons.inj hbehind).1
    | true => exact (List.cons.inj hbehind).2

/-- An attribute that is read starts at a character of the text, and behind it the text goes on. -/
theorem attributeStep_stands {a : Attribute} (h : (attributeStep g inner).run s = .ok (a, s'))
    (hs : Stands text m n s.tokens) :
    ∃ i, m ≤ i ∧ AttributeAt text i a ∧ Stands text (i + 1) n s'.tokens := by
  obtain ⟨joint, p, behind, t, htokens, hmarks, hbody⟩ := attributeStep_eq_ok h
  obtain ⟨hposition, content, opening, closing, -, hgroup, -⟩ := attributeBody_eq_ok hbody
  rw [htokens] at hs
  rw [hgroup] at hmarks
  obtain ⟨i, hi, rfl, ⟨hsign, hrest⟩ | ⟨c, later, hc, hdoc, hrest⟩⟩ := hs.of_mark
  · exact ⟨i, hi, ⟨hposition, .inl hsign⟩, hmarks.stands hrest⟩
  · obtain ⟨ha, rfl⟩ := attributeBody_doc hbody (hgroup.trans (hmarks.doc hdoc))
    have hlength : 0 < c.taken.length := hc.elim fun _ h => h.2.length_pos
    exact ⟨i, hi, ⟨hposition, .inr ⟨c, hc, ha⟩⟩, hrest.from_le (by omega)⟩

end Stands

/-! ## Reading lists of attributes -/

section Lists

variable {text : List Char} {m n fuel : Nat} {test : Peek} {inner : Bool}
  {attributes : List Attribute}

/-- Reads an attribute if there is one. -/
def attribute? (g : Grammar) (test : Peek) (inner : Bool) : Parser (Option Attribute) := do
  if ← peek test then return some (← attributeStep g inner) else return none

theorem attribute?_eq_some {a : Attribute}
    (h : (attribute? g test inner).run s = .ok (some a, s')) :
    (attributeStep g inner).run s = .ok (a, s') := by
  rw [attribute?, run_peek_bind] at h
  split at h
  · obtain ⟨b, t, hstep, h⟩ := exists_of_run_bind h
    cases h
    exact hstep
  · cases h

theorem manyWhile_attributes (g : Grammar) (test : Peek) (inner : Bool) :
    manyWhile test (attributeStep g inner) = many (attribute? g test inner) := rfl

theorem many_eq_ok {q : Parser (Option α)} {answers : List α}
    (h : (many q).run s = .ok (answers, s')) :
    ∃ fuel, (repeatWithin q (fuel + 1)).run s = .ok (answers, s') := by
  obtain ⟨_, _, hget, h⟩ := exists_of_run_bind h
  cases hget
  exact ⟨s.tokens.length, h⟩

/-- Attributes that are read one after the other start one behind the other in the text. -/
theorem repeatWithin_stands (hs : Stands text m n s.tokens)
    (h : (repeatWithin (attribute? g test inner) fuel).run s = .ok (attributes, s')) :
    ∃ places, (∀ i ∈ places, m ≤ i) ∧ places.Pairwise (· < ·) ∧
      List.Forall₂ (AttributeAt text) places attributes := by
  induction fuel generalizing s m attributes with
  | zero =>
    cases h
    exact ⟨[], List.forall_mem_nil _, .nil, .nil⟩
  | succ fuel ih =>
    obtain ⟨answer, t, hanswer, h⟩ := exists_of_run_bind h
    cases answer with
    | none =>
      cases h
      exact ⟨[], List.forall_mem_nil _, .nil, .nil⟩
    | some a =>
      obtain ⟨rest, t', hrest, h⟩ := exists_of_run_bind h
      cases h
      obtain ⟨i, hi, ha, hbehind⟩ := attributeStep_stands (attribute?_eq_some hanswer) hs
      obtain ⟨places, hafter, hsorted, hplaces⟩ := ih hbehind hrest
      have hfrom : ∀ k ∈ places, m ≤ k := fun k hk => by
        have hik := hafter k hk
        omega
      exact ⟨i :: places, List.forall_mem_cons.2 ⟨hi, hfrom⟩,
        List.pairwise_cons.2 ⟨hafter, hsorted⟩, .cons ha hplaces⟩

/-- Where an attribute is read, there is a number sign. -/
theorem mark_of_attributes {a : Attribute}
    (h : (manyWhile test (attributeStep g inner)).run s = .ok (a :: attributes, s')) :
    ∃ joint p behind, s.tokens = .mark '#' joint p :: behind := by
  rw [manyWhile_attributes] at h
  obtain ⟨fuel, h⟩ := many_eq_ok h
  obtain ⟨answer, t, hanswer, h⟩ := exists_of_run_bind h
  cases answer with
  | none => cases h
  | some b =>
    obtain ⟨joint, p, behind, -, hs, -⟩ := attributeStep_eq_ok (attribute?_eq_some hanswer)
    exact ⟨joint, p, behind, hs⟩

/-- Attributes that are read among the tokens of a text start in it one behind the other. -/
theorem attributes_stand {tokens : List Token} (htokens : Stands text m n tokens)
    (hs : Token.Leads tokens s.tokens)
    (h : (manyWhile test (attributeStep g inner)).run s = .ok (attributes, s')) :
    ∃ places, places.Pairwise (· < ·) ∧ List.Forall₂ (AttributeAt text) places attributes := by
  cases attributes with
  | nil => exact ⟨[], .nil, .nil⟩
  | cons a attributes =>
    obtain ⟨m, n, hstands⟩ := htokens.of_leads hs (mark_of_attributes h)
    rw [manyWhile_attributes] at h
    obtain ⟨fuel, h⟩ := many_eq_ok h
    obtain ⟨places, -, hplaces⟩ := repeatWithin_stands hstands h
    exact ⟨places, hplaces⟩

end Lists

end Parser

end Syntax

end ApiDecl
