import ApiDecl.Proofs.Lexing

/-!
# Proofs: pieces of a text

A text that is put together from blanks, comments, words, marks, literals and groups is read as their
tokens, if no two words or literals touch (`Lexer.tokenizeFile_pieces`).
-/

namespace ApiDecl.Syntax.Lexer

open Lexeme StringLiteral Text
open Token (bareAll)

/-! ## Pieces of a text -/

/-- The character that opens a group. -/
def openingSign : Delimiter → Char
  | .paren => '('
  | .bracket => '['
  | .brace => '\x7b'

/-- The character that closes a group. -/
def closingSign : Delimiter → Char
  | .paren => ')'
  | .bracket => ']'
  | .brace => '\x7d'

/-- A piece of a source text. -/
inductive Piece where
  /-- A blank. -/
  | gap (c : Char)
  /-- A comment with its line feed. -/
  | comment (text : String)
  /-- A comment that is documentation, with its line feed. -/
  | doc (text : String)
  /-- A word. -/
  | word (text : String)
  /-- A mark. -/
  | mark (c : Char)
  /-- A lifetime. -/
  | lifetime (name : String)
  /-- A literal of characters that stand for themselves. -/
  | literal (value : String)
  /-- Pieces between delimiters. -/
  | group (d : Delimiter) (content : List Piece)

namespace Piece

/-- Whether a piece must not touch another such piece. -/
def isTight : Piece → Bool
  | word _ | lifetime _ | literal _ => true
  | gap _ | comment _ | doc _ | mark _ | group .. => false

/-- Whether a piece is a mark or starts with one. -/
def isMark : Piece → Bool
  | mark _ | lifetime _ => true
  | gap _ | comment _ | doc _ | word _ | literal _ | group .. => false

mutual

/-- The text of a piece. -/
def chars : Piece → List Char
  | gap c | mark c => [c]
  | comment s => '/' :: '/' :: (s.toList ++ ['\n'])
  | doc s => '/' :: '/' :: '/' :: (s.toList ++ ['\n'])
  | word s => s.toList
  | lifetime s => apostrophe :: s.toList
  | literal s => ("\"" ++ s ++ "\"").toList
  | group d content => openingSign d :: (charsAll content ++ [closingSign d])

/-- The text of pieces. -/
def charsAll : List Piece → List Char
  | [] => []
  | p :: rest => p.chars ++ charsAll rest

end

mutual

/-- The tokens of a piece; `joint` says whether a mark follows. -/
def tokens (joint : Bool) : Piece → List Token
  | gap _ | comment _ => []
  | doc s => bareAll (docTokens ⟨false, s.toList, []⟩ default)
  | word s => [.word s default]
  | mark c => [.mark c joint default]
  | lifetime s => [.mark apostrophe true default, .word s default]
  | literal s => [.literal ("\"" ++ s ++ "\"") default]
  | group d content => [.group d (tokensAll content) default default]

/-- The tokens of pieces. -/
def tokensAll : List Piece → List Token
  | [] => []
  | p :: rest => p.tokens (rest.head?.any isMark) ++ tokensAll rest

end

mutual

/-- The piece is well-formed. -/
def Fits : Piece → Prop
  | gap c => c ∈ [' ', '\n']
  | comment s => IsLine s ∧ ∀ c ∈ s.toList.head?, c ≠ '/' ∧ c ≠ '!'
  | doc s => IsLine s ∧ ∀ c ∈ s.toList.head?, c ≠ '/'
  | word s => IsWord s
  | mark c => c ∈ plainMarks
  | lifetime s => plainWord s.toList = some (s.toList, [])
  | literal s => ∀ c ∈ s.toList, StandsForItself c
  | group _ content => FitAll content

/-- The pieces are well-formed, and no two tight ones touch. -/
def FitAll : List Piece → Prop
  | [] => True
  | p :: rest => p.Fits ∧ (p.isTight = true → rest.head?.any isTight = false) ∧ FitAll rest

end

end Piece

section Pieces

open Piece

variable {later : List Char}

/-- Behind these pieces the text ends, or its group does. -/
def EndsGroup (later : List Char) : Prop := later = [] ∨ ∃ d cs, later = closingSign d :: cs

theorem EndsGroup.endsWord (h : EndsGroup later) : EndsWord later := by
  rcases h with rfl | ⟨d, cs, rfl⟩
  · exact fun c hc => by cases hc
  · rintro c ⟨⟩
    cases d <;> decide

theorem EndsGroup.not_startsMark (h : EndsGroup later) : startsMark later = false := by
  rcases h with rfl | ⟨d, cs, rfl⟩
  · rfl
  · cases d <;> rfl

/-- How the text of a piece starts. -/
inductive Begins : Piece → List Char → Prop where
  | gap {c : Char} {cs : List Char} (h : c ∈ [' ', '\n']) : Begins (.gap c) (c :: cs)
  | comment {s : String} {cs : List Char} : Begins (.comment s) ('/' :: '/' :: cs)
  | doc {s : String} {cs : List Char} : Begins (.doc s) ('/' :: '/' :: cs)
  | word {s : String} {c : Char} {cs : List Char} (h : isWordStart c = true) :
    Begins (.word s) (c :: cs)
  | mark {c : Char} {cs : List Char} (h : c ∈ plainMarks) : Begins (.mark c) (c :: cs)
  | lifetime {s : String} {cs : List Char} : Begins (.lifetime s) (apostrophe :: cs)
  | literal {s : String} {cs : List Char} : Begins (.literal s) ('"' :: cs)
  | group {d : Delimiter} {content : List Piece} {cs : List Char} :
    Begins (.group d content) (openingSign d :: cs)

theorem begins_of_fits {p : Piece} (h : p.Fits) (later : List Char) :
    Begins p (p.chars ++ later) := by
  cases p with
  | gap c => exact .gap h
  | comment s => exact .comment
  | doc s => exact .doc
  | word s =>
    obtain ⟨c, cs, hcs, hc⟩ : ∃ c cs, s.toList = c :: cs ∧ isWordStart c = true := by
      rcases plainWord_of_anyWord h with hplain | ⟨cs, hraw, -⟩
      · obtain ⟨c, cs, hcs, hc, -⟩ := plainWord_iff.1 hplain
        exact ⟨c, cs, hcs, hc⟩
      · exact ⟨_, _, hraw, by decide⟩
    rw [chars, hcs]
    exact .word hc
  | mark c => exact .mark h
  | lifetime s => exact .lifetime
  | literal s =>
    rw [chars, toList_quote]
    exact .literal
  | group d content => exact .group

theorem Begins.startsMark {p : Piece} {cs : List Char} (h : Begins p cs) :
    startsMark cs = p.isMark := by
  have hmarks : ∀ c ∈ plainMarks, c ∈ apostrophe :: markChars ∧ c ≠ '/' :=
    List.all_iff_forall_prop.1 (by decide)
  cases h with
  | gap h => rcases List.mem_pair.1 h with rfl | rfl <;> rfl
  | comment => rfl
  | doc => rfl
  | word h => exact startsMark_of_isWordStart h
  | mark h => exact startsMark_of_mem (hmarks _ h).1 (hmarks _ h).2
  | lifetime => rfl
  | literal => rfl
  | @group d => cases d <;> rfl

theorem Begins.endsWord {p : Piece} {cs : List Char} (h : Begins p cs) (hp : p.isTight = false) :
    EndsWord cs := by
  have hsigns : ∀ c ∈ ' ' :: '\n' :: '/' :: plainMarks, isWordTail c = false ∧ c ∉ literalSigns :=
    List.all_iff_forall_prop.1 (by decide)
  have hgroups : ∀ d, isWordTail (openingSign d) = false ∧ openingSign d ∉ literalSigns := by
    intro d
    cases d <;> decide
  cases h with
  | gap h =>
    rintro _ ⟨⟩
    exact hsigns _ (List.mem_append_left _ h)
  | comment | doc =>
    rintro _ ⟨⟩
    exact hsigns _ (by decide)
  | mark h =>
    rintro _ ⟨⟩
    exact hsigns _ (List.mem_append_right [' ', '\n', '/'] h)
  | group =>
    rintro _ ⟨⟩
    exact hgroups _
  | word | lifetime | literal => cases hp

/-- No piece is a comment between signs. -/
theorem Begins.not_comment {p : Piece} {cs : List Char} (h : Begins p cs) (rest : List Char) :
    cs ≠ '/' :: '*' :: rest := by
  intro heq
  cases h with
  | gap h | word h | mark h =>
    obtain rfl := (List.cons.inj heq).1
    exact absurd h (by decide)
  | @group d => cases d <;> cases heq
  | _ => cases heq

/-- What stands in front of the end of a group, or of another piece. -/
theorem begins_or_endsGroup {pieces : List Piece} (h : FitAll pieces) (later : List Char) :
    pieces = [] ∨ ∃ p rest, pieces = p :: rest ∧ Begins p (charsAll pieces ++ later) := by
  cases pieces with
  | nil => exact .inl rfl
  | cons p rest =>
    refine .inr ⟨p, rest, rfl, ?_⟩
    rw [charsAll, List.append_assoc]
    exact begins_of_fits h.1 _

variable {pieces : List Piece}

theorem startsMark_charsAll (h : FitAll pieces) (hlater : EndsGroup later) :
    startsMark (charsAll pieces ++ later) = pieces.head?.any isMark := by
  rcases begins_or_endsGroup h later with rfl | ⟨p, rest, rfl, hbegins⟩
  · exact hlater.not_startsMark
  · exact hbegins.startsMark

theorem endsWord_charsAll (h : FitAll pieces) (htight : pieces.head?.any isTight = false)
    (hlater : EndsGroup later) : EndsWord (charsAll pieces ++ later) := by
  rcases begins_or_endsGroup h later with rfl | ⟨p, rest, rfl, hbegins⟩
  · exact hlater.endsWord
  · exact hbegins.endsWord htight

theorem opening?_group (d : Delimiter) {content : List Piece} (h : FitAll content)
    (hlater : EndsGroup later) :
    opening? (openingSign d :: (charsAll content ++ later)) = some d := by
  have hfirst : Delimiter.ofOpening? (openingSign d) = some d := by
    cases d <;> rfl
  have hreadable : unreadable.isPrefixOf (openingSign d :: (charsAll content ++ later)) = false := by
    rw [← Bool.not_eq_true, List.isPrefixOf_iff_prefix]
    rintro ⟨behind, hbehind⟩
    have hcomment := (List.cons.inj hbehind).2
    rcases begins_or_endsGroup h later with rfl | ⟨p, rest, rfl, hbegins⟩
    · rcases hlater with rfl | ⟨d', cs, rfl⟩
      · cases hcomment
      · cases d' <;> cases hcomment
    · exact hbegins.not_comment _ hcomment.symm
  rw [opening?, hreadable, if_neg Bool.false_ne_true]
  exact hfirst

mutual

/-- A well-formed piece is read as its tokens. -/
theorem scans_piece : ∀ {p : Piece}, p.Fits → ∀ {later : List Char},
    (p.isTight = true → EndsWord later) →
    Scans (p.chars ++ later) later (p.tokens (startsMark later))
  | .gap c, h, later, _ => scans_blank h
  | .comment s, ⟨hline, hs⟩, later, _ => by
    rw [chars, List.cons_append, List.cons_append, List.append_assoc]
    exact scans_comment hline hs
  | .doc s, ⟨hline, hs⟩, later, _ => by
    rw [chars, List.cons_append, List.cons_append, List.cons_append, List.append_assoc]
    exact scans_doc hline hs
  | .word s, h, later, hends => scans_word h (hends rfl)
  | .mark c, h, later, _ => scans_mark h
  | .lifetime s, h, later, hends => scans_lifetime h (hends rfl)
  | .literal s, h, later, hends => scans_literal h (hends rfl)
  | .group d content, h, later, _ => by
    have hends : EndsGroup (closingSign d :: later) := .inr ⟨d, later, rfl⟩
    have hsigns : isGap (openingSign d) = false ∧ openingSign d ≠ '/' ∧
        Delimiter.ofClosing? (closingSign d) = some d ∧
        Delimiter.ofOpening? (closingSign d) = none ∧ isGap (closingSign d) = false ∧
        closingSign d ≠ '/' := by
      cases d <;> decide
    obtain ⟨hgap, hslash, hclosing, hopening, hgap', hslash'⟩ := hsigns
    rw [chars, List.cons_append, List.append_assoc]
    exact scans_group (opening?_group d h hends) hgap hslash hclosing (opening?_of_none hopening)
      hgap' hslash' (scans_pieces h hends)

/-- Well-formed pieces are read as their tokens. -/
theorem scans_pieces : ∀ {pieces : List Piece}, FitAll pieces → ∀ {later : List Char},
    EndsGroup later → Scans (charsAll pieces ++ later) later (tokensAll pieces)
  | [], _, later, _ => .refl later
  | p :: rest, ⟨hp, hapart, hrest⟩, later, hlater => by
    have hpiece := scans_piece hp fun htight => endsWord_charsAll hrest (hapart htight) hlater
    rw [startsMark_charsAll hrest hlater] at hpiece
    rw [charsAll, List.append_assoc]
    exact hpiece.trans (scans_pieces hrest hlater)

end

theorem Begins.head {p : Piece} {c : Char} {cs : List Char} (h : Begins p (c :: cs)) :
    c ≠ '#' ∧ c ≠ byteOrderMark := by
  cases h with
  | gap h | mark h =>
    refine ⟨?_, ?_⟩
    all_goals
      rintro rfl
      exact absurd h (by decide)
  | word h => exact ⟨ne_of_isWordStart h (by decide), ne_of_isWordStart h (by decide +kernel)⟩
  | @group d => cases d <;> decide
  | _ => decide

/-- A file of well-formed pieces is read as their tokens. -/
theorem tokenizeFile_pieces {content : String} (h : FitAll pieces)
    (hcontent : content.toList = charsAll pieces) :
    ∃ tokens, tokenizeFile content = .ok tokens ∧ bareAll tokens = tokensAll pieces := by
  have hhead : ∀ c cs, content.toList = c :: cs → c ≠ '#' ∧ c ≠ byteOrderMark := by
    intro c cs hcs
    rcases begins_or_endsGroup h [] with rfl | ⟨p, rest, rfl, hbegins⟩
    · rw [hcontent] at hcs
      cases hcs
    · rw [List.append_nil, ← hcontent, hcs] at hbegins
      exact hbegins.head
  have htext : fileText content = content.toList := by
    cases hcs : content.toList with
    | nil => simp [fileText, hcs]
    | cons c cs =>
      obtain ⟨hhash, hmark⟩ := hhead c cs hcs
      simp only [fileText, hcs, if_neg hmark]
      split
      · next heq => exact absurd (List.cons.inj heq).1 hhash
      · rfl
  have hstart : tokenize content.toList = read (content.toList.length + 1) .start [] []
      content.toList := by
    cases hcs : content.toList with
    | nil =>
      rw [read.eq_def]
      rfl
    | cons c cs => rw [tokenize, if_neg (hhead c cs hcs).2]
  have hscans := scans_pieces h (.inl rfl)
  rw [List.append_nil, ← hcontent] at hscans
  obtain ⟨n, p, new, hnew, hlength, hread⟩ := hscans .start [] []
  rw [tokenizeFile, htext, hstart]
  have hfuel : content.toList.length + 1 = n + (content.toList.length - n + 1) := by
    have hle : n ≤ content.toList.length := by simpa using hlength
    omega
  refine ⟨new, ?_, hnew⟩
  rw [hfuel, hread, read.eq_def]
  simp

end Pieces

end ApiDecl.Syntax.Lexer
