import ApiDecl.Proofs.Taking
import Mathlib.Data.Option.Basic

/-!
# Proofs: where tokens stand in their text

The lexer keeps count of lines and columns, so what it says of a token is where the token stands
(`Position.inText`): the tokens of a text stand in it one behind the other, groups around what is
between their delimiters, and the tokens of an attribute that a comment stands for are all where
that comment starts (`Stands`, `stands_tokenizeFile`).
-/

namespace ApiDecl

/-! ## Positions in a text -/

namespace Position

/-- The line and the column of the character with this number, the first one being zero. -/
def inText (text : List Char) (n : Nat) : Position := start.advanceAll (text.take n)

theorem advanceAll_cons (p : Position) (c : Char) (cs : List Char) :
    p.advanceAll (c :: cs) = (p.advance c).advanceAll cs := rfl

/-- Within a line, every character is one column. -/
theorem advanceAll_of_notMem {cs : List Char} (h : '\n' ∉ cs) (p : Position) :
    p.advanceAll cs = ⟨p.line, p.column + cs.length⟩ := by
  induction cs generalizing p with
  | nil => rfl
  | cons c cs ih =>
    rw [List.mem_cons, not_or] at h
    obtain ⟨hc, hcs⟩ := h
    rw [advanceAll_cons, ih hcs, advance, if_neg (Ne.symm hc), List.length_cons, Nat.add_assoc,
      Nat.add_comm 1]

theorem line_advanceAll (p : Position) (cs : List Char) :
    (p.advanceAll cs).line = p.line + cs.count '\n' := by
  induction cs generalizing p with
  | nil => rfl
  | cons c cs ih =>
    rw [advanceAll_cons, ih, advance, List.count_cons]
    by_cases hc : c = '\n'
    · rw [if_pos hc, if_pos (beq_iff_eq.2 hc), Nat.add_right_comm, Nat.add_assoc]
    · rw [if_neg hc, if_neg (mt beq_iff_eq.1 hc)]
      rfl

/-- Behind a line feed, the columns are counted anew. -/
theorem advanceAll_newline {line : List Char} (h : '\n' ∉ line) (p : Position) (front : List Char) :
    p.advanceAll (front ++ '\n' :: line) = ⟨p.line + front.count '\n' + 1, 1 + line.length⟩ := by
  rw [advanceAll_append, advanceAll_cons, advanceAll_of_notMem h, advance, if_pos rfl,
    line_advanceAll]

/-- Some characters further on. -/
theorem inText_add {text taken behind : List Char} {n : Nat} (h : text.drop n = taken ++ behind) :
    inText text (n + taken.length) = (inText text n).advanceAll taken := by
  rw [inText, List.take_add, advanceAll_append, h, List.take_left, inText]

end Position

open Position (inText)

/-! ## Comments in a text -/

namespace Syntax

/-- A line ends in front of these characters. -/
def Lexeme.AtLineEnd (behind : List Char) : Prop :=
  behind = [] ∨ ∃ later, behind = '\n' :: later ∨ behind = '\r' :: '\n' :: later

/-- The characters close so many open blocks and all blocks that are opened in them, the outermost
one at their end. -/
inductive Lexeme.Closes : Nat → List Char → Prop where
  | last : Closes 1 ['*', '/']
  | opening {depth : Nat} {cs : List Char} (h : Closes (depth + 1) cs) :
    Closes depth ('/' :: '*' :: cs)
  | closing {depth : Nat} {cs : List Char} (h : Closes (depth + 1) cs) :
    Closes (depth + 2) ('*' :: '/' :: cs)
  | other {depth : Nat} {c : Char} {cs : List Char} (hopening : c = '/' → cs.head? ≠ some '*')
    (hclosing : c = '*' → cs.head? ≠ some '/') (h : Closes depth cs) : Closes depth (c :: cs)

/-- The comment is written in one of the four forms, in front of these characters: its text stands
behind a mark of three characters, up to the end of the line or up to the end of the block. -/
inductive Lexeme.DocComment.IsWritten : DocComment → List Char → Prop where
  | line {inner : Bool} {text behind : List Char} (hmark : inner = false → text.head? ≠ some '/')
    (hline : '\n' ∉ text) (hend : AtLineEnd behind) :
    IsWritten ⟨inner, text, '/' :: '/' :: (if inner then '!' else '/') :: text⟩ behind
  | block {inner : Bool} {text behind : List Char}
    (hmark : inner = false → text ≠ [] ∧ text.head? ≠ some '*' ∧ text.head? ≠ some '/')
    (hblock : Closes 1 (text ++ ['*', '/'])) :
    IsWritten ⟨inner, text, '/' :: '*' :: (if inner then '!' else '*') :: (text ++ ['*', '/'])⟩
      behind

theorem Lexeme.DocComment.IsWritten.length_pos {c : DocComment} {behind : List Char}
    (h : c.IsWritten behind) : 0 < c.taken.length := by
  cases h <;> exact Nat.succ_pos _

open Lexeme

/-- The comment is written in the text, from the character with this number on. -/
def CommentAt (text : List Char) (n : Nat) (c : DocComment) : Prop :=
  ∃ behind, text.drop n = c.taken ++ behind ∧ c.IsWritten behind

theorem notMem_lineRest (cs : List Char) : '\n' ∉ (lineRest cs).1 := by
  induction cs with
  | nil => exact List.not_mem_nil
  | cons c cs ih =>
    rw [lineRest.eq_def]
    split
    · exact List.not_mem_nil
    · exact List.not_mem_nil
    · exact List.not_mem_nil
    · next hfeed _ heq =>
      cases heq
      rw [List.mem_cons, not_or]
      exact ⟨fun hc => hfeed hc.symm, ih⟩

theorem atLineEnd_lineRest (cs : List Char) : AtLineEnd (lineRest cs).2 := by
  induction cs with
  | nil => exact .inl rfl
  | cons c cs ih =>
    rw [lineRest.eq_def]
    split
    · exact .inl rfl
    · exact .inr ⟨_, .inl rfl⟩
    · exact .inr ⟨_, .inr rfl⟩
    · next heq =>
      cases heq
      exact ih

/-- What is taken of a block up to its end closes it. -/
theorem closes_blockRest {depth : Nat} {cs taken rest : List Char}
    (h : blockRest depth cs = some (taken, rest)) : Closes depth taken := by
  fun_induction blockRest depth cs generalizing taken with
  | case1 depth rest ih =>
    obtain ⟨⟨inner, left⟩, hinner, h⟩ := Option.map_eq_some_iff.1 h
    cases h
    exact .opening (ih hinner)
  | case2 => cases h
  | case3 =>
    cases h
    exact .last
  | case4 rest depth ih =>
    obtain ⟨⟨inner, left⟩, hinner, h⟩ := Option.map_eq_some_iff.1 h
    cases h
    exact .closing (ih hinner)
  | case5 depth c rest hopening hclosing ih =>
    obtain ⟨⟨inner, left⟩, hinner, h⟩ := Option.map_eq_some_iff.1 h
    cases h
    have hrest := splits_blockRest depth rest _ _ hinner
    refine .other (fun hc hhead => ?_) (fun hc hhead => ?_) (ih hinner)
    · obtain ⟨more, rfl⟩ := List.head?_eq_some_iff.1 hhead
      exact hopening _ hc hrest
    · obtain ⟨more, rfl⟩ := List.head?_eq_some_iff.1 hhead
      exact hclosing _ hc hrest
  | case6 => cases h

/-- A block ends with its closing marks. -/
theorem Lexeme.Closes.ends {depth : Nat} {cs : List Char} (h : Closes depth cs) :
    ∃ text, cs = text ++ ['*', '/'] := by
  induction h with
  | last => exact ⟨[], rfl⟩
  | opening _ ih =>
    obtain ⟨text, rfl⟩ := ih
    exact ⟨'/' :: '*' :: text, rfl⟩
  | closing _ ih =>
    obtain ⟨text, rfl⟩ := ih
    exact ⟨'*' :: '/' :: text, rfl⟩
  | @other _ c _ _ _ _ ih =>
    obtain ⟨text, rfl⟩ := ih
    exact ⟨c :: text, rfl⟩

theorem startsWith_iff {word : String} {cs : List Char} :
    startsWith word cs = true ↔ ∃ more, cs = word.toList ++ more := by
  rw [startsWith, List.isPrefixOf_iff_prefix]
  exact ⟨fun ⟨more, h⟩ => ⟨more, h.symm⟩, fun ⟨more, h⟩ => ⟨more, h.symm⟩⟩

/-- A line that is documentation starts with one of two marks, and so does a block. The mark that is
made of the signs of plain comments is not continued by them. -/
theorem startsDoc_cases {cs : List Char} (h : startsDoc cs = true) : ∃ inner more,
    (startsWith "//!" cs || startsWith "/*!" cs) = inner ∧
    (cs = '/' :: '/' :: (if inner then '!' else '/') :: more ∧
        (inner = false → more.head? ≠ some '/') ∨
      cs = '/' :: '*' :: (if inner then '!' else '*') :: more ∧
        (inner = false → more.head? ≠ some '*' ∧ more.head? ≠ some '/')) := by
  simp only [startsDoc, Bool.or_eq_true, Bool.and_eq_true, Bool.not_eq_true'] at h
  rcases h with ((⟨h, hslash⟩ | h) | h) | ⟨⟨h, hstar⟩, hclose⟩
  · obtain ⟨more, rfl⟩ := startsWith_iff.1 h
    refine ⟨false, more, rfl, .inl ⟨rfl, fun _ hmore => ?_⟩⟩
    obtain ⟨behind, rfl⟩ := List.head?_eq_some_iff.1 hmore
    cases hslash
  · obtain ⟨more, rfl⟩ := startsWith_iff.1 h
    exact ⟨true, more, rfl, .inl ⟨rfl, nofun⟩⟩
  · obtain ⟨more, rfl⟩ := startsWith_iff.1 h
    exact ⟨true, more, rfl, .inr ⟨rfl, nofun⟩⟩
  · obtain ⟨more, rfl⟩ := startsWith_iff.1 h
    refine ⟨false, more, rfl, .inr ⟨rfl, fun _ => ⟨fun hmore => ?_, fun hmore => ?_⟩⟩⟩
    · obtain ⟨behind, rfl⟩ := List.head?_eq_some_iff.1 hmore
      cases hstar
    · obtain ⟨behind, rfl⟩ := List.head?_eq_some_iff.1 hmore
      cases hclose

theorem blockRest_star {depth : Nat} {cs : List Char} (h : cs.head? ≠ some '/') :
    blockRest depth ('*' :: cs) = after '*' (blockRest depth cs) := by
  rw [blockRest.eq_def]
  split
  · next heq => cases heq
  · next heq =>
    cases heq
    exact absurd rfl h
  · next heq =>
    cases heq
    rfl
  · next heq => cases heq

/-- A block that is documentation is its mark and what closes it behind the mark. -/
theorem blockComment_eq {inner : Bool} {more taken rest : List Char}
    (hclose : inner = false → more.head? ≠ some '/')
    (h : blockComment ('/' :: '*' :: (if inner then '!' else '*') :: more) = some (taken, rest)) :
    ∃ closed, taken = '/' :: '*' :: (if inner then '!' else '*') :: closed ∧ Closes 1 closed := by
  have hmark : blockRest 1 ((if inner then '!' else '*') :: more) =
      after (if inner then '!' else '*') (blockRest 1 more) := by
    cases inner with
    | false => exact blockRest_star (hclose rfl)
    | true => rfl
  have hrest : (blockRest 1 ((if inner then '!' else '*') :: more)).map
      (fun piece => ('/' :: '*' :: piece.1, piece.2)) = some (taken, rest) := h
  rw [hmark] at hrest
  obtain ⟨⟨_, left⟩, hafter, heq⟩ := Option.map_eq_some_iff.1 hrest
  cases heq
  obtain ⟨⟨closed, left⟩, hmore, heq⟩ := Option.map_eq_some_iff.1 hafter
  cases heq
  exact ⟨closed, rfl, closes_blockRest hmore⟩

/-- What a text does not start with, no part at its front starts with. -/
theorem head?_ne_of_append {front later : List Char} {c : Char}
    (h : (front ++ later).head? ≠ some c) : front.head? ≠ some c := fun hfront =>
  h (by rw [List.head?_append, hfront, Option.some_or])

/-- What the lexer takes for documentation is written as such. -/
theorem docComment_eq {cs left : List Char} {c : DocComment} (h : docComment cs = some (c, left)) :
    cs = c.taken ++ left ∧ c.IsWritten left := by
  obtain ⟨⟨⟩, hdoc, h⟩ := Option.bind_eq_some_iff.1 h
  obtain ⟨inner, more, hinner, hcs⟩ := startsDoc_cases ((Option.guard_eq_some' ()).1 hdoc)
  rw [hinner] at h
  rcases hcs with ⟨hcs, hmore⟩ | ⟨hcs, hmore⟩
  · have hblock : startsWith "/*" cs = false := by
      rw [hcs]
      cases inner <;> rfl
    have htaken : lineRest cs = ('/' :: '/' :: (if inner then '!' else '/') :: (lineRest more).1,
        (lineRest more).2) := by
      rw [hcs]
      cases inner <;> rfl
    rw [hblock] at h
    obtain ⟨⟨⟩, -, h⟩ := Option.bind_eq_some_iff.1 (show Option.bind _ _ = some _ from h)
    cases h
    refine ⟨lineRest_eq cs, ?_⟩
    rw [htaken]
    rw [lineRest_eq more] at hmore
    exact .line (fun hi => head?_ne_of_append (hmore hi)) (notMem_lineRest more)
      (atLineEnd_lineRest more)
  · have hblock : startsWith "/*" cs = true := by
      rw [hcs]
      cases inner <;> rfl
    rw [hblock] at h
    obtain ⟨⟨taken, rest⟩, htaken, h⟩ :=
      Option.bind_eq_some_iff.1 (show Option.bind _ _ = some _ from h)
    obtain ⟨⟨⟩, -, h⟩ := Option.bind_eq_some_iff.1 (show Option.bind _ _ = some _ from h)
    cases h
    have hsplit := splits_blockComment cs _ _ htaken
    refine ⟨hsplit, ?_⟩
    rw [hcs] at htaken
    obtain ⟨closed, rfl, hclosed⟩ := blockComment_eq (fun hi => (hmore hi).2) htaken
    obtain ⟨text, rfl⟩ := hclosed.ends
    have htext : ∀ a b c : Char, ((a :: b :: c :: (text ++ ['*', '/'])).drop 3).take
        ((a :: b :: c :: (text ++ ['*', '/'])).length - 5) = text := by simp
    obtain rfl : more = text ++ ['*', '/'] ++ left := by simpa using hcs.symm.trans hsplit
    rw [if_pos rfl, htext]
    refine .block (fun hi => ?_) hclosed
    obtain ⟨hstar, hslash⟩ := hmore hi
    rw [List.append_assoc] at hstar hslash
    refine ⟨?_, head?_ne_of_append hstar, head?_ne_of_append hslash⟩
    rintro rfl
    exact hstar rfl

/-! ## Tokens in a text -/

/-- The tokens stand in the text one behind the other, from a character up to another one, and so do
those in a group between its delimiters. The tokens of the attribute that a comment stands for are
all where it starts. -/
inductive Stands (text : List Char) : Nat → Nat → List Token → Prop where
  | nil {m n : Nat} (hm : m ≤ n) : Stands text m n []
  | comment {m i n : Nat} {c : DocComment} {tokens : List Token} (hm : m ≤ i)
    (hc : CommentAt text i c) (h : Stands text (i + c.taken.length) n tokens) :
    Stands text m n (Lexer.docTokens c (inText text i) ++ tokens)
  | mark {m i n : Nat} {c : Char} {joint : Bool} {tokens : List Token} (hm : m ≤ i)
    (hc : text[i]? = some c) (h : Stands text (i + 1) n tokens) :
    Stands text m n (.mark c joint (inText text i) :: tokens)
  | word {m i n : Nat} {w : String} {tokens : List Token} (hm : m ≤ i)
    (h : Stands text i n tokens) : Stands text m n (.word w (inText text i) :: tokens)
  | literal {m i n : Nat} {w : String} {tokens : List Token} (hm : m ≤ i)
    (h : Stands text i n tokens) : Stands text m n (.literal w (inText text i) :: tokens)
  | group {m i j n : Nat} {d : Delimiter} {content tokens : List Token} (hm : m ≤ i)
    (hcontent : Stands text (i + 1) j content) (h : Stands text (j + 1) n tokens) :
    Stands text m n (.group d content (inText text i) (inText text j) :: tokens)

section Stands

variable {text : List Char} {m k n : Nat} {tokens later : List Token}

theorem Stands.le (h : Stands text m n tokens) : m ≤ n := by
  induction h with
  | nil hm => exact hm
  | comment hm _ _ ih => omega
  | mark hm _ _ ih => omega
  | word hm _ ih | literal hm _ ih => exact Nat.le_trans hm ih
  | group hm _ _ hcontent ih => omega

theorem Stands.from_le (h : Stands text k n tokens) (hm : m ≤ k) : Stands text m n tokens := by
  cases h with
  | nil hk => exact .nil (Nat.le_trans hm hk)
  | comment hk hc h => exact .comment (Nat.le_trans hm hk) hc h
  | mark hk hc h => exact .mark (Nat.le_trans hm hk) hc h
  | word hk h => exact .word (Nat.le_trans hm hk) h
  | literal hk h => exact .literal (Nat.le_trans hm hk) h
  | group hk hcontent h => exact .group (Nat.le_trans hm hk) hcontent h

theorem Stands.append (h : Stands text m k tokens) (h' : Stands text k n later) :
    Stands text m n (tokens ++ later) := by
  induction h with
  | nil hm => exact h'.from_le hm
  | comment hm hc _ ih =>
    rw [List.append_assoc]
    exact .comment hm hc (ih h')
  | mark hm hc _ ih => exact .mark hm hc (ih h')
  | word hm _ ih => exact .word hm (ih h')
  | literal hm _ ih => exact .literal hm (ih h')
  | group hm hcontent _ _ ih => exact .group hm hcontent (ih h')

/-! ## Reading on -/

namespace Lexer

/-- What has been read within open groups stands in the text, up to a character. -/
def StandsBehind (text : List Char) : Nat → List OpenGroup → List Token → Prop
  | n, [], done => Stands text 0 n done.reverse
  | n, g :: outer, done => ∃ i < n, g.opening = inText text i ∧
      Stands text (i + 1) n done.reverse ∧ StandsBehind text i outer g.before

theorem StandsBehind.append {opened : List OpenGroup} {done : List Token}
    (h : StandsBehind text k opened done) (hnew : Stands text k n tokens) :
    StandsBehind text n opened (tokens.reverse ++ done) := by
  have hdone : ∀ {m}, Stands text m k done.reverse →
      Stands text m n (tokens.reverse ++ done).reverse := fun h => by
    rw [List.reverse_append, List.reverse_reverse]
    exact h.append hnew
  cases opened with
  | nil => exact hdone h
  | cons g outer =>
    obtain ⟨i, hi, hopening, hbefore, houter⟩ := h
    exact ⟨i, Nat.lt_of_lt_of_le hi hnew.le, hopening, hdone hbefore, houter⟩

theorem StandsBehind.push {opened : List OpenGroup} {done : List Token} {t : Token}
    (h : StandsBehind text k opened done) (ht : Stands text k n [t]) :
    StandsBehind text n opened (t :: done) := h.append ht

theorem standsBehind_nil (n : Nat) : StandsBehind text n [] [] := .nil (Nat.zero_le n)

/-- A literal, a mark or a word stands where it is read. -/
theorem stands_leaf {cs taken left : List Char} {token : Token} (hcs : text.drop n = cs)
    (h : leaf (inText text n) cs = some (token, taken, left)) :
    cs = taken ++ left ∧ Stands text n (n + taken.length) [token] := by
  unfold leaf at h
  split at h
  · next hliteral =>
    cases h
    exact ⟨splits_literal cs _ _ hliteral, .literal (Nat.le_refl _) (.nil (Nat.le_add_right _ _))⟩
  · split at h
    · next c joint rest hmark =>
      cases h
      have hfront : cs = c :: left := mark_eq hmark
      refine ⟨hfront, .mark (Nat.le_refl _) ?_ (.nil (Nat.le_refl _))⟩
      rw [← Nat.add_zero n, ← List.getElem?_drop, hcs, hfront]
      rfl
    · obtain ⟨⟨word, rest⟩, hword, h⟩ := Option.map_eq_some_iff.1 h
      cases h
      exact ⟨splits_word cs _ _ hword, .word (Nat.le_refl _) (.nil (Nat.le_add_right _ _))⟩

/-- Reading on behind what stands in the text gives tokens that stand in the text. -/
theorem stands_read {fuel : Nat} {opened : List OpenGroup} {done : List Token} {cs : List Char}
    (hcs : text.drop n = cs) (hopened : StandsBehind text n opened done)
    (h : read fuel (inText text n) opened done cs = .ok tokens) :
    ∃ k, Stands text 0 k tokens := by
  induction fuel generalizing n opened done cs with
  | zero => cases h
  | succ fuel ih =>
    -- a step that takes some characters goes on behind them
    have hgo : ∀ {taken left new}, cs = taken ++ left → Stands text n (n + taken.length) new →
        read fuel ((inText text n).advanceAll taken) opened (new.reverse ++ done) left =
          .ok tokens → ∃ k, Stands text 0 k tokens := by
      intro taken left new htaken hnew h
      rw [htaken] at hcs
      rw [← Position.inText_add hcs] at h
      refine ih ?_ (hopened.append hnew) h
      rw [← List.drop_drop, hcs, List.drop_left]
    rw [read.eq_def] at h
    dsimp only at h
    split at h
    · split at h
      · cases h
        exact ⟨n, hopened⟩
      · cases h
    · next c rest =>
      split at h
      · next hgap => exact hgo (splits_gap _ _ _ hgap) (.nil (Nat.le_add_right _ _)) h
      · split at h
        · next comment left hcomment =>
          obtain ⟨htaken, hwritten⟩ := docComment_eq hcomment
          have hnew : Stands text n (n + comment.taken.length)
              (docTokens comment (inText text n) ++ []) :=
            .comment (Nat.le_refl _) ⟨left, hcs.trans htaken, hwritten⟩ (.nil (Nat.le_refl _))
          rw [List.append_nil] at hnew
          exact hgo htaken hnew h
        · have hnext : inText text (n + 1) = (inText text n).advance c :=
            Position.inText_add (show text.drop n = [c] ++ rest from hcs)
          rw [← hnext] at h
          have hrest : text.drop (n + 1) = rest := by
            rw [← List.drop_drop, hcs]
            rfl
          split at h
          · refine ih hrest ?_ h
            exact ⟨n, Nat.lt_succ_self n, rfl, .nil (Nat.le_refl _), hopened⟩
          · split at h
            · cases h
            · split at h
              · obtain ⟨i, hi, hopening, hdone, houter⟩ := hopened
                rw [hopening] at h
                refine ih hrest (houter.push ?_) h
                exact .group (Nat.le_refl i) hdone (.nil (Nat.le_refl (n + 1)))
              · cases h
          · split at h
            · next hleaf =>
              obtain ⟨htaken, hnew⟩ := stands_leaf hcs hleaf
              exact hgo htaken hnew h
            · cases h

end Lexer

end Stands

/-! ## Files -/

/-- The characters of a file; a byte order mark in front is none of them. -/
def fileChars (content : String) : List Char :=
  match content.toList with
  | c :: rest => if c = byteOrderMark then rest else c :: rest
  | [] => []

theorem stands_tokenize {text : List Char} {tokens : List Token} (h : tokenize text = .ok tokens) :
    ∃ n, Stands text 0 n tokens := by
  unfold tokenize at h
  split at h
  · cases h
    exact ⟨0, .nil (Nat.le_refl 0)⟩
  · next c rest =>
    split at h
    · exact Lexer.stands_read rfl (Lexer.standsBehind_nil 1) h
    · exact Lexer.stands_read rfl (Lexer.standsBehind_nil 0) h

/-- A first line that names an interpreter is passed over up to its line feed. -/
theorem fileText_cases (content : String) : fileText content = fileChars content ∨
    fileText content = (fileChars content).dropWhile (· != '\n') := by
  generalize htext : fileText content = text
  unfold fileText at htext
  extract_lets cs at htext
  have hcs : cs = fileChars content := rfl
  clear_value cs
  subst hcs
  split at htext
  · split at htext
    · exact .inl htext.symm
    · exact .inr htext.symm
  · exact .inl htext.symm

theorem stands_dropLine {text : List Char} {tokens : List Token}
    (h : tokenize (text.dropWhile (· != '\n')) = .ok tokens) : ∃ n, Stands text 0 n tokens := by
  have hline : text.takeWhile (· != '\n') ++ text.dropWhile (· != '\n') = text :=
    List.takeWhile_append_dropWhile
  have hno : '\n' ∉ text.takeWhile (· != '\n') := fun hmem => by
    simpa using List.all_eq_true.1 List.all_takeWhile _ hmem
  have hhead := List.head?_dropWhile_not (· != '\n') text
  generalize text.takeWhile (· != '\n') = line at hline hno
  generalize text.dropWhile (· != '\n') = later at hline hhead h
  cases later with
  | nil =>
    cases h
    exact ⟨0, .nil (Nat.le_refl 0)⟩
  | cons c rest =>
    obtain rfl : c = '\n' := by simpa using hhead
    -- behind the line feed, lines and columns are those of the whole text
    have hplace : inText text (line.length + 1) = Position.start.advance '\n' := by
      have htake : text.take (line.length + 1) = line ++ '\n' :: [] := by
        rw [← hline, List.take_length_add_append]
        rfl
      have hfeed := Position.advanceAll_newline List.not_mem_nil Position.start line
      rw [List.count_eq_zero.2 hno] at hfeed
      rw [inText, htake, hfeed]
      rfl
    have hread : Lexer.read (rest.length + 1) (inText text (line.length + 1)) [] [] rest =
        .ok tokens := by
      rw [hplace]
      exact h
    refine Lexer.stands_read ?_ (Lexer.standsBehind_nil _) hread
    rw [← hline, List.drop_length_add_append]
    rfl

/-- The tokens of a file stand in it. -/
theorem stands_tokenizeFile {content : String} {tokens : List Token}
    (h : tokenizeFile content = .ok tokens) : ∃ n, Stands (fileChars content) 0 n tokens := by
  rw [tokenizeFile] at h
  rcases fileText_cases content with htext | htext
  · exact stands_tokenize (htext ▸ h)
  · exact stands_dropLine (htext ▸ h)

end Syntax

end ApiDecl
