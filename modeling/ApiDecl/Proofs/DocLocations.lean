import ApiDecl.Doc.Line
import ApiDecl.Proofs.AttributePlaces
import ApiDecl.Proofs.Words

/-!
# Proofs: lines of documentation point at their text

The text of a comment stands behind a mark of three characters: its first line goes on where the
mark ends, and every other one starts at the left margin. So the lines of documentation are the
lines of the comments, and each points at its first visible character in the file
(`docLines_point_at_text`).
-/

namespace ApiDecl

open Syntax
open Position (inText)
open Text (length_splitWhere)
open Syntax.Lexeme (DocComment)

/-! ## Lines of a comment -/

/-- The line is a whole line of a text, which has something in front of it and behind it. -/
structure IsLineOf (whole front line back : List Char) : Prop where
  text_eq : whole = front ++ line ++ back
  single : '\n' ∉ line
  starts : front = [] ∨ ∃ before, front = before ++ ['\n']
  ends : back = [] ∨ ∃ behind, back = '\n' :: behind

/-- The line of documentation shows a line of the text that starts at a character: it is that line
without the blanks around it, and it points at the first character that is no blank. -/
structure DocLine.Shows (d : DocLine) (file : String) (text : List Char) (start : Nat)
    (line : List Char) : Prop where
  trimmed : Text.IsTrimmedTo (String.ofList line) d.text
  points : ∀ blanks c more, line = blanks ++ c :: more → Text.IsBlankText blanks →
    Text.isBlank c = false → text[start + blanks.length]? = some c ∧
      d.location = ⟨file, inText text (start + blanks.length)⟩

/-- The lines of documentation are the lines of the comment at this character, all of them and in
order. -/
structure ShowLines (lines : List DocLine) (file : String) (text : List Char) (i : Nat)
    (c : DocComment) : Prop where
  length : lines.length = c.text.count '\n' + 1
  shows : ∀ front line back, IsLineOf c.text front line back →
    ∃ d, lines[front.count '\n']? = some d ∧ d.Shows file text (i + 3 + front.length) line

section Lines

variable {whole front line back : List Char}

theorem splitWhere_line (hline : '\n' ∉ line)
    (hback : back = [] ∨ ∃ behind, back = '\n' :: behind) :
    (Text.splitWhere (· == '\n') (line ++ back))[0]? = some line := by
  have hpiece : Text.splitWhere (· == '\n') line = [line] :=
    Text.splitWhere_of_none fun c hc => beq_false_of_ne (ne_of_mem_of_not_mem hc hline)
  rcases hback with rfl | ⟨behind, rfl⟩
  · rw [List.append_nil, hpiece]
    rfl
  · rw [Text.splitWhere_append rfl, hpiece]
    rfl

/-- The number of a line is that of the line feeds in front of it. -/
theorem IsLineOf.getElem?_splitWhere (h : IsLineOf whole front line back) :
    (Text.splitWhere (· == '\n') whole)[front.count '\n']? = some line := by
  rw [h.text_eq]
  rcases h.starts with rfl | ⟨before, rfl⟩
  · exact splitWhere_line h.single h.ends
  · have hlength : (before ++ ['\n']).count '\n' =
        (Text.splitWhere (· == '\n') before).length := by
      rw [length_splitWhere, List.count_append]
      rfl
    rw [List.append_assoc, List.append_assoc, List.singleton_append, Text.splitWhere_append rfl,
      List.getElem?_append_right (Nat.le_of_eq hlength.symm), hlength, Nat.sub_self]
    exact splitWhere_line h.single h.ends

theorem takeWhile_isBlank {blanks more : List Char} {c : Char} (hblanks : Text.IsBlankText blanks)
    (hc : Text.isBlank c = false) : (blanks ++ c :: more).takeWhile Text.isBlank = blanks := by
  rw [List.takeWhile_append_of_pos hblanks, List.takeWhile_cons_of_neg (by simp [hc]),
    List.append_nil]

end Lines

/-- The text of a comment stands behind its mark. -/
theorem Syntax.Lexeme.DocComment.IsWritten.exists_mark {c : DocComment} {behind : List Char}
    (h : c.IsWritten behind) : ∃ mark closing, mark.length = docMarkWidth ∧ '\n' ∉ mark ∧
      c.taken = mark ++ c.text ++ closing := by
  cases h with
  | @line inner _ _ =>
    refine ⟨['/', '/', if inner then '!' else '/'], [], rfl, ?_, by simp⟩
    cases inner <;> decide
  | @block inner _ _ =>
    refine ⟨['/', '*', if inner then '!' else '*'], ['*', '/'], rfl, ?_, by simp⟩
    cases inner <;> decide

/-- The first line stands behind the mark, every other one at the left margin. -/
theorem advanceAll_line {mark front blanks : List Char} (hmark : mark.length = docMarkWidth)
    (hfeed : '\n' ∉ mark) (hblanks : '\n' ∉ blanks)
    (hstarts : front = [] ∨ ∃ before, front = before ++ ['\n']) (p : Position) :
    p.advanceAll (mark ++ front ++ blanks) = ⟨p.line + front.count '\n',
      if front.count '\n' = 0 then p.column + docMarkWidth + blanks.length
      else blanks.length + 1⟩ := by
  rcases hstarts with rfl | ⟨before, rfl⟩
  · have hno : '\n' ∉ mark ++ [] ++ blanks := by simp [hfeed, hblanks]
    rw [Position.advanceAll_of_notMem hno]
    simp [hmark, Nat.add_assoc]
  · have hcut : mark ++ (before ++ ['\n']) ++ blanks = (mark ++ before) ++ '\n' :: blanks := by simp
    have hcount : (mark ++ before).count '\n' = before.count '\n' := by
      rw [List.count_append, List.count_eq_zero.2 hfeed, Nat.zero_add]
    rw [hcut, Position.advanceAll_newline hblanks, hcount, List.count_append,
      List.count_singleton_self, if_neg (Nat.succ_ne_zero _), Nat.add_assoc, Nat.add_comm 1 blanks.length]

theorem getElem?_docLinesOf (file : String) (start : Position) {text front line back : List Char}
    (h : IsLineOf text front line back) :
    (docLinesOf file start (String.ofList text))[front.count '\n']? =
      some ⟨Text.trim (String.ofList line), ⟨file, ⟨start.line + front.count '\n',
        if front.count '\n' = 0
        then start.column + docMarkWidth + (line.takeWhile Text.isBlank).length
        else (line.takeWhile Text.isBlank).length + 1⟩⟩⟩ := by
  rw [docLinesOf, String.toList_ofList, List.getElem?_map, List.getElem?_zipIdx,
    h.getElem?_splitWhere, Nat.zero_add]
  rfl

theorem docLines_attribute (file : String) (c : DocComment) (p : Position) :
    docLines file [c.attribute p] = docLinesOf file p (String.ofList c.text) :=
  List.append_nil _

/-- The lines of the attribute that a comment stands for are those of the comment. -/
theorem showLines_comment (file : String) {text : List Char} {i : Nat} {c : DocComment}
    (hc : CommentAt text i c) :
    ShowLines (docLines file [c.attribute (inText text i)]) file text i c := by
  obtain ⟨behind, hbehind, hwritten⟩ := hc
  obtain ⟨mark, closing, hmark, hfeed, htaken⟩ := hwritten.exists_mark
  rw [docLines_attribute]
  refine ⟨by rw [docLinesOf, String.toList_ofList, List.length_map, List.length_zipIdx,
    length_splitWhere], fun front line back hline => ?_⟩
  refine ⟨_, getElem?_docLinesOf file _ hline, Text.trim_eq_iff.1 rfl, ?_⟩
  intro blanks x more heq hblanks hx
  -- the text up to the first visible character of the line
  have hfront : text.drop i =
      (mark ++ front ++ blanks) ++ x :: (more ++ back ++ closing ++ behind) := by
    rw [hbehind, htaken, hline.text_eq, heq]
    simp
  have hlength : i + 3 + front.length + blanks.length =
      i + (mark ++ front ++ blanks).length := by
    simp only [List.length_append, hmark, docMarkWidth]
    omega
  have hsingle : '\n' ∉ blanks := fun hmem => hline.single (heq ▸ List.mem_append_left _ hmem)
  rw [hlength]
  constructor
  · rw [← List.getElem?_drop, hfront, List.getElem?_append_right (Nat.le_refl _), Nat.sub_self]
    rfl
  · rw [Position.inText_add hfront, advanceAll_line hmark hfeed hsingle hline.starts, heq,
      takeWhile_isBlank hblanks hx]

/-- Where a parser reads attributes in a file, they start one behind the other, and each of them is
either written out or a comment that stands there. The documentation of comments consists of all
their lines, in order and without the blanks around them, and a line that is not blank points at its
first visible character in the file. -/
theorem docLines_point_at_text {content file : String} {tokens : List Token} {g : Grammar}
    {s s' : ParseState} {attributes : List Attribute} (htokens : tokenizeFile content = .ok tokens)
    (hs : Token.Leads tokens s.tokens)
    (hrun : (Parser.outerAttributes g).run s = .ok (attributes, s') ∨
      (Parser.innerAttributes g).run s = .ok (attributes, s')) :
    ∃ places : List Nat, places.Pairwise (· < ·) ∧
      docLines file attributes = attributes.flatMap (fun a => docLines file [a]) ∧
      List.Forall₂ (fun i a => a.position = inText (fileChars content) i ∧
        ((fileChars content)[i]? = some '#' ∨ ∃ c, CommentAt (fileChars content) i c ∧
          ShowLines (docLines file [a]) file (fileChars content) i c)) places attributes := by
  obtain ⟨test, inner, hrun⟩ : ∃ test inner,
      (Parser.manyWhile test (Parser.attributeStep g inner)).run s = .ok (attributes, s') := by
    rw [Parser.outerAttributes_eq, Parser.innerAttributes_eq] at hrun
    exact hrun.elim (fun h => ⟨_, false, h⟩) (fun h => ⟨_, true, h⟩)
  obtain ⟨n, hstands⟩ := stands_tokenizeFile htokens
  obtain ⟨places, hsorted, hplaces⟩ := Parser.attributes_stand hstands hs hrun
  refine ⟨places, hsorted, by simp [docLines], ?_⟩
  refine hplaces.imp fun i a ha => ⟨ha.1, ha.2.imp_right ?_⟩
  rintro ⟨c, hc, rfl⟩
  exact ⟨c, hc, showLines_comment file hc⟩

/-- Behind a tab, a block of documentation with a wide blank in it, and a line of it. -/
def boatText : String := "\t/** Boats.\n\u3000 @group /boats\n */\n///\tAll of them.\n"

/-- The comments of this text. -/
def boatComments : DocComment × DocComment :=
  (⟨false, " Boats.\n\u3000 @group /boats\n ".toList,
      "/** Boats.\n\u3000 @group /boats\n */".toList⟩,
    ⟨false, "\tAll of them.".toList, "///\tAll of them.".toList⟩)

/-- The tokens of this text. -/
def boatTokens : List Token :=
  Lexer.docTokens boatComments.1 ⟨1, 2⟩ ++ Lexer.docTokens boatComments.2 ⟨4, 1⟩

/-- The attributes that are read from it. -/
def boatAttributes : List Attribute :=
  [boatComments.1.attribute ⟨1, 2⟩, boatComments.2.attribute ⟨4, 1⟩]

theorem boats_point_at_text : tokenizeFile boatText = .ok boatTokens ∧
    docLines "boats.rs" boatAttributes = [⟨"Boats.", ⟨"boats.rs", ⟨1, 6⟩⟩⟩,
      ⟨"@group /boats", ⟨"boats.rs", ⟨2, 3⟩⟩⟩, ⟨"", ⟨"boats.rs", ⟨3, 2⟩⟩⟩,
      ⟨"All of them.", ⟨"boats.rs", ⟨4, 5⟩⟩⟩] ∧
    ∃ places, List.Forall₂ (fun i a => a.position = inText (fileChars boatText) i ∧
      ((fileChars boatText)[i]? = some '#' ∨ ∃ c, CommentAt (fileChars boatText) i c ∧
        ShowLines (docLines "boats.rs" [a]) "boats.rs" (fileChars boatText) i c))
      places boatAttributes := by
  have htokens : tokenizeFile boatText = .ok boatTokens := by
    -- the characters of the text are spelled out before it is read, for decoding them takes long
    have htext : boatText.toList = _ := String.toList_ofList
    rw [tokenizeFile, fileText, htext]
    rfl
  have hvalue : ∀ (c : DocComment) p, c.attribute p =
      ⟨⟨false, ["doc"]⟩, .value (StringLiteral.value? (StringLiteral.spell c.text)), p⟩ :=
    fun c p => by rw [StringLiteral.value?_spell]; rfl
  obtain ⟨s', hrun⟩ : ∃ s', (Parser.outerAttributes (Grammar.ofDepth 0)).run
      ⟨boatTokens, .start, none, none, .empty⟩ = .ok (boatAttributes, s') := by
    rw [boatAttributes, hvalue, hvalue]
    exact ⟨_, rfl⟩
  obtain ⟨places, -, -, hplaces⟩ :=
    @docLines_point_at_text boatText "boats.rs" _ _ _ _ _ htokens (.here boatTokens) (.inl hrun)
  exact ⟨htokens, by decide +kernel, places, hplaces⟩

end ApiDecl
