import ApiDecl.Proofs.BareTokens
import ApiDecl.Proofs.RouteLiterals
import ApiDecl.Proofs.WordedTokens
import Mathlib.Data.Bool.AllAny

/-!
# Proofs: what the lexer reads

The lexer goes through a text from the front, so it is followed by relations between the text where
it is and the text where it goes on (`Lexer.Scans`). There is a rule for blanks and comments, and one
for each kind of token: words and literals have to end before what follows, and a group is read if
what stands between its delimiters is.
-/

namespace ApiDecl.Syntax.Lexer

open Lexeme StringLiteral Text
open Token (bare bareAll bareAll_nil bareAll_cons bareAll_append)

/-! ## Scanning -/

/-- Reading a text goes on at a rest of it, with these tokens in between. -/
def Scans (cs rest : List Char) (tokens : List Token) : Prop :=
  ∀ p opened done, ∃ n p' new, bareAll new = tokens ∧ n + rest.length ≤ cs.length ∧
    ∀ fuel, read (n + fuel) p opened done cs = read fuel p' opened (new.reverse ++ done) rest

section Scanning

variable {cs m rest : List Char} {tokens tokens' : List Token} {c : Char}

theorem Scans.refl (cs : List Char) : Scans cs cs [] := by
  intro p opened done
  refine ⟨0, p, [], rfl, by omega, fun fuel => ?_⟩
  rw [Nat.zero_add, List.reverse_nil, List.nil_append]

theorem Scans.trans (h : Scans cs m tokens) (h' : Scans m rest tokens') :
    Scans cs rest (tokens ++ tokens') := by
  intro p opened done
  obtain ⟨n, p₁, new, hnew, hlength, hread⟩ := h p opened done
  obtain ⟨n', p₂, new', hnew', hlength', hread'⟩ := h' p₁ opened (new.reverse ++ done)
  refine ⟨n + n', p₂, new ++ new', by rw [bareAll_append, hnew, hnew'], by omega, fun fuel => ?_⟩
  rw [Nat.add_assoc, hread, hread', List.reverse_append, List.append_assoc]

/-- One step of the reader. -/
theorem Scans.step (token : Position → List Token) (next : Position → Position)
    (hlength : rest.length < cs.length) (htoken : ∀ p, bareAll (token p) = tokens)
    (h : ∀ fuel p opened done, read (fuel + 1) p opened done cs =
      read fuel (next p) opened ((token p).reverse ++ done) rest) : Scans cs rest tokens := by
  intro p opened done
  refine ⟨1, next p, token p, htoken p, by omega, fun fuel => ?_⟩
  rw [Nat.add_comm, h]

theorem scans_gap {taken : List Char} (h : gap (c :: cs) = some (taken, rest))
    (hlength : rest.length < (c :: cs).length) : Scans (c :: cs) rest [] := by
  refine .step (fun _ => []) (·.advanceAll taken) hlength (fun _ => rfl) ?_
  intro fuel p opened done
  rw [read.eq_def]
  simp only [h, List.reverse_nil, List.nil_append]

theorem scans_docComment {comment : DocComment} (hgap : gap (c :: cs) = none)
    (h : docComment (c :: cs) = some (comment, rest)) (hlength : rest.length < (c :: cs).length)
    {p : Position} : Scans (c :: cs) rest (bareAll (docTokens comment p)) := by
  refine .step (docTokens comment) (·.advanceAll comment.taken) hlength
    (fun q => ?_) ?_
  · simp only [docTokens, bareAll_append, bareAll_cons]
    split <;> rfl
  · intro fuel q opened done
    rw [read.eq_def]
    simp only [hgap, h]

/-- No gap, comment or group starts or ends with the character. -/
structure StartsLeaf (c : Char) : Prop where
  gap : isGap c = false
  slash : c ≠ '/'
  opening : Delimiter.ofOpening? c = none
  closing : Delimiter.ofClosing? c = none

theorem startsWith_cons {word : String} {w : Char} {ws : List Char} (hword : word.toList = w :: ws)
    (hc : c ≠ w) : startsWith word (c :: cs) = false := by
  rw [startsWith, hword, List.isPrefixOf, beq_false_of_ne (Ne.symm hc), Bool.false_and]

theorem startsDoc_of_ne (hc : c ≠ '/') : startsDoc (c :: cs) = false := by
  have hslash : ∀ word ∈ ["///", "////", "//!", "/*!", "/**", "/***", "/**/"],
      startsWith word (c :: cs) = false := by
    intro word hword
    have hfirst : ∀ word ∈ ["///", "////", "//!", "/*!", "/**", "/***", "/**/"],
        word.toList = '/' :: word.toList.tail := by decide
    exact startsWith_cons (hfirst word hword) hc
  simp [startsDoc, hslash]

theorem gap_of_ne (hgap : isGap c = false) (hc : c ≠ '/') : gap (c :: cs) = none := by
  have hline : startsWith "//" (c :: cs) = false := startsWith_cons rfl hc
  have hblock : startsWith "/*" (c :: cs) = false := startsWith_cons rfl hc
  simp [gap, blockComment, hgap, startsDoc_of_ne hc, hline, hblock]

theorem docComment_of_ne (hc : c ≠ '/') : docComment (c :: cs) = none := by
  simp [docComment, startsDoc_of_ne hc]

theorem opening?_of_none (hc : Delimiter.ofOpening? c = none) : opening? (c :: cs) = none := by
  unfold opening?
  split
  · rfl
  · exact hc

theorem scans_leaf (hc : StartsLeaf c) {token : Position → Token} {taken : List Char}
    (h : ∀ p, leaf p (c :: cs) = some (token p, taken, rest))
    (hlength : rest.length < (c :: cs).length) {t : Token} (ht : ∀ p, (token p).bare = t) :
    Scans (c :: cs) rest [t] := by
  refine .step (fun p => [token p]) (·.advanceAll taken) hlength
    (fun p => by rw [bareAll_cons, ht, bareAll_nil]) ?_
  intro fuel p opened done
  rw [read.eq_def]
  simp only [gap_of_ne hc.gap hc.slash, docComment_of_ne hc.slash, opening?_of_none hc.opening,
    hc.closing, h, List.reverse_singleton, List.singleton_append]

/-- A group is read to its closing delimiter. -/
theorem scans_group {d : Delimiter} {opening closing : Char} {content : List Token}
    (hopening : opening? (opening :: cs) = some d) (hgap : isGap opening = false)
    (hslash : opening ≠ '/') (hclosing : Delimiter.ofClosing? closing = some d)
    (hclosed : opening? (closing :: rest) = none) (hgap' : isGap closing = false)
    (hslash' : closing ≠ '/') (h : Scans cs (closing :: rest) content) :
    Scans (opening :: cs) rest [.group d content default default] := by
  intro p opened done
  obtain ⟨n, p', new, hnew, hlength, hread⟩ := h (p.advance opening) (⟨d, p, done⟩ :: opened) []
  refine ⟨n + 2, p'.advance closing, [.group d new p p'], ?_, ?_, fun fuel => ?_⟩
  · rw [bareAll_cons, bareAll_nil, bare, hnew]
  · simp only [List.length_cons] at hlength ⊢
    omega
  · have hfuel : n + 2 + fuel = n + (fuel + 1) + 1 := by omega
    rw [hfuel, read.eq_def]
    simp only [gap_of_ne hgap hslash, docComment_of_ne hslash, hopening, hread]
    rw [read.eq_def]
    simp only [gap_of_ne hgap' hslash', docComment_of_ne hslash', hclosed, hclosing, if_true,
      List.append_nil, List.reverse_reverse, List.reverse_singleton, List.singleton_append]

end Scanning

/-! ## Leaves -/

section Leaves

variable {c : Char} {cs word later : List Char}

theorem not_inBase_of_not_digit (hdigit : c.isDigit = false) (hc : c ≠ '_') :
    (c.isDigit || c == '_' || (hexValue? c).any (· < 10)) = false := by
  have hhex : (hexValue? c).any (· < 10) = false := by
    have hno : ¬ ('0' ≤ c ∧ c ≤ '9') := fun h => by
      rw [Char.isDigit, Bool.and_eq_false_iff, decide_eq_false_iff_not, decide_eq_false_iff_not]
        at hdigit
      exact hdigit.elim (· h.1) (· h.2)
    unfold hexValue?
    rw [if_neg hno]
    split
    · simp
    · split <;> simp
  rw [hdigit, beq_false_of_ne hc, hhex]
  rfl

theorem baseDigits_of_not_digit (hdigit : c.isDigit = false) : baseDigits 10 (c :: cs) = none := by
  by_cases hc : c = '_'
  · subst hc
    simp [baseDigits, run]
  · have hno := not_inBase_of_not_digit hdigit hc
    simp [baseDigits, run, hno]

/-- A number starts with a digit. -/
theorem literal_of_not_digit (hquotation : quotation (c :: cs) = none) (hdigit : c.isDigit = false)
    (hparen : c ≠ '(') : literal (c :: cs) = none := by
  have hfloat : floatDigits (c :: cs) = none := by
    simp [floatDigits, hdigit]
  have hwhole : wholeDigits (c :: cs) = none := by
    have hzero : c ≠ '0' := by
      rintro rfl
      exact absurd hdigit (by decide)
    have hbase : baseDigits 10 (c :: cs) = none := baseDigits_of_not_digit hdigit
    simp [wholeDigits, hzero, hbase]
  have herror : exactly unreadable (c :: cs) = none := by
    have hunreadable : unreadable = '(' :: unreadable.tail := by decide
    rw [hunreadable, exactly, if_neg (Ne.symm hparen)]
  simp [literal, hquotation, hfloat, hwhole, herror, number, andThen]

/-- The characters that may stand behind letters in front of a literal. -/
def literalSigns : List Char := ['"', '#', apostrophe]

/-- The text does not go on with a word, nor with a literal that a word would be a part of. -/
def EndsWord (later : List Char) : Prop :=
  ∀ c ∈ later.head?, isWordTail c = false ∧ c ∉ literalSigns

/-- The text starts with a part of a word, behind which no literal starts. -/
def GoesOn (cs : List Char) : Prop :=
  ∃ tail later, cs = tail ++ later ∧ (∀ c ∈ tail, isWordTail c = true) ∧ EndsWord later

theorem GoesOn.next (h : GoesOn (c :: cs)) : c ∉ literalSigns := by
  obtain ⟨tail, later, heq, htail, hlater⟩ := h
  cases tail with
  | nil => exact (hlater c (by rw [← List.nil_append later, ← heq]; rfl)).2
  | cons d tail =>
    obtain ⟨rfl, -⟩ := List.cons.inj heq
    have hc := htail c List.mem_cons_self
    have hsigns : ∀ d ∈ literalSigns, isWordTail d = false := List.all_iff_forall_prop.1 (by decide)
    intro hmem
    rw [hsigns c hmem] at hc
    cases hc

theorem GoesOn.behind (h : GoesOn (c :: cs)) (hc : isWordTail c = true) : GoesOn cs := by
  obtain ⟨tail, later, heq, htail, hlater⟩ := h
  cases tail with
  | nil =>
    have hends := (hlater c (by rw [← List.nil_append later, ← heq]; rfl)).1
    rw [hc] at hends
    cases hends
  | cons d tail =>
    obtain ⟨rfl, hcs⟩ := List.cons.inj heq
    exact ⟨tail, later, hcs, fun d hd => htail d (List.mem_cons_of_mem _ hd), hlater⟩

theorem GoesOn.behind_append {pre : List Char} (h : GoesOn (pre ++ cs))
    (hpre : ∀ c ∈ pre, isWordTail c = true) : GoesOn cs := by
  induction pre with
  | nil => exact h
  | cons c pre ih =>
    obtain ⟨hc, hpre⟩ := List.forall_mem_cons.1 hpre
    exact ih (h.behind hc) hpre

theorem GoesOn.raw (h : GoesOn cs) (kind : QuotedKind) : raw kind cs = none := by
  unfold Lexeme.raw
  cases cs with
  | nil => rfl
  | cons c cs =>
    have hhash : c ≠ '#' := fun heq => h.next (heq ▸ by decide)
    have hdrop : (c :: cs).dropWhile (· == '#') = c :: cs :=
      List.dropWhile_cons_of_neg (by simpa using hhash)
    rw [hdrop]
    split
    · next heq => exact absurd (by decide) ((List.cons.inj heq).1 ▸ h.next)
    · rfl

theorem GoesOn.quoted (h : GoesOn cs) (kind : QuotedKind) : quoted kind cs = none := by
  unfold Lexeme.quoted
  split
  · exact absurd (by decide) h.next
  · rfl

theorem GoesOn.single (h : GoesOn cs) (kind : QuotedKind) : single kind cs = none := by
  cases cs with
  | nil => rfl
  | cons c cs =>
    have happ : c ≠ apostrophe := fun heq => h.next (heq ▸ by decide)
    simp [Lexeme.single, happ]

theorem GoesOn.notLiteral (h : GoesOn cs) : literalBeginnings.any (·.isPrefixOf cs) = false := by
  have hbeginnings : ∀ b ∈ literalBeginnings,
      (b.dropWhile isWordTail).head?.any literalSigns.contains = true := by decide
  rw [List.any_eq_false]
  intro b hb hprefix
  obtain ⟨behind, rfl⟩ := List.isPrefixOf_iff_prefix.1 hprefix
  -- behind its letters every beginning has a sign, but no sign follows a word
  rw [← List.takeWhile_append_dropWhile (p := isWordTail) (l := b), List.append_assoc] at h
  have hgoes := h.behind_append fun c hc => List.all_eq_true.1 List.all_takeWhile c hc
  have hsign := hbeginnings b hb
  cases hrest : b.dropWhile isWordTail with
  | nil =>
    rw [hrest] at hsign
    cases hsign
  | cons c rest =>
    rw [hrest] at hsign hgoes
    exact hgoes.next (by simpa using hsign)

theorem quotation_of_word (hstart : isWordStart c = true) (h : GoesOn cs) :
    quotation (c :: cs) = none := by
  have hself : single textKind (c :: cs) = none := by
    have happ : c ≠ apostrophe := by
      rintro rfl
      exact absurd hstart (by decide)
    simp [single, happ]
  have hbehind : ∀ rest, cs = 'r' :: rest → GoesOn rest := by
    rintro rest rfl
    exact h.behind (by decide)
  rw [quotation.eq_def]
  split
  case h_1 heq =>
    cases heq
    exact absurd hstart (by decide)
  case h_2 heq =>
    cases heq
    rw [h.raw]
    rfl
  case h_3 heq =>
    cases heq
    rw [(hbehind _ rfl).raw]
    rfl
  case h_4 heq =>
    cases heq
    exact absurd (by decide) h.next
  case h_5 heq =>
    cases heq
    rw [h.single]
    rfl
  case h_6 heq =>
    cases heq
    rw [(hbehind _ rfl).raw]
    rfl
  case h_7 heq =>
    cases heq
    rw [h.quoted]
    rfl
  case h_8 => exact hself

/-- The code points of gaps. -/
def gapCodes : List Nat :=
  [0x09, 0x0A, 0x0B, 0x0C, 0x0D, 0x20, 0x85, 0xA0, 0x1680, 0x2000, 0x2001, 0x2002, 0x2003, 0x2004,
    0x2005, 0x2006, 0x2007, 0x2008, 0x2009, 0x200A, 0x200E, 0x200F, 0x2028, 0x2029, 0x202F, 0x205F,
    0x3000]

theorem mem_gapCodes (h : isGap c = true) : c.toNat ∈ gapCodes := by
  by_cases hspace : c = ' '
  · subst hspace
    decide
  · simp only [isGap, isBlank, Bool.or_eq_true, Bool.and_eq_true, decide_eq_true_eq, beq_iff_eq,
      hspace, or_false] at h
    simp only [gapCodes, List.mem_cons, List.not_mem_nil, or_false]
    omega

theorem isGap_of_isWordStart (hstart : isWordStart c = true) : isGap c = false := by
  rw [← Bool.not_eq_true]
  intro hgap
  have hcodes : ∀ n ∈ gapCodes, isWordStart (Char.ofNat n) = false := by decide +kernel
  have hno := hcodes _ (mem_gapCodes hgap)
  rw [Char.ofNat_toNat, hstart] at hno
  cases hno

theorem ne_of_isWordStart {d : Char} (hstart : isWordStart c = true) (hd : isWordStart d = false) :
    c ≠ d := by
  rintro rfl
  rw [hstart] at hd
  cases hd

theorem startsLeaf_of_isWordStart (hstart : isWordStart c = true) : StartsLeaf c := by
  refine ⟨isGap_of_isWordStart hstart, ne_of_isWordStart hstart (by decide), ?_, ?_⟩
  · have hparen := ne_of_isWordStart hstart (d := '(') (by decide)
    have hbracket := ne_of_isWordStart hstart (d := '[') (by decide)
    have hbrace := ne_of_isWordStart hstart (d := '\x7b') (by decide)
    unfold Delimiter.ofOpening?
    split <;> first | rfl | contradiction
  · have hparen := ne_of_isWordStart hstart (d := ')') (by decide)
    have hbracket := ne_of_isWordStart hstart (d := ']') (by decide)
    have hbrace := ne_of_isWordStart hstart (d := '\x7d') (by decide)
    unfold Delimiter.ofClosing?
    split <;> first | rfl | contradiction

theorem startsMark_of_isWordStart (hstart : isWordStart c = true) : startsMark (c :: cs) = false := by
  have hmarks : ∀ d ∈ apostrophe :: markChars, isWordStart d = false :=
    List.all_iff_forall_prop.1 (by decide)
  have hno : c ∉ apostrophe :: markChars := fun hmem =>
    ne_of_isWordStart hstart (hmarks c hmem) rfl
  rw [List.mem_cons, not_or] at hno
  simp [startsMark, hno.1, hno.2]

theorem not_isDigit_of_isWordStart (hstart : isWordStart c = true) : c.isDigit = false := by
  rw [← Bool.not_eq_true]
  intro hdigit
  simp only [Char.isDigit, Bool.and_eq_true, decide_eq_true_eq, UInt32.le_iff_toNat_le] at hdigit
  change 48 ≤ c.toNat ∧ c.toNat ≤ 57 at hdigit
  have hascii : c.toNat < 0x80 := by omega
  rw [isWordStart, if_pos hascii, Bool.or_eq_true, beq_iff_eq] at hstart
  rcases hstart with hletter | rfl
  · change (decide (65 ≤ c.val ∧ c.val ≤ 90) ||
      decide (97 ≤ c.val) && decide (c.val ≤ 122)) = true at hletter
    simp only [Bool.or_eq_true, Bool.and_eq_true, decide_eq_true_eq, UInt32.le_iff_toNat_le]
      at hletter
    change (65 ≤ c.toNat ∧ c.toNat ≤ 90) ∨ (97 ≤ c.toNat ∧ c.toNat ≤ 122) at hletter
    omega
  · exact absurd hdigit (by decide)

theorem wordTail_append {tail : List Char} (htail : ∀ c ∈ tail, isWordTail c = true)
    (hlater : EndsWord later) : wordTail (tail ++ later) = (tail, later) := by
  induction tail with
  | nil =>
    cases later with
    | nil => rfl
    | cons c later =>
      have hc := (hlater c rfl).1
      simp [wordTail, hc]
  | cons c tail ih =>
    obtain ⟨hc, htail⟩ := List.forall_mem_cons.1 htail
    rw [List.cons_append, wordTail, if_pos hc, ih htail]

/-- A plain word starts with a word character, and goes on with such characters. -/
theorem plainWord_iff : plainWord word = some (word, []) ↔
    ∃ c tail, word = c :: tail ∧ isWordStart c = true ∧ ∀ d ∈ tail, isWordTail d = true := by
  constructor
  · intro h
    cases word with
    | nil => cases h
    | cons c tail =>
      refine ⟨c, tail, rfl, ?_, fun d hd => isWordTail_of_plainWord h d (.tail _ hd)⟩
      rw [plainWord] at h
      split at h
      · assumption
      · cases h
  · rintro ⟨c, tail, rfl, hstart, htail⟩
    rw [plainWord, if_pos hstart, wordTail_of_isWordTail htail]

theorem plainWord_append (h : plainWord word = some (word, [])) (hlater : EndsWord later) :
    plainWord (word ++ later) = some (word, later) := by
  obtain ⟨c, tail, rfl, hstart, htail⟩ := plainWord_iff.1 h
  rw [List.cons_append, plainWord, if_pos hstart, wordTail_append htail hlater]

theorem anyWord_append (h : plainWord word = some (word, [])) (hlater : EndsWord later) :
    anyWord (word ++ later) = some (word, later) := by
  have happend := plainWord_append h hlater
  obtain ⟨c, tail, rfl, -, htail⟩ := plainWord_iff.1 h
  have hgoes : GoesOn (tail ++ later) := ⟨tail, later, rfl, htail, hlater⟩
  rw [List.cons_append] at happend ⊢
  unfold anyWord
  split
  · next heq =>
    rw [(List.cons.inj heq).2] at hgoes
    exact absurd (by decide) hgoes.next
  · exact happend

/-- What is no literal and no mark is read as a word. -/
theorem leaf_word {w : String} {p : Position} (hliteral : literal cs = none)
    (hmark : startsMark cs = false) (hword : Lexeme.word cs = some (w.toList, later)) :
    leaf p cs = some (.word w p, w.toList, later) := by
  have hnone : mark cs = none := by
    unfold mark
    split
    · rfl
    · simp [hmark]
  simp [leaf, hliteral, hnone, hword]

theorem scans_plainWord {w : String} (hw : plainWord w.toList = some (w.toList, []))
    (hlater : EndsWord later) : Scans (w.toList ++ later) later [.word w default] := by
  have happend := anyWord_append hw hlater
  obtain ⟨c, tail, hcs, hstart, htail⟩ := plainWord_iff.1 hw
  have hgoes : GoesOn (tail ++ later) := ⟨tail, later, rfl, htail, hlater⟩
  have hgoes' : GoesOn (c :: (tail ++ later)) := ⟨c :: tail, later, rfl,
    List.forall_mem_cons.2 ⟨isWordTail_of_start hstart, htail⟩, hlater⟩
  have hliteral := literal_of_not_digit (quotation_of_word hstart hgoes)
    (not_isDigit_of_isWordStart hstart) (ne_of_isWordStart hstart (by decide))
  have hword : Lexeme.word (c :: (tail ++ later)) = some (w.toList, later) := by
    rw [hcs, List.cons_append] at happend
    rw [Lexeme.word, hgoes'.notLiteral, if_neg Bool.false_ne_true, happend, hcs]
  rw [hcs, List.cons_append]
  refine scans_leaf (startsLeaf_of_isWordStart hstart) (fun p =>
    leaf_word hliteral (startsMark_of_isWordStart hstart) hword) ?_ fun _ => rfl
  simp only [List.length_cons, List.length_append]
  omega

theorem scans_rawWord {w : String} {cs : List Char} (hw : w.toList = 'r' :: '#' :: cs)
    (hcs : plainWord cs = some (cs, []))
    (hmarkable : guard (!unmarkable.contains (String.ofList cs)) = some ())
    (hlater : EndsWord later) : Scans (w.toList ++ later) later [.word w default] := by
  have happend := plainWord_append hcs hlater
  have hany : anyWord ('r' :: '#' :: (cs ++ later)) = some ('r' :: '#' :: cs, later) :=
    Option.bind_eq_some_iff.2 ⟨_, happend, Option.bind_eq_some_iff.2 ⟨(), hmarkable, rfl⟩⟩
  obtain ⟨c, tail, rfl, hstart, htail⟩ := plainWord_iff.1 hcs
  rw [List.cons_append] at hany
  have hquote : c ≠ '"' := ne_of_isWordStart hstart (by decide)
  have hhash : c ≠ '#' := ne_of_isWordStart hstart (by decide)
  have hliteral : literal ('r' :: '#' :: c :: (tail ++ later)) = none := by
    refine literal_of_not_digit ?_ (by decide) (by decide)
    have hraw : raw textKind ('#' :: c :: (tail ++ later)) = none := by
      simp [raw, hhash, hquote]
    rw [quotation, hraw]
    rfl
  have hword : Lexeme.word ('r' :: '#' :: c :: (tail ++ later)) = some (w.toList, later) := by
    have hbeginnings : literalBeginnings.any (·.isPrefixOf ('r' :: '#' :: c :: (tail ++ later))) =
        false := by
      simp [literalBeginnings, List.isPrefixOf, Ne.symm hquote, Ne.symm hhash]
    rw [Lexeme.word, hbeginnings, if_neg Bool.false_ne_true, hany, hw]
  rw [hw, List.cons_append, List.cons_append, List.cons_append]
  refine scans_leaf ⟨by decide, by decide, rfl, rfl⟩ (fun p =>
    leaf_word hliteral (startsMark_of_isWordStart (by decide)) hword) ?_ fun _ => rfl
  simp only [List.length_cons, List.length_append]
  omega

/-- A word is read if it ends. -/
theorem scans_word {w : String} (hw : IsWord w) (hlater : EndsWord later) :
    Scans (w.toList ++ later) later [.word w default] := by
  rcases plainWord_of_anyWord hw with hplain | ⟨cs, hraw, hplain⟩
  · exact scans_plainWord hplain hlater
  · rw [IsWord, hraw] at hw
    obtain ⟨⟨taken, left⟩, htaken, hrest⟩ := Option.bind_eq_some_iff.1 hw
    obtain ⟨⟨⟩, hmarkable, -⟩ := Option.bind_eq_some_iff.1 hrest
    rw [hplain] at htaken
    cases htaken
    exact scans_rawWord hraw hplain hmarkable hlater

/-- The marks that are no part of a comment or an attribute. -/
def plainMarks : List Char := "+-:;,.<>".toList

/-- What is no literal is read as a mark if it starts with one. -/
theorem leaf_mark {p : Position} (hliteral : literal (c :: later) = none)
    (hstarts : startsMark (c :: later) = true) (hc : c ≠ apostrophe) :
    leaf p (c :: later) = some (.mark c (startsMark later) p, [c], later) := by
  simp [leaf, hliteral, mark, hstarts, hc]

theorem startsMark_of_mem (hc : c ∈ apostrophe :: markChars) (hslash : c ≠ '/') :
    startsMark (c :: cs) = true := by
  have hline : startsWith "//" (c :: cs) = false := startsWith_cons rfl hslash
  have hblock : startsWith "/*" (c :: cs) = false := startsWith_cons rfl hslash
  have hmark : (markChars.contains c || c == apostrophe) = true := by
    simpa [or_comm] using hc
  rw [startsMark, hmark, hline, hblock]
  rfl

theorem leaf_lifetime {p : Position} (hliteral : literal (apostrophe :: later) = none)
    (hlifetime : startsLifetime later = true) : leaf p (apostrophe :: later) =
      some (.mark apostrophe true p, [apostrophe], later) := by
  have hstarts : startsMark (apostrophe :: later) = true :=
    startsMark_of_mem List.mem_cons_self (by decide)
  simp [leaf, hliteral, mark, hstarts, hlifetime]

theorem quotation_of_ne (hc : ∀ d ∈ ['"', 'r', 'b', 'c'], c ≠ d) :
    quotation (c :: cs) = single textKind (c :: cs) := by
  unfold quotation
  split
  all_goals first
    | rfl
    | rename_i heq
      cases heq
      exact absurd rfl (hc _ (by decide))

theorem scans_mark (hc : c ∈ plainMarks) :
    Scans (c :: later) later [.mark c (startsMark later) default] := by
  have hfacts : ∀ c ∈ plainMarks, isGap c = false ∧ c ≠ '/' ∧ Delimiter.ofOpening? c = none ∧
      Delimiter.ofClosing? c = none ∧ c.isDigit = false ∧ c ≠ '(' ∧ c ≠ apostrophe ∧
      c ∈ apostrophe :: markChars ∧ c ∉ ['"', 'r', 'b', 'c'] := List.all_iff_forall_prop.1 (by decide)
  obtain ⟨hgap, hslash, hopening, hclosing, hdigit, hparen, happ, hmark, hno⟩ := hfacts c hc
  have hquotation : quotation (c :: later) = none := by
    rw [quotation_of_ne fun _ hd => (ne_of_mem_of_not_mem hd hno).symm]
    simp [single, happ]
  exact scans_leaf ⟨hgap, hslash, hopening, hclosing⟩
    (fun p => leaf_mark (literal_of_not_digit hquotation hdigit hparen)
      (startsMark_of_mem hmark hslash) happ) (Nat.lt_succ_self _) fun _ => rfl

/-- An apostrophe in front of a word starts a lifetime. -/
theorem scans_lifetime {w : String} (hw : plainWord w.toList = some (w.toList, []))
    (hlater : EndsWord later) : Scans (apostrophe :: (w.toList ++ later)) later
      [.mark apostrophe true default, .word w default] := by
  have hmark : Scans (apostrophe :: (w.toList ++ later)) (w.toList ++ later)
      [.mark apostrophe true default] := by
    have happend := anyWord_append hw hlater
    obtain ⟨c, tail, hcs, hstart, htail⟩ := plainWord_iff.1 hw
    have hgoes : GoesOn (tail ++ later) := ⟨tail, later, rfl, htail, hlater⟩
    have hsingle : single textKind (apostrophe :: (w.toList ++ later)) = none := by
      have hslash : c ≠ '\\' := ne_of_isWordStart hstart (by decide)
      have hexactly : exactly [apostrophe] (tail ++ later) = none := by
        cases hbehind : tail ++ later with
        | nil => rfl
        | cons d behind =>
          rw [hbehind] at hgoes
          have hd : apostrophe ≠ d := fun heq => hgoes.next (heq ▸ by decide)
          rw [exactly, if_neg hd]
      simp [single, hcs, textKind, andThen, after, hexactly]
    have hliteral : literal (apostrophe :: (w.toList ++ later)) = none := by
      refine literal_of_not_digit ?_ (by decide) (by decide)
      rw [quotation_of_ne (List.all_iff_forall_prop.1 (by decide)), hsingle]
    have hlifetime : startsLifetime (w.toList ++ later) = true := by
      rw [startsLifetime, happend]
      cases later with
      | nil => rfl
      | cons d later =>
        have hd := (hlater d rfl).2
        have happ : d ≠ apostrophe := fun heq => hd (heq ▸ by decide)
        have hhash : d ≠ '#' := fun heq => hd (heq ▸ by decide)
        simp [happ, hhash]
    exact scans_leaf ⟨by decide, by decide, by decide, by decide⟩
      (fun p => leaf_lifetime hliteral hlifetime) (Nat.lt_succ_self _) fun _ => rfl
  exact hmark.trans (scans_plainWord hw hlater)

theorem leaf_literal {p : Position} {taken : List Char} (h : literal cs = some (taken, later)) :
    leaf p cs = some (.literal (String.ofList taken) p, taken, later) := by
  simp [leaf, h]

/-- A text of characters that stand for themselves is read between quotes. -/
theorem scans_literal {t : String} (ht : ∀ c ∈ t.toList, StandsForItself c)
    (hlater : EndsWord later) : Scans (("\"" ++ t ++ "\"").toList ++ later) later
      [.literal ("\"" ++ t ++ "\"") default] := by
  have hquoted := (isLiteral_of_plain ht).wellFormed later
  have hsuffix : suffix later = some ([], later) := by
    cases later with
    | nil => rfl
    | cons c later =>
      have hstart : isWordStart c = false := by
        rw [← Bool.not_eq_true]
        intro hstart
        have htail := (hlater c rfl).1
        rw [isWordTail_of_start hstart] at htail
        cases htail
      simp [suffix, plainWord, hstart]
  rw [toList_quote, List.cons_append] at hquoted
  have hliteral : literal ('"' :: (t.toList ++ ['"'] ++ later)) =
      some ('"' :: (t.toList ++ ['"']), later) := by
    rw [literal, quotation, hquoted]
    simp [andThen, hsuffix]
  have htext : String.ofList ('"' :: (t.toList ++ ['"'])) = "\"" ++ t ++ "\"" := by
    rw [← toList_quote, String.ofList_toList]
  rw [toList_quote, List.cons_append, ← htext]
  refine scans_leaf ⟨by decide, by decide, by decide, by decide⟩
    (fun p => leaf_literal hliteral) ?_ fun _ => rfl
  simp only [List.length_cons, List.length_append]
  omega

end Leaves

/-! ## Comments -/

section Comments

variable {later : List Char} {c : Char}

/-- The line goes on to its line feed. -/
def IsLine (s : String) : Prop := ∀ c ∈ s.toList, c ≠ '\n' ∧ c ≠ '\r'

theorem lineRest_of_isLine (cs : List Char) (h : ∀ c ∈ cs, c ≠ '\n' ∧ c ≠ '\r') :
    lineRest (cs ++ '\n' :: later) = (cs, '\n' :: later) := by
  induction cs with
  | nil => rfl
  | cons c cs ih =>
    obtain ⟨hc, hcs⟩ := List.forall_mem_cons.1 h
    rw [List.cons_append, lineRest.eq_def]
    split
    · next heq => cases heq
    · next heq => exact absurd (List.cons.inj heq).1 hc.1
    · next heq => exact absurd (List.cons.inj heq).1 hc.2
    · next heq =>
      cases heq
      rw [ih hcs]

theorem scans_blank (hc : c ∈ [' ', '\n']) : Scans (c :: later) later [] := by
  have hgap : gap (c :: later) = some ([c], later) := by
    rcases List.mem_pair.1 hc with rfl | rfl <;> rfl
  exact scans_gap hgap (Nat.lt_succ_self _)

/-- Behind its marker a comment goes on with a character. -/
theorem exists_cons_line {s : String} {P : Char → Prop} (hs : ∀ c ∈ s.toList.head?, P c)
    (hfeed : P '\n') (later : List Char) :
    ∃ c behind, s.toList ++ '\n' :: later = c :: behind ∧ P c := by
  cases h : s.toList with
  | nil => exact ⟨_, _, rfl, hfeed⟩
  | cons c cs => exact ⟨c, _, rfl, hs c (by rw [h]; rfl)⟩

theorem scans_comment {s : String} (hline : IsLine s)
    (hs : ∀ c ∈ s.toList.head?, c ≠ '/' ∧ c ≠ '!') :
    Scans ('/' :: '/' :: (s.toList ++ '\n' :: later)) later [] := by
  have hrest : lineRest ('/' :: '/' :: (s.toList ++ '\n' :: later)) =
      ('/' :: '/' :: s.toList, '\n' :: later) := by
    refine lineRest_of_isLine ('/' :: '/' :: s.toList) ?_
    exact List.forall_mem_cons.2 ⟨by decide, List.forall_mem_cons.2 ⟨by decide, hline⟩⟩
  have hgap : gap ('/' :: '/' :: (s.toList ++ '\n' :: later)) =
      some ('/' :: '/' :: s.toList, '\n' :: later) := by
    obtain ⟨c, behind, hbehind, hslash, hbang⟩ := exists_cons_line hs (by decide) later
    have hno : isGap '/' = false := by decide
    have hdoc : startsDoc ('/' :: '/' :: c :: behind) = false := by
      simp [startsDoc, startsWith, List.isPrefixOf, Ne.symm hslash, Ne.symm hbang]
    have hstarts : startsWith "//" ('/' :: '/' :: c :: behind) = true := by
      simp [startsWith, List.isPrefixOf]
    rw [← hrest, hbehind, gap, hno, hdoc, hstarts]
    rfl
  refine (scans_gap hgap ?_).trans (scans_blank (by decide))
  simp only [List.length_cons, List.length_append]
  omega

theorem hasLineBreaksOnly_of_isLine {cs : List Char} (h : ∀ c ∈ cs, c ≠ '\n' ∧ c ≠ '\r') :
    hasLineBreaksOnly cs = true := by
  induction cs with
  | nil => rfl
  | cons c cs ih =>
    obtain ⟨hc, hcs⟩ := List.forall_mem_cons.1 h
    rw [hasLineBreaksOnly.eq_def]
    split
    · next heq => exact absurd (List.cons.inj heq).1 hc.2
    · next heq => exact absurd (List.cons.inj heq).1 hc.2
    · next heq =>
      cases heq
      exact ih hcs
    · rfl

theorem scans_doc {s : String} (hline : IsLine s) (hs : ∀ c ∈ s.toList.head?, c ≠ '/') :
    Scans ('/' :: '/' :: '/' :: (s.toList ++ '\n' :: later)) later
      (bareAll (docTokens ⟨false, s.toList, []⟩ default)) := by
  have hrest : lineRest ('/' :: '/' :: '/' :: (s.toList ++ '\n' :: later)) =
      ('/' :: '/' :: '/' :: s.toList, '\n' :: later) := by
    refine lineRest_of_isLine ('/' :: '/' :: '/' :: s.toList) ?_
    exact List.forall_mem_cons.2 ⟨by decide, List.forall_mem_cons.2 ⟨by decide,
      List.forall_mem_cons.2 ⟨by decide, hline⟩⟩⟩
  obtain ⟨c, behind, hbehind, hslash⟩ := exists_cons_line hs (by decide) later
  have hdoc : startsDoc ('/' :: '/' :: '/' :: c :: behind) = true := by
    simp [startsDoc, startsWith, List.isPrefixOf, Ne.symm hslash]
  have hgap : gap ('/' :: '/' :: '/' :: (s.toList ++ '\n' :: later)) = none := by
    have hno : isGap '/' = false := by decide
    rw [hbehind, gap, hno, hdoc]
    rfl
  have hcomment : docComment ('/' :: '/' :: '/' :: (s.toList ++ '\n' :: later)) =
      some (⟨false, s.toList, '/' :: '/' :: '/' :: s.toList⟩, '\n' :: later) := by
    have hbreaks := hasLineBreaksOnly_of_isLine hline
    rw [docComment, hrest, hbehind, hdoc]
    simp [startsWith, List.isPrefixOf, hbreaks]
  refine (scans_docComment hgap hcomment ?_).trans (scans_blank (by decide))
  simp only [List.length_cons, List.length_append]
  omega

end Comments

end ApiDecl.Syntax.Lexer
