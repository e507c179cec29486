import ApiDecl.Syntax.Lexer

/-!
# Proofs: lexemes are taken off the front

Every reader of a lexeme divides the text into what it takes and what it leaves (`Splits`), so the
lexer goes through a text without a character lost or changed.
-/

namespace ApiDecl.Syntax.Lexeme

open StringLiteral Text

/-- What is taken and what is left make up the text. -/
def Splits (cs : List Char) (piece : Option (List Char × List Char)) : Prop :=
  ∀ taken rest, piece = some (taken, rest) → cs = taken ++ rest

variable {c : Char} {cs : List Char} {piece : Option (List Char × List Char)} {p : Prop}
  [Decidable p]

theorem splits_none : Splits cs none := nofun

theorem splits_some {taken rest : List Char} (h : cs = taken ++ rest) :
    Splits cs (some (taken, rest)) := by
  rintro _ _ ⟨⟩
  exact h

theorem Splits.ite {other : Option (List Char × List Char)} (h : p → Splits cs piece)
    (h' : ¬ p → Splits cs other) : Splits cs (if p then piece else other) := by
  split
  · next hp => exact h hp
  · next hp => exact h' hp

/-- Characters put back in front are taken too. -/
theorem Splits.map (h : Splits cs piece) (front : List Char) :
    Splits (front ++ cs) (piece.map fun (taken, rest) => (front ++ taken, rest)) := by
  intro taken rest hmap
  obtain ⟨⟨inner, left⟩, hpiece, hmap⟩ := Option.map_eq_some_iff.1 hmap
  cases hmap
  rw [h _ _ hpiece, List.append_assoc]

theorem Splits.after (h : Splits cs piece) (c : Char) : Splits (c :: cs) (after c piece) :=
  h.map [c]

theorem Splits.andThen {second : Reader} (h : Splits cs piece)
    (hsecond : ∀ rest, Splits rest (second rest)) : Splits cs (andThen piece second) := by
  intro taken rest hthen
  obtain ⟨⟨front, left⟩, hpiece, hthen⟩ := Option.bind_eq_some_iff.1 hthen
  obtain ⟨⟨more, behind⟩, hmore, hthen⟩ := Option.map_eq_some_iff.1 hthen
  cases hthen
  rw [h _ _ hpiece, hsecond _ _ _ hmore, List.append_assoc]

theorem splits_exactly (ws cs : List Char) : Splits cs (exactly ws cs) := by
  induction ws generalizing cs with
  | nil => exact splits_some rfl
  | cons w ws ih =>
    cases cs with
    | nil => exact splits_none
    | cons c cs =>
      refine .ite (fun hw => ?_) fun _ => splits_none
      subst hw
      exact (ih cs).after w

/-! ## Comments -/

theorem lineRest_eq (cs : List Char) : cs = (lineRest cs).1 ++ (lineRest cs).2 := by
  induction cs with
  | nil => rfl
  | cons c cs ih =>
    rw [lineRest.eq_def]
    split
    · next heq => cases heq
    · next heq => exact heq
    · next heq => exact heq
    · next heq =>
      cases heq
      exact congrArg (c :: ·) ih

theorem splits_blockRest (depth : Nat) (cs : List Char) : Splits cs (blockRest depth cs) := by
  fun_induction blockRest depth cs with
  | case1 depth rest ih => exact ih.map ['/', '*']
  | case2 => exact splits_none
  | case3 => exact splits_some rfl
  | case4 rest depth ih => exact ih.map ['*', '/']
  | case5 depth c rest _ _ ih => exact ih.after c
  | case6 => exact splits_none

theorem splits_blockComment (cs : List Char) : Splits cs (blockComment cs) :=
  .ite (fun _ => splits_blockRest 0 cs) fun _ => splits_none

theorem splits_gap (cs : List Char) : Splits cs (gap cs) := by
  cases cs with
  | nil => exact splits_none
  | cons c cs =>
    refine .ite (fun _ => splits_some rfl) fun _ => .ite (fun _ => splits_none) fun _ =>
      .ite (fun _ => ?_) fun _ => splits_blockComment _
    exact splits_some (lineRest_eq _)

/-! ## Words -/

theorem wordTail_eq (cs : List Char) : cs = (wordTail cs).1 ++ (wordTail cs).2 := by
  induction cs with
  | nil => rfl
  | cons c cs ih =>
    rw [wordTail]
    split
    · exact congrArg (c :: ·) ih
    · rfl

theorem splits_plainWord (cs : List Char) : Splits cs (plainWord cs) := by
  cases cs with
  | nil => exact splits_none
  | cons c cs =>
    refine .ite (fun _ => ?_) fun _ => splits_none
    exact splits_some (congrArg (c :: ·) (wordTail_eq cs))

theorem splits_anyWord (cs : List Char) : Splits cs (anyWord cs) := by
  unfold anyWord
  split
  · next cs =>
    intro taken rest h
    obtain ⟨⟨word, left⟩, hword, h⟩ := Option.bind_eq_some_iff.1 h
    obtain ⟨⟨⟩, -, h⟩ := Option.bind_eq_some_iff.1 h
    cases h
    exact congrArg ('r' :: '#' :: ·) (splits_plainWord _ _ _ hword)
  · exact splits_plainWord cs

theorem splits_word (cs : List Char) : Splits cs (word cs) :=
  .ite (fun _ => splits_none) fun _ => splits_anyWord cs

theorem splits_suffix (cs : List Char) : Splits cs (suffix cs) := by
  unfold suffix
  cases h : plainWord cs with
  | none => exact splits_some rfl
  | some piece => exact h ▸ splits_plainWord cs

theorem splits_wordBreak (cs : List Char) : Splits cs (wordBreak cs) := by
  cases cs with
  | nil => exact splits_some rfl
  | cons c cs => exact .ite (fun _ => splits_none) fun _ => splits_some rfl

/-! ## Quoted literals -/

section Quoted

variable (kind : QuotedKind)

theorem splits_bracedDigits (digits cs : List Char) : Splits cs (bracedDigits kind digits cs) := by
  induction cs generalizing digits with
  | nil => exact splits_none
  | cons c cs ih =>
    refine .ite (fun _ => .ite (fun _ => splits_none) fun _ => (ih _).after c) fun _ =>
      .ite (fun _ => splits_none) fun _ => .ite (fun _ => (ih _).after c) fun _ =>
      .ite (fun hc => ?_) fun _ => splits_none
    rw [hc.1]
    exact splits_some rfl

theorem splits_escape (cs : List Char) : Splits cs (escape kind cs) := by
  unfold escape
  split
  · exact .ite (fun _ => splits_some rfl) fun _ => splits_none
  · refine .ite (fun _ => ?_) fun _ => splits_none
    exact ((splits_bracedDigits kind [] _).after '\x7b').after 'u'
  · exact .ite (fun _ => splits_some rfl) fun _ => splits_none
  · exact splits_none

theorem splits_continuation (cs : List Char) : Splits cs (continuation cs) := by
  fun_induction continuation cs with
  | case1 rest ih => exact ih.map ['\r', '\n']
  | case2 => exact splits_none
  | case3 => exact splits_none
  | case4 c rest _ _ _ ih => exact ih.after c
  | case5 => exact splits_some rfl

theorem splits_quotedRest (fuel : Nat) (cs : List Char) :
    Splits cs (quotedRest kind fuel cs) := by
  induction fuel generalizing cs with
  | zero => exact splits_none
  | succ fuel ih =>
    rw [quotedRest.eq_def]
    dsimp only
    split
    · exact splits_none
    · exact splits_some rfl
    · exact (ih _).map ['\r', '\n']
    · exact splits_none
    · exact (((splits_continuation _).andThen ih).after '\n').after '\\'
    · exact ((splits_continuation _).andThen ih).after '\\'
    · exact ((splits_escape kind _).andThen ih).after '\\'
    · next c rest _ _ _ _ _ _ => exact .ite (fun _ => (ih rest).after c) fun _ => splits_none

theorem splits_quoted (cs : List Char) : Splits cs (quoted kind cs) := by
  unfold quoted
  split
  · exact (splits_quotedRest kind _ _).after '"'
  · exact splits_none

theorem splits_rawRest (hashes cs : List Char) : Splits cs (rawRest kind hashes cs) := by
  fun_induction rawRest kind hashes cs with
  | case1 rest taken left h =>
    exact splits_some (congrArg ('"' :: ·) (splits_exactly _ _ _ _ h))
  | case2 rest _ ih => exact ih.after '"'
  | case3 rest ih => exact ih.map ['\r', '\n']
  | case4 => exact splits_none
  | case5 c rest _ _ _ _ ih => exact ih.after c
  | case6 => exact splits_none
  | case7 => exact splits_none

theorem splits_raw (cs : List Char) : Splits cs (raw kind cs) := by
  have hcs : cs.takeWhile (· == '#') ++ cs.dropWhile (· == '#') = cs :=
    List.takeWhile_append_dropWhile
  unfold raw
  generalize cs.takeWhile (· == '#') = hashes at hcs ⊢
  dsimp only
  split
  · next rest hrest =>
    rw [← hcs, hrest]
    refine .ite (fun _ => ?_) fun _ => splits_none
    have hpiece := ((splits_rawRest kind hashes rest).after '"').map hashes
    rwa [Lexeme.after, Option.map_map] at hpiece
  · exact splits_none

theorem splits_single (cs : List Char) : Splits cs (single kind cs) := by
  cases cs with
  | nil => exact splits_none
  | cons mark rest =>
    refine .ite (fun _ => ?_) fun _ => splits_none
    refine Splits.after (.andThen ?_ (splits_exactly _)) mark
    split
    · exact (splits_escape kind _).after '\\'
    · exact .ite (fun _ => splits_some rfl) fun _ => splits_none
    · exact splits_none

end Quoted

theorem splits_quotation (cs : List Char) : Splits cs (quotation cs) := by
  unfold quotation
  split
  · exact splits_quoted _ _
  · exact (splits_raw _ _).after _
  · exact ((splits_raw _ _).after _).after _
  · exact (splits_quoted _ _).after _
  · exact (splits_single _ _).after _
  · exact ((splits_raw _ _).after _).after _
  · exact (splits_quoted _ _).after _
  · exact splits_single _ _

/-! ## Numbers -/

theorem run_eq (p : Char → Bool) (cs : List Char) : cs = (run p cs).1 ++ (run p cs).2 :=
  List.takeWhile_append_dropWhile.symm

theorem splits_exponent (cs : List Char) : Splits cs (exponent cs) := by
  have hlead := run_eq (· == '_') cs
  unfold exponent
  generalize run (· == '_') cs = lead at hlead ⊢
  dsimp only
  refine .ite (fun _ => splits_some ?_) fun _ => splits_none
  rw [List.append_assoc, ← run_eq, List.append_assoc]
  split
  · next more hmore => rwa [hmore] at hlead
  · next more hmore => rwa [hmore] at hlead
  · exact hlead

/-- Behind the digits of a number and of its fraction, an exponent may follow. -/
theorem append_exponent {whole fraction rest taken left : List Char}
    (h : (match rest with
      | e :: more =>
        if e = 'e' ∨ e = 'E' then
          match exponent more with
          | some (power, left) => some (whole ++ fraction ++ e :: power, left)
          | none => if fraction.isEmpty then none else some (whole ++ fraction, rest)
        else if fraction.isEmpty then none else some (whole ++ fraction, rest)
      | [] => if fraction.isEmpty then none else some (whole ++ fraction, rest)) =
      some (taken, left)) : whole ++ fraction ++ rest = taken ++ left := by
  have hplain : (if fraction.isEmpty then none else some (whole ++ fraction, rest)) =
      some (taken, left) → whole ++ fraction ++ rest = taken ++ left :=
    Splits.ite (fun _ => splits_none) (fun _ => splits_some rfl) taken left
  split at h
  · next e more =>
    split at h
    · split at h
      · next power behind hexponent =>
        cases h
        rw [splits_exponent more _ _ hexponent, List.append_assoc _ (e :: power),
          List.cons_append]
      · exact hplain h
    · exact hplain h
  · exact hplain h

theorem splits_floatDigits (cs : List Char) : Splits cs (floatDigits cs) := by
  intro taken left h
  obtain ⟨⟨⟩, -, h⟩ := Option.bind_eq_some_iff.1 h
  have hwhole := run_eq isDigitOrBlank cs
  generalize run isDigitOrBlank cs = whole at hwhole h
  rw [hwhole]
  dsimp only at h
  split at h
  · next more hmore =>
    split at h
    · cases h
    · have hdigits := run_eq isDigitOrBlank more
      have hend : whole.1 ++ '.' :: (run isDigitOrBlank more).1 ++ (run isDigitOrBlank more).2 =
          taken ++ left := append_exponent h
      rwa [List.append_assoc, List.cons_append, ← hdigits, ← hmore] at hend
  · have hend : whole.1 ++ [] ++ whole.2 = taken ++ left := append_exponent h
    rwa [List.append_nil] at hend

theorem splits_baseDigits (base : Nat) (cs : List Char) : Splits cs (baseDigits base cs) :=
  .ite (fun _ => splits_none) fun _ => .ite (fun _ => splits_none) fun _ =>
    .ite (fun _ => splits_none) fun _ => splits_some (run_eq _ cs)

theorem splits_wholeDigits (cs : List Char) : Splits cs (wholeDigits cs) := by
  unfold wholeDigits
  split
  · exact ((splits_baseDigits _ _).after _).after _
  · exact ((splits_baseDigits _ _).after _).after _
  · exact ((splits_baseDigits _ _).after _).after _
  · exact splits_baseDigits _ _

theorem splits_number (h : Splits cs piece) : Splits cs (number piece) :=
  (h.andThen splits_suffix).andThen splits_wordBreak

theorem splits_literal (cs : List Char) : Splits cs (literal cs) := by
  unfold literal
  split
  · next hpiece => exact hpiece ▸ (splits_quotation cs).andThen splits_suffix
  · split
    · next hpiece => exact hpiece ▸ splits_number (splits_floatDigits cs)
    · split
      · next hpiece => exact hpiece ▸ splits_number (splits_wholeDigits cs)
      · exact splits_exactly _ _

/-- A mark is one character. -/
theorem mark_eq {rest : List Char} {joint : Bool} (h : mark cs = some (c, joint, rest)) :
    cs = c :: rest := by
  cases cs with
  | nil => cases h
  | cons d cs =>
    rw [mark] at h
    split at h
    · cases h
    · split at h
      · split at h
        · cases h
          rfl
        · cases h
      · cases h
        rfl

end ApiDecl.Syntax.Lexeme
