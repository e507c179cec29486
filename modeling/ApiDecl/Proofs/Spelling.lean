import ApiDecl.Syntax.StringLiteral

/-!
# Proofs: spelled texts are read back

Every text has a spelling between double quotes, and this spelling stands for the text
(`StringLiteral.value?_spell`): each character is read back from its escape, whatever comes behind.
-/

namespace ApiDecl.Syntax.StringLiteral

open Text

/-! ## Escapes in braces -/

theorem hexValue?_digitChar : ∀ d < 16, hexValue? (Nat.digitChar d) = some d := by decide

theorem codePoint_append (digits : List Char) {c : Char} {d : Nat} (hc : hexValue? c = some d) :
    codePoint (digits ++ [c]) = 16 * codePoint digits + d := by
  simp [codePoint, List.filterMap_append, hc]

/-- The hexadecimal digits of a number are digits, and they stand for the number. -/
theorem codePoint_toDigits (n : Nat) :
    (∀ c ∈ Nat.toDigits 16 n, (hexValue? c).isSome = true) ∧ codePoint (Nat.toDigits 16 n) = n := by
  induction n using Nat.strongRecOn with
  | ind n ih =>
    have hlast := hexValue?_digitChar (n % 16) (Nat.mod_lt n (by decide))
    rw [Nat.toDigits_eq_if (by decide)]
    split
    · next hn =>
      rw [Nat.mod_eq_of_lt hn] at hlast
      refine ⟨by simp [hlast], ?_⟩
      have happend := codePoint_append [] hlast
      rwa [List.nil_append, show codePoint [] = 0 from rfl, Nat.mul_zero, Nat.zero_add] at happend
    · next hn =>
      obtain ⟨hdigits, hvalue⟩ := ih (n / 16) (Nat.div_lt_self (by omega) (by decide))
      constructor
      · rw [List.forall_mem_append]
        exact ⟨hdigits, by simp [hlast]⟩
      · rw [codePoint_append _ hlast, hvalue]
        omega

theorem plainValue?_braced {digits : List Char} (h : ∀ c ∈ digits, (hexValue? c).isSome = true)
    (read later : List Char) : plainValue? (.braced read) (digits ++ '\x7d' :: later) =
      (plainValue? .text later).map (Char.ofNat (codePoint (read.reverse ++ digits)) :: ·) := by
  induction digits generalizing read with
  | nil => simp [plainValue?]
  | cons c digits ih =>
    obtain ⟨hc, hdigits⟩ := List.forall_mem_cons.1 h
    have hbrace : c ≠ '\x7d' := by
      rintro rfl
      cases hc
    rw [List.cons_append, plainValue?, if_neg hbrace, ih hdigits, List.reverse_cons,
      List.append_assoc, List.singleton_append]

/-! ## Characters -/

/-- A character that ends no literal and starts no escape stands for itself. -/
theorem plainValue?_plain {c : Char} (hquote : c ≠ '"') (hslash : c ≠ '\\') (hreturn : c ≠ '\r')
    (later : List Char) :
    plainValue? .text (c :: later) = (plainValue? .text later).map (c :: ·) := by
  rw [plainValue?.eq_def]
  split <;> simp_all

/-- The characters behind a backslash, and those that they are read as. -/
def shortEscapes : List (Char × Char) :=
  [('0', Char.ofNat 0), ('t', '\t'), ('r', '\r'), ('n', '\n'), ('\\', '\\'), ('"', '"')]

theorem plainValue?_short {c d : Char} (h : (c, d) ∈ shortEscapes) (later : List Char) :
    plainValue? .text ('\\' :: c :: later) = (plainValue? .text later).map (d :: ·) := by
  simp only [shortEscapes, List.mem_cons, Prod.mk.injEq, List.not_mem_nil, or_false] at h
  rw [plainValue?]
  rcases h with ⟨rfl, rfl⟩ | ⟨rfl, rfl⟩ | ⟨rfl, rfl⟩ | ⟨rfl, rfl⟩ | ⟨rfl, rfl⟩ | ⟨rfl, rfl⟩ <;>
    simp [plainValue?.escaped]

theorem plainValue?_code (c : Char) (later : List Char) :
    plainValue? .text ('\\' :: 'u' :: '\x7b' :: (Nat.toDigits 16 c.toNat ++ '\x7d' :: later)) =
      (plainValue? .text later).map (c :: ·) := by
  obtain ⟨hdigits, hvalue⟩ := codePoint_toDigits c.toNat
  rw [plainValue?, plainValue?.escaped, plainValue?_braced hdigits, List.reverse_nil,
    List.nil_append, hvalue, Char.ofNat_toNat]

theorem escapeChar_short {c d : Char} (h : (c, d) ∈ shortEscapes) :
    escapeChar false d = ['\\', c] := by
  have hall : ∀ e ∈ shortEscapes, escapeChar false e.2 = ['\\', e.1] := by decide
  exact hall (c, d) h

/-- What a character is written as is read back. -/
theorem plainValue?_escapeChar (c : Char) (later : List Char) :
    plainValue? .text (escapeChar false c ++ later) = (plainValue? .text later).map (c :: ·) := by
  by_cases hshort : ∃ d, (d, c) ∈ shortEscapes
  · obtain ⟨d, hd⟩ := hshort
    rw [escapeChar_short hd]
    exact plainValue?_short hd later
  · have hno : ∀ {d e}, (d, e) ∈ shortEscapes → c ≠ e := fun he hc => hshort ⟨_, hc ▸ he⟩
    have hzero : c ≠ Char.ofNat 0 := hno (d := '0') (by decide)
    have htab : c ≠ '\t' := hno (d := 't') (by decide)
    have hreturn : c ≠ '\r' := hno (d := 'r') (by decide)
    have hfeed : c ≠ '\n' := hno (d := 'n') (by decide)
    have hslash : c ≠ '\\' := hno (d := '\\') (by decide)
    have hquote : c ≠ '"' := hno (d := '"') (by decide)
    have hself := plainValue?_plain hquote hslash hreturn later
    rw [escapeChar, if_neg hzero, if_neg htab, if_neg hreturn, if_neg hfeed, if_neg hslash,
      if_neg hquote]
    split
    · next hc => exact hc ▸ hself
    split
    · exact hself
    · simpa using plainValue?_code c later

theorem plainValue?_spellChars (cs later : List Char) :
    plainValue? .text (spellChars cs ++ later) = (plainValue? .text later).map (cs ++ ·) := by
  induction cs generalizing later with
  | nil => simp [spellChars]
  | cons c cs ih =>
    have hfirst : ∀ later, plainValue? .text
        ((if c = Char.ofNat 0 ∧ startsOctal cs then ['\\', 'x', '0', '0']
          else escapeChar false c) ++ later) = (plainValue? .text later).map (c :: ·) := by
      intro later
      split
      · next hc =>
        have hzero : Char.ofNat (codePoint ['0', '0']) = c := hc.1.symm ▸ rfl
        simp only [List.cons_append, List.nil_append, plainValue?, plainValue?.escaped, hzero]
      · exact plainValue?_escapeChar c later
    rw [spellChars, List.append_assoc, hfirst, ih, Option.map_map]
    rfl

/-- The spelling of a text stands for the text. -/
theorem value?_spell (cs : List Char) : value? (spell cs) = some (String.ofList cs) := by
  have hvalue : plainValue? .text (spellChars cs ++ ['"']) = some cs := by
    rw [plainValue?_spellChars, plainValue?, Option.map_some, List.append_nil]
  have hspell : (spell cs).toList = '"' :: (spellChars cs ++ ['"']) := String.toList_ofList
  simp only [value?, hspell, hvalue, Option.map_some]

end ApiDecl.Syntax.StringLiteral
