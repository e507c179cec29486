import ApiDecl.Json.Printer
import ApiDecl.Json.Reader
import Mathlib.Data.Nat.Digits.Defs

/-!
# Proofs: texts and numbers in JSON

A text that is written with escapes is read as the same characters, whatever they are
(`readUnits_escaped`, `textOf?_unitsOf`), and a whole number as the same number
(`readNumber_whole`, `value?_wholeSpelling`), provided that nothing behind it goes on with it.
-/

namespace ApiDecl.Json

/-! ## Texts -/

/-- Whether a character is written by its number: a control character without its own letter. -/
def isNumbered (c : Char) : Bool :=
  c.toNat < 32 && c != Char.ofNat 8 && c != Char.ofNat 12 && c != '\n' && c != '\r' && c != '\t'

/-- A character of a text as it is written. -/
def unitOf (c : Char) : TextUnit := if isNumbered c then .code c.toNat else .char c

/-- A text as it is written. -/
def unitsOf (s : String) : List TextUnit := s.toList.map unitOf

theorem unitValue?_control : ∀ n < 32,
    unitValue? '0' '0' (hexDigit (n / 16)) (hexDigit (n % 16)) = some n := by
  decide

theorem readUnits_plain {c : Char} (hquote : c ≠ '"') (hslash : c ≠ '\\') (hc : ¬ c.toNat < 32)
    (rest : List Char) : readUnits (c :: rest) = (readUnits rest).map (consUnit (.char c)) := by
  rw [readUnits.eq_def]
  split
  · next h => cases h
  · next h => exact absurd (List.cons.inj h).1 hquote
  · next h => exact absurd (List.cons.inj h).1 hslash
  · next h => exact absurd (List.cons.inj h).1 hslash
  · next h =>
    obtain ⟨rfl, rfl⟩ := List.cons.inj h
    rw [if_neg hc]

theorem readUnits_short {letter c : Char} (hletter : letter ≠ 'u')
    (h : shortEscape? letter = some c) (rest : List Char) :
    readUnits ('\\' :: letter :: rest) = (readUnits rest).map (consUnit (.char c)) := by
  rw [readUnits.eq_def]
  split
  · next heq => cases heq
  · next heq => exact absurd (List.cons.inj heq).1 (by decide)
  · next heq => exact absurd (List.cons.inj (List.cons.inj heq).2).1 hletter
  · next heq =>
    obtain ⟨rfl, rfl⟩ := List.cons.inj (List.cons.inj heq).2
    rw [h]
    cases readUnits rest <;> rfl
  · next hnot heq =>
    obtain ⟨rfl, rfl⟩ := List.cons.inj heq
    exact absurd rfl (hnot letter rest rfl)

/-- A character is read as it is written. -/
theorem readUnits_escapeChar (c : Char) (rest : List Char) :
    readUnits (escapeChar c ++ rest) = (readUnits rest).map (consUnit (unitOf c)) := by
  by_cases hcontrol : isNumbered c = true
  · have hunit : unitOf c = .code c.toNat := if_pos hcontrol
    simp only [isNumbered, Bool.and_eq_true, decide_eq_true_eq, bne_iff_ne] at hcontrol
    obtain ⟨⟨⟨⟨⟨hc, h8⟩, h12⟩, hn⟩, hr⟩, ht⟩ := hcontrol
    have hquote : c ≠ '"' := by rintro rfl; exact absurd hc (by decide)
    have hslash : c ≠ '\\' := by rintro rfl; exact absurd hc (by decide)
    have hescape : escapeChar c =
        ['\\', 'u', '0', '0', hexDigit (c.toNat / 16), hexDigit (c.toNat % 16)] := by
      simp [escapeChar, hquote, hslash, h8, h12, hn, hr, ht, hc]
    rw [hescape, hunit]
    simp only [List.cons_append, List.nil_append, readUnits, unitValue?_control _ hc]
    cases readUnits rest <;> rfl
  · have hunit : unitOf c = .char c := if_neg hcontrol
    rw [hunit]
    unfold escapeChar
    split_ifs with hquote hslash h8 h12 hn hr ht hc
    · subst hquote; exact readUnits_short (by decide) rfl rest
    · subst hslash; exact readUnits_short (by decide) rfl rest
    · subst h8; exact readUnits_short (by decide) rfl rest
    · subst h12; exact readUnits_short (by decide) rfl rest
    · subst hn; exact readUnits_short (by decide) rfl rest
    · subst hr; exact readUnits_short (by decide) rfl rest
    · subst ht; exact readUnits_short (by decide) rfl rest
    · exact absurd (by simp [isNumbered, h8, h12, hn, hr, ht, hc]) hcontrol
    · exact readUnits_plain hquote hslash hc rest

theorem readUnits_escaped (cs rest : List Char) :
    readUnits (cs.flatMap escapeChar ++ '"' :: rest) = some (cs.map unitOf, rest) := by
  induction cs with
  | nil => rfl
  | cons c cs ih =>
    rw [List.flatMap_cons, List.append_assoc, readUnits_escapeChar, ih]
    rfl

/-- The number of a control character is not half of a pair. -/
theorem charsOf?_code {n : Nat} (hn : n < 32) (units : List TextUnit) :
    charsOf? (.code n :: units) = (charsOf? units).map (Char.ofNat n :: ·) := by
  have hhigh : isHighSurrogate n = false := by simp [isHighSurrogate]; omega
  have hlow : isLowSurrogate n = false := by simp [isLowSurrogate]; omega
  match units with
  | [] => simp [charsOf?, hhigh, hlow]
  | .char c :: rest => simp [charsOf?, hhigh, hlow]
  | .code m :: rest => simp [charsOf?, hhigh, hlow]

theorem charsOf?_map_unitOf (cs : List Char) : charsOf? (cs.map unitOf) = some cs := by
  induction cs with
  | nil => rfl
  | cons c cs ih =>
    rw [List.map_cons]
    by_cases hcontrol : isNumbered c = true
    · have hunit : unitOf c = .code c.toNat := if_pos hcontrol
      have hc : c.toNat < 32 := by
        simp only [isNumbered, Bool.and_eq_true, decide_eq_true_eq] at hcontrol
        omega
      rw [hunit, charsOf?_code hc, ih, Option.map_some, Char.ofNat_toNat]
    · have hunit : unitOf c = .char c := if_neg hcontrol
      rw [hunit, charsOf?, ih, Option.map_some]

@[simp] theorem textOf?_unitsOf (s : String) : textOf? (unitsOf s) = some s := by
  rw [textOf?, unitsOf, charsOf?_map_unitOf, Option.map_some, String.ofList_toList]

/-! ## Whole numbers -/

/-- What stands behind a number does not go on with it. -/
def EndsNumber (rest : List Char) : Prop :=
  ∀ c, rest.head? = some c → c.isDigit = false ∧ c ≠ '.' ∧ c ≠ 'e' ∧ c ≠ 'E'

theorem digitsValue_toDigits (n : Nat) : digitsValue (Nat.toDigits 10 n) = n := by
  have h := Nat.ofDigitChars_toDigits (n := n) (show 1 < 10 by decide) (by decide)
  rw [Nat.ofDigitChars_eq_foldl] at h
  exact h

theorem isDigit_of_mem {n : Nat} {c : Char} (hc : c ∈ Nat.toDigits 10 n) : c.isDigit = true :=
  Nat.isDigit_of_mem_toDigits (by decide) (by decide) hc

/-- Only zero starts with a zero. -/
theorem toDigits_head (n : Nat) (h : (Nat.toDigits 10 n).head? = some '0') :
    (Nat.toDigits 10 n).length ≤ 1 := by
  induction n using Nat.strongRecOn with
  | ind n ih =>
    rw [Nat.toDigits_eq_if (by decide)] at h ⊢
    split_ifs at h ⊢ with hn
    · simp
    · have hpos : 0 < n / 10 := Nat.div_pos (by omega) (by decide)
      have hhead : (Nat.toDigits 10 (n / 10)).head? = some '0' := by
        cases hdigits : Nat.toDigits 10 (n / 10) with
        | nil => exact absurd hdigits Nat.toDigits_ne_nil
        | cons d ds =>
          rw [hdigits] at h
          exact h
      have hlength := ih (n / 10) (Nat.div_lt_self (by omega) (by decide)) hhead
      -- one digit that is zero would make the rest of the number zero
      have hvalue := digitsValue_toDigits (n / 10)
      match hdigits : Nat.toDigits 10 (n / 10), hhead, hlength with
      | [d], hhead, _ =>
        rw [hdigits] at hvalue
        obtain rfl : d = '0' := Option.some.inj hhead
        exact absurd hvalue (by simp [digitsValue]; omega)

theorem readDigits_append {digits rest : List Char} (hne : digits ≠ [])
    (hdigits : ∀ c ∈ digits, c.isDigit = true) (hrest : EndsNumber rest) :
    readDigits (digits ++ rest) = some (digits, rest) := by
  have htake : (digits ++ rest).takeWhile Char.isDigit = digits := by
    rw [List.takeWhile_append_of_pos hdigits]
    cases rest with
    | nil => simp
    | cons c rest => simp [(hrest c rfl).1]
  have hdrop : (digits ++ rest).dropWhile Char.isDigit = rest := by
    rw [List.dropWhile_append_of_pos hdigits]
    cases rest with
    | nil => rfl
    | cons c rest => simp [(hrest c rfl).1]
  unfold readDigits
  rw [htake, hdrop]
  cases digits with
  | nil => exact absurd rfl hne
  | cons d ds => rfl

theorem readMagnitude_digits (negative : Bool) (n : Nat) {rest : List Char}
    (hrest : EndsNumber rest) :
    readMagnitude negative (Nat.toDigits 10 n ++ rest) =
      some (⟨negative, Nat.toDigits 10 n, none, none⟩, rest) := by
  have hwhole : readWhole (Nat.toDigits 10 n ++ rest) = some (Nat.toDigits 10 n, rest) := by
    unfold readWhole
    rw [readDigits_append Nat.toDigits_ne_nil (fun c => isDigit_of_mem) hrest]
    have hnot : ¬ ((Nat.toDigits 10 n).head? = some '0' ∧ 1 < (Nat.toDigits 10 n).length) := by
      rintro ⟨hhead, hlength⟩
      have := toDigits_head n hhead
      omega
    exact if_neg hnot
  have hfraction : readFraction rest = some (none, rest) := by
    unfold readFraction
    split
    · next cs => exact absurd rfl (hrest '.' rfl).2.1
    · rfl
  have hexponent : readExponent rest = some (none, rest) := by
    cases rest with
    | nil => rfl
    | cons c cs =>
      obtain ⟨-, -, he, hE⟩ := hrest c rfl
      simp [readExponent, he, hE]
  unfold readMagnitude
  rw [hwhole]
  simp [hfraction, hexponent]

/-- A whole number as it is written. -/
def wholeSpelling (n : Int) : NumberSpelling := ⟨n < 0, Nat.toDigits 10 n.natAbs, none, none⟩

theorem toList_toString (n : Int) :
    (toString n).toList = (if n < 0 then ['-'] else []) ++ Nat.toDigits 10 n.natAbs := by
  cases n with
  | ofNat m => simp [Int.toString_eq_repr, Int.repr, Nat.repr_eq_ofList_toDigits]
  | negSucc m =>
    simp [Int.toString_eq_repr, Int.repr, Nat.repr_eq_ofList_toDigits]

/-- A whole number is read as it is written. -/
theorem readNumber_whole (n : Int) {rest : List Char} (hrest : EndsNumber rest) :
    readNumber ((toString n).toList ++ rest) = some (wholeSpelling n, rest) := by
  rw [toList_toString]
  by_cases hn : n < 0
  · rw [if_pos hn, List.cons_append, List.nil_append, List.cons_append, readNumber,
      readMagnitude_digits true n.natAbs hrest, wholeSpelling, decide_eq_true hn]
  · rw [if_neg hn, List.nil_append, readNumber.eq_def]
    have hspelling := readMagnitude_digits false n.natAbs hrest
    split
    · next cs heq =>
      -- the first of the digits is not a minus sign
      cases hdigits : Nat.toDigits 10 n.natAbs with
      | nil => exact absurd hdigits Nat.toDigits_ne_nil
      | cons d ds =>
        rw [hdigits, List.cons_append] at heq
        have hd : d.isDigit = true := isDigit_of_mem (hdigits ▸ List.mem_cons_self)
        rw [(List.cons.inj heq).1] at hd
        exact absurd hd (by decide)
    · rw [hspelling, wholeSpelling, decide_eq_false hn]

theorem value?_wholeSpelling (n : Int) (h : IsWhole n) :
    (wholeSpelling n).value? = some (.whole n h) := by
  have hvalue : (if n < 0 then -(n.natAbs : Int) else (n.natAbs : Int)) = n := by
    split_ifs <;> omega
  have hminus : n < 0 → n.natAbs ≠ 0 := by omega
  simp only [NumberSpelling.value?, wholeSpelling, digitsValue_toDigits, decide_eq_true_eq, hvalue]
  exact dif_pos ⟨trivial, trivial, h, hminus⟩

end ApiDecl.Json
