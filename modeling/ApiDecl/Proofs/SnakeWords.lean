import ApiDecl.Proofs.FunctionNames
import ApiDecl.Proofs.Lexing

/-!
# Proofs: names in snake case

The lower-case form of a character of a word is made of characters of a word, so a word in snake case
is a word, and so are the names of the functions of a group.
-/

namespace ApiDecl

open Syntax Syntax.Lexeme

namespace Text

variable {c : Char}

/-! ## Lower case -/

/-- The code points from `first` to `last` are in one of the ranges. -/
def within (ranges : List (Nat × Nat)) (first last : Int) : Bool :=
  ranges.any fun r => r.1 ≤ first && last ≤ r.2

/-- The code points from `first` to `last` are in none of the ranges. -/
def outside (ranges : List (Nat × Nat)) (first last : Nat) : Bool :=
  ranges.all fun r => r.2 < first || last < r.1

/-- Small letters start words, and so do the lower-case forms of all other characters of words; one
of these is an ASCII letter. -/
theorem loweringOffsets_words : ∀ entry ∈ loweringOffsets,
    (within wordStartRanges (entry.1.first + entry.2) (entry.1.last + entry.2) ||
      (outside wordStartRanges entry.1.first entry.1.last &&
        outside wordTailRanges entry.1.first entry.1.last) ||
      (entry.1.first == entry.1.last && entry.1.first + entry.2 == 'k'.toNat)) = true := by
  decide +kernel

/-- The ranges have characters beyond ASCII. -/
theorem wordStartRanges_valid : ∀ r ∈ wordStartRanges,
    0x80 ≤ r.1 ∧ (r.2 < 0xD800 ∨ (0xDFFF < r.1 ∧ r.2 < 0x110000)) := by
  decide +kernel

theorem isWordStart_ofNat {n : Nat} (h : inRanges wordStartRanges n = true) :
    isWordStart (Char.ofNat n) = true := by
  obtain ⟨r, hr, hin⟩ := List.any_eq_true.1 h
  simp only [Bool.and_eq_true, decide_eq_true_eq] at hin
  have hranges := wordStartRanges_valid r hr
  have hvalid : n.isValidChar := by
    simp only [Nat.isValidChar]
    omega
  have hcode : (Char.ofNat n).toNat = n := by
    rw [Char.ofNat, dif_pos hvalid]
    rfl
  rw [isWordStart, hcode, if_neg (by omega), h]

/-- The lower-case form of a character of a word is one that starts a word, if it is in the table. -/
theorem isWordStart_lowered {entry : CodeRange × Int} (hentry : entry ∈ loweringOffsets)
    (hin : entry.1.contains c.toNat = true) (hascii : ¬ c.toNat < 0x80)
    (hc : isWordTail c = true) : isWordStart (Char.ofNat (c.toNat + entry.2).toNat) = true := by
  simp only [CodeRange.contains, Bool.and_eq_true, decide_eq_true_eq] at hin
  obtain ⟨⟨hfirst, hlast⟩, -⟩ := hin
  have hwords := loweringOffsets_words entry hentry
  rw [Bool.or_eq_true, Bool.or_eq_true] at hwords
  rcases hwords with (hwithin | houtside) | hletter
  · obtain ⟨r, hr, hinside⟩ := List.any_eq_true.1 hwithin
    simp only [Bool.and_eq_true, decide_eq_true_eq] at hinside
    refine isWordStart_ofNat (List.any_eq_true.2 ⟨r, hr, ?_⟩)
    simp only [Bool.and_eq_true, decide_eq_true_eq]
    omega
  · rw [isWordTail, if_neg hascii, Bool.or_eq_true] at hc
    rw [Bool.and_eq_true, outside, outside, List.all_eq_true, List.all_eq_true] at houtside
    have hno : ∀ ranges : List (Nat × Nat), (∀ r ∈ ranges,
        (decide (r.2 < entry.1.first) || decide (entry.1.last < r.1)) = true) →
        inRanges ranges c.toNat = false := by
      intro ranges hranges
      rw [inRanges, List.any_eq_false]
      intro r hr
      have hapart := hranges r hr
      simp only [Bool.or_eq_true, decide_eq_true_eq] at hapart
      simp only [Bool.and_eq_true, decide_eq_true_eq]
      omega
    rw [hno _ houtside.1, hno _ houtside.2] at hc
    simp at hc
  · simp only [Bool.and_eq_true, beq_iff_eq] at hletter
    have hk : (c.toNat + entry.2).toNat = 'k'.toNat := by omega
    rw [hk]
    decide

theorem toLower_ascii : ∀ n < 0x80,
    (isWordTail (Char.ofNat n) → isWordTail (Char.ofNat n).toLower) ∧
    (isWordStart (Char.ofNat n) → isWordStart (Char.ofNat n).toLower) := by
  decide +kernel

theorem isWordTail_toLower (hc : isWordTail c = true) : ∀ d ∈ toLower c, isWordTail d = true := by
  intro d hd
  unfold toLower at hd
  split at hd
  · next hascii =>
    have hlower := (toLower_ascii _ hascii).1
    rw [Char.ofNat_toNat] at hlower
    rw [List.mem_singleton.1 hd]
    exact hlower hc
  · next hascii =>
    split at hd
    · have hdot : ∀ d ∈ ['i', Char.ofNat 0x307], isWordTail d = true :=
        List.forall_mem_cons.2 ⟨by decide +kernel, List.forall_mem_singleton.2 (by decide +kernel)⟩
      exact hdot d hd
    · split at hd
      · next range offset hfind =>
        rw [List.mem_singleton.1 hd]
        have hin := List.find?_some hfind
        exact isWordTail_of_start
          (isWordStart_lowered (List.mem_of_find?_eq_some hfind) hin hascii hc)
      · rw [List.mem_singleton.1 hd]
        exact hc

theorem isWordStart_toLower (hc : isWordStart c = true) :
    ∃ d ds, toLower c = d :: ds ∧ isWordStart d = true := by
  unfold toLower
  split
  · next hascii =>
    have hlower := (toLower_ascii _ hascii).2
    rw [Char.ofNat_toNat] at hlower
    exact ⟨_, _, rfl, hlower hc⟩
  · next hascii =>
    split
    · exact ⟨_, _, rfl, by decide⟩
    · split
      · next range offset hfind =>
        have hin := List.find?_some hfind
        exact ⟨_, _, rfl, isWordStart_lowered (List.mem_of_find?_eq_some hfind) hin hascii
          (isWordTail_of_start hc)⟩
      · exact ⟨_, _, rfl, hc⟩

/-! ## Snake case -/

theorem isWordTail_snakeFrom {cs : List Char} (hcs : ∀ c ∈ cs, isWordTail c = true)
    (before : Option Char) : ∀ d ∈ snakeFrom before cs, isWordTail d = true := by
  induction cs generalizing before with
  | nil => exact List.forall_mem_nil _
  | cons c rest ih =>
    obtain ⟨hc, hrest⟩ := List.forall_mem_cons.1 hcs
    rw [snakeFrom]
    refine List.forall_mem_append.2 ⟨List.forall_mem_append.2 ⟨?_, isWordTail_toLower hc⟩,
      ih hrest (some c)⟩
    split
    · exact List.all_iff_forall_prop.1 (by decide)
    · exact List.forall_mem_nil _

/-- A word in snake case is a word. -/
theorem plainWord_snakeCase {name : String}
    (h : plainWord name.toList = some (name.toList, [])) : ∃ d ds,
      (snakeCase name).toList = d :: ds ∧ isWordStart d = true ∧ ∀ e ∈ ds, isWordTail e = true := by
  obtain ⟨c, tail, hname, hstart, htail⟩ := Lexer.plainWord_iff.1 h
  obtain ⟨d, ds, hlower, hd⟩ := isWordStart_toLower hstart
  have htails := isWordTail_toLower (isWordTail_of_start hstart)
  rw [hlower] at htails
  refine ⟨d, ds ++ snakeFrom (some c) tail, ?_, hd, ?_⟩
  · rw [snakeCase, String.toList_ofList, hname, snakeFrom, hlower]
    rfl
  · exact List.forall_mem_append.2 ⟨(List.forall_mem_cons.1 htails).2, isWordTail_snakeFrom htail _⟩

end Text

/-! ## Functions -/

/-- An underscore in a name makes it different from the reserved words. -/
theorem not_reserved_of_underscore {name : String} (h : '_' ∈ name.toList) (hne : name ≠ "_") :
    name ∉ Peek.reservedWords := by
  have hwords : ∀ w ∈ Peek.reservedWords, w = "_" ∨ '_' ∉ w.toList := by decide
  intro hmem
  exact (hwords name hmem).elim hne (· h)

variable {service : String}

theorem isIdentifier_routesFunction
    (h : plainWord service.toList = some (service.toList, [])) :
    IsIdentifier (routesFunction service) := by
  obtain ⟨d, ds, hsnake, hd, hds⟩ := Text.plainWord_snakeCase h
  have htext : (routesFunction service).toList = d :: (ds ++ "_routes".toList) := by
    rw [routesFunction, String.toList_append, hsnake, List.cons_append]
  refine ⟨anyWord_of_plainWord (Lexer.plainWord_iff.2 ⟨d, _, htext, hd, ?_⟩), ?_⟩
  · exact List.forall_mem_append.2 ⟨hds, List.all_iff_forall_prop.1 (by decide)⟩
  · refine not_reserved_of_underscore (htext ▸ by simp) fun heq => ?_
    have hlength := congrArg (·.toList.length) heq
    simp [htext] at hlength

theorem isIdentifier_addFunction
    (h : plainWord service.toList = some (service.toList, [])) :
    IsIdentifier (addFunction service) := by
  obtain ⟨d, ds, hsnake, hd, hds⟩ := Text.plainWord_snakeCase h
  have htext : (addFunction service).toList = 'a' :: ("dd_route_".toList ++ d :: ds) := by
    rw [addFunction, String.toList_append, hsnake]
    rfl
  refine ⟨anyWord_of_plainWord (Lexer.plainWord_iff.2 ⟨'a', _, htext, by decide, ?_⟩), ?_⟩
  · exact List.forall_mem_append.2 ⟨List.all_iff_forall_prop.1 (by decide),
      List.forall_mem_cons.2 ⟨isWordTail_of_start hd, hds⟩⟩
  · refine not_reserved_of_underscore (htext ▸ by simp) fun heq => ?_
    have hlength := congrArg (·.toList.length) heq
    simp [htext] at hlength

end ApiDecl
