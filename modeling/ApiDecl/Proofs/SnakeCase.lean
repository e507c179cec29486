import ApiDecl.Text.SnakeCase
import Mathlib.Tactic.SplitIfs

/-!
# Proofs: snake case

Snake case forgets the case of letters and which underscores were written, and keeps the words of a
name: the words are read back between the underscores (`Text.snakeCase_eq_iff`).
-/

namespace ApiDecl

namespace Text

/-! ## The words of a name -/

/-- A text in small letters. -/
def lowerCase (cs : List Char) : List Char := cs.flatMap toLower

/-- The words of a name from a character on. A word ends before an underscore, which belongs to no
word, and before a character that starts a word. -/
def wordsFrom (before : Option Char) : List Char → List (List Char)
  | [] => [[]]
  | c :: rest =>
    let words := wordsFrom (some c) rest
    if c = '_' then [] :: words
    else if startsWord before c rest.head? then [] :: words.modifyHead (c :: ·)
    else words.modifyHead (c :: ·)

/-- The words of a name, in small letters. -/
def nameWords (name : String) : List (List Char) := (wordsFrom none name.toList).map lowerCase

/-- The letters of a name without underscores and without their case. -/
def letters (name : String) : List Char := lowerCase (name.toList.filter (· != '_'))

/-- A name has a first word, which may be empty. -/
theorem exists_wordsFrom (before : Option Char) (cs : List Char) :
    ∃ word words, wordsFrom before cs = word :: words := by
  induction cs generalizing before with
  | nil => exact ⟨_, _, rfl⟩
  | cons c rest ih =>
    obtain ⟨word, words, hwords⟩ := ih (some c)
    simp only [wordsFrom, hwords, List.modifyHead_cons]
    split_ifs
    · exact ⟨_, _, rfl⟩
    · exact ⟨_, _, rfl⟩
    · exact ⟨_, _, rfl⟩

theorem wordsFrom_ne_nil (before : Option Char) (cs : List Char) : wordsFrom before cs ≠ [] := by
  obtain ⟨word, words, hwords⟩ := exists_wordsFrom before cs
  rw [hwords]
  exact List.cons_ne_nil _ _

theorem toLower_underscore : toLower '_' = ['_'] := by decide

theorem startsWord_underscore (before after : Option Char) :
    startsWord before '_' after = false := by
  cases before with
  | none => rfl
  | some b =>
    have hupper : isUpper '_' = false := by decide
    rw [startsWord, hupper, Bool.false_and]

/-- No range of the table reaches down to an underscore. -/
theorem loweringOffsets_above :
    ∀ entry ∈ loweringOffsets, 0x5F < (entry.1.first : Int) + entry.2 := by
  decide +kernel

theorem eq_underscore_of_toLower {c : Char} (h : c.toLower = '_') : c = '_' := by
  unfold Char.toLower at h
  split at h
  · next hupper =>
    -- a capital becomes a letter, and the underscore is between the capitals and those
    have hval : (c.val + ('a'.val - 'A'.val)).toNat = 0x5F := congrArg (·.val.toNat) h
    have hle : 'A'.val.toNat ≤ c.val.toNat := hupper.1
    have hge : c.val.toNat ≤ 'Z'.val.toNat := hupper.2
    have hA : 'A'.val.toNat = 65 := rfl
    have hZ : 'Z'.val.toNat = 90 := rfl
    have hshift : ('a'.val - 'A'.val).toNat = 32 := rfl
    rw [UInt32.toNat_add, hshift] at hval
    omega
  · exact h

theorem underscore_not_mem_toLower {c : Char} (hc : c ≠ '_') : '_' ∉ toLower c := by
  intro hmem
  unfold toLower at hmem
  split_ifs at hmem with hascii hdot
  · exact hc (eq_underscore_of_toLower (List.mem_singleton.1 hmem).symm)
  · exact absurd hmem (by decide)
  · split at hmem
    · next range offset hfind =>
      have habove : 0x5F < (range.first : Int) + offset :=
        loweringOffsets_above _ (List.mem_of_find?_eq_some hfind)
      have hin : range.contains c.toNat = true := by
        simpa using List.find?_some hfind
      have hfirst : range.first ≤ c.toNat := by
        simp only [CodeRange.contains, Bool.and_eq_true, decide_eq_true_eq] at hin
        exact hin.1.1
      have heq : '_' = Char.ofNat (c.toNat + offset).toNat := List.mem_singleton.1 hmem
      by_cases hvalid : (c.toNat + offset).toNat.isValidChar
      · have hnat : (Char.ofNat (c.toNat + offset).toNat).toNat = (c.toNat + offset).toNat := by
          rw [Char.ofNat, dif_pos hvalid]
          rfl
        rw [← heq] at hnat
        have hcode : '_'.toNat = 0x5F := rfl
        omega
      · have hzero : Char.ofNat (c.toNat + offset).toNat = Char.ofNat 0 := by
          unfold Char.ofNat
          rw [dif_neg hvalid]
          rfl
        rw [hzero] at heq
        exact absurd heq (by decide)
    · exact hc (List.mem_singleton.1 hmem).symm

/-! ## Snake case -/

theorem lowerCase_nil : lowerCase [] = [] := rfl

theorem lowerCase_cons (c : Char) (cs : List Char) : lowerCase (c :: cs) = toLower c ++ lowerCase cs :=
  List.flatMap_cons

theorem intercalate_cons_nil {words : List (List Char)} (h : words ≠ []) :
    ['_'].intercalate ([] :: words) = '_' :: ['_'].intercalate words := by
  obtain ⟨word, words, rfl⟩ := List.exists_cons_of_ne_nil h
  rw [List.intercalate_cons_cons]
  rfl

theorem intercalate_append_head (front word : List Char) (words : List (List Char)) :
    ['_'].intercalate ((front ++ word) :: words) = front ++ ['_'].intercalate (word :: words) := by
  cases words with
  | nil => rw [List.intercalate_singleton, List.intercalate_singleton]
  | cons next words =>
    rw [List.intercalate_cons_cons, List.intercalate_cons_cons]
    simp only [List.append_assoc]

/-- A name in snake case is its words with underscores between them. -/
theorem snakeFrom_eq_intercalate (before : Option Char) (cs : List Char) :
    snakeFrom before cs = ['_'].intercalate ((wordsFrom before cs).map lowerCase) := by
  induction cs generalizing before with
  | nil => rfl
  | cons c rest ih =>
    obtain ⟨word, words, hwords⟩ := exists_wordsFrom (some c) rest
    rw [snakeFrom, ih, wordsFrom, hwords]
    by_cases hc : c = '_'
    · subst hc
      rw [startsWord_underscore, toLower_underscore, if_pos rfl, @List.map_cons _ _ _ [], lowerCase_nil]
      exact (intercalate_cons_nil (List.cons_ne_nil _ _)).symm
    · rw [if_neg hc, List.modifyHead_cons]
      by_cases hstart : startsWord before c rest.head? = true
      · have hcut := intercalate_cons_nil
          (List.cons_ne_nil (toLower c ++ lowerCase word) (words.map lowerCase))
        rw [if_pos hstart, if_pos hstart, List.map_cons, List.map_cons, List.map_cons, lowerCase_cons,
          lowerCase_nil, hcut, intercalate_append_head, List.append_assoc, List.singleton_append]
      · rw [if_neg hstart, if_neg hstart, List.map_cons, List.map_cons, lowerCase_cons,
          intercalate_append_head, List.nil_append]

theorem underscore_not_mem_lowerCase {cs : List Char} (h : '_' ∉ cs) : '_' ∉ lowerCase cs := by
  intro hmem
  obtain ⟨c, hc, hlower⟩ := List.mem_flatMap.1 hmem
  exact underscore_not_mem_toLower (fun heq => h (heq ▸ hc)) hlower

theorem underscore_not_mem_wordsFrom {before : Option Char} {cs word : List Char}
    (h : word ∈ wordsFrom before cs) : '_' ∉ word := by
  induction cs generalizing before word with
  | nil =>
    obtain rfl : word = [] := by simpa [wordsFrom] using h
    exact List.not_mem_nil
  | cons c rest ih =>
    obtain ⟨first, words, hwords⟩ := exists_wordsFrom (some c) rest
    have hrest := @ih (some c)
    rw [hwords] at hrest
    rw [wordsFrom, hwords] at h
    by_cases hc : c = '_'
    · rw [if_pos hc] at h
      rcases List.mem_cons.1 h with rfl | h
      · exact List.not_mem_nil
      · exact hrest h
    · have hfirst : '_' ∉ c :: first :=
        List.not_mem_cons_of_ne_of_not_mem (Ne.symm hc) (hrest List.mem_cons_self)
      -- a word that starts here comes behind an empty one
      have hword : word = [] ∨ word ∈ (c :: first) :: words := by
        rw [if_neg hc, List.modifyHead_cons] at h
        split_ifs at h
        · exact List.mem_cons.1 h
        · exact .inr h
      rcases hword with rfl | h
      · exact List.not_mem_nil
      · rcases List.mem_cons.1 h with rfl | h
        · exact hfirst
        · exact hrest (List.mem_cons_of_mem _ h)

/-- Two names are the same in snake case exactly if they have the same words. -/
theorem snakeCase_eq_iff {name name' : String} :
    snakeCase name = snakeCase name' ↔ nameWords name = nameWords name' := by
  have hsnake : ∀ s, (snakeCase s).toList = ['_'].intercalate (nameWords s) := fun s => by
    rw [snakeCase, String.toList_ofList, snakeFrom_eq_intercalate, nameWords]
  have hread : ∀ s, ((snakeCase s).toList).splitOn '_' = nameWords s := fun s => by
    rw [hsnake]
    refine List.splitOn_intercalate '_' (fun word hword => ?_) ?_
    · obtain ⟨letters, hletters, rfl⟩ := List.mem_map.1 hword
      exact underscore_not_mem_lowerCase (underscore_not_mem_wordsFrom hletters)
    · simpa [nameWords] using wordsFrom_ne_nil _ _
  constructor
  · intro h
    rw [← hread, h, hread]
  · intro h
    exact String.toList_injective (by rw [hsnake, h, hsnake])

theorem flatten_wordsFrom (before : Option Char) (cs : List Char) :
    (wordsFrom before cs).flatten = cs.filter (· != '_') := by
  induction cs generalizing before with
  | nil => rfl
  | cons c rest ih =>
    obtain ⟨word, words, hwords⟩ := exists_wordsFrom (some c) rest
    have hrest := ih (some c)
    rw [hwords] at hrest
    rw [wordsFrom, hwords]
    by_cases hc : c = '_'
    · rw [if_pos hc, List.filter_cons_of_neg (by simpa using hc), ← hrest]
      rfl
    · rw [if_neg hc, List.filter_cons_of_pos (by simpa using hc), ← hrest]
      split_ifs <;> rfl

/-- The words of a name hold all its letters. -/
theorem flatten_nameWords (name : String) : (nameWords name).flatten = letters name := by
  rw [letters, ← flatten_wordsFrom none, nameWords]
  generalize wordsFrom none name.toList = words
  induction words with
  | nil => rfl
  | cons word words ih =>
    rw [List.map_cons, List.flatten_cons, ih, List.flatten_cons, lowerCase, lowerCase, lowerCase,
      List.flatMap_append]

/-- The last letter of a name is the last one in snake case. -/
theorem snakeFrom_concat (before : Option Char) (cs : List Char) (c : Char) :
    ∃ front, snakeFrom before (cs ++ [c]) = front ++ toLower c := by
  induction cs generalizing before with
  | nil => exact ⟨_, List.append_nil _⟩
  | cons d cs ih =>
    obtain ⟨front, hfront⟩ := ih (some d)
    refine ⟨(if startsWord before d (cs ++ [c]).head? then ['_'] else []) ++ toLower d ++ front, ?_⟩
    rw [List.cons_append, snakeFrom, hfront]
    simp only [List.append_assoc]

end Text

end ApiDecl
