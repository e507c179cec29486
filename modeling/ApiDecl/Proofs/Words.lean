import ApiDecl.Text.Blank

/-!
# Proofs: words between blanks

The words of a text are what the text is put together from, with blanks around them and at least one
between two (`HasWords`). A text has exactly one list of words (`words_eq_iff`) and is trimmed to
exactly one text (`trim_eq_iff`), and blanks around it change neither.
-/

namespace ApiDecl.Text

/-- The text consists of blanks. -/
def IsBlankText (cs : List Char) : Prop := ∀ c ∈ cs, isBlank c = true

/-- The text consists of these words, with blanks around them and at least one between two. -/
inductive HasWords : List Char → List String → Prop
  | none {cs : List Char} (h : IsBlankText cs) : HasWords cs []
  | word {blanks rest : List Char} {w : String} {words : List String} (hblanks : IsBlankText blanks)
      (hne : w ≠ "") (hw : ∀ c ∈ w.toList, isBlank c = false)
      (hnext : ∀ c ∈ rest.head?, isBlank c = true) (h : HasWords rest words) :
      HasWords (blanks ++ w.toList ++ rest) (w :: words)

/-- The text is the other one with blanks around it, and that one neither starts nor ends with a
blank. -/
structure IsTrimmedTo (s t : String) : Prop where
  around : ∃ before after, IsBlankText before ∧ IsBlankText after ∧
    s.toList = before ++ t.toList ++ after
  head : ∀ c ∈ t.toList.head?, isBlank c = false
  last : ∀ c ∈ t.toList.getLast?, isBlank c = false

theorem IsBlankText.append {cs ds : List Char} (h : IsBlankText cs) (h' : IsBlankText ds) :
    IsBlankText (cs ++ ds) := List.forall_mem_append.2 ⟨h, h'⟩

theorem IsBlankText.cons {c : Char} {cs : List Char} (hc : isBlank c = true) (h : IsBlankText cs) :
    IsBlankText (c :: cs) := List.forall_mem_cons.2 ⟨hc, h⟩

/-! ## Words -/

theorem words_cons_blank {c : Char} (hc : isBlank c = true) (cs : List Char) :
    words (String.ofList (c :: cs)) = words (String.ofList cs) := by
  have hsplit := splitWhere_append hc [] cs
  rw [List.nil_append] at hsplit
  rw [words, words, String.toList_ofList, String.toList_ofList, hsplit]
  rfl

theorem words_blanks {blanks : List Char} (h : IsBlankText blanks) (cs : List Char) :
    words (String.ofList (blanks ++ cs)) = words (String.ofList cs) := by
  induction blanks with
  | nil => rfl
  | cons c blanks ih =>
    obtain ⟨hc, hblanks⟩ := List.forall_mem_cons.1 h
    rw [List.cons_append, words_cons_blank hc, ih hblanks]

theorem words_word {w : String} (hne : w ≠ "") (hw : ∀ c ∈ w.toList, isBlank c = false)
    {rest : List Char} (hnext : ∀ c ∈ rest.head?, isBlank c = true) :
    words (String.ofList (w.toList ++ rest)) = w :: words (String.ofList rest) := by
  have hkeep : w.toList.isEmpty = false := by simpa using hne
  have hpiece := splitWhere_of_none hw
  cases rest with
  | nil => simp [words, hpiece, hkeep, splitWhere]
  | cons c rest =>
    have hc : isBlank c = true := hnext c rfl
    have hsplit := splitWhere_append hc w.toList rest
    rw [words_cons_blank hc, words, words, String.toList_ofList, String.toList_ofList, hsplit,
      hpiece]
    simp [hkeep]

theorem HasWords.words_eq {cs : List Char} {ws : List String} (h : HasWords cs ws) :
    words (String.ofList cs) = ws := by
  induction h with
  | none h =>
    have hcs := words_blanks h []
    rw [List.append_nil] at hcs
    rw [hcs]
    rfl
  | word hblanks hne hw hnext _ ih =>
    rw [List.append_assoc, words_blanks hblanks, words_word hne hw hnext, ih]

theorem HasWords.cons_blank {c : Char} (hc : isBlank c = true) {cs : List Char} {ws : List String}
    (h : HasWords cs ws) : HasWords (c :: cs) ws := by
  cases h with
  | none h => exact .none (h.cons hc)
  | word hblanks hne hw hnext h =>
    rw [← List.cons_append, ← List.cons_append]
    exact .word (hblanks.cons hc) hne hw hnext h

/-- A character that is not blank starts a word, or it goes on with the first one. -/
theorem HasWords.exists_cons {c : Char} (hc : isBlank c = false) {cs : List Char}
    {ws : List String} (h : HasWords cs ws) : ∃ ws', HasWords (c :: cs) ws' := by
  have starts : ∀ {rest : List Char} {ws : List String}, (∀ d ∈ rest.head?, isBlank d = true) →
      HasWords rest ws → HasWords (c :: rest) (String.ofList [c] :: ws) := by
    intro rest ws hnext h
    have hword := HasWords.word (List.forall_mem_nil _) (w := String.ofList [c])
      (by simp [← String.toList_inj]) (by simpa using hc) hnext h
    rwa [String.toList_ofList] at hword
  cases h with
  | none h => exact ⟨_, starts (fun d hd => h d (List.mem_of_mem_head? hd)) (.none h)⟩
  | @word blanks rest w ws hblanks hne hw hnext h =>
    cases blanks with
    | nil =>
      have hword := HasWords.word (List.forall_mem_nil _) (w := String.ofList (c :: w.toList))
        (by simp [← String.toList_inj]) (by simpa using ⟨hc, hw⟩) hnext h
      rw [String.toList_ofList] at hword
      exact ⟨_, hword⟩
    | cons b blanks =>
      have hb : isBlank b = true := hblanks b List.mem_cons_self
      refine ⟨_, starts ?_ (.word hblanks hne hw hnext h)⟩
      rintro d ⟨⟩
      exact hb

theorem exists_hasWords (cs : List Char) : ∃ ws, HasWords cs ws := by
  induction cs with
  | nil => exact ⟨[], .none (List.forall_mem_nil _)⟩
  | cons c cs ih =>
    obtain ⟨ws, h⟩ := ih
    cases hc : isBlank c with
    | true => exact ⟨ws, h.cons_blank hc⟩
    | false => exact h.exists_cons hc

/-- A text has the words that it consists of. -/
theorem words_eq_iff {s : String} {ws : List String} : words s = ws ↔ HasWords s.toList ws := by
  have hs : ∀ {ws}, HasWords s.toList ws → words s = ws := by
    intro ws h
    rw [← h.words_eq, String.ofList_toList]
  refine ⟨?_, hs⟩
  rintro rfl
  obtain ⟨ws, h⟩ := exists_hasWords s.toList
  rwa [hs h]

/-- Blanks around a text are around its words. -/
theorem HasWords.pad {before cs after : List Char} {ws : List String} (hbefore : IsBlankText before)
    (hafter : IsBlankText after) (h : HasWords cs ws) : HasWords (before ++ cs ++ after) ws := by
  induction h generalizing before with
  | none h => exact .none ((hbefore.append h).append hafter)
  | @word blanks rest w ws hblanks hne hw hnext _ ih =>
    have hrest := ih (List.forall_mem_nil _)
    rw [List.nil_append] at hrest
    have htext : before ++ (blanks ++ w.toList ++ rest) ++ after =
        (before ++ blanks) ++ w.toList ++ (rest ++ after) := by simp
    rw [htext]
    refine .word (hbefore.append hblanks) hne hw ?_ hrest
    cases rest with
    | nil => exact fun c hc => hafter c (List.mem_of_mem_head? hc)
    | cons d rest => exact hnext

/-! ## Trimming -/

theorem dropWhile_blanks {blanks cs : List Char} (h : IsBlankText blanks)
    (hcs : ∀ c ∈ cs.head?, isBlank c = false) : (blanks ++ cs).dropWhile isBlank = cs := by
  rw [List.dropWhile_append_of_pos h]
  cases cs with
  | nil => rfl
  | cons c cs => rw [List.dropWhile_cons_of_neg (by simp [hcs c rfl])]

theorem dropWhile_reverse_blanks {blanks cs : List Char} (h : IsBlankText blanks)
    (hcs : ∀ c ∈ cs.getLast?, isBlank c = false) :
    ((cs ++ blanks).reverse.dropWhile isBlank).reverse = cs := by
  rw [List.reverse_append, dropWhile_blanks (fun c hc => h c (List.mem_reverse.1 hc)),
    List.reverse_reverse]
  rwa [List.head?_reverse]

/-- What is left without the blanks at the start, and those blanks. -/
theorem exists_trimStart (cs : List Char) :
    ∃ blanks, IsBlankText blanks ∧ cs = blanks ++ trimStart cs ∧
      ∀ c ∈ (trimStart cs).head?, isBlank c = false := by
  refine ⟨cs.takeWhile isBlank, List.all_eq_true.1 List.all_takeWhile,
    List.takeWhile_append_dropWhile.symm, fun c hc => ?_⟩
  have hhead := List.head?_dropWhile_not isBlank cs
  rw [trimStart] at hc
  rw [hc] at hhead
  simpa using hhead

/-- The other way round, for the blanks at the end. -/
theorem exists_trimEnd (cs : List Char) :
    ∃ blanks, IsBlankText blanks ∧ cs = trimEnd cs ++ blanks ∧
      ∀ c ∈ (trimEnd cs).getLast?, isBlank c = false := by
  obtain ⟨blanks, hblanks, heq, hlast⟩ := exists_trimStart cs.reverse
  refine ⟨blanks.reverse, fun c hc => hblanks c (List.mem_reverse.1 hc), ?_, ?_⟩
  · rw [← List.reverse_inj, heq, List.reverse_append, List.reverse_reverse]
    simp [trimEnd, trimStart]
  · rwa [trimEnd, List.getLast?_reverse]

/-- A text is trimmed to the text that it is with blanks around. -/
theorem trim_eq_iff {s t : String} : trim s = t ↔ IsTrimmedTo s t := by
  constructor
  · rintro rfl
    obtain ⟨before, hbefore, hs, hhead⟩ := exists_trimStart s.toList
    obtain ⟨after, hafter, hstart, hlast⟩ := exists_trimEnd (trimStart s.toList)
    refine ⟨⟨before, after, hbefore, hafter, ?_⟩, ?_, ?_⟩
    · rw [trim, String.toList_ofList, List.append_assoc, ← hstart, ← hs]
    · rw [trim, String.toList_ofList]
      intro c hc
      apply hhead c
      rw [hstart]
      rw [List.head?_append, hc]
      rfl
    · rwa [trim, String.toList_ofList]
  · rintro ⟨⟨before, after, hbefore, hafter, hs⟩, hhead, hlast⟩
    have hstart : trimStart s.toList = trimStart (t.toList ++ after) := by
      rw [hs, List.append_assoc, trimStart, List.dropWhile_append_of_pos hbefore, trimStart]
    have htrim : trimEnd (trimStart s.toList) = t.toList := by
      rw [hstart]
      cases ht : t.toList with
      | nil =>
        have hnil : (after ++ []).dropWhile isBlank = [] := dropWhile_blanks hafter (by simp)
        rw [List.append_nil] at hnil
        rw [List.nil_append, trimStart, hnil]
        rfl
      | cons c cs =>
        have hc : isBlank c = false := hhead c (by rw [ht]; rfl)
        rw [ht] at hlast
        rw [List.cons_append, trimStart, List.dropWhile_cons_of_neg (by simp [hc]), trimEnd,
          ← List.cons_append]
        exact dropWhile_reverse_blanks hafter hlast
    rw [trim, htrim, String.ofList_toList]

/-- Blanks around a text are trimmed like those that it starts and ends with. -/
theorem IsTrimmedTo.pad {s t u : String} {before after : List Char} (hbefore : IsBlankText before)
    (hafter : IsBlankText after) (hu : u.toList = before ++ s.toList ++ after)
    (h : IsTrimmedTo s t) : IsTrimmedTo u t := by
  obtain ⟨⟨inner, outer, hinner, houter, hs⟩, hhead, hlast⟩ := h
  refine ⟨⟨before ++ inner, outer ++ after, hbefore.append hinner, houter.append hafter, ?_⟩, hhead,
    hlast⟩
  rw [hu, hs]
  simp only [List.append_assoc]

/-- The words of a text are those of what it is trimmed to. -/
theorem words_trim (s : String) : words (trim s) = words s := by
  obtain ⟨⟨before, after, hbefore, hafter, hs⟩, -, -⟩ := trim_eq_iff.1 (Eq.refl (trim s))
  have hwords : HasWords s.toList (words (trim s)) := by
    rw [hs]
    exact (words_eq_iff.1 rfl).pad hbefore hafter
  exact (words_eq_iff.2 hwords).symm

end ApiDecl.Text
