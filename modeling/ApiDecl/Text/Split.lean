/-!
# Cutting text into pieces

Texts are cut as lists of characters: at every separator (`splitWhere`), or at the last `::`
(`splitLastPath`). Pieces keep the order of the text, and separators belong to no piece: putting the
separator back between the pieces gives the text again.
-/

namespace ApiDecl.Text

/-- The pieces of a text between the characters that satisfy `p`: always at least one piece, and
empty pieces where two separators are adjacent. -/
def splitWhere (p : Char → Bool) : List Char → List (List Char)
  | [] => [[]]
  | c :: cs =>
    match p c, splitWhere p cs with
    | true, pieces => [] :: pieces
    | false, [] => [[c]]
    | false, piece :: pieces => (c :: piece) :: pieces

/-- A text always has a first piece. -/
theorem splitWhere_ne_nil (p : Char → Bool) (cs : List Char) : splitWhere p cs ≠ [] := by
  induction cs with
  | nil => simp [splitWhere]
  | cons c cs ih => unfold splitWhere; split <;> simp

/-- No piece has a separator in it. -/
theorem not_mem_of_mem_splitWhere {p : Char → Bool} {cs piece : List Char}
    (h : piece ∈ splitWhere p cs) : ∀ c ∈ piece, p c = false := by
  induction cs generalizing piece with
  | nil => simp_all [splitWhere]
  | cons c cs ih =>
    unfold splitWhere at h
    split at h
    · rcases List.mem_cons.1 h with rfl | h
      · simp
      · exact ih h
    · next notSeparator _ => simp_all
    · next first pieces notSeparator pieces_eq =>
      rw [pieces_eq] at ih
      rcases List.mem_cons.1 h with rfl | h
      · rintro d (_ | ⟨_, found⟩)
        · exact notSeparator
        · exact ih List.mem_cons_self d found
      · exact ih (List.mem_cons_of_mem first h)

/-- The pieces with the separator between them are the text again. -/
theorem intercalate_splitWhere (separator : Char) (cs : List Char) :
    [separator].intercalate (splitWhere (· == separator) cs) = cs := by
  induction cs with
  | nil => rfl
  | cons c cs ih =>
    unfold splitWhere
    split
    · next same =>
      obtain ⟨first, pieces, pieces_eq⟩ :=
        List.exists_cons_of_ne_nil (splitWhere_ne_nil (· == separator) cs)
      rw [pieces_eq] at ih ⊢
      simp_all [List.intercalate]
    · next pieces_eq => exact absurd pieces_eq (splitWhere_ne_nil _ cs)
    · next first pieces _ pieces_eq =>
      rw [pieces_eq] at ih
      cases pieces <;> simp_all [List.intercalate]

/-- There is one piece more than separators. -/
theorem length_splitWhere (separator : Char) (cs : List Char) :
    (splitWhere (· == separator) cs).length = cs.count separator + 1 := by
  induction cs with
  | nil => rfl
  | cons c cs ih =>
    rw [splitWhere, List.count_cons]
    obtain ⟨piece, pieces, hpieces⟩ :=
      List.exists_cons_of_ne_nil (splitWhere_ne_nil (· == separator) cs)
    rw [hpieces] at ih ⊢
    cases hc : c == separator with
    | true => simpa using ih
    | false => simpa using ih

/-- A text without separators is one piece. -/
theorem splitWhere_of_none {p : Char → Bool} {cs : List Char} (h : ∀ c ∈ cs, p c = false) :
    splitWhere p cs = [cs] := by
  induction cs with
  | nil => rfl
  | cons c cs ih =>
    rw [splitWhere, h c List.mem_cons_self, ih fun d hd => h d (List.mem_cons_of_mem c hd)]

/-- The pieces of a text are those in front of a separator and those behind it. -/
theorem splitWhere_append {p : Char → Bool} {c : Char} (hc : p c = true)
    (before behind : List Char) :
    splitWhere p (before ++ c :: behind) = splitWhere p before ++ splitWhere p behind := by
  induction before with
  | nil =>
    rw [List.nil_append, splitWhere.eq_def p (c :: behind)]
    dsimp only
    rw [hc]
    rfl
  | cons d before ih =>
    rw [List.cons_append, splitWhere, ih]
    rw [splitWhere]
    obtain ⟨first, pieces, hpieces⟩ := List.exists_cons_of_ne_nil (splitWhere_ne_nil p before)
    rw [hpieces]
    cases p d <;> rfl

/-- The characters of `s` from its end back to the nearest `::`, reversed, and what precedes that
`::`, if there is one. -/
def splitLastPath : List Char → List Char × Option (List Char)
  | [] => ([], none)
  | ':' :: ':' :: before => ([], some before)
  | c :: cs => let (last, before) := splitLastPath cs; (c :: last, before)

/-- Splits a text at every occurrence of one character. -/
def splitOn (separator : Char) (s : String) : List String :=
  (splitWhere (· == separator) s.toList).map String.ofList

variable {separator : Char}

/-- A text without the separator is one piece. -/
theorem splitOn_of_not_mem {s : String} (h : separator ∉ s.toList) :
    splitOn separator s = [s] := by
  have hnone : ∀ c ∈ s.toList, (c == separator) = false := fun c hc =>
    beq_false_of_ne fun heq => h (heq ▸ hc)
  rw [splitOn, splitWhere_of_none hnone, List.map_singleton, String.ofList_toList]

/-- The pieces of a text are those in front of a separator and those behind it. -/
theorem splitOn_append (separator : Char) (front behind : String) :
    splitOn separator (front ++ String.singleton separator ++ behind) =
      splitOn separator front ++ splitOn separator behind := by
  have hcut := splitWhere_append (p := (· == separator)) (beq_self_eq_true separator)
    front.toList behind.toList
  rw [splitOn, splitOn, splitOn, String.toList_append, String.toList_append,
    String.toList_singleton, List.append_assoc, List.singleton_append, hcut, List.map_append]

theorem splitOn_ne_nil (separator : Char) (s : String) : splitOn separator s ≠ [] := by
  simpa [splitOn] using splitWhere_ne_nil _ _

/-- Only the empty text has an empty piece alone. -/
theorem splitOn_eq_empty {s : String} (h : splitOn separator s = [""]) : s = "" := by
  obtain ⟨piece, hpieces, hpiece⟩ := List.map_eq_singleton_iff.1 h
  have hs := intercalate_splitWhere separator s.toList
  rw [hpieces, List.intercalate_singleton, (String.ofList_eq_empty_iff).1 hpiece] at hs
  exact String.toList_injective hs.symm

end ApiDecl.Text
