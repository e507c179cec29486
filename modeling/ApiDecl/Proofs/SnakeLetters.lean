import ApiDecl.Proofs.SnakeCase

/-!
# Proofs: what snake case changes

Snake case writes a name in small letters and puts underscores in between. It puts none next to
another underscore, so two of them stand side by side exactly where they do in the name
(`snakeCase_eq_append_iff`). ASCII names in snake case are in their final form
(`snakeCase_changes`).
-/

namespace ApiDecl.Text

variable {before : Option Char} {c : Char} {cs ds front behind : List Char}

/-! ## Underscores in the name -/

theorem toLower_ne_nil (c : Char) : toLower c ≠ [] := by
  unfold toLower
  split
  · exact List.cons_ne_nil _ _
  · split
    · exact List.cons_ne_nil _ _
    · split <;> exact List.cons_ne_nil _ _

/-- Behind an underscore a name is written as if it started there. -/
theorem snakeFrom_underscore (cs : List Char) : snakeFrom (some '_') cs = snakeFrom none cs := by
  cases cs with
  | nil => rfl
  | cons c rest =>
    have hno : startsWord (some '_') c rest.head? = false := by
      have hlower : isLower '_' = false := by decide
      have hdigit : ('_').isDigit = false := by decide
      have hupper : isUpper '_' = false := by decide
      rw [startsWord, hlower, hdigit, hupper, Bool.false_and, Bool.or_false, Bool.or_false,
        Bool.and_false]
    rw [snakeFrom, snakeFrom, hno]
    rfl

theorem snakeFrom_cons_underscore (before : Option Char) (cs : List Char) :
    snakeFrom before ('_' :: cs) = '_' :: snakeFrom none cs := by
  rw [snakeFrom, startsWord_underscore, toLower_underscore, snakeFrom_underscore]
  rfl

/-- A word starts in front of an underscore exactly if it does at the end of the name. -/
theorem startsWord_append (c : Char) (cs ds : List Char) :
    startsWord before c (cs ++ '_' :: ds).head? = startsWord before c cs.head? := by
  cases cs with
  | cons d cs => rfl
  | nil =>
    have hlower : isLower '_' = false := by decide
    cases before with
    | none => rfl
    | some b => simp only [startsWord, List.nil_append, List.head?_cons, List.head?_nil,
        Option.any_some, Option.any_none, hlower]

/-- What stands in front of an underscore and what stands behind it are written on their own. -/
theorem snakeFrom_append (before : Option Char) (cs ds : List Char) :
    snakeFrom before (cs ++ '_' :: ds) = snakeFrom before cs ++ '_' :: snakeFrom none ds := by
  induction cs generalizing before with
  | nil => exact snakeFrom_cons_underscore before ds
  | cons c cs ih =>
    rw [List.cons_append, snakeFrom, startsWord_append, ih, snakeFrom]
    simp only [List.append_assoc]

/-! ## Underscores in snake case -/

/-- A name in snake case starts with an underscore only if the name does. -/
theorem head?_snakeFrom (cs : List Char) :
    (snakeFrom none cs).head? = some '_' ↔ cs.head? = some '_' := by
  cases cs with
  | nil => exact Iff.rfl
  | cons c rest =>
    obtain ⟨d, ds, hlower⟩ := List.exists_cons_of_ne_nil (toLower_ne_nil c)
    have hd : d = '_' ↔ c = '_' := by
      constructor
      · rintro rfl
        refine Decidable.byContradiction fun hc => ?_
        exact underscore_not_mem_toLower hc (hlower ▸ List.mem_cons_self)
      · rintro rfl
        rw [toLower_underscore] at hlower
        exact (List.cons.inj hlower).1.symm
    rw [snakeFrom, hlower]
    simpa [startsWord] using hd

/-- What is free of underscores in front of two of them ends before the first. -/
theorem exists_of_append_eq (hcs : '_' ∉ cs) (h : cs ++ ds = front ++ '_' :: behind) :
    ∃ middle, front = cs ++ middle ∧ ds = middle ++ '_' :: behind := by
  obtain ⟨middle, rfl, hds⟩ | ⟨middle, rfl, hbehind⟩ := List.append_eq_append_iff.1 h
  · exact ⟨middle, rfl, hds⟩
  · cases middle with
    | nil => exact ⟨[], by simp, by simpa using hbehind.symm⟩
    | cons d middle =>
      obtain ⟨rfl, -⟩ := List.cons.inj hbehind
      exact absurd (List.mem_append_right _ List.mem_cons_self) hcs

/-- Two underscores stand side by side only where they do in the name. -/
theorem exists_of_snakeFrom_eq (h : snakeFrom before cs = front ++ '_' :: '_' :: behind) :
    ∃ as bs, cs = as ++ '_' :: '_' :: bs ∧ snakeFrom before as = front ∧
      snakeFrom none bs = behind := by
  induction cs generalizing before front with
  | nil => cases front <;> cases h
  | cons c rest ih =>
    by_cases hc : c = '_'
    · subst hc
      rw [snakeFrom_cons_underscore] at h
      cases front with
      | nil =>
        -- no underscore is put behind the first one, so the second is in the name
        have hbehind : snakeFrom none rest = '_' :: behind := (List.cons.inj h).2
        have hhead := (head?_snakeFrom rest).1 (by rw [hbehind]; rfl)
        obtain ⟨rest, rfl⟩ := List.head?_eq_some_iff.1 hhead
        rw [snakeFrom_cons_underscore] at hbehind
        exact ⟨[], rest, rfl, rfl, (List.cons.inj hbehind).2⟩
      | cons d front =>
        obtain ⟨rfl, hfront⟩ := List.cons.inj h
        obtain ⟨as, bs, rfl, rfl, hbs⟩ := ih hfront
        exact ⟨'_' :: as, bs, rfl, snakeFrom_cons_underscore before as, hbs⟩
    · have hlower := underscore_not_mem_toLower hc
      rw [snakeFrom, List.append_assoc] at h
      -- a separator is followed by a letter, so it is not the first of the two
      obtain ⟨middle, hfront, hmiddle⟩ : ∃ middle,
          front = (if startsWord before c rest.head? then ['_'] else []) ++ middle ∧
            toLower c ++ snakeFrom (some c) rest = middle ++ '_' :: '_' :: behind := by
        by_cases hstart : startsWord before c rest.head? = true
        · rw [if_pos hstart] at h ⊢
          cases front with
          | nil =>
            obtain ⟨d, ds, hd⟩ := List.exists_cons_of_ne_nil (toLower_ne_nil c)
            rw [hd] at h hlower
            obtain ⟨rfl, -⟩ := List.cons.inj (List.cons.inj h).2
            exact absurd List.mem_cons_self hlower
          | cons d front =>
            obtain ⟨rfl, hrest⟩ := List.cons.inj h
            exact ⟨front, rfl, hrest⟩
        · rw [if_neg hstart] at h ⊢
          exact ⟨front, rfl, h⟩
      obtain ⟨middle, rfl, hrest⟩ := exists_of_append_eq hlower hmiddle
      obtain ⟨as, bs, rfl, rfl, hbs⟩ := ih hrest
      refine ⟨c :: as, bs, rfl, ?_, hbs⟩
      rw [hfront, startsWord_append, snakeFrom, List.append_assoc]

/-- Two underscores stand side by side exactly where they do in the name. -/
theorem snakeCase_eq_append_iff {name front behind : String} :
    snakeCase name = front ++ "__" ++ behind ↔
      ∃ a b, name = a ++ "__" ++ b ∧ snakeCase a = front ∧ snakeCase b = behind := by
  have hpair : "__".toList = ['_', '_'] := rfl
  constructor
  · intro h
    have hlist := congrArg String.toList h
    rw [snakeCase, String.toList_ofList, String.toList_append, String.toList_append, hpair,
      List.append_assoc] at hlist
    obtain ⟨as, bs, hname, hfront, hbehind⟩ := exists_of_snakeFrom_eq hlist
    refine ⟨String.ofList as, String.ofList bs, String.toList_injective ?_,
      String.toList_injective ?_, String.toList_injective ?_⟩
    · simp [hname, hpair]
    · simpa [snakeCase] using hfront
    · simpa [snakeCase] using hbehind
  · rintro ⟨a, b, rfl, rfl, rfl⟩
    refine String.toList_injective ?_
    simp only [snakeCase, String.toList_ofList, String.toList_append, hpair, List.append_assoc,
      List.cons_append, List.nil_append, snakeFrom_append, snakeFrom_cons_underscore]

/-! ## Letters -/

theorem filter_toLower (c : Char) :
    (toLower c).filter (· != '_') = lowerCase ([c].filter (· != '_')) := by
  by_cases hc : c = '_'
  · subst hc
    decide
  · have hkeep : [c].filter (· != '_') = [c] := List.filter_cons_of_pos (by simpa using hc)
    rw [hkeep, lowerCase_cons, lowerCase_nil, List.append_nil, List.filter_eq_self]
    intro d hd
    simpa using ne_of_mem_of_not_mem hd (underscore_not_mem_toLower hc)

/-- Without underscores a name in snake case is the name in small letters. -/
theorem filter_snakeFrom (before : Option Char) (cs : List Char) :
    (snakeFrom before cs).filter (· != '_') = lowerCase (cs.filter (· != '_')) := by
  induction cs generalizing before with
  | nil => rfl
  | cons c rest ih =>
    have hseparator :
        (if startsWord before c rest.head? then ['_'] else []).filter (· != '_') = [] := by
      split <;> rfl
    have hcons : c :: rest = [c] ++ rest := rfl
    rw [snakeFrom, List.filter_append, List.filter_append, hseparator, filter_toLower, ih, hcons,
      List.filter_append, List.nil_append, lowerCase, lowerCase, lowerCase, List.flatMap_append]

/-- The name in small letters is in there, with its own underscores. -/
theorem lowerCase_sublist_snakeFrom (before : Option Char) (cs : List Char) :
    (lowerCase cs).Sublist (snakeFrom before cs) := by
  induction cs generalizing before with
  | nil => exact List.Sublist.refl _
  | cons c rest ih =>
    rw [lowerCase_cons, snakeFrom, List.append_assoc]
    exact ((List.Sublist.refl _).append (ih (some c))).trans (List.sublist_append_right _ _)

/-! ## ASCII names -/

/-- A character that snake case leaves as it is. -/
structure IsSmall (c : Char) : Prop where
  upper : isUpper c = false
  lower : toLower c = [c]

/-- The small form of an ASCII character is an ASCII character, and it stays as it is. -/
theorem toLower_small : ∀ n < 0x80, (Char.ofNat n).toLower.toNat < 0x80 ∧
    (Char.ofNat n).toLower.isUpper = false ∧
    (Char.ofNat n).toLower.toLower = (Char.ofNat n).toLower := by
  decide +kernel

theorem isSmall_of_mem_toLower (hc : c.toNat < 0x80) : ∀ d ∈ toLower c, IsSmall d := by
  obtain ⟨hascii, hupper, hlower⟩ := toLower_small c.toNat hc
  rw [Char.ofNat_toNat] at hascii hupper hlower
  rw [toLower, if_pos hc]
  refine List.forall_mem_singleton.2 ⟨?_, ?_⟩
  · rw [isUpper, if_pos hascii, hupper]
  · rw [toLower, if_pos hascii, hlower]

theorem isSmall_underscore : IsSmall '_' := ⟨by decide, by decide⟩

/-- An ASCII name in snake case has small characters only. -/
theorem isSmall_of_mem_snakeFrom (hcs : ∀ c ∈ cs, c.toNat < 0x80) :
    ∀ d ∈ snakeFrom before cs, IsSmall d := by
  induction cs generalizing before with
  | nil => exact List.forall_mem_nil _
  | cons c rest ih =>
    obtain ⟨hc, hrest⟩ := List.forall_mem_cons.1 hcs
    rw [snakeFrom]
    refine List.forall_mem_append.2 ⟨List.forall_mem_append.2 ⟨?_, isSmall_of_mem_toLower hc⟩,
      ih hrest⟩
    split
    · exact List.forall_mem_singleton.2 isSmall_underscore
    · exact List.forall_mem_nil _

/-- Small characters stay as they are, for no word starts at one. -/
theorem snakeFrom_of_isSmall (hcs : ∀ c ∈ cs, IsSmall c) : snakeFrom before cs = cs := by
  induction cs generalizing before with
  | nil => rfl
  | cons c rest ih =>
    obtain ⟨hc, hrest⟩ := List.forall_mem_cons.1 hcs
    have hno : startsWord before c rest.head? = false := by
      cases before with
      | none => rfl
      | some b => rw [startsWord, hc.upper, Bool.false_and]
    rw [snakeFrom, hno, hc.lower, ih hrest]
    rfl

/-- An ASCII name in snake case is the name in small letters with underscores put in: there is no
capital in it, its letters are those of the name, no underscore is put at the start or next to
another one, and snake case changes it no further. -/
theorem snakeCase_changes {name : String} (hname : ∀ c ∈ name.toList, c.toNat < 0x80) :
    (∀ c ∈ (snakeCase name).toList, isUpper c = false) ∧
    (lowerCase name.toList).Sublist (snakeCase name).toList ∧
    (snakeCase name).toList.filter (· != '_') = letters name ∧
    ((snakeCase name).toList.head? = some '_' ↔ name.toList.head? = some '_') ∧
    (∀ front behind, snakeCase name = front ++ "__" ++ behind ↔
      ∃ a b, name = a ++ "__" ++ b ∧ snakeCase a = front ∧ snakeCase b = behind) ∧
    snakeCase (snakeCase name) = snakeCase name := by
  have hlist : (snakeCase name).toList = snakeFrom none name.toList := String.toList_ofList
  have hsmall : ∀ c ∈ snakeFrom none name.toList, IsSmall c := isSmall_of_mem_snakeFrom hname
  rw [hlist]
  refine ⟨fun c hc => (hsmall c hc).upper, lowerCase_sublist_snakeFrom none _,
    filter_snakeFrom none _, head?_snakeFrom _, fun _ _ => snakeCase_eq_append_iff, ?_⟩
  rw [snakeCase, hlist, snakeFrom_of_isSmall hsmall, ← hlist, String.ofList_toList]

theorem acronym_changes : snakeCase "_HTTP2Service__V2" = "_http2_service__v2" ∧
    snakeCase "_http2_service__v2" = "_http2_service__v2" := by
  have hascii : "_HTTP2Service__V2".toList.all (·.toNat < 0x80) = true := by decide
  have hname : ∀ c ∈ "_HTTP2Service__V2".toList, c.toNat < 0x80 := fun c hc =>
    of_decide_eq_true (List.all_eq_true.1 hascii c hc)
  have hsnake : snakeCase "_HTTP2Service__V2" = "_http2_service__v2" := by decide +kernel
  have hagain := (snakeCase_changes hname).2.2.2.2.2
  rw [hsnake] at hagain
  exact ⟨hsnake, hagain⟩

end ApiDecl.Text
