import ApiDecl.Proofs.RoutePaths
import ApiDecl.Proofs.RouteSource
import ApiDecl.Syntax.Lexeme.Literal

/-!
# Proofs: the literals of routes

A character that is no quote, no backslash and no carriage return stands for itself in a string
literal, so a text of such characters between quotes is a literal with this text as its value
(`isLiteral_of_plain`). No other text is its own literal (`isLiteral_quote_iff`): a quote ends the
literal, and from a backslash on the value is too short (`length_escaped`). The path of a route has
no carriage return, so its literal is right exactly if there is no quote and no backslash in it
(`route_literal`).
-/

namespace ApiDecl

open Syntax Syntax.StringLiteral Syntax.Lexeme

/-- However the source goes on, the text is a string literal there, and this is its value. -/
structure IsLiteral (literal value : String) : Prop where
  wellFormed : ∀ rest, quoted textKind (literal.toList ++ rest) = some (literal.toList, rest)
  value : StringLiteral.value? literal = some value

/-! ## Characters that stand for themselves -/

/-- The character stands for itself in a literal. -/
def StandsForItself (c : Char) : Prop := c ≠ '"' ∧ c ≠ '\\' ∧ c ≠ '\r'

theorem quotedRest_cons {c : Char} (hc : StandsForItself c) (fuel : Nat) (cs : List Char) :
    quotedRest textKind (fuel + 1) (c :: cs) = after c (quotedRest textKind fuel cs) := by
  obtain ⟨hquote, hslash, hreturn⟩ := hc
  rw [quotedRest.eq_def]
  dsimp only
  split <;> simp_all [textKind]

theorem plainValue?_cons {c : Char} (hc : StandsForItself c) (cs : List Char) :
    plainValue? .text (c :: cs) = (plainValue? .text cs).map (c :: ·) := by
  obtain ⟨hquote, hslash, hreturn⟩ := hc
  rw [plainValue?.eq_def]
  split <;> simp_all

theorem length_of_map_cons {o : Option (List Char)} {c : Char} {n : Nat}
    (ho : ∀ v, o = some v → v.length < n) : ∀ v, o.map (c :: ·) = some v → v.length ≤ n := by
  intro v hv
  obtain ⟨w, hw, rfl⟩ := Option.map_eq_some_iff.1 hv
  exact ho w hw

/-- An escape has at most as many characters as stand behind its letter. -/
theorem length_escaped {c : Char} {rest v : List Char}
    (ih : ∀ mode cs, cs.length ≤ rest.length → ∀ w, plainValue? mode cs = some w →
      w.length < cs.length) (h : plainValue?.escaped c rest = some v) : v.length ≤ rest.length := by
  have hbehind : ∀ d w, (plainValue? .text rest).map (d :: ·) = some w → w.length ≤ rest.length :=
    fun d => length_of_map_cons (ih .text rest le_rfl)
  unfold plainValue?.escaped at h
  split at h
  case h_5 high low rest =>
    have hcs : rest.length ≤ (high :: low :: rest).length := by simp; omega
    exact (length_of_map_cons (ih .text rest hcs) v h).trans hcs
  case h_6 rest =>
    have hcs : rest.length ≤ ('{' :: rest).length := by simp
    exact (ih _ rest hcs v h).le.trans hcs
  case h_7 | h_8 => exact (ih .skipping _ le_rfl v h).le
  all_goals exact hbehind _ v h

/-- The value of a literal is shorter than what stands behind its first quote. -/
theorem length_plainValue? {mode : Mode} {cs v : List Char} (h : plainValue? mode cs = some v) :
    v.length < cs.length := by
  -- an escape may take several characters at once, so the induction is on the length
  induction hn : cs.length using Nat.strong_induction_on generalizing mode cs v with
  | _ n ih =>
    subst hn
    have hshorter : ∀ mode cs', cs'.length < cs.length → ∀ w, plainValue? mode cs' = some w →
        w.length < cs'.length := fun _ _ hcs' _ hw => ih _ hcs' hw rfl
    have hbehind : ∀ d rest, rest.length < cs.length → ∀ w,
        (plainValue? .text rest).map (d :: ·) = some w → w.length < cs.length :=
      fun d rest hrest w hw =>
        (length_of_map_cons (hshorter .text rest hrest) w hw).trans_lt hrest
    have hescape : ∀ c rest, rest.length < cs.length → ∀ w, plainValue?.escaped c rest = some w →
        w.length < cs.length := by
      intro c rest hrest w hw
      have hle := length_escaped (fun mode cs' hcs' => hshorter mode cs' (hcs'.trans_lt hrest)) hw
      exact hle.trans_lt hrest
    rw [plainValue?.eq_def] at h
    split at h
    case h_1 => cases h
    case h_2 digits c rest =>
      split at h
      · exact hbehind _ rest (by simp) v h
      · exact (hshorter _ rest (by simp) v h).trans (by simp)
    case h_3 | h_4 =>
      cases h
      simp
    case h_5 c rest | h_6 c rest =>
      exact hescape c rest (by simp only [List.length_cons]; omega) v h
    case h_7 rest => exact hbehind _ rest (by simp only [List.length_cons]; omega) v h
    case h_8 c rest _ _ _ => exact hbehind c rest (by simp) v h
    case h_9 c rest _ _ =>
      split at h
      · exact (hshorter _ rest (by simp) v h).trans (by simp)
      · exact hbehind c rest (by simp) v h

/-! ## Literals -/

theorem quotedRest_plain {cs : List Char} (hcs : ∀ c ∈ cs, StandsForItself c) {fuel : Nat}
    (hfuel : cs.length < fuel) (rest : List Char) :
    quotedRest textKind fuel (cs ++ '"' :: rest) = some (cs ++ ['"'], rest) := by
  induction cs generalizing fuel with
  | nil =>
    obtain ⟨n, rfl⟩ : ∃ n, fuel = n + 1 := ⟨fuel - 1, by omega⟩
    rfl
  | cons c cs ih =>
    obtain ⟨n, rfl⟩ : ∃ n, fuel = n + 1 := ⟨fuel - 1, by omega⟩
    have hplain : ∀ d ∈ cs, StandsForItself d := fun d hd => hcs d (List.mem_cons_of_mem _ hd)
    have hothers := ih hplain (Nat.lt_of_succ_lt_succ hfuel)
    rw [List.cons_append, quotedRest_cons (hcs c List.mem_cons_self), hothers]
    rfl

theorem plainValue?_append {cs : List Char} (hcs : ∀ c ∈ cs, StandsForItself c)
    (rest : List Char) :
    plainValue? .text (cs ++ rest) = (plainValue? .text rest).map (cs ++ ·) := by
  induction cs with
  | nil => simp
  | cons c cs ih =>
    have hothers := ih fun d hd => hcs d (List.mem_cons_of_mem _ hd)
    rw [List.cons_append, plainValue?_cons (hcs c List.mem_cons_self), hothers, Option.map_map]
    rfl

theorem toList_quote (s : String) : ("\"" ++ s ++ "\"").toList = '"' :: (s.toList ++ ['"']) := by
  simp

/-- Between quotes, characters that stand for themselves make a literal. -/
theorem isLiteral_of_plain {s : String} (hs : ∀ c ∈ s.toList, StandsForItself c) :
    IsLiteral ("\"" ++ s ++ "\"") s := by
  constructor
  · intro rest
    have hfuel : s.toList.length < (s.toList ++ '"' :: rest).length + 1 := by
      rw [List.length_append]
      omega
    have hread := quotedRest_plain hs hfuel rest
    rw [toList_quote, List.cons_append, List.append_assoc, List.singleton_append, quoted, hread]
    rfl
  · have hvalue := plainValue?_append hs ['"']
    rw [StringLiteral.value?, toList_quote]
    simp only [hvalue]
    simp [plainValue?]

/-- A quote would end a literal too early, and an escape is longer than what it stands for. -/
theorem standsForItself_of_plainValue? {cs : List Char} (hreturn : '\r' ∉ cs)
    (h : plainValue? .text (cs ++ ['"']) = some cs) : ∀ c ∈ cs, StandsForItself c := by
  induction cs with
  | nil => exact List.forall_mem_nil _
  | cons c cs ih =>
    rw [List.mem_cons, not_or] at hreturn
    have hquote : c ≠ '"' := by
      rintro rfl
      rw [List.cons_append, plainValue?] at h
      cases h
    have hslash : c ≠ '\\' := by
      rintro rfl
      -- an escape takes at least one character and gives at most one, so the value loses length
      cases hbehind : cs ++ ['"'] with
      | nil => simp at hbehind
      | cons d rest =>
        rw [List.cons_append, hbehind, plainValue?] at h
        have hle := length_escaped (fun _ _ _ _ hw => length_plainValue? hw) h
        have hlength := congrArg List.length hbehind
        simp at hlength hle
        omega
    have hc : StandsForItself c := ⟨hquote, hslash, Ne.symm hreturn.1⟩
    have hothers : plainValue? .text (cs ++ ['"']) = some cs := by
      rw [List.cons_append, plainValue?_cons hc] at h
      obtain ⟨v, hv, heq⟩ := Option.map_eq_some_iff.1 h
      exact hv.trans (congrArg some (List.cons.inj heq).2)
    exact List.forall_mem_cons.2 ⟨hc, ih hreturn.2 hothers⟩

/-- A text without carriage returns is the value of itself between quotes exactly if there is no
quote and no backslash in it. -/
theorem isLiteral_quote_iff {s : String} (hreturn : '\r' ∉ s.toList) :
    IsLiteral ("\"" ++ s ++ "\"") s ↔ '"' ∉ s.toList ∧ '\\' ∉ s.toList := by
  constructor
  · intro h
    have hvalue := h.value
    rw [StringLiteral.value?, toList_quote] at hvalue
    obtain ⟨v, hv, rfl⟩ := Option.map_eq_some_iff.1 hvalue
    rw [String.toList_ofList] at hv hreturn ⊢
    have hplain := standsForItself_of_plainValue? hreturn hv
    exact ⟨fun hmem => (hplain _ hmem).1 rfl, fun hmem => (hplain _ hmem).2.1 rfl⟩
  · rintro ⟨hquote, hslash⟩
    refine isLiteral_of_plain fun c hc => ⟨?_, ?_, ?_⟩
    · rintro rfl
      exact hquote hc
    · rintro rfl
      exact hslash hc
    · rintro rfl
      exact hreturn hc

/-! ## Routes -/

/-- The path of every route stands in its call between quotes, just as the router has it. That is a
literal of the path exactly if there is no quote and no backslash in the path: a quote would end it,
and a backslash would start an escape. -/
theorem route_literal {files : List SourceFile} {k : Compilation}
    (hk : (compile files).result = .ok k) {g : RouteGroup} (hg : g ∈ k.groups) {r : Route}
    (hr : r ∈ g.routes) (names : SourceNames) :
    (∃ before behind, (names.render k.groups).value = before ++ names.call
        (SourceNames.pathLiteral (g.fullPath r)) r.method (SourceNames.handlerPath r.name) ++
      behind) ∧
      (IsLiteral (SourceNames.pathLiteral (g.fullPath r)) (routerPath (g.fullPath r)) ↔
        '"' ∉ (g.fullPath r).toList ∧ '\\' ∉ (g.fullPath r).toList) := by
  obtain ⟨s, -, hdeclared⟩ := exists_of_mem_right (groups_declared hk) hg
  have hpath := hdeclared.isUnbroken_fullPath hr
  have hreturn : '\r' ∉ (routerPath (g.fullPath r)).toList := by
    rw [mem_routerPath (by decide) (by decide) (by decide) (by decide)]
    intro hmem
    exact absurd (hpath _ hmem) (by decide)
  refine ⟨names.render_has_call hg hr, ?_⟩
  rw [SourceNames.pathLiteral, isLiteral_quote_iff hreturn,
    mem_routerPath (by decide) (by decide) (by decide) (by decide),
    mem_routerPath (by decide) (by decide) (by decide) (by decide)]

/-- A service with a route at some path. -/
def shelfFile (path : String) : SourceFile :=
  plainFile "ShelfService" " @group /shelf" [plainMethod "find" (" @route GET " ++ path)]

theorem shelf_literal : ∃ k, (compile [shelfFile "/\x7bid\x7d"]).result = .ok k ∧
    ∃ g ∈ k.groups, ∃ r ∈ g.routes, IsLiteral "\"/shelf/:id\"" (routerPath (g.fullPath r)) := by
  obtain ⟨k, hk, hpaths⟩ : ∃ k, (compile [shelfFile "/\x7bid\x7d"]).result = .ok k ∧
      (k.paths == [["/shelf/\x7bid\x7d"]]) = true := exists_of_any (by decide +kernel)
  obtain ⟨g, hg, r, hr, hpath⟩ := Compilation.exists_route_of_paths (beq_iff_eq.1 hpaths)
  obtain ⟨-, hliteral⟩ := route_literal hk hg hr ⟨defaultProtoModule, defaultRuntimeCrate⟩
  have htext : SourceNames.pathLiteral "/shelf/\x7bid\x7d" = "\"/shelf/:id\"" := by decide +kernel
  rw [hpath, htext] at hliteral
  exact ⟨k, hk, g, hg, r, hr, hpath ▸ hliteral.2 (by decide +kernel)⟩

/-- A path with a quote stands in its call as a literal that ends at the quote. -/
theorem quote_ends_literal : ∃ k, (compile [shelfFile "/a\"b"]).result = .ok k ∧
    ∃ g ∈ k.groups, ∃ r ∈ g.routes, g.fullPath r = "/shelf/a\"b" ∧
      ¬ IsLiteral (SourceNames.pathLiteral (g.fullPath r)) (routerPath (g.fullPath r)) := by
  obtain ⟨k, hk, hpaths⟩ : ∃ k, (compile [shelfFile "/a\"b"]).result = .ok k ∧
      (k.paths == [["/shelf/a\"b"]]) = true := exists_of_any (by decide +kernel)
  obtain ⟨g, hg, r, hr, hpath⟩ := Compilation.exists_route_of_paths (beq_iff_eq.1 hpaths)
  have hreturn : '\r' ∉ (routerPath "/shelf/a\"b").toList := by decide +kernel
  have hquote : '"' ∈ (routerPath "/shelf/a\"b").toList := by decide +kernel
  refine ⟨k, hk, g, hg, r, hr, hpath, fun h => ?_⟩
  rw [hpath] at h
  exact ((isLiteral_quote_iff hreturn).1 h).1 hquote

end ApiDecl
