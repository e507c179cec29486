import ApiDecl.Proofs.RouteSource
import ApiDecl.Syntax.Parser.Peek

/-!
# Proofs: the handlers of routes

The handler of a route is named by a path `S::name`, where the name is that of a method without its
raw marker. The only last segment it can have is this name (`IsPath.eq_of_handlerPath`), so the
handler names the method exactly if the name is no reserved word (`handler_names_method`).
-/

namespace ApiDecl

open Syntax Syntax.Lexeme

/-- The text is a word, raw or not, that is not reserved. -/
def IsIdentifier (word : String) : Prop :=
  anyWord word.toList = some (word.toList, []) ∧ word ∉ Peek.reservedWords

instance (word : String) : Decidable (IsIdentifier word) := inferInstanceAs (Decidable (_ ∧ _))

/-- The text is a path of identifiers, of which the last one is given. -/
inductive IsPath : String → String → Prop where
  | single {word : String} (h : IsIdentifier word) : IsPath word word
  | within {word path last : String} (h : IsIdentifier word) (hpath : IsPath path last) :
    IsPath (word ++ "::" ++ path) last

/-! ## Words -/

theorem isWordTail_of_start {c : Char} (h : Text.isWordStart c = true) :
    Text.isWordTail c = true := by
  unfold Text.isWordStart at h
  unfold Text.isWordTail
  split at h
  · next hascii =>
    rw [if_pos hascii]
    simp only [Bool.or_eq_true] at h ⊢
    refine h.imp_left fun h => ?_
    simp [Char.isAlphanum, h]
  · next hascii =>
    rw [if_neg hascii, h]
    rfl

theorem isWordTail_wordTail (cs : List Char) : ∀ c ∈ (wordTail cs).1, Text.isWordTail c = true := by
  induction cs with
  | nil => exact List.forall_mem_nil _
  | cons c cs ih =>
    rw [wordTail]
    split
    · next hc => exact List.forall_mem_cons.2 ⟨hc, ih⟩
    · exact List.forall_mem_nil _

theorem isWordTail_of_plainWord {cs word rest : List Char} (h : plainWord cs = some (word, rest)) :
    ∀ c ∈ word, Text.isWordTail c = true := by
  cases cs with
  | nil => cases h
  | cons c cs =>
    rw [plainWord] at h
    split at h
    · next hc =>
      cases h
      exact List.forall_mem_cons.2 ⟨isWordTail_of_start hc, isWordTail_wordTail cs⟩
    · cases h

/-- A word is a plain word, or a raw marker and a plain word. -/
theorem plainWord_of_anyWord {cs : List Char} (h : anyWord cs = some (cs, [])) :
    plainWord cs = some (cs, []) ∨
      ∃ word, cs = 'r' :: '#' :: word ∧ plainWord word = some (word, []) := by
  unfold anyWord at h
  split at h
  · next rest =>
    obtain ⟨⟨taken, left⟩, hword, h⟩ := Option.bind_eq_some_iff.1 h
    obtain ⟨-, -, h⟩ := Option.bind_eq_some_iff.1 h
    cases h
    exact .inr ⟨_, rfl, hword⟩
  · exact .inl h

theorem anyWord_of_plainWord {cs : List Char} (h : plainWord cs = some (cs, [])) :
    anyWord cs = some (cs, []) := by
  unfold anyWord
  split
  · have hmark := isWordTail_of_plainWord h '#' (by simp)
    exact absurd hmark (by decide)
  · exact h

theorem plainWord_plainName {name : String} (h : anyWord name.toList = some (name.toList, [])) :
    plainWord (plainName name).toList = some ((plainName name).toList, []) := by
  unfold plainName
  rcases plainWord_of_anyWord h with hword | ⟨word, hname, hword⟩
  · split
    · next rest hname =>
      have hmark := isWordTail_of_plainWord hword '#' (by simp [hname])
      exact absurd hmark (by decide)
    · exact hword
  · rw [hname]
    simpa using hword

theorem plainName_of_plainWord {name : String}
    (h : plainWord name.toList = some (name.toList, [])) : plainName name = name := by
  unfold plainName
  split
  · next rest hname =>
    have hmark := isWordTail_of_plainWord h '#' (by simp [hname])
    exact absurd hmark (by decide)
  · rfl

theorem not_colon_of_anyWord {name : String} (h : anyWord name.toList = some (name.toList, [])) :
    ∀ c ∈ name.toList, c ≠ ':' := by
  have htail : Text.isWordTail ':' = false := by decide
  rintro c hc rfl
  rcases plainWord_of_anyWord h with hword | ⟨word, hname, hword⟩
  · exact absurd (isWordTail_of_plainWord hword ':' hc) (by simp [htail])
  · rw [hname] at hc
    have hin : ':' ∈ word := by simpa using hc
    exact absurd (isWordTail_of_plainWord hword ':' hin) (by simp [htail])

/-! ## Paths -/

/-- What stands behind the last colon. -/
def behindColons (cs : List Char) : List Char := (cs.reverse.takeWhile (· != ':')).reverse

theorem behindColons_append {word : List Char} (hword : ∀ c ∈ word, c ≠ ':')
    (before : List Char) : behindColons (before ++ ':' :: word) = word := by
  have hpos : ∀ c ∈ word.reverse, (c != ':') = true := by simpa using hword
  have hreverse : (before ++ ':' :: word).reverse = word.reverse ++ ':' :: before.reverse := by simp
  rw [behindColons, hreverse, List.takeWhile_append_of_pos hpos,
    List.takeWhile_cons_of_neg (by simp), List.append_nil, List.reverse_reverse]

theorem IsPath.behindColons_eq {path last : String} (h : IsPath path last) (before : List Char) :
    behindColons (before ++ ':' :: path.toList) = last.toList := by
  induction h generalizing before with
  | single h => exact behindColons_append (not_colon_of_anyWord h.1) before
  | @within word path last h hpath ih =>
    have hsplit : before ++ ':' :: (word ++ "::" ++ path).toList =
        (before ++ ':' :: word.toList ++ [':']) ++ ':' :: path.toList := by
      simp
    rw [hsplit]
    exact ih _

theorem IsPath.isIdentifier {path last : String} (h : IsPath path last) : IsIdentifier last := by
  induction h with
  | single h => exact h
  | within _ _ ih => exact ih

/-- The last segment of a handler is the word behind its colons. -/
theorem IsPath.eq_of_handlerPath {name last : String}
    (hname : anyWord name.toList = some (name.toList, []))
    (h : IsPath (SourceNames.handlerPath name) last) : last = name := by
  have hlast := h.behindColons_eq []
  have hsplit : [] ++ ':' :: (SourceNames.handlerPath name).toList =
      [':', 'S', ':'] ++ ':' :: name.toList := by
    simp [SourceNames.handlerPath]
  rw [hsplit, behindColons_append (not_colon_of_anyWord hname)] at hlast
  exact String.toList_injective hlast.symm

theorem isPath_handlerPath {name : String} (h : IsIdentifier name) :
    IsPath (SourceNames.handlerPath name) name := by
  have hS : IsIdentifier "S" := by decide
  exact .within hS (.single h)

/-! ## Handlers -/

/-- The handler of every method of a service is named in the call of its route by `S` and the name
of the method without its raw marker. That is a path to the method exactly if the name is not
reserved: where the marker is needed, it is missing. -/
theorem handler_names_method {files : List SourceFile} {k : Compilation}
    (hk : (compile files).result = .ok k) {s : String × TraitDecl} (hs : s ∈ services files)
    {m : MethodDecl} (hm : m ∈ s.2.methods) (hname : IsIdentifier m.name) (names : SourceNames) :
    ∃ g ∈ k.groups, g.DeclaredBy s.1 s.2 ∧ ∃ r ∈ g.routes, r.name = plainName m.name ∧
      (∃ before behind literal, (names.render k.groups).value = before ++
        names.call literal r.method (SourceNames.handlerPath r.name) ++ behind) ∧
      ((∃ last, IsPath (SourceNames.handlerPath r.name) last ∧ plainName last = plainName m.name) ↔
        plainName m.name ∉ Peek.reservedWords) := by
  obtain ⟨g, hg, hdeclared⟩ := exists_of_mem_left (groups_declared hk) hs
  obtain ⟨r, hr, hrname⟩ := hdeclared.exists_route hm
  obtain ⟨before, behind, hcall⟩ := names.render_has_call hg hr
  have hword := plainWord_plainName hname.1
  refine ⟨g, hg, hdeclared, r, hr, hrname, ⟨before, behind, _, hcall⟩, ?_⟩
  rw [hrname]
  constructor
  · rintro ⟨last, hpath, -⟩
    obtain rfl := hpath.eq_of_handlerPath (anyWord_of_plainWord hword)
    exact hpath.isIdentifier.2
  · intro hfree
    refine ⟨_, isPath_handlerPath ⟨anyWord_of_plainWord hword, hfree⟩, ?_⟩
    exact plainName_of_plainWord hword

/-- A service with a method whose name is a reserved word, and one whose name could be. -/
def yardFile : SourceFile :=
  plainFile "YardService" " Yards."
    [plainMethod "r#move" " @route POST /move", plainMethod "r#store" " @route PUT /store"]

theorem yardFile_compiles : ∃ k, (compile [yardFile]).result = .ok k :=
  exists_of_isOk (by decide +kernel)

theorem store_is_named : ∃ k, (compile [yardFile]).result = .ok k ∧ ∃ g ∈ k.groups,
    ∃ r ∈ g.routes, r.name = "store" ∧ ∃ last, IsPath (SourceNames.handlerPath r.name) last ∧
      plainName last = plainName "r#store" := by
  obtain ⟨k, hk⟩ := yardFile_compiles
  obtain ⟨s, hs, m, hm, hname⟩ : ∃ s ∈ services [yardFile], ∃ m ∈ s.2.methods,
      m.name = "r#store" := ⟨_, List.mem_cons_self, _, .tail _ List.mem_cons_self, rfl⟩
  obtain ⟨g, hg, -, r, hr, hrname, -, hpath⟩ := handler_names_method hk hs hm
    (hname ▸ by decide +kernel) ⟨defaultProtoModule, defaultRuntimeCrate⟩
  rw [hname] at hrname hpath
  exact ⟨k, hk, g, hg, r, hr, hrname.trans (by decide +kernel), hpath.2 (by decide +kernel)⟩

/-- The handler of a method with a raw name can be no path at all. -/
theorem move_is_not_named : IsIdentifier "r#move" ∧ ∃ k, (compile [yardFile]).result = .ok k ∧
    ∃ g ∈ k.groups, ∃ r ∈ g.routes, r.name = plainName "r#move" ∧
      ¬ ∃ last, IsPath (SourceNames.handlerPath r.name) last := by
  obtain ⟨k, hk⟩ := yardFile_compiles
  obtain ⟨s, hs, m, hm, hname⟩ : ∃ s ∈ services [yardFile], ∃ m ∈ s.2.methods,
      m.name = "r#move" := ⟨_, List.mem_cons_self, _, List.mem_cons_self, rfl⟩
  obtain ⟨g, hg, hdeclared⟩ := exists_of_mem_left (groups_declared hk) hs
  obtain ⟨r, hr, hrname⟩ := hdeclared.exists_route hm
  have hmove : plainName "r#move" = "move" := by decide +kernel
  refine ⟨by decide +kernel, k, hk, g, hg, r, hr, hname ▸ hrname, ?_⟩
  rintro ⟨last, hpath⟩
  rw [hrname, hname, hmove] at hpath
  obtain rfl := hpath.eq_of_handlerPath (by decide +kernel)
  exact hpath.isIdentifier.2 (by decide +kernel)

end ApiDecl
