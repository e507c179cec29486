import ApiDecl.Proofs.HandlerNames
import ApiDecl.Syntax.Lexer

/-!
# Proofs: words in token trees

What the lexer reads as a word is a word, at every depth of a token tree (`isWorded_tokenize`). The
class `Worded` says for syntax of any kind what it means that the names in it are words.
-/

namespace ApiDecl

open Syntax Syntax.Lexeme

/-- The text is one word, raw or not. -/
def IsWord (text : String) : Prop := anyWord text.toList = some (text.toList, [])

instance (text : String) : Decidable (IsWord text) := inferInstanceAs (Decidable (_ = _))

theorem isIdentifier_iff {text : String} :
    IsIdentifier text ↔ IsWord text ∧ text ∉ Peek.reservedWords := .rfl

/-! ## Words that were taken -/

theorem wordTail_of_isWordTail {cs : List Char} (h : ∀ c ∈ cs, Text.isWordTail c = true) :
    wordTail cs = (cs, []) := by
  induction cs with
  | nil => rfl
  | cons c cs ih =>
    obtain ⟨hc, hcs⟩ := List.forall_mem_cons.1 h
    rw [wordTail, if_pos hc, ih hcs]

/-- What is taken as a plain word is one. -/
theorem plainWord_taken {cs taken rest : List Char} (h : plainWord cs = some (taken, rest)) :
    plainWord taken = some (taken, []) := by
  cases cs with
  | nil => cases h
  | cons c cs =>
    rw [plainWord] at h
    split at h
    · next hc =>
      cases h
      rw [plainWord, if_pos hc, wordTail_of_isWordTail (isWordTail_wordTail cs)]
    · cases h

/-- What is taken as a word is one. -/
theorem anyWord_taken {cs taken rest : List Char} (h : anyWord cs = some (taken, rest)) :
    anyWord taken = some (taken, []) := by
  unfold anyWord at h
  split at h
  · next cs =>
    obtain ⟨⟨word, left⟩, hword, h⟩ := Option.bind_eq_some_iff.1 h
    obtain ⟨⟨⟩, hmarkable, h⟩ := Option.bind_eq_some_iff.1 h
    cases h
    have htaken := plainWord_taken hword
    refine Option.bind_eq_some_iff.2 ⟨_, htaken, ?_⟩
    exact Option.bind_eq_some_iff.2 ⟨_, hmarkable, rfl⟩
  · exact anyWord_of_plainWord (plainWord_taken h)

/-! ## Syntax of words -/

/-- Syntax of some kind, which may have names in it. -/
class Worded (α : Type) where
  /-- The names in it are words. -/
  IsWorded : α → Prop

open Worded (IsWorded)

namespace Worded

/-- Most kinds of syntax have no names in them. -/
instance (priority := low) nameless (α : Type) : Worded α := ⟨fun _ => True⟩

instance instOption [Worded α] : Worded (Option α) := ⟨fun o => ∀ a ∈ o, IsWorded a⟩

instance instList [Worded α] : Worded (List α) := ⟨fun l => ∀ a ∈ l, IsWorded a⟩

instance [Worded α] [Worded β] : Worded (α × β) := ⟨fun p => IsWorded p.1 ∧ IsWorded p.2⟩

variable {α β : Type}

@[simp] theorem isWorded_nameless (a : α) : @IsWorded α (nameless α) a := trivial

@[simp] theorem isWorded_namelessOption (o : Option α) :
    @IsWorded (Option α) (@instOption α (nameless α)) o := fun _ _ => trivial

@[simp] theorem isWorded_namelessList (l : List α) :
    @IsWorded (List α) (@instList α (nameless α)) l := fun _ _ => trivial

variable [Worded α] [Worded β]

@[simp] theorem isWorded_ite {c : Prop} [Decidable c] {a a' : α} :
    IsWorded (if c then a else a') ↔ if c then IsWorded a else IsWorded a' := by
  split <;> rfl

@[simp] theorem isWorded_none : IsWorded (none : Option α) := nofun

@[simp] theorem isWorded_some {a : α} : IsWorded (some a) ↔ IsWorded a :=
  ⟨fun h => h a rfl, fun h _ hb => Option.some.inj hb ▸ h⟩

theorem isWorded_getD {o : Option α} {a : α} (ho : IsWorded o) (ha : IsWorded a) :
    IsWorded (o.getD a) := by
  cases o with
  | none => exact ha
  | some b => exact ho b rfl

@[simp] theorem isWorded_join {o : Option (Option α)} (h : IsWorded o) : IsWorded o.join := by
  cases o with
  | none => exact isWorded_none
  | some a => exact h a rfl

@[simp] theorem isWorded_nil : IsWorded ([] : List α) := List.forall_mem_nil _

@[simp] theorem isWorded_cons {a : α} {l : List α} :
    IsWorded (a :: l) ↔ IsWorded a ∧ IsWorded l := List.forall_mem_cons

@[simp] theorem isWorded_append {l l' : List α} :
    IsWorded (l ++ l') ↔ IsWorded l ∧ IsWorded l' := List.forall_mem_append

@[simp] theorem isWorded_reverse {l : List α} : IsWorded l.reverse ↔ IsWorded l :=
  ⟨fun h a ha => h a (List.mem_reverse.2 ha), fun h a ha => h a (List.mem_reverse.1 ha)⟩

theorem isWorded_drop {l : List α} (h : IsWorded l) (n : Nat) : IsWorded (l.drop n) :=
  fun a ha => h a (List.mem_of_mem_drop ha)

theorem isWorded_filterMap {f : α → Option β} (hf : ∀ a, IsWorded a → IsWorded (f a)) {l : List α}
    (h : IsWorded l) : IsWorded (l.filterMap f) := by
  intro b hb
  obtain ⟨a, ha, hab⟩ := List.mem_filterMap.1 hb
  exact hf a (h a ha) b hab

theorem isWorded_map {f : α → β} (hf : ∀ a, IsWorded a → IsWorded (f a)) {l : List α}
    (h : IsWorded l) : IsWorded (l.map f) := by
  intro b hb
  obtain ⟨a, ha, rfl⟩ := List.mem_map.1 hb
  exact hf a (h a ha)

@[simp] theorem isWorded_pair {p : α × β} : IsWorded p ↔ IsWorded p.1 ∧ IsWorded p.2 := .rfl

end Worded

/-! ## Tokens -/

namespace Syntax

/-- All words in a token tree are words. -/
inductive Token.IsWorded : Token → Prop where
  | word {text : String} {p : Position} (h : IsWord text) : IsWorded (.word text p)
  | mark {c : Char} {joint : Bool} {p : Position} : IsWorded (.mark c joint p)
  | literal {text : String} {p : Position} : IsWorded (.literal text p)
  | group {d : Delimiter} {content : List Token} {opening closing : Position}
    (h : ∀ t ∈ content, t.IsWorded) : IsWorded (.group d content opening closing)

instance : Worded Token := ⟨Token.IsWorded⟩

@[simp] theorem isWorded_word {text : String} {p : Position} :
    IsWorded (Token.word text p) ↔ IsWord text :=
  ⟨fun | .word h => h, .word⟩

@[simp] theorem isWorded_mark {c : Char} {joint : Bool} {p : Position} :
    IsWorded (Token.mark c joint p) := .mark

@[simp] theorem isWorded_literal {text : String} {p : Position} :
    IsWorded (Token.literal text p) := .literal

@[simp] theorem isWorded_group {d : Delimiter} {content : List Token} {opening closing : Position} :
    IsWorded (Token.group d content opening closing) ↔ IsWorded content :=
  ⟨fun | .group h => h, .group⟩

namespace Lexer

instance : Worded OpenGroup := ⟨fun g => IsWorded g.before⟩

@[simp] theorem isWorded_openGroup {d : Delimiter} {p : Position} {before : List Token} :
    IsWorded (OpenGroup.mk d p before) ↔ IsWorded before := .rfl

theorem isWorded_docTokens (comment : DocComment) (p : Position) :
    IsWorded (docTokens comment p) := by
  have hdoc : IsWord "doc" := by decide
  unfold docTokens
  split <;> simp [hdoc]

theorem isWorded_leaf {p : Position} {cs taken rest : List Char} {token : Token}
    (h : leaf p cs = some (token, taken, rest)) : IsWorded token := by
  unfold leaf at h
  split at h
  · cases h
    exact isWorded_literal
  · split at h
    · cases h
      exact isWorded_mark
    · obtain ⟨⟨word, left⟩, hword, hleaf⟩ := Option.map_eq_some_iff.1 h
      cases hleaf
      unfold Lexeme.word at hword
      split at hword
      · cases hword
      · rw [isWorded_word, IsWord, String.toList_ofList]
        exact anyWord_taken hword

/-- Reading on within open groups and after some tokens gives tokens of words. -/
theorem isWorded_read {fuel : Nat} {p : Position} {opened : List OpenGroup} {done : List Token}
    {cs : List Char} {tokens : List Token} (hopened : IsWorded opened) (hdone : IsWorded done)
    (h : read fuel p opened done cs = .ok tokens) : IsWorded tokens := by
  induction fuel generalizing p opened done cs with
  | zero => cases h
  | succ fuel ih =>
    rw [read.eq_def] at h
    dsimp only at h
    split at h
    · split at h
      · cases h
        exact Worded.isWorded_reverse.2 hdone
      · cases h
    · split at h
      · exact ih hopened hdone h
      · split at h
        · refine ih hopened ?_ h
          exact Worded.isWorded_append.2
            ⟨Worded.isWorded_reverse.2 (isWorded_docTokens _ _), hdone⟩
        · split at h
          · exact ih (by simp [hopened, hdone]) (by simp) h
          · split at h
            · cases h
            · split at h
              · obtain ⟨hbefore, houter⟩ := Worded.isWorded_cons.1 hopened
                refine ih houter (Worded.isWorded_cons.2 ⟨?_, hbefore⟩) h
                exact isWorded_group.2 (Worded.isWorded_reverse.2 hdone)
              · cases h
          · split at h
            · next hleaf =>
              exact ih hopened (Worded.isWorded_cons.2 ⟨isWorded_leaf hleaf, hdone⟩) h
            · cases h

end Lexer

/-- The tokens of a text are made of words. -/
theorem isWorded_tokenize {cs : List Char} {tokens : List Token} (h : tokenize cs = .ok tokens) :
    IsWorded tokens := by
  unfold tokenize at h
  split at h
  · cases h
    exact Worded.isWorded_nil
  · split at h
    · exact Lexer.isWorded_read Worded.isWorded_nil Worded.isWorded_nil h
    · exact Lexer.isWorded_read Worded.isWorded_nil Worded.isWorded_nil h

end Syntax

end ApiDecl
