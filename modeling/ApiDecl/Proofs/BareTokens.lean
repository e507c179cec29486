import ApiDecl.Syntax.Parser.Complete
import Mathlib.Logic.Basic

/-!
# Proofs: tokens without positions

Where a token stands in the source matters for messages only. Bare tokens have no positions, and the
tests by which parsers choose between alternatives do not tell tokens from bare ones
(`Peek.Blind`).
-/

namespace ApiDecl.Syntax

namespace Token

mutual

/-- A token without its positions. -/
def bare : Token → Token
  | word s _ => word s default
  | mark c joint _ => mark c joint default
  | literal s _ => literal s default
  | group d content _ _ => group d (bareAll content) default default

/-- Tokens without their positions. -/
def bareAll : List Token → List Token
  | [] => []
  | t :: rest => t.bare :: bareAll rest

end

theorem bareAll_eq_map (tokens : List Token) : bareAll tokens = tokens.map bare := by
  induction tokens with
  | nil => rfl
  | cons t rest ih => rw [bareAll, ih, List.map_cons]

@[simp] theorem bareAll_nil : bareAll [] = [] := rfl

@[simp] theorem bareAll_cons (t : Token) (rest : List Token) :
    bareAll (t :: rest) = t.bare :: bareAll rest := rfl

@[simp] theorem bareAll_append (l l' : List Token) :
    bareAll (l ++ l') = bareAll l ++ bareAll l' := by
  simp only [bareAll_eq_map, List.map_append]

@[simp] theorem bareAll_drop (n : Nat) (l : List Token) :
    bareAll (l.drop n) = (bareAll l).drop n := by
  simp only [bareAll_eq_map, List.map_drop]

@[simp] theorem length_bareAll (l : List Token) : (bareAll l).length = l.length := by
  rw [bareAll_eq_map, List.length_map]

section

variable {tokens rest content : List Token} {v spelling : String} {c : Char} {joint : Bool}
  {d : Delimiter}

theorem exists_word (h : bareAll tokens = .word v default :: rest) :
    ∃ p behind, tokens = .word v p :: behind ∧ bareAll behind = rest := by
  match tokens with
  | .word _ p :: behind =>
    obtain ⟨hword, hrest⟩ := List.cons.inj h
    obtain ⟨rfl, -⟩ := Token.word.inj hword
    exact ⟨p, behind, rfl, hrest⟩

theorem exists_mark (h : bareAll tokens = .mark c joint default :: rest) :
    ∃ p behind, tokens = .mark c joint p :: behind ∧ bareAll behind = rest := by
  match tokens with
  | .mark _ _ p :: behind =>
    obtain ⟨hmark, hrest⟩ := List.cons.inj h
    obtain ⟨rfl, rfl, -⟩ := Token.mark.inj hmark
    exact ⟨p, behind, rfl, hrest⟩

theorem exists_literal (h : bareAll tokens = .literal spelling default :: rest) :
    ∃ p behind, tokens = .literal spelling p :: behind ∧ bareAll behind = rest := by
  match tokens with
  | .literal _ p :: behind =>
    obtain ⟨hliteral, hrest⟩ := List.cons.inj h
    obtain ⟨rfl, -⟩ := Token.literal.inj hliteral
    exact ⟨p, behind, rfl, hrest⟩

theorem exists_group (h : bareAll tokens = .group d content default default :: rest) :
    ∃ inner opening closing behind, tokens = .group d inner opening closing :: behind ∧
      bareAll inner = content ∧ bareAll behind = rest := by
  match tokens with
  | .group _ inner opening closing :: behind =>
    obtain ⟨hgroup, hrest⟩ := List.cons.inj h
    obtain ⟨rfl, hinner, -⟩ := Token.group.inj hgroup
    exact ⟨inner, opening, closing, behind, rfl, hinner, hrest⟩

end

end Token

/-! ## Tests -/

namespace Peek

open Token

/-- The test does not depend on positions. -/
class Blind (test : Peek) : Prop where
  bareAll_eq : ∀ tokens, test (bareAll tokens) = test tokens

export Blind (bareAll_eq)

section Combining

variable {test other : Peek} [Blind test] [Blind other]

instance : Blind atEnd := ⟨fun tokens => by cases tokens <;> rfl⟩

instance : Blind (oneOf []) := ⟨fun _ => rfl⟩

instance {tests : List Peek} [h : Blind (oneOf tests)] : Blind (oneOf (test :: tests)) :=
  ⟨fun tokens => congrArg₂ (· || ·) (bareAll_eq tokens) (h.bareAll_eq tokens)⟩

instance : Blind (allOf []) := ⟨fun _ => rfl⟩

instance {tests : List Peek} [h : Blind (allOf tests)] : Blind (allOf (test :: tests)) :=
  ⟨fun tokens => congrArg₂ (· && ·) (bareAll_eq tokens) (h.bareAll_eq tokens)⟩

instance : Blind (butNot test other) :=
  ⟨fun tokens => congrArg₂ (fun a b => a && !b) (bareAll_eq tokens) (bareAll_eq tokens)⟩

theorem dropOne_bareAll (tokens : List Token) :
    dropOne (bareAll tokens) = bareAll (dropOne tokens) := by
  match tokens with
  | [] => rfl
  | .word .. :: rest | .literal .. :: rest | .group .. :: rest | .mark _ false _ :: rest => rfl
  | [.mark _ true _] => rfl
  | .mark _ true _ :: .literal .. :: rest | .mark _ true _ :: .group .. :: rest
  | .mark _ true _ :: .mark .. :: rest => rfl
  | .mark c true _ :: .word w _ :: rest =>
    simp only [bareAll_cons, bare, dropOne]
    split <;> rfl

instance : Blind (second test) := by
  refine ⟨fun tokens => ?_⟩
  rw [second, dropOne_bareAll, ‹Blind test›.bareAll_eq, second]
  cases tokens <;> rfl

instance : Blind (third test) := inferInstanceAs (Blind (second (second test)))

instance : Blind (followedBy test other) :=
  inferInstanceAs (Blind (allOf [test, second other]))

end Combining

theorem symbolChars_bareAll (cs : List Char) (tokens : List Token) :
    symbolChars cs (bareAll tokens) = symbolChars cs tokens := by
  induction cs generalizing tokens with
  | nil => rfl
  | cons c cs ih =>
    cases tokens with
    | nil => rfl
    | cons t rest => cases t <;> cases cs <;> simp [bare, symbolChars, ih]

instance (s : String) : Blind (symbol s) := ⟨symbolChars_bareAll s.toList⟩

instance : Blind colon := inferInstanceAs (Blind (butNot (symbol ":") (symbol "::")))

instance : Blind point := inferInstanceAs (Blind (butNot (symbol ".") (symbol "..")))

/-- It is enough to look at tokens that are there. -/
theorem Blind.of_cons {test : Peek}
    (h : ∀ t rest, test (bareAll (t :: rest)) = test (t :: rest)) : Blind test := by
  refine ⟨fun tokens => ?_⟩
  cases tokens with
  | nil => rfl
  | cons t rest => exact h t rest

instance (w : String) : Blind (keyword w) := .of_cons fun t _ => by cases t <;> rfl

instance (words : List String) : Blind (oneKeyword words) := .of_cons fun t _ => by cases t <;> rfl

instance : Blind anyWord := .of_cons fun t _ => by cases t <;> rfl

instance : Blind name := .of_cons fun t _ => by cases t <;> rfl

instance (d : Delimiter) : Blind (group d) := .of_cons fun t _ => by cases t <;> rfl

instance : Blind anyGroup := .of_cons fun t _ => by cases t <;> rfl

instance : Blind stringLiteral := .of_cons fun t _ => by cases t <;> rfl

instance : Blind lifetime := by
  refine ⟨fun tokens => ?_⟩
  match tokens with
  | [] | [.mark _ true _] => rfl
  | .word .. :: _ | .literal .. :: _ | .group .. :: _ | .mark _ false _ :: _ => rfl
  | .mark _ true _ :: t :: _ => cases t <;> rfl

theorem number?_bareAll (tokens : List Token) : number? (bareAll tokens) = number? tokens := by
  match tokens with
  | [] | .word .. :: _ | .literal .. :: _ | .group .. :: _ => rfl
  | .mark c _ _ :: rest =>
    by_cases hc : c = '-'
    · subst hc
      cases rest with
      | nil => rfl
      | cons t rest => cases t <;> rfl
    · simp [number?, bare, hc]

instance : Blind literal := by
  refine ⟨fun tokens => ?_⟩
  match tokens with
  | [] | .word .. :: _ | .literal .. :: _ | .group .. :: _ => rfl
  | .mark c joint p :: rest =>
    exact congrArg Option.isSome (number?_bareAll (.mark c joint p :: rest))

instance : Blind wholeNumber := ⟨fun tokens => by rw [wholeNumber, number?_bareAll, wholeNumber]⟩

instance : Blind fraction := ⟨fun tokens => by rw [fraction, number?_bareAll, fraction]⟩

instance : Blind itemPath := by
  unfold itemPath
  infer_instance

instance : Blind genericParameters := by
  unfold genericParameters
  infer_instance

instance : Blind receiver := by
  have hno : Blind fun rest => !symbol "::" rest := ⟨fun tokens => congrArg (!·) (bareAll_eq tokens)⟩
  refine ⟨fun tokens => ?_⟩
  unfold receiver
  simp only [bareAll_eq, ← bareAll_drop, ← apply_ite bareAll]

end Peek

end ApiDecl.Syntax
