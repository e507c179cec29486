import Mathlib.Data.List.Forall2
import Mathlib.Data.List.Induction
import ApiDecl.Doc.Directive
import ApiDecl.Proofs.Words

/-!
# Proofs: the grammar of directives

What a line of documentation says depends on its words alone: each kind of directive has its form
(`DocLine.Says`), and so has each kind of fault (`DocLine.Malformed`). Every line has one of these
forms, and reading it gives that one (`directive?_ok_iff`, `directive?_error_iff`).
-/

namespace ApiDecl

/-! ## Names of methods -/

/-- The text is the name of the method, each letter as a capital or not. -/
def HttpMethod.IsNamed (m : HttpMethod) (text : String) : Prop :=
  List.Forall₂ (fun c capital => c = capital ∨ c = capital.toLower) text.toList m.name.toList

theorem HttpMethod.capitals (m : HttpMethod) :
    ∀ capital ∈ m.name.toList, capital.toUpper = capital ∧ capital.toLower.toUpper = capital := by
  have hall : m.name.toList.all (fun c => c.toUpper == c && c.toLower.toUpper == c) = true := by
    cases m <;> rfl
  simpa only [List.all_eq_true, Bool.and_eq_true, beq_iff_eq] using hall

/-- A letter that is no capital is the small form of its capital. -/
theorem toLower_toUpper (c : Char) : c = c.toUpper ∨ c = c.toUpper.toLower := by
  have small : ∀ k < 26, (Char.ofNat (97 + k)).toUpper.toLower = Char.ofNat (97 + k) := by decide
  by_cases h : 'a'.val ≤ c.val ∧ c.val ≤ 'z'.val
  · right
    have hlow : 97 ≤ c.toNat := h.1
    have hhigh : c.toNat ≤ 122 := h.2
    have hc := small (c.toNat - 97) (by omega)
    rw [Nat.add_sub_cancel' hlow, Char.ofNat_toNat] at hc
    exact hc.symm
  · left
    have hc : c.toUpper = c := dif_neg h
    exact hc.symm

theorem map_toUpper_eq_iff {cs capitals : List Char}
    (h : ∀ C ∈ capitals, C.toUpper = C ∧ C.toLower.toUpper = C) :
    cs.map Char.toUpper = capitals ↔
      List.Forall₂ (fun c capital => c = capital ∨ c = capital.toLower) cs capitals := by
  constructor
  · rintro rfl
    rw [List.forall₂_map_right_iff]
    exact List.forall₂_same.2 fun c _ => toLower_toUpper c
  · intro hcs
    induction hcs with
    | nil => rfl
    | @cons c capital cs capitals hc _ ih =>
      obtain ⟨⟨hupper, hlower⟩, hrest⟩ := List.forall_mem_cons.1 h
      rw [List.map_cons, ih hrest]
      rcases hc with rfl | rfl
      · rw [hupper]
      · rw [hlower]

/-- A text stands for the method that it is a name of. -/
theorem HttpMethod.ofName?_eq_some_iff {text : String} {m : HttpMethod} :
    HttpMethod.ofName? text = some m ↔ m.IsNamed text := by
  rw [IsNamed, ← map_toUpper_eq_iff m.capitals, ofName?]
  constructor
  · intro h
    have hname := List.find?_some h
    rw [beq_iff_eq] at hname
    rw [hname, String.toList_ofList]
  · intro h
    rw [h, String.ofList_toList]
    cases m <;> rfl

/-! ## Numerals -/

/-- The text is a numeral for the number, with any number of zeros in front and maybe a plus sign
in front of them. -/
def IsNumeral (text : String) (n : Nat) : Prop :=
  ∃ plus zeros, (plus = [] ∨ plus = ['+']) ∧
    text.toList = plus ++ (List.replicate zeros '0' ++ Nat.toDigits 10 n)

theorem exists_digitChar {c : Char} (h : c.isDigit = true) : ∃ k < 10, c = Nat.digitChar k := by
  have digits : ∀ k < 10, Char.ofNat (48 + k) = Nat.digitChar k := by decide
  rw [Char.isDigit, Bool.and_eq_true, decide_eq_true_eq, decide_eq_true_eq] at h
  have hlow : 48 ≤ c.toNat := h.1
  have hhigh : c.toNat ≤ 57 := h.2
  refine ⟨c.toNat - 48, by omega, ?_⟩
  rw [← digits _ (by omega), Nat.add_sub_cancel' hlow, Char.ofNat_toNat]

/-- Digits write the number that they stand for, behind zeros. -/
theorem exists_toDigits {ds : List Char} (hne : ds ≠ []) (h : ∀ d ∈ ds, d.isDigit = true) :
    ∃ zeros n, ds = List.replicate zeros '0' ++ Nat.toDigits 10 n := by
  induction ds using List.reverseRec with
  | nil => exact absurd rfl hne
  | append_singleton ds d ih =>
    obtain ⟨k, hk, rfl⟩ := exists_digitChar (h d (by simp))
    rw [← Nat.toDigits_of_lt_base hk]
    rcases eq_or_ne ds [] with rfl | hds
    · exact ⟨0, k, rfl⟩
    · obtain ⟨zeros, n, hn⟩ := ih hds fun d hd => h d (List.mem_append_left _ hd)
      rcases Nat.eq_zero_or_pos n with rfl | hpos
      · refine ⟨zeros + 1, k, ?_⟩
        rw [hn, Nat.toDigits_zero, ← List.replicate_succ']
      · refine ⟨zeros, 10 * n + k, ?_⟩
        rw [hn, List.append_assoc, Nat.toDigits_append_toDigits (by decide) hpos hk]

/-- The digits that write a number are those that stand for it, behind zeros. -/
theorem digits_iff {ds : List Char} {n : Nat} :
    (ds ≠ [] ∧ (∀ d ∈ ds, d.isDigit = true) ∧ Nat.ofDigitChars 10 ds 0 = n) ↔
      ∃ zeros, ds = List.replicate zeros '0' ++ Nat.toDigits 10 n := by
  have value : ∀ zeros n,
      Nat.ofDigitChars 10 (List.replicate zeros '0' ++ Nat.toDigits 10 n) 0 = n := by
    intro zeros n
    rw [Nat.ofDigitChars_append, Nat.ofDigitChars_replicate_zero, Nat.mul_zero,
      Nat.ofDigitChars_ten_toDigits]
  constructor
  · rintro ⟨hne, hdigits, rfl⟩
    obtain ⟨zeros, n, rfl⟩ := exists_toDigits hne hdigits
    exact ⟨zeros, by rw [value]⟩
  · rintro ⟨zeros, rfl⟩
    refine ⟨by simp, ?_, value zeros n⟩
    rw [List.forall_mem_append]
    refine ⟨?_, fun d => Nat.isDigit_of_mem_toDigits (by decide) (by decide)⟩
    intro d hd
    rw [List.eq_of_mem_replicate hd]
    rfl

/-- A text stands for the number that it is a numeral for. -/
theorem decimal?_eq_some_iff {text : String} {n : Nat} :
    decimal? text = some n ↔ IsNumeral text n := by
  have read : ∀ ds : List Char,
      (if ds.isEmpty ∨ !ds.all Char.isDigit then none
        else some (ds.foldl (fun n c => 10 * n + (c.toNat - '0'.toNat)) 0)) = some n ↔
      ∃ zeros, ds = List.replicate zeros '0' ++ Nat.toDigits 10 n := by
    intro ds
    have hrefused : (ds.isEmpty ∨ !ds.all Char.isDigit) ↔
        ¬ (ds ≠ [] ∧ ∀ d ∈ ds, d.isDigit = true) := by
      simp only [List.isEmpty_iff, Bool.not_eq_true', List.all_eq_false, not_and_or, not_forall,
        not_not, exists_prop, Bool.not_eq_true]
    rw [← digits_iff, Nat.ofDigitChars_eq_foldl]
    split_ifs with h
    · rw [hrefused] at h
      exact iff_of_false nofun fun ⟨hne, hdigits, _⟩ => h ⟨hne, hdigits⟩
    · rw [hrefused, not_not] at h
      exact ⟨fun hn => ⟨h.1, h.2, Option.some.inj hn⟩, fun ⟨_, _, hn⟩ => congrArg some hn⟩
  have plusless : ∀ zeros ds, '+' :: ds ≠ List.replicate zeros '0' ++ Nat.toDigits 10 n := by
    intro zeros ds h
    have hdigits := (digits_iff.2 ⟨zeros, h⟩).2.1 '+' List.mem_cons_self
    exact absurd hdigits (by decide)
  unfold decimal? IsNumeral
  dsimp only
  split
  · next rest htext =>
    rw [read, htext]
    constructor
    · rintro ⟨zeros, rfl⟩
      exact ⟨['+'], zeros, .inr rfl, rfl⟩
    · rintro ⟨plus, zeros, rfl | rfl, h⟩
      · exact absurd h (plusless zeros rest)
      · exact ⟨zeros, (List.cons.inj h).2⟩
  · next hplus =>
    rw [read]
    constructor
    · rintro ⟨zeros, h⟩
      exact ⟨[], zeros, .inl rfl, h⟩
    · rintro ⟨plus, zeros, rfl | rfl, h⟩
      · exact ⟨zeros, h⟩
      · exact absurd h (hplus _)

theorem status?_eq_some_iff {text : String} {n : Nat} :
    status? text = some n ↔ IsNumeral text n ∧ 100 ≤ n ∧ n ≤ 599 := by
  rw [status?, Option.filter_eq_some_iff, decimal?_eq_some_iff, decide_eq_true_eq]

namespace DocLine

/-! ## Forms of lines -/

/-- The first words of directives. -/
def keywords : List String := ["@group", "@route", "@code", "@schema"]

/-- The line consists of these words. -/
def HasWords (line : DocLine) (words : List String) : Prop := Text.HasWords line.text.toList words

/-- What a line says, by its words. -/
inductive Says (line : DocLine) : Option Directive → Prop
  | nothing (h : line.HasWords []) : Says line none
  | group {path : String} (h : line.HasWords ["@group", path]) : Says line (some (.group path))
  | route {method path : String} {m : HttpMethod} (h : line.HasWords ["@route", method, path])
      (hm : m.IsNamed method) : Says line (some (.route m path))
  | code {numeral : String} {n : Nat} (h : line.HasWords ["@code", numeral])
      (hn : IsNumeral numeral n) (low : 100 ≤ n) (high : n ≤ 599) : Says line (some (.code n))
  | schema {rest : List String} (h : line.HasWords ("@schema" :: rest)) : Says line (some .schema)
  | text {first : String} {rest : List String} {text : String} (h : line.HasWords (first :: rest))
      (hfirst : first ∉ keywords) (htext : Text.IsTrimmedTo line.text text) :
      Says line (some (.text text))

/-- What is wrong with a line, by its words. -/
inductive Malformed (line : DocLine) : DirectiveFault → Prop
  | groupArguments {arguments : List String} {text : String}
      (h : line.HasWords ("@group" :: arguments)) (hcount : arguments.length ≠ 1)
      (htext : Text.IsTrimmedTo line.text text) : Malformed line (.groupArguments text)
  | routeArguments {arguments : List String} {text : String}
      (h : line.HasWords ("@route" :: arguments)) (hcount : arguments.length ≠ 2)
      (htext : Text.IsTrimmedTo line.text text) : Malformed line (.routeArguments text)
  | routeMethod {method path text : String} (h : line.HasWords ["@route", method, path])
      (hmethod : ∀ m : HttpMethod, ¬ m.IsNamed method)
      (htext : Text.IsTrimmedTo line.text text) : Malformed line (.routeMethod method text)
  | codeArguments {arguments : List String} {text : String}
      (h : line.HasWords ("@code" :: arguments)) (hcount : arguments.length ≠ 1)
      (htext : Text.IsTrimmedTo line.text text) : Malformed line (.codeArguments text)
  | codeValue {argument : String} (h : line.HasWords ["@code", argument])
      (hvalue : ∀ n, IsNumeral argument n → n < 100 ∨ 599 < n) :
      Malformed line (.codeValue argument)

variable {line : DocLine} {said : Option Directive} {fault : DirectiveFault} {owner : String}

theorem HasWords.words_eq {ws : List String} (h : line.HasWords ws) :
    Text.words (Text.trim line.text) = ws := by
  rw [Text.words_trim]
  exact Text.words_eq_iff.2 h

/-- A line that says something is read as that. -/
theorem Says.directive?_eq (h : line.Says said) (owner : String) :
    line.directive? owner = .ok said := by
  cases h with
  | nothing h | group h | schema h => simp only [directive?, h.words_eq]
  | route h hm => simp only [directive?, h.words_eq, HttpMethod.ofName?_eq_some_iff.2 hm]
  | code h hn low high => simp only [directive?, h.words_eq, status?_eq_some_iff.2 ⟨hn, low, high⟩]
  | text h hfirst htext =>
    obtain rfl := Text.trim_eq_iff.2 htext
    simp only [keywords, List.mem_cons, List.not_mem_nil, or_false, not_or] at hfirst
    simp only [directive?, h.words_eq]
    split <;> simp_all

/-- A malformed line is refused for what is wrong with it. -/
theorem Malformed.directive?_eq (h : line.Malformed fault) (owner : String) :
    line.directive? owner = .error (line.error owner fault) := by
  cases h with
  | groupArguments h hcount htext
  | routeArguments h hcount htext
  | codeArguments h hcount htext =>
    obtain rfl := Text.trim_eq_iff.2 htext
    simp only [directive?, h.words_eq]
    split
    · exact absurd rfl hcount
    · rfl
  | @routeMethod method path text h hmethod htext =>
    have hnone : HttpMethod.ofName? method = none :=
      Option.eq_none_iff_forall_not_mem.2 fun m hm => hmethod m (HttpMethod.ofName?_eq_some_iff.1 hm)
    obtain rfl := Text.trim_eq_iff.2 htext
    simp only [directive?, h.words_eq, hnone]
  | @codeValue argument h hvalue =>
    have hnone : status? argument = none := by
      refine Option.eq_none_iff_forall_not_mem.2 fun n hn => ?_
      obtain ⟨hnumeral, hlow, hhigh⟩ := status?_eq_some_iff.1 hn
      rcases hvalue n hnumeral with h | h <;> omega
    simp only [directive?, h.words_eq, hnone]

theorem Says.unique {said' : Option Directive} (h : line.Says said) (h' : line.Says said') :
    said = said' :=
  Except.ok.inj ((h.directive?_eq "").symm.trans (h'.directive?_eq ""))

theorem Malformed.tells_nothing (h : line.Malformed fault) : ¬ line.Says said := by
  intro hsaid
  cases (h.directive?_eq "").symm.trans (hsaid.directive?_eq "")

/-- Every line says something, or it is malformed. -/
theorem says_or_malformed (line : DocLine) :
    (∃ said, line.Says said) ∨ ∃ fault, line.Malformed fault := by
  obtain ⟨ws, h⟩ := Text.exists_hasWords line.text.toList
  have htext := Text.trim_eq_iff.1 (Eq.refl (Text.trim line.text))
  match ws, h with
  | [], h => exact .inl ⟨_, .nothing h⟩
  | first :: arguments, h =>
    by_cases hfirst : first ∈ keywords
    · simp only [keywords, List.mem_cons, List.not_mem_nil, or_false] at hfirst
      rcases hfirst with rfl | rfl | rfl | rfl
      · match arguments, h with
        | [path], h => exact .inl ⟨_, .group h⟩
        | [], h | _ :: _ :: _, h => exact .inr ⟨_, .groupArguments h (by simp) htext⟩
      · match arguments, h with
        | [method, path], h =>
          by_cases hmethod : ∃ m : HttpMethod, m.IsNamed method
          · obtain ⟨m, hm⟩ := hmethod
            exact .inl ⟨_, .route h hm⟩
          · exact .inr ⟨_, .routeMethod h (not_exists.1 hmethod) htext⟩
        | [], h | [_], h | _ :: _ :: _ :: _, h =>
          exact .inr ⟨_, .routeArguments h (by simp) htext⟩
      · match arguments, h with
        | [numeral], h =>
          by_cases hvalue : ∃ n, IsNumeral numeral n ∧ 100 ≤ n ∧ n ≤ 599
          · obtain ⟨n, hn, low, high⟩ := hvalue
            exact .inl ⟨_, .code h hn low high⟩
          · refine .inr ⟨_, .codeValue h fun n hn => ?_⟩
            by_contra hrange
            exact hvalue ⟨n, hn, by omega, by omega⟩
        | [], h | _ :: _ :: _, h => exact .inr ⟨_, .codeArguments h (by simp) htext⟩
      · exact .inl ⟨_, .schema h⟩
    · exact .inl ⟨_, .text h hfirst htext⟩

theorem directive?_ok_iff : line.directive? owner = .ok said ↔ line.Says said := by
  refine ⟨fun h => ?_, fun h => h.directive?_eq owner⟩
  rcases line.says_or_malformed with ⟨said', hsaid⟩ | ⟨fault, hfault⟩
  · rw [hsaid.directive?_eq] at h
    cases h
    exact hsaid
  · rw [hfault.directive?_eq] at h
    cases h

theorem directive?_error_iff {e : Error} : line.directive? owner = .error e ↔
    ∃ fault, line.Malformed fault ∧ e = .directive line.location owner fault := by
  constructor
  · intro h
    rcases line.says_or_malformed with ⟨said, hsaid⟩ | ⟨fault, hfault⟩
    · rw [hsaid.directive?_eq] at h
      cases h
    · rw [hfault.directive?_eq] at h
      cases h
      exact ⟨fault, hfault, rfl⟩
  · rintro ⟨fault, hfault, rfl⟩
    exact hfault.directive?_eq owner

/-! ## Blanks -/

/-- The line is the other one with blanks around it. -/
structure Pads (padded line : DocLine) : Prop where
  location : padded.location = line.location
  text : ∃ before after, Text.IsBlankText before ∧ Text.IsBlankText after ∧
    padded.text.toList = before ++ line.text.toList ++ after

theorem Pads.trim_eq {padded : DocLine} (h : padded.Pads line) :
    Text.trim padded.text = Text.trim line.text := by
  obtain ⟨before, after, hbefore, hafter, htext⟩ := h.text
  exact Text.trim_eq_iff.2 ((Text.trim_eq_iff.1 rfl).pad hbefore hafter htext)

theorem Pads.words_eq {padded : DocLine} (h : padded.Pads line) :
    Text.words padded.text = Text.words line.text := by
  rw [← Text.words_trim, h.trim_eq, Text.words_trim]

theorem Pads.directive?_eq {padded : DocLine} (h : padded.Pads line) (owner : String) :
    padded.directive? owner = line.directive? owner := by
  simp only [directive?, error, h.trim_eq, h.location]

/-- A line has one list of words. -/
theorem HasWords.unique {ws ws' : List String} (h : line.HasWords ws) (h' : line.HasWords ws') :
    ws = ws' := h.words_eq.symm.trans h'.words_eq

theorem existsUnique_hasWords (line : DocLine) : ∃! ws, line.HasWords ws := by
  obtain ⟨ws, h⟩ := Text.exists_hasWords line.text.toList
  exact ⟨ws, h, fun ws' h' => HasWords.unique h' h⟩

/-- A directive is read off the words of its line. -/
theorem Says.of_words {varied : DocLine} {d : Directive} {ws : List String}
    (hd : ∀ text, d ≠ .text text) (hws : line.HasWords ws) (hvaried : varied.HasWords ws)
    (h : line.Says (some d)) : varied.Says (some d) := by
  cases h with
  | group h => exact .group (h.unique hws ▸ hvaried)
  | route h hm => exact .route (h.unique hws ▸ hvaried) hm
  | code h hn low high => exact .code (h.unique hws ▸ hvaried) hn low high
  | schema h => exact .schema (h.unique hws ▸ hvaried)
  | text => exact absurd rfl (hd _)

/-- A struct is marked by a line that is read as the mark. -/
theorem hasSchemaMarker_iff {lines : List DocLine} :
    hasSchemaMarker lines = true ↔ ∃ line ∈ lines, line.Says (some .schema) := by
  simp only [hasSchemaMarker, List.any_eq_true, beq_iff_eq]
  refine exists_congr fun line => and_congr_right fun _ => ?_
  rw [List.head?_eq_some_iff]
  constructor
  · rintro ⟨rest, hwords⟩
    exact .schema (Text.words_eq_iff.1 hwords)
  · rintro (_ | _ | _ | _ | h | _)
    exact ⟨_, Text.words_eq_iff.2 h⟩

/-- A line is read by the grammar: as what it says, or else with an error that has its place and the
name of its owner. Blanks around a line change nothing, and nor do those between the words of a
directive. A struct is marked if one of its lines says so. -/
theorem directive?_grammar (line : DocLine) (owner : String) :
    (∃! words, line.HasWords words) ∧
      (∀ said, line.directive? owner = .ok said ↔ line.Says said) ∧
      ((∀ said, ¬ line.Says said) ↔ ∃ fault, line.Malformed fault) ∧
      (∀ e, line.directive? owner = .error e ↔
        ∃ fault, line.Malformed fault ∧ e = .directive line.location owner fault) ∧
      (∀ padded : DocLine, padded.Pads line → padded.directive? owner = line.directive? owner) ∧
      (∀ (varied : DocLine) (words : List String) (d : Directive), line.HasWords words →
        varied.HasWords words → line.Says (some d) → (∀ text, d ≠ .text text) →
        varied.directive? owner = line.directive? owner) ∧
      (∀ lines, hasSchemaMarker lines = true ↔
        ∃ line ∈ lines, line.directive? owner = .ok (some .schema)) ∧
      ∀ lines padded, List.Forall₂ Pads padded lines →
        hasSchemaMarker padded = hasSchemaMarker lines := by
  refine ⟨existsUnique_hasWords line, fun _ => directive?_ok_iff, ?_, fun _ => directive?_error_iff,
    fun _ h => h.directive?_eq owner, ?_, ?_, ?_⟩
  · constructor
    · exact fun h => line.says_or_malformed.resolve_left (not_exists.2 h)
    · rintro ⟨fault, hfault⟩ said
      exact hfault.tells_nothing
  · intro varied words d hwords hvaried hsaid hd
    rw [(hsaid.of_words hd hwords hvaried).directive?_eq, hsaid.directive?_eq]
  · intro lines
    simp only [hasSchemaMarker_iff, directive?_ok_iff]
  · intro lines padded h
    induction h with
    | nil => rfl
    | cons hline _ ih =>
      unfold hasSchemaMarker at ih ⊢
      rw [List.any_cons, List.any_cons, hline.words_eq, ih]

/-- The directive of a route. -/
def listing : DocLine := ⟨"@route get /books", ⟨"books.rs", ⟨3, 5⟩⟩⟩

/-- The same directive with blanks around it. -/
def paddedListing : DocLine := ⟨"\t@route get /books ", ⟨"books.rs", ⟨3, 5⟩⟩⟩

/-- The same directive with more blanks than it needs. -/
def spacedListing : DocLine := ⟨"@route  get\t/books", ⟨"books.rs", ⟨3, 5⟩⟩⟩

/-- The directive is read the same with other blanks around its words and between them. -/
theorem listing_read :
    listing.directive? "Books.list" = .ok (some (.route .get "/books")) ∧
      paddedListing.directive? "Books.list" = .ok (some (.route .get "/books")) ∧
      spacedListing.directive? "Books.list" = .ok (some (.route .get "/books")) ∧
      hasSchemaMarker [paddedListing] = hasSchemaMarker [listing] := by
  have hwords : listing.HasWords ["@route", "get", "/books"] := Text.words_eq_iff.1 (by decide)
  have hspaced : spacedListing.HasWords ["@route", "get", "/books"] :=
    Text.words_eq_iff.1 (by decide)
  have hnamed : HttpMethod.get.IsNamed "get" := HttpMethod.ofName?_eq_some_iff.1 (by decide)
  have hpads : paddedListing.Pads listing :=
    ⟨rfl, ['\t'], [' '], by simp [Text.IsBlankText, Text.isBlank],
      by simp [Text.IsBlankText, Text.isBlank], by decide⟩
  obtain ⟨-, hok, -, -, hpadded, hvaried, -, hmarker⟩ := directive?_grammar listing "Books.list"
  have hlisting := (hok _).2 (.route hwords hnamed)
  refine ⟨hlisting, ?_, ?_, hmarker _ _ (.cons hpads .nil)⟩
  · rw [hpadded _ hpads, hlisting]
  · rw [hvaried _ _ _ hwords hspaced (.route hwords hnamed) nofun, hlisting]

end DocLine

end ApiDecl
