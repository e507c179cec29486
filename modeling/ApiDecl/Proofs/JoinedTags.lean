import ApiDecl.Proofs.RouteRecords
import ApiDecl.Tag.Attribute
import Mathlib

/-!
# Proofs: tags in several attributes

The attributes of a field can be read in parts. The tag of the whole is there if a part has one, and
it holds the entries of the parts in order (`Tag.ofAttributes?_append`). The first entry of a key
decides, so what an earlier part says of a key counts, and a later part is asked only where the
earlier one has no entry of the key (`Tag.decidedInOrder_append`).
-/

namespace ApiDecl

open Syntax

namespace Tag

variable {α : Type} {key : String} {read : Tag → α} {a b t : Tag} {a? b? t? : Option Tag}
  {as bs : List Attribute}

/-! ## Entries of a key -/

/-- Two tags as one: the entries of the second are behind those of the first. -/
def append (a b : Tag) : Tag := ⟨a.entries ++ b.entries⟩

/-- What is read from a tag depends on what is found for the key. -/
def ReadsOnly (read : Tag → α) (key : String) : Prop :=
  ∀ t u, t.lookup? key = u.lookup? key → read t = read u

/-- What is read from `t` comes from the first entry of the key in `a` if there is one, and else it
is what is read from `b`. -/
structure DecidedInOrder (read : Tag → α) (key : String) (a b t : Tag) : Prop where
  of_first : ∀ value, a.FirstEntry key value → read t = read ⟨[(key, value)]⟩
  of_none : (∀ value, ¬ a.FirstEntry key value) → read t = read b

theorem readsOnly_lookup? (key : String) : ReadsOnly (·.lookup? key) key := fun _ _ h => h

theorem ReadsOnly.of_get (h : ∀ t u, t.get key = u.get key → read t = read u) :
    ReadsOnly read key := by
  intro t u hlookup
  exact h t u (congrArg (·.getD "") hlookup)

theorem readsOnly_schemaName? : ReadsOnly schemaName? nameKey := by
  refine .of_get fun t u hget => ?_
  rw [schemaName?, schemaName?, hget]

theorem readsOnly_isRequired : ReadsOnly isRequired validationKey := by
  refine .of_get fun t u hget => ?_
  rw [isRequired, isRequired, hget]

theorem lookup?_append (a b : Tag) (key : String) :
    (a.append b).lookup? key = (a.lookup? key).or (b.lookup? key) :=
  List.lookup_append

theorem lookup?_eq_none_iff : t.lookup? key = none ↔ ∀ value, ¬ t.FirstEntry key value := by
  simp only [← lookup?_eq_some_iff, Option.eq_none_iff_forall_ne_some, ne_eq]

/-- The first of two tags decides about a key of which it has an entry. -/
theorem decidedInOrder_append (h : ReadsOnly read key) (a b : Tag) :
    DecidedInOrder read key a b (a.append b) where
  of_first := by
    intro value hfirst
    apply h
    have halone : lookup? ⟨[(key, value)]⟩ key = some value := by simp [lookup?]
    rw [lookup?_append, lookup?_eq_some_iff.2 hfirst, halone, Option.some_or]
  of_none := by
    intro hnone
    apply h
    rw [lookup?_append, lookup?_eq_none_iff.2 hnone, Option.none_or]

/-- `t` has the entries of `a` and then those of `b`, so what `a` has for a key comes first. -/
structure Combines (a b t : Tag) : Prop where
  entries_eq : t.entries = a.entries ++ b.entries
  lookup : ∀ key, DecidedInOrder (·.lookup? key) key a b t
  name : DecidedInOrder schemaName? nameKey a b t
  required : DecidedInOrder isRequired validationKey a b t

theorem combines_append (a b : Tag) : Combines a b (a.append b) where
  entries_eq := rfl
  lookup key := decidedInOrder_append (readsOnly_lookup? key) a b
  name := decidedInOrder_append readsOnly_schemaName? a b
  required := decidedInOrder_append readsOnly_isRequired a b

/-! ## Attributes in parts -/

/-- The tag of a field, without entries if the field has none. -/
def orEmpty (t? : Option Tag) : Tag := t?.getD ⟨[]⟩

theorem merge_append (htag : a? ≠ none ∨ b? ≠ none) :
    a?.merge append b? = some ((orEmpty a?).append (orEmpty b?)) := by
  cases a? with
  | none =>
    cases b? with
    | none => simp at htag
    | some b => rfl
  | some a =>
    cases b? with
    | none => simp [orEmpty, append]
    | some b => rfl

/-- The tag of the lists of entries of some attributes, if there is one. -/
def ofLists (lists : List (List (String × String))) : Option Tag :=
  if lists.isEmpty then none else some ⟨lists.flatten⟩

theorem ofLists_append (front behind : List (List (String × String))) :
    ofLists (front ++ behind) = (ofLists front).merge append (ofLists behind) := by
  cases front with
  | nil => cases behind <;> rfl
  | cons l front =>
    cases behind with
    | nil => simp [ofLists]
    | cons m behind => simp [ofLists, append]

/-- A field has a tag if one of its attributes lists entries. -/
theorem ofAttributes?_eq (attributes : List Attribute) :
    ofAttributes? attributes =
      ofLists <$> (attributes.filter (·.path.isName tagAttribute)).mapM (·.tagEntries) := by
  rw [ofAttributes?]
  cases hlists : (attributes.filter (·.path.isName tagAttribute)).mapM (·.tagEntries) with
  | error e => rfl
  | ok lists =>
    have hlength := (forall₂_of_mapM_ok hlists).length_eq
    have hempty : (attributes.filter (·.path.isName tagAttribute)).isEmpty = lists.isEmpty := by
      rw [Bool.eq_iff_iff, List.isEmpty_iff_length_eq_zero, List.isEmpty_iff_length_eq_zero,
        hlength]
    rw [hempty]
    rfl

theorem ofAttributes?_singleton {a : Attribute} (h : a.path.isName tagAttribute = true) :
    ofAttributes? [a] = (fun entries => some ⟨entries⟩) <$> a.tagEntries := by
  have hfilter : [a].filter (·.path.isName tagAttribute) = [a] := List.filter_cons_of_pos h
  rw [ofAttributes?_eq, hfilter, List.mapM_cons, List.mapM_nil]
  cases a.tagEntries with
  | error e => rfl
  | ok entries => simp [ofLists]

/-- The attributes in front are read first, and those behind only if that succeeds. -/
theorem ofAttributes?_append (as bs : List Attribute) :
    ofAttributes? (as ++ bs) = (do
      let a? ← ofAttributes? as
      let b? ← ofAttributes? bs
      return a?.merge append b?) := by
  rw [ofAttributes?_eq, ofAttributes?_eq, ofAttributes?_eq, List.filter_append, List.mapM_append]
  simp only [map_bind, map_pure, bind_map_left, ofLists_append]

theorem ofAttributes?_of_untagged {others : List Attribute}
    (h : ∀ o ∈ others, o.path.isName tagAttribute = false) : ofAttributes? others = .ok none := by
  have hnone : others.filter (·.path.isName tagAttribute) = [] := by
    rw [List.filter_eq_nil_iff]
    intro o ho htag
    rw [h o ho] at htag
    cases htag
  rw [ofAttributes?, hnone]
  rfl

theorem ofAttributes?_insert {others : List Attribute}
    (h : ∀ o ∈ others, o.path.isName tagAttribute = false) (as bs : List Attribute) :
    ofAttributes? (as ++ others ++ bs) = ofAttributes? (as ++ bs) := by
  have hfront : ofAttributes? (as ++ others) = ofAttributes? as := by
    rw [ofAttributes?_append, ofAttributes?_of_untagged h]
    cases ofAttributes? as with
    | error e => rfl
    | ok a? => cases a? <;> rfl
  rw [ofAttributes?_append, hfront, ← ofAttributes?_append]

/-- The error is that of the first part that is refused. -/
theorem ofAttributes?_append_eq_error_iff {e : SyntaxError} :
    ofAttributes? (as ++ bs) = .error e ↔ ofAttributes? as = .error e ∨
      (∃ a?, ofAttributes? as = .ok a?) ∧ ofAttributes? bs = .error e := by
  rw [ofAttributes?_append, bind_eq_error_iff]
  refine or_congr_right ?_
  constructor
  · rintro ⟨a?, ha, h⟩
    obtain hb | ⟨b?, -, h⟩ := bind_eq_error_iff.1 h
    · exact ⟨⟨a?, ha⟩, hb⟩
    · cases h
  · rintro ⟨⟨a?, ha⟩, hb⟩
    exact ⟨a?, ha, bind_eq_error_iff.2 (.inl hb)⟩

theorem ofAttributes?_append_of_ok (ha : ofAttributes? as = .ok a?)
    (hb : ofAttributes? bs = .ok b?) : ofAttributes? (as ++ bs) = .ok (a?.merge append b?) := by
  rw [ofAttributes?_append, ha, hb]
  rfl

theorem ofAttributes?_append_eq_none_iff :
    ofAttributes? (as ++ bs) = .ok none ↔
      ofAttributes? as = .ok none ∧ ofAttributes? bs = .ok none := by
  constructor
  · intro h
    rw [ofAttributes?_append] at h
    obtain ⟨a?, ha, h⟩ := exists_of_bind_ok h
    obtain ⟨b?, hb, h⟩ := exists_of_bind_ok h
    obtain ⟨rfl, rfl⟩ := Option.merge_eq_none_iff.1 (Except.ok.inj h)
    exact ⟨ha, hb⟩
  · rintro ⟨ha, hb⟩
    exact ofAttributes?_append_of_ok ha hb

/-- Where a part has a tag, the whole has the tag of both parts. -/
theorem exists_combines (ha : ofAttributes? as = .ok a?) (hb : ofAttributes? bs = .ok b?)
    (htag : a? ≠ none ∨ b? ≠ none) :
    ∃ t, ofAttributes? (as ++ bs) = .ok (some t) ∧ Combines (orEmpty a?) (orEmpty b?) t := by
  have hwhole := ofAttributes?_append_of_ok ha hb
  rw [merge_append htag] at hwhole
  exact ⟨_, hwhole, combines_append _ _⟩

/-- Attributes in two parts have the errors and the tags of the parts. The error is that of the
first part that has one. There is no tag if no part has one, and else the tag holds the entries of
both parts, of which the first one for a key decides. Attributes that are no tags change nothing,
wherever they stand, and one that is a tag gives what it lists. -/
theorem attributes_compose (as bs : List Attribute) :
    (∀ e, ofAttributes? (as ++ bs) = .error e ↔ ofAttributes? as = .error e ∨
      (∃ a?, ofAttributes? as = .ok a?) ∧ ofAttributes? bs = .error e) ∧
    (ofAttributes? (as ++ bs) = .ok none ↔
      ofAttributes? as = .ok none ∧ ofAttributes? bs = .ok none) ∧
    (∀ a? b?, ofAttributes? as = .ok a? → ofAttributes? bs = .ok b? → a? ≠ none ∨ b? ≠ none →
      ∃ t, ofAttributes? (as ++ bs) = .ok (some t) ∧ Combines (orEmpty a?) (orEmpty b?) t) ∧
    (∀ others : List Attribute, (∀ o ∈ others, o.path.isName tagAttribute = false) →
      ofAttributes? (as ++ others ++ bs) = ofAttributes? (as ++ bs)) ∧
    (∀ a : Attribute, a.path.isName tagAttribute = true →
      ofAttributes? [a] = (fun entries => some ⟨entries⟩) <$> a.tagEntries) := by
  refine ⟨fun _ => ofAttributes?_append_eq_error_iff, ofAttributes?_append_eq_none_iff,
    fun _ _ ha hb htag => exists_combines ha hb htag, fun _ hothers => ?_,
    fun _ => ofAttributes?_singleton⟩
  exact ofAttributes?_insert hothers as bs

/-- The attribute `#[api(key = text)]`, from the spelling of the text. -/
def entryAttribute (key text : String) : Attribute :=
  ⟨⟨false, [tagAttribute]⟩,
    .list [.word key default, .mark '=' false default, .literal text default], default⟩

/-- An attribute that hides the name of a field. -/
def hidingName : List Attribute := [entryAttribute "json" "\"-\""]

/-- An attribute with a name of a field, and one that requires the field. -/
def namedAndRequired : List Attribute :=
  [entryAttribute "json" "\"id\"", entryAttribute "binding" "\"required\""]

/-- A name that an attribute hides is not shown by a later one, but a rule in a later one counts
where none comes first. -/
theorem hidden_name_composes :
    ofAttributes? hidingName = .ok (some ⟨[("json", "-")]⟩) ∧
    ofAttributes? namedAndRequired = .ok (some ⟨[("json", "id"), ("binding", "required")]⟩) ∧
    ∃ t, ofAttributes? (hidingName ++ [⟨⟨false, ["doc"]⟩, .flag, default⟩] ++ namedAndRequired) =
        .ok (some t) ∧
      t.entries = [("json", "-"), ("json", "id"), ("binding", "required")] ∧
      t.schemaName? = none ∧ t.isRequired = true := by
  have hfront : ofAttributes? hidingName = .ok (some ⟨[("json", "-")]⟩) := by cbv
  have hbehind : ofAttributes? namedAndRequired =
      .ok (some ⟨[("json", "id"), ("binding", "required")]⟩) := by cbv
  obtain ⟨-, -, hok, hothers, -⟩ := attributes_compose hidingName namedAndRequired
  obtain ⟨t, ht, hcombines⟩ := hok _ _ hfront hbehind (.inl (Option.some_ne_none _))
  have hname : FirstEntry ⟨[("json", "-")]⟩ nameKey "-" := ⟨[], [], rfl, List.forall_mem_nil _⟩
  have hnoRule : ∀ value, ¬ FirstEntry ⟨[("json", "-")]⟩ validationKey value :=
    lookup?_eq_none_iff.1 (by decide)
  refine ⟨hfront, hbehind, t, ?_, hcombines.entries_eq, ?_, ?_⟩
  · exact (hothers _ (by simp [ModulePath.isName, tagAttribute])).trans ht
  · exact (hcombines.name.of_first "-" hname).trans (by decide +kernel)
  · exact (hcombines.required.of_none hnoRule).trans (by decide +kernel)

end Tag

end ApiDecl
