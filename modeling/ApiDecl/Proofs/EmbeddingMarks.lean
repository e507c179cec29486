import ApiDecl.Proofs.CommaLists
import ApiDecl.Proofs.ParsingAttributes
import ApiDecl.Tag.Attribute
import Mathlib

/-!
# Proofs: marks of embedded structs

A tag attribute is read twice: as a list of entries, for the tag of the field, and as a list of
items, for the mark `flatten`. Every word is the key of an entry, but only a name, and a few words
that may be a path, is the start of an item. So where the tag is read, the field is embedded exactly
if one of its tag attributes lists the mark and has no other keys than such words, or if the mark is
an item of a `serde` attribute (`isEmbedded_iff`). A mark beside any other keyword is lost
(`mark_beside_keyword_lost`).
-/

namespace ApiDecl

open Syntax Syntax.Parser Token

/-- What a tag attribute lists: a key, alone or with the spelling of a string. -/
structure WrittenEntry where
  /-- The key, which may be any word. -/
  key : String
  /-- The spelling of the string, if there is one. -/
  value? : Option String

namespace WrittenEntry

/-- The entry of a tag. -/
def entry (e : WrittenEntry) : String × String :=
  (e.key, e.value?.elim "" fun text => (StringLiteral.value? text).getD "")

/-- The bare key that marks an embedded struct. -/
def mark : WrittenEntry := ⟨flattenKey, none⟩

/-- The item has the key of the entry, and a value if the entry has one. -/
def IsItem (e : WrittenEntry) (item : ModulePath × AttributeContent) : Prop :=
  item.1 = ⟨false, [e.key]⟩ ∧ (item.2 = .flag ↔ e.value? = none)

end WrittenEntry

/-- The tokens of an entry: a key, with a string after an equals sign or alone. -/
inductive IsEntry : List Token → WrittenEntry → Prop where
  | flag (key : String) (p : Position) : IsEntry [.word key p] ⟨key, none⟩
  | pair (key : String) (p q r : Position) (glued : Bool) {text : String}
    (htext : Peek.stringLiteral [.literal text r] = true) :
    IsEntry [.word key p, .mark '=' glued q, .literal text r] ⟨key, some text⟩

theorem IsEntry.ne_nil {tokens : List Token} {e : WrittenEntry} (h : IsEntry tokens e) :
    tokens ≠ [] := by
  cases h <;> exact List.cons_ne_nil _ _

/-! ## What a tag accepts -/

section Accepting

variable {s s' : ParseState}

/-- A key is a word and nothing else. -/
theorem tagKey_eq_ok {key : String} (h : tagKey.run s = .ok (key, s')) :
    ∃ p, s.tokens = .word key p :: s'.tokens := by
  obtain ⟨absolute, m, habsolute, hkey⟩ := exists_of_run_bind h
  rw [run_peek_bind, run_peek_bind, atEnd, run_peek_bind] at hkey
  have hfails : ∀ {message : String} {f : String → Parser String},
      ((fail message : Parser String) >>= f).run m ≠ .ok (key, s') := by
    intro message f hfail
    obtain ⟨first, m, hfirst, -⟩ := exists_of_run_bind hfail
    exact fail_ne_ok hfirst
  split at hkey
  · obtain ⟨first, m₁, hfirst, hrest⟩ := exists_of_run_bind hkey
    obtain ⟨others, m₂, hothers, hanswer⟩ := exists_of_run_bind hrest
    split at hanswer
    · obtain ⟨_, _, hfail, -⟩ := exists_of_run_bind hanswer
      exact absurd hfail failHere_ne_ok
    · next hplain =>
      cases hanswer
      -- neither in front of the word nor behind it there are colons
      obtain ⟨rfl, rfl⟩ : absolute = false ∧ others = [] := by simpa using hplain
      obtain ⟨-, rfl⟩ := optionalSymbol_eq_false habsolute
      obtain rfl := manyWhile_eq_nil hothers
      exact anyWord_eq_ok hfirst
  · split at hkey
    · exact absurd hkey hfails
    · split at hkey
      · exact absurd hkey hfails
      · exact absurd hkey hfails

theorem tagEntry_accepts : tagEntry.Accepts IsEntry fun e entry => e.entry = entry := by
  intro s entry s' h
  obtain ⟨key, m, hkey, hvalue⟩ := exists_of_run_bind h
  obtain ⟨p, htokens⟩ := tagKey_eq_ok hkey
  obtain ⟨b, m', hequals, hvalue⟩ := exists_of_run_bind hvalue
  cases b with
  | false =>
    obtain ⟨-, hsame⟩ := optionalSymbol_eq_false hequals
    cases hvalue
    exact ⟨_, _, hsame ▸ htokens, .flag key p, rfl⟩
  | true =>
    obtain ⟨htest, hrest⟩ := optionalSymbol_eq_true hequals
    obtain ⟨glued, q, behind, hbehind⟩ := symbolChars_singleton.1 htest
    obtain ⟨value, m₂, hstring, hanswer⟩ := exists_of_run_bind hvalue
    cases hanswer
    obtain ⟨text, r, hliteral, htext, rfl⟩ := stringLiteral_eq_ok hstring
    have hrest : m'.tokens = behind := by rw [hrest, hbehind]; rfl
    refine ⟨_, _, ?_, .pair key p q r glued htext, rfl⟩
    rw [htokens, hbehind, ← hrest, hliteral]
    rfl

end Accepting

/-! ## What a list of items reads -/

/-- A list of items reads the entries whose keys may be items, and refuses the others. -/
theorem metaItem_decides (g : Grammar) : (metaItem g.above.above).Decides IsEntry (IsItemKey ·.key)
    WrittenEntry.IsItem where
  ne_nil := IsEntry.ne_nil
  reads := by
    intro tokens e rest he hkey hrest
    rw [metaItem_eq]
    cases he with
    | flag key p =>
      have hafter : Peek.symbol "::" rest = false := hrest.endsOperand.colons
      refine (reads_metaPath hkey hafter).andThen ?_
      exact (reads_flagContent _ hrest).mono fun item hitem => hitem ▸ ⟨rfl, by simp⟩
    | pair key p q r glued htext =>
      refine (reads_metaPath hkey rfl).andThen ?_
      refine (reads_valueContent _ glued (reads_attributeValue _ hrest)).mono fun item hitem => ?_
      obtain ⟨value, rfl⟩ := hitem
      exact ⟨rfl, by simp⟩
  refuses := by
    intro tokens e rest he hkey hrest
    rw [metaItem_eq]
    cases he with
    | flag key p => exact (refuses_metaPath hkey).bind
    | pair key p q r glued htext => exact (refuses_metaPath hkey).bind

/-! ## Attributes -/

/-- The attribute lists these entries. -/
def Syntax.Attribute.Lists (a : Attribute) (written : List WrittenEntry) : Prop :=
  ∃ tokens, a.content = .list tokens ∧ CommaList IsEntry tokens written

/-- The attribute is read as a list of items, of which one is this key alone. -/
def Syntax.Attribute.ListsItem (a : Attribute) (key : String) : Prop :=
  ∃ tokens items path, a.content = .list tokens ∧ metaItems tokens = .ok items ∧
    (path, .flag) ∈ items ∧ path.isName key = true

section Attributes

variable {a : Attribute} {written : List WrittenEntry}

theorem metaItem_for_decides (source : List Token) :
    (metaItem (Grammar.for source)).Decides IsEntry (IsItemKey ·.key) WrittenEntry.IsItem :=
  metaItem_decides (Grammar.ofDepth (3 * sizeAll source + 6))

/-- What a tag takes from an attribute is what the attribute lists. -/
theorem lists_of_tagEntries {entries : List (String × String)} (h : a.tagEntries = .ok entries) :
    ∃ written, a.Lists written ∧ entries = written.map WrittenEntry.entry := by
  unfold Attribute.tagEntries at h
  split at h
  · cases h
  · cases h
  · next tokens hcontent =>
    obtain ⟨⟨⟨l, trailing⟩, items⟩, hrun, hanswer⟩ := exists_of_bind_ok h
    cases hanswer
    obtain ⟨written, hwritten, hentries⟩ := tagEntry_accepts.commaSeparated
      (fun tokens e he => he.ne_nil) hrun
    refine ⟨written, ⟨tokens, hcontent, hwritten⟩, ?_⟩
    rw [map_eq_of_forall₂ (g := id) hentries, List.map_id]

theorem metaItems_eq_error {tokens : List Token} (h : CommaList IsEntry tokens written)
    (hkeys : ¬ ∀ e ∈ written, IsItemKey e.key) : ∃ e, metaItems tokens = .error e := by
  obtain ⟨e, he⟩ := runAll_of_refuses ((metaItem_for_decides tokens).refuses_list h hkeys)
  exact ⟨e, by rw [metaItems, he]; rfl⟩

theorem metaItems_eq_ok {tokens : List Token} (h : CommaList IsEntry tokens written)
    (hkeys : ∀ e ∈ written, IsItemKey e.key) :
    ∃ items, metaItems tokens = .ok items ∧ List.Forall₂ WrittenEntry.IsItem written items := by
  obtain ⟨r, hr, hitems⟩ := runAll_of_reads ((metaItem_for_decides tokens).reads_list h hkeys)
  exact ⟨r.1, by rw [metaItems, hr]; rfl, hitems⟩

theorem isName_iff {path : ModulePath} {key : String} :
    path.isName key = true ↔ path = ⟨false, [key]⟩ := by
  cases path
  simp [ModulePath.isName]

theorem listsFlatten_iff_listsItem : a.listsFlatten = true ↔ a.ListsItem flattenKey := by
  unfold Attribute.listsFlatten Attribute.ListsItem
  constructor
  · intro h
    split at h
    · next tokens hcontent =>
      split at h
      · next items hitems =>
        obtain ⟨⟨path, content⟩, hitem, hflag⟩ := List.any_eq_true.1 h
        cases content with
        | flag => exact ⟨tokens, items, path, hcontent, hitems, hitem, hflag⟩
        | list _ => cases hflag
        | value _ => cases hflag
      · cases h
    · cases h
  · rintro ⟨tokens, items, path, hcontent, hitems, hitem, hflag⟩
    rw [hcontent]
    dsimp only
    rw [hitems]
    exact List.any_eq_true.2 ⟨_, hitem, hflag⟩

/-- A list of entries is read as items that have the mark among them if it has the mark and all its
keys may be items. -/
theorem listsItem_iff (h : a.Lists written) : a.ListsItem flattenKey ↔
    WrittenEntry.mark ∈ written ∧ ∀ e ∈ written, IsItemKey e.key := by
  obtain ⟨tokens, hcontent, hwritten⟩ := h
  constructor
  · rintro ⟨tokens', items, path, hcontent', hitems, hflag, hpath⟩
    obtain rfl : tokens = tokens' := AttributeContent.list.inj (hcontent.symm.trans hcontent')
    have hkeys : ∀ e ∈ written, IsItemKey e.key := by
      by_contra hkeys
      obtain ⟨e, he⟩ := metaItems_eq_error hwritten hkeys
      cases hitems.symm.trans he
    obtain ⟨items', hitems', heach⟩ := metaItems_eq_ok hwritten hkeys
    cases hitems.symm.trans hitems'
    obtain ⟨⟨key, value?⟩, he, hkey, hvalue⟩ := exists_of_mem_right heach hflag
    obtain rfl : value? = none := hvalue.1 rfl
    cases hkey.symm.trans (isName_iff.1 hpath)
    exact ⟨he, hkeys⟩
  · rintro ⟨hmark, hkeys⟩
    obtain ⟨items, hitems, heach⟩ := metaItems_eq_ok hwritten hkeys
    obtain ⟨⟨path, content⟩, hitem, hpath, hcontent'⟩ := exists_of_mem_left heach hmark
    obtain rfl : content = .flag := hcontent'.2 rfl
    exact ⟨tokens, items, path, hcontent, hitems, hitem, isName_iff.2 hpath⟩

end Attributes

/-! ## Marks -/

theorem mem_embeddingAttributes {a : Attribute} :
    embeddingAttributes.any a.path.isName = true ↔
      a.path.isName tagAttribute = true ∨ a.path.isName "serde" = true := by
  simp [embeddingAttributes, or_comm]

/-- Where the tag of a field is read, each of its tag attributes lists entries. The field is
embedded if one of them lists the mark and has no other keys than such as may be items, or if the
mark is an item of a `serde` attribute. -/
theorem isEmbedded_iff {attributes : List Attribute} {tag : Option Tag}
    (h : Tag.ofAttributes? attributes = .ok tag) :
    (∀ a ∈ attributes, a.path.isName tagAttribute = true → ∃ written, a.Lists written ∧
      a.tagEntries = .ok (written.map WrittenEntry.entry)) ∧
    (isEmbedded attributes = true ↔ ∃ a ∈ attributes,
      (a.path.isName tagAttribute = true ∧ ∃ written, a.Lists written ∧
        WrittenEntry.mark ∈ written ∧ ∀ e ∈ written, IsItemKey e.key) ∨
      (a.path.isName "serde" = true ∧ a.ListsItem flattenKey)) := by
  have hlists : ∀ a ∈ attributes, a.path.isName tagAttribute = true → ∃ written, a.Lists written ∧
      a.tagEntries = .ok (written.map WrittenEntry.entry) := by
    intro a ha htag
    obtain ⟨l, hl, -⟩ := exists_of_bind_ok h
    have hmem : a ∈ attributes.filter (·.path.isName tagAttribute) := List.mem_filter.2 ⟨ha, htag⟩
    obtain ⟨entries, -, hentries⟩ := exists_of_mem_left (forall₂_of_mapM_ok hl) hmem
    obtain ⟨written, hwritten, rfl⟩ := lists_of_tagEntries hentries
    exact ⟨written, hwritten, hentries⟩
  refine ⟨hlists, ?_⟩
  rw [isEmbedded, List.any_eq_true]
  refine exists_congr fun a => and_congr_right fun ha => ?_
  rw [Bool.and_eq_true, mem_embeddingAttributes, listsFlatten_iff_listsItem, or_and_right]
  refine or_congr_left (and_congr_right fun htag => ?_)
  constructor
  · intro hitem
    obtain ⟨written, hwritten, -⟩ := hlists a ha htag
    exact ⟨written, hwritten, (listsItem_iff hwritten).1 hitem⟩
  · rintro ⟨written, hwritten, hmark⟩
    exact (listsItem_iff hwritten).2 hmark

/-- The attribute `#[api(flatten, key = "x")]` with some word as its key. -/
def markedBeside (key : String) : Attribute :=
  ⟨⟨false, [tagAttribute]⟩, .list [.word flattenKey default, .mark ',' false default,
    .word key default, .mark '=' false default, .literal "\"x\"" default], default⟩

theorem lists_markedBeside (key : String) :
    (markedBeside key).Lists [.mark, ⟨key, some "\"x\""⟩] :=
  ⟨_, rfl, .cons false default (IsEntry.flag flattenKey default)
    (.last (IsEntry.pair key default default default false (by cbv)))⟩

/-- A mark counts beside a key that is a name. -/
theorem marked_beside_name :
    Tag.ofAttributes? [markedBeside "json"] = .ok (some ⟨[("flatten", ""), ("json", "x")]⟩) ∧
      isEmbedded [markedBeside "json"] = true := by
  have htag : Tag.ofAttributes? [markedBeside "json"] =
      .ok (some ⟨[("flatten", ""), ("json", "x")]⟩) := by cbv
  refine ⟨htag, (isEmbedded_iff htag).2.2 ⟨_, List.mem_singleton_self _, .inl ⟨rfl, ?_⟩⟩⟩
  refine ⟨_, lists_markedBeside "json", List.mem_cons_self, ?_⟩
  simp [IsItemKey, WrittenEntry.mark, flattenKey, Peek.reservedWords]

/-- Beside a key that is a keyword, a mark is lost, though the tag is read. -/
theorem mark_beside_keyword_lost : ¬ ∀ attributes tag, Tag.ofAttributes? attributes = .ok tag →
    (∃ a ∈ attributes, a.path.isName tagAttribute = true ∧ ∃ written, a.Lists written ∧
      WrittenEntry.mark ∈ written) → isEmbedded attributes = true := by
  intro h
  have htag : Tag.ofAttributes? [markedBeside "type"] =
      .ok (some ⟨[("flatten", ""), ("type", "x")]⟩) := by cbv
  have hembedded := h _ _ htag ⟨_, List.mem_singleton_self _, rfl, _, lists_markedBeside "type",
    List.mem_cons_self⟩
  obtain ⟨a, ha, hlists⟩ := List.any_eq_true.1 hembedded
  rw [List.mem_singleton.1 ha, Bool.and_eq_true, listsFlatten_iff_listsItem,
    listsItem_iff (lists_markedBeside "type")] at hlists
  have hkey := hlists.2.2 ⟨"type", some "\"x\""⟩ (by simp)
  revert hkey
  simp [IsItemKey, Peek.reservedWords]

end ApiDecl
