import ApiDecl.Document.Reader
import ApiDecl.Proofs.JsonReading

/-!
# Proofs: records are read back

What `ReadsAs` says of the values in a list, a table or a record, it says of the list, the table and
the record. A record is written from parts, some of which are absent (`Json.present`), and is found
with exactly those that are there (`record?_present`, `readsAs_record`); whether an absent part has
a default or is optional makes no difference to what is read (`Fields.withDefault`,
`Fields.optional`).
-/

namespace ApiDecl.Json

variable {α β : Type}

/-- The value has no floats, and `a` is read from it with any number of levels that are enough. -/
structure ReadsAs (read : NodeReader α) (j : Json) (a : α) : Prop where
  noFloat : j.NoFloat
  reads : ∀ {levels}, j.NestsWithin levels → read levels j.node = some a

/-! ## Texts, truth values and numbers -/

@[simp]
theorem text?_node (s : String) : (string s).node.text? = some s := textOf?_unitsOf s

@[simp]
theorem choice?_node (s : String) (levels : Nat) : (string s).node.choice? levels = some s :=
  textOf?_unitsOf s

theorem natBelow?_node {n : Nat} (h : IsWhole n) {limit : Nat} (hlimit : n < limit) :
    (number (.whole n h)).node.natBelow? limit = some n := by
  have hvalue := value?_wholeSpelling n h
  have hfits : (0 : Int) ≤ n ∧ (n : Int) < limit := by omega
  rw [node, spelling_whole, Node.natBelow?, hvalue]
  exact (if_pos hfits).trans (congrArg some (Int.toNat_natCast n))

@[simp]
theorem word?_node (n : UInt64) : (ofWord n).node.word? = some n := by
  have hread : (ofWord n).node.natBelow? wordLimit = some n.toNat :=
    natBelow?_node _ n.toNat_lt
  rw [Node.word?, hread, Option.map_some, UInt64.ofNat_toNat]

@[simp]
theorem halfword?_node (n : UInt16) : (ofHalfword n).node.halfword? = some n := by
  have hread : (ofHalfword n).node.natBelow? Node.halfwordLimit = some n.toUInt64.toNat :=
    natBelow?_node _ (by rw [UInt16.toNat_toUInt64]; exact n.toNat_lt)
  rw [Node.halfword?, hread, Option.map_some, UInt16.toNat_toUInt64, UInt16.ofNat_toNat]

/-! ## Lists and tables -/

theorem mapM_map_some {f : α → β} {g : β → Option α} {l : List α}
    (h : ∀ a ∈ l, g (f a) = some a) : (l.map f).mapM g = some l := by
  induction l with
  | nil => rfl
  | cons a l ih =>
    rw [List.map_cons, List.mapM_cons, h a List.mem_cons_self,
      ih fun b hb => h b (List.mem_cons_of_mem _ hb)]
    rfl

theorem readsAs_list {read : NodeReader α} (json : α → Json) {l : List α}
    (h : ∀ a ∈ l, ReadsAs read (json a) a) : ReadsAs (Node.list? read) (array (l.map json)) l where
  noFloat := .array fun j hj => by
    obtain ⟨a, ha, rfl⟩ := List.mem_map.1 hj
    exact (h a ha).noFloat
  reads hlevels := by
    obtain ⟨inner, rfl, hinner⟩ := hlevels.array
    rw [node, elementNodes_eq_map, List.map_map]
    exact mapM_map_some fun a ha => (h a ha).reads (hinner _ (List.mem_map_of_mem ha))

theorem readsAs_strings (texts : List String) : ReadsAs Schema.textList? (strings texts) texts :=
  readsAs_list Json.string fun s _ => ⟨.string s, fun _ => text?_node s⟩

theorem members?_node {read : NodeReader α} (json : α → Json) {l : List (String × α)} {inner : Nat}
    (h : ∀ m ∈ l, read inner (json m.2).node = some m.2) :
    (object (l.map fun m => (m.1, json m.2))).node.members? read (inner + 1) = some l := by
  rw [node, memberNodes_eq_map, List.map_map]
  refine mapM_map_some fun m hm => ?_
  simp only [Function.comp_apply, textOf?_unitsOf, Option.bind_eq_bind, Option.bind_some, h m hm]
  rfl

/-- A table whose names are different keeps its order. -/
theorem table?_node {read : NodeReader α} (json : α → Json) {l : List (String × α)} {inner : Nat}
    (h : ∀ m ∈ l, read inner (json m.2).node = some m.2) (hnames : (l.map (·.1)).Nodup) :
    (object (l.map fun m => (m.1, json m.2))).node.table? read (inner + 1) = some l := by
  have hfold : l.foldl (fun found m => putByKey (·.1) m found) [] = l :=
    foldl_putByKey (by simpa using hnames)
  rw [Node.table?, members?_node json h]
  exact congrArg some hfold

theorem noFloat_members {json : α → Json} {l : List (String × α)}
    (h : ∀ m ∈ l, (json m.2).NoFloat) : (object (l.map fun m => (m.1, json m.2))).NoFloat := by
  refine .object fun m hm => ?_
  obtain ⟨p, hp, rfl⟩ := List.mem_map.1 hm
  exact h p hp

theorem readsAs_members {read : NodeReader α} (json : α → Json) {l : List (String × α)}
    (h : ∀ m ∈ l, ReadsAs read (json m.2) m.2) :
    ReadsAs (Node.members? read) (object (l.map fun m => (m.1, json m.2))) l where
  noFloat := noFloat_members fun m hm => (h m hm).noFloat
  reads hlevels := by
    obtain ⟨inner, rfl, hinner⟩ := hlevels.object
    exact members?_node json fun m hm => (h m hm).reads (hinner _ (List.mem_map_of_mem hm))

theorem readsAs_table {read : NodeReader α} (json : α → Json) {l : List (String × α)}
    (h : ∀ m ∈ l, ReadsAs read (json m.2) m.2) (hnames : (l.map (·.1)).Nodup) :
    ReadsAs (Node.table? read) (object (l.map fun m => (m.1, json m.2))) l where
  noFloat := noFloat_members fun m hm => (h m hm).noFloat
  reads hlevels := by
    obtain ⟨inner, rfl, hinner⟩ := hlevels.object
    refine table?_node json (fun m hm => ?_) hnames
    exact (h m hm).reads (hinner _ (List.mem_map_of_mem hm))

/-! ## Records -/

/-- The parts that are there. -/
def present (parts : List (String × Option Json)) : List (String × Json) :=
  parts.filterMap fun p => p.2.map (p.1, ·)

/-- A part that is not written in some case. -/
def leftOutIf (absent : Bool) (j : Json) : Option Json := if absent then none else some j

theorem leftOutIf_eq_some {absent : Bool} {j k : Json} (h : leftOutIf absent j = some k) :
    absent = false ∧ j = k := by
  cases absent with
  | true => cases h
  | false => exact ⟨rfl, Option.some.inj h⟩

theorem names_present (parts : List (String × Option Json)) :
    List.Sublist ((present parts).map (·.1)) (parts.map (·.1)) := by
  induction parts with
  | nil => exact .slnil
  | cons p parts ih =>
    obtain ⟨name, _ | j⟩ := p
    · exact ih.cons name
    · exact ih.cons_cons name

theorem lookup_present (parts : List (String × Option Json)) (hnames : (parts.map (·.1)).Nodup)
    (name : String) :
    ((present parts).map fun p => (p.1, p.2.node)).lookup name =
      ((parts.lookup name).join).map node := by
  induction parts with
  | nil => rfl
  | cons p parts ih =>
    obtain ⟨other, o⟩ := p
    obtain ⟨hnew, hnames⟩ := List.nodup_cons.1 hnames
    have hothers := ih hnames
    by_cases hname : name = other
    · subst hname
      have hnone : parts.lookup name = none := by
        refine List.lookup_eq_none_iff.2 fun p hp => bne_iff_ne.2 ?_
        rintro rfl
        exact hnew (List.mem_map.2 ⟨p, hp, rfl⟩)
      cases o with
      | none => simpa [present, hnone] using hothers
      | some j => simp [present]
    · have hne : (name == other) = false := beq_eq_false_iff_ne.2 hname
      cases o with
      | none => simpa [present, List.lookup_cons, hne] using hothers
      | some j => simpa [present, List.lookup_cons, hne] using hothers

theorem fieldsOf?_memberNodes {names : List String} {ms : List (String × Json)}
    (hnames : (ms.map (·.1)).Nodup) (hknown : ∀ m ∈ ms, m.1 ∈ names) :
    Node.fieldsOf? names (memberNodes ms) = some (ms.map fun m => (m.1, m.2.node)) := by
  induction ms with
  | nil => rfl
  | cons m ms ih =>
    obtain ⟨hnew, hnames⟩ := List.nodup_cons.1 hnames
    have hothers := ih hnames fun a ha => hknown a (List.mem_cons_of_mem _ ha)
    have hin : names.contains m.1 = true := List.contains_iff_mem.2 (hknown m List.mem_cons_self)
    have honce : ((ms.map fun m => (m.1, m.2.node)).any (·.1 == m.1)) = false := by
      refine List.any_eq_false.2 fun a ha heq => ?_
      obtain ⟨b, hb, rfl⟩ := List.mem_map.1 ha
      exact hnew (List.mem_map.2 ⟨b, hb, beq_iff_eq.1 heq⟩)
    rw [memberNodes, Node.fieldsOf?, textOf?_unitsOf, hothers]
    simp only [Option.bind_eq_bind, Option.bind_some, hin, honce]
    rfl

theorem noFloat_present {parts : List (String × Option Json)}
    (h : ∀ p ∈ parts, ∀ j, p.2 = some j → j.NoFloat) : (object (present parts)).NoFloat := by
  refine .object fun m hm => ?_
  obtain ⟨p, hp, hm⟩ := List.mem_filterMap.1 hm
  obtain ⟨j, hj, rfl⟩ := Option.map_eq_some_iff.1 hm
  exact h p hp j hj

/-- A record holds exactly the parts that are there, and levels enough for them are left. -/
structure Fields (parts : List (String × Option Json)) (inner : Nat) (r : Record) : Prop where
  eq : r = (present parts).map fun m => (m.1, m.2.node)
  nodup : (parts.map (·.1)).Nodup
  nests : ∀ name j, parts.lookup name = some (some j) → j.NestsWithin inner

theorem record?_present (parts : List (String × Option Json)) (hnames : (parts.map (·.1)).Nodup)
    (mayEndEarly : Bool) {inner : Nat} (hinner : ∀ m ∈ present parts, m.2.NestsWithin inner) :
    ∃ r, (object (present parts)).node.record? (parts.map (·.1)) mayEndEarly = some r ∧
      Fields parts inner r := by
  have hsub := names_present parts
  refine ⟨_, fieldsOf?_memberNodes (hsub.nodup hnames) fun m hm =>
    hsub.subset (List.mem_map_of_mem hm), rfl, hnames, fun name j hj => ?_⟩
  exact hinner _ (List.mem_filterMap.2 ⟨_, mem_of_lookup hj, rfl⟩)

namespace Fields

variable {parts : List (String × Option Json)} {inner : Nat} {r : Record} {name : String}

theorem lookup_eq (h : Fields parts inner r) {o : Option Json}
    (hpart : parts.lookup name = some o) : r.lookup name = o.map node := by
  rw [h.eq, lookup_present parts h.nodup, hpart, Option.join_some]

theorem required (h : Fields parts inner r) {j : Json} {a : α} {read : Node → Option α}
    (hpart : parts.lookup name = some (some j))
    (hread : j.NestsWithin inner → read j.node = some a) : r.required? name read = some a := by
  rw [Record.required?, h.lookup_eq hpart]
  exact hread (h.nests name j hpart)

theorem requiredText (h : Fields parts inner r) {s : String}
    (hpart : parts.lookup name = some (some (.string s))) :
    r.required? name Node.text? = some s :=
  h.required hpart fun _ => text?_node s

theorem requiredWord (h : Fields parts inner r) {n : UInt64}
    (hpart : parts.lookup name = some (some (.ofWord n))) :
    r.required? name Node.word? = some n :=
  h.required hpart fun _ => word?_node n

theorem requiredChoice (h : Fields parts inner r) {s : String}
    (hpart : parts.lookup name = some (some (.string s))) :
    r.required? name (Node.choice? inner) = some s :=
  h.required hpart fun _ => choice?_node s inner

/-- A part that is left out if it has its default is read as it was. -/
theorem withDefault (h : Fields parts inner r) {absent : Bool} {j : Json} {a default : α}
    {read : Node → Option α} (hpart : parts.lookup name = some (leftOutIf absent j))
    (habsent : absent = true → a = default)
    (hread : j.NestsWithin inner → read j.node = some a) :
    r.withDefault? name default read = some a := by
  rw [Record.withDefault?, h.lookup_eq hpart]
  cases absent with
  | true => exact congrArg some (habsent rfl).symm
  | false => exact hread (h.nests name j hpart)

theorem orNull?_node {j : Json} (hj : j ≠ .null) {a : α} {read : Node → Option α}
    (hread : read j.node = some a) : Node.orNull? read j.node = some (some a) := by
  cases j with
  | null => exact absurd rfl hj
  | bool _ | number _ | string _ | array _ | object _ => exact congrArg (Option.map some) hread

/-- A part that may be absent is absent or present as it was, if it is not written as null. -/
theorem optional (h : Fields parts inner r) {o : Option α} {json : α → Json}
    {read : Node → Option α} (hpart : parts.lookup name = some (o.map json))
    (hjson : ∀ a, json a ≠ .null)
    (hread : ∀ a, o = some a → (json a).NestsWithin inner → read (json a).node = some a) :
    r.optional? name read = some o := by
  rw [Record.optional?, Record.withDefault?, h.lookup_eq hpart]
  cases o with
  | none => rfl
  | some a => exact orNull?_node (hjson a) (hread a rfl (h.nests name (json a) hpart))

end Fields

/-- What a reader builds from a record is read back if it is built from every record that holds the
written parts. -/
theorem readsAs_record (parts : List (String × Option Json))
    (hnames : (parts.map (·.1)).Nodup) {build : Nat × Record → Option α} {a : α}
    (hfloat : ∀ p ∈ parts, ∀ j, p.2 = some j → j.NoFloat)
    (hbuild : ∀ {inner r}, Fields parts inner r → build (inner, r) = some a) :
    ReadsAs (fun levels node => recordOf? (parts.map (·.1)) levels node >>= build)
      (object (present parts)) a where
  noFloat := noFloat_present hfloat
  reads hlevels := by
    obtain ⟨inner, rfl, hinner⟩ := hlevels.object
    obtain ⟨r, hread, hfields⟩ := record?_present parts hnames false hinner
    have hrecord : recordOf? (parts.map (·.1)) (inner + 1) (object (present parts)).node =
        some (inner, r) := by
      rw [recordOf?, hread, Option.map_some]
    exact Option.bind_eq_some_iff.2 ⟨_, hrecord, hbuild hfields⟩

end ApiDecl.Json
