import ApiDecl.Proofs.CommaLists
import Mathlib.Logic.Relation

/-!
# Proofs: which declarations are visible

An item is visible in a file if nothing around it hides what is inside: no function, no
implementation, no struct and no trait (`Item.Shows`). The declarations of a file are its visible
structs and traits, each once, in the order of the tree (`SourceFile.declarations_are_visible`). So
they stay what they are if modules are opened, and if functions and implementations come and go
(`Item.Regroups`).

The order of the tree is the one in which items are met, which is not always that of the text: the
conditions of a function come before its parameters (`conditions_come_first`).
-/

namespace ApiDecl.Syntax

namespace Item

/-! ## Places -/

/-- The items right inside an item. -/
def inner : Item → List Item
  | struct _ | trait _ => []
  | module items | function items | implementation items | other items => items

/-- Whether nothing inside an item can be seen from outside. -/
def hidesInner : Item → Bool
  | struct _ | trait _ | function _ | implementation _ => true
  | module _ | other _ => false

/-- The item at a place, which is given by a number for each level, from the outside. -/
def at? : Item → List Nat → Option Item
  | i, [] => some i
  | i, n :: place => i.inner[n]?.bind (·.at? place)

/-- The second item is at the place in the first one, and nothing around it hides what is inside. -/
structure Shows (root : Item) (place : List Nat) (i : Item) : Prop where
  stands : root.at? place = some i
  unhidden : ∀ around below o, place = around ++ below → below ≠ [] → root.at? around = some o →
    o.hidesInner = false

theorem shows_nil {root i : Item} : root.Shows [] i ↔ i = root := by
  constructor
  · intro h
    exact (Option.some.inj h.stands).symm
  · rintro rfl
    refine ⟨rfl, fun around below o hplace hbelow => ?_⟩
    exact absurd (List.append_eq_nil_iff.1 hplace.symm).2 hbelow

theorem shows_cons {root i : Item} {n : Nat} {place : List Nat} : root.Shows (n :: place) i ↔
    root.hidesInner = false ∧ ∃ next, root.inner[n]? = some next ∧ next.Shows place i := by
  constructor
  · intro h
    obtain ⟨next, hnext, hrest⟩ := Option.bind_eq_some_iff.1 (show _ = some i from h.stands)
    refine ⟨h.unhidden [] _ root rfl (List.cons_ne_nil _ _) rfl, next, hnext, hrest, ?_⟩
    rintro around below o rfl hbelow ho
    refine h.unhidden (n :: around) below o rfl hbelow ?_
    rw [at?, hnext]
    exact ho
  · rintro ⟨hopen, next, hnext, h⟩
    refine ⟨?_, fun around below o hplace hbelow ho => ?_⟩
    · rw [at?, hnext]
      exact h.stands
    · cases around with
      | nil => exact Option.some.inj ho ▸ hopen
      | cons m around =>
        obtain ⟨rfl, hrest⟩ := List.cons.inj hplace
        rw [at?, hnext] at ho
        exact h.unhidden around below o hrest hbelow ho

/-! ## What is visible -/

/-- The declaration of an item that is a struct. -/
def struct? : Item → Option StructDecl
  | struct decl => some decl
  | _ => none

/-- The declaration of an item that is a trait. -/
def trait? : Item → Option TraitDecl
  | trait decl => some decl
  | _ => none

mutual

/-- What is visible in an item, itself first, with the places. -/
def visible : Item → List (List Nat × Item)
  | struct decl => [([], struct decl)]
  | trait decl => [([], trait decl)]
  | module items => ([], module items) :: visibleFrom 0 items
  | function items => [([], function items)]
  | implementation items => [([], implementation items)]
  | other items => ([], other items) :: visibleFrom 0 items

/-- What is visible in some items, of which the first one has a given number. -/
def visibleFrom (n : Nat) : List Item → List (List Nat × Item)
  | [] => []
  | i :: rest => i.visible.map (fun (place, j) => (n :: place, j)) ++ visibleFrom (n + 1) rest

end

theorem visible_eq (i : Item) :
    i.visible = ([], i) :: if i.hidesInner then [] else visibleFrom 0 i.inner := by
  cases i <;> simp [visible, hidesInner, inner]

theorem mem_visible_cons {i j : Item} {n : Nat} {place : List Nat} :
    (n :: place, j) ∈ i.visible ↔
      i.hidesInner = false ∧ (n :: place, j) ∈ visibleFrom 0 i.inner := by
  rw [visible_eq]
  cases i.hidesInner <;> simp

theorem visibleFrom_ne_nil {n : Nat} {items : List Item} {j : Item} :
    ([], j) ∉ visibleFrom n items := by
  induction items generalizing n with
  | nil => simp [visibleFrom]
  | cons i rest ih => simp [visibleFrom, ih]

/-- The places in the list begin with the numbers of its items. -/
theorem exists_of_mem_visibleFrom {n : Nat} {items : List Item} {entry : List Nat × Item}
    (h : entry ∈ visibleFrom n items) : ∃ k place, entry.1 = (n + k) :: place := by
  induction items generalizing n with
  | nil => cases h
  | cons i rest ih =>
    rw [visibleFrom, List.mem_append] at h
    rcases h with h | h
    · obtain ⟨⟨place, j⟩, -, rfl⟩ := List.mem_map.1 h
      exact ⟨0, place, rfl⟩
    · obtain ⟨k, place, hplace⟩ := ih h
      exact ⟨k + 1, place, by rw [hplace, Nat.add_right_comm, Nat.add_assoc]⟩

theorem mem_visibleFrom_cons {n k : Nat} {items : List Item} {place : List Nat} {j : Item} :
    ((n + k) :: place, j) ∈ visibleFrom n items ↔
      ∃ next, items[k]? = some next ∧ (place, j) ∈ next.visible := by
  induction items generalizing n k with
  | nil => simp [visibleFrom]
  | cons i rest ih =>
    rw [visibleFrom, List.mem_append]
    cases k with
    | zero =>
      have hrest : (n :: place, j) ∉ visibleFrom (n + 1) rest := fun h => by
        obtain ⟨k, p, hp⟩ := exists_of_mem_visibleFrom h
        have hn : n = n + 1 + k := (List.cons.inj hp).1
        omega
      simp [hrest]
    | succ k =>
      have hfirst : ((n + (k + 1)) :: place, j) ∉ i.visible.map fun (p, j) => (n :: p, j) :=
        fun h => by
          obtain ⟨e, -, he⟩ := List.mem_map.1 h
          have hn : n = n + (k + 1) := (List.cons.inj (congrArg Prod.fst he)).1
          omega
      have hnumber : n + (k + 1) = n + 1 + k := by omega
      rw [or_iff_right hfirst, hnumber, ih, List.getElem?_cons_succ]

/-- The list holds what is visible. -/
theorem mem_visible {i j : Item} {place : List Nat} : (place, j) ∈ i.visible ↔ i.Shows place j := by
  induction place generalizing i with
  | nil =>
    rw [shows_nil, visible_eq, List.mem_cons]
    cases i.hidesInner <;> simp [visibleFrom_ne_nil]
  | cons n place ih =>
    have hmem := @mem_visibleFrom_cons 0 n i.inner place j
    rw [Nat.zero_add] at hmem
    rw [shows_cons, mem_visible_cons, hmem]
    exact and_congr_right' (exists_congr fun next => and_congr_right' ih)

mutual

/-- What is visible comes in the order of the places, what is around before what is inside. -/
theorem pairwise_visible (i : Item) : i.visible.Pairwise (·.1 < ·.1) := by
  have hinner : ∀ items, ((([], i) : List Nat × Item) :: visibleFrom 0 items).Pairwise (·.1 < ·.1) ↔
      (visibleFrom 0 items).Pairwise (·.1 < ·.1) := fun items => by
    refine List.pairwise_cons.trans (and_iff_right fun entry hentry => ?_)
    obtain ⟨k, place, hplace⟩ := exists_of_mem_visibleFrom hentry
    rw [hplace]
    exact List.nil_lt_cons _ _
  match i with
  | .module items | .other items =>
    rw [visible]
    exact (hinner items).2 (pairwise_visibleFrom 0 items)
  | .struct _ | .trait _ | .function _ | .implementation _ =>
    rw [visible]
    exact List.pairwise_singleton _ _

theorem pairwise_visibleFrom (n : Nat) (items : List Item) :
    (visibleFrom n items).Pairwise (·.1 < ·.1) := by
  match items with
  | [] => exact .nil
  | i :: rest =>
    rw [visibleFrom, List.pairwise_append, List.pairwise_map]
    refine ⟨?_, pairwise_visibleFrom (n + 1) rest, fun entry hentry later hlater => ?_⟩
    · exact (pairwise_visible i).imp fun h => List.cons_lt_cons_iff.2 (.inr ⟨rfl, h⟩)
    · obtain ⟨first, -, rfl⟩ := List.mem_map.1 hentry
      obtain ⟨k, place, hplace⟩ := exists_of_mem_visibleFrom hlater
      rw [hplace]
      exact List.cons_lt_cons_iff.2 (.inl (by omega))

end

mutual

/-- The structs and traits of an item are those that are visible in it. -/
theorem declarations_eq (i : Item) : i.structs = i.visible.filterMap (·.2.struct?) ∧
    i.traits = i.visible.filterMap (·.2.trait?) := by
  match i with
  | .module items | .other items =>
    obtain ⟨hstructs, htraits⟩ := declarationsOf_eq 0 items
    rw [structs, traits, visible, hstructs, htraits]
    exact ⟨rfl, rfl⟩
  | .struct _ | .trait _ | .function _ | .implementation _ =>
    rw [structs, traits, visible]
    exact ⟨rfl, rfl⟩

theorem declarationsOf_eq (n : Nat) (items : List Item) :
    structsOf items = (visibleFrom n items).filterMap (·.2.struct?) ∧
      traitsOf items = (visibleFrom n items).filterMap (·.2.trait?) := by
  match items with
  | [] => exact ⟨rfl, rfl⟩
  | i :: rest =>
    obtain ⟨hstructs, htraits⟩ := declarations_eq i
    obtain ⟨hstructsOf, htraitsOf⟩ := declarationsOf_eq (n + 1) rest
    rw [structsOf, traitsOf, visibleFrom, List.filterMap_append, List.filterMap_append,
      List.filterMap_map, List.filterMap_map, hstructs, htraits, hstructsOf, htraitsOf]
    exact ⟨rfl, rfl⟩

end

/-! ## Opening modules, leaving out functions -/

/-- An item with other items inside; a struct and a trait have none. -/
def withInner (items : List Item) : Item → Item
  | struct decl => .struct decl
  | trait decl => .trait decl
  | module _ => .module items
  | function _ => .function items
  | implementation _ => .implementation items
  | other _ => .other items

/-- Some items and what becomes of them if one module among them is opened, or if a function or an
implementation is left out, at any depth. -/
inductive Regroups : List Item → List Item → Prop where
  /-- The items of a module stand in its place. -/
  | opened (front items back : List Item) :
    Regroups (front ++ .module items :: back) (front ++ items ++ back)
  /-- A function is left out. -/
  | noFunction (front items back : List Item) :
    Regroups (front ++ .function items :: back) (front ++ back)
  /-- An implementation is left out. -/
  | noImplementation (front items back : List Item) :
    Regroups (front ++ .implementation items :: back) (front ++ back)
  /-- The same happens inside an item. -/
  | inside (front back : List Item) {i : Item} {items : List Item} (h : Regroups i.inner items) :
    Regroups (front ++ i :: back) (front ++ i.withInner items :: back)

theorem structsOf_append (items later : List Item) :
    structsOf (items ++ later) = structsOf items ++ structsOf later := by
  induction items with
  | nil => rfl
  | cons i rest ih => rw [List.cons_append, structsOf, structsOf, ih, List.append_assoc]

theorem traitsOf_append (items later : List Item) :
    traitsOf (items ++ later) = traitsOf items ++ traitsOf later := by
  induction items with
  | nil => rfl
  | cons i rest ih => rw [List.cons_append, traitsOf, traitsOf, ih, List.append_assoc]

theorem Regroups.declarations_eq {items items' : List Item} (h : Regroups items items') :
    structsOf items = structsOf items' ∧ traitsOf items = traitsOf items' := by
  induction h with
  | opened front items back =>
    simp [structsOf_append, traitsOf_append, structsOf, traitsOf, structs, traits]
  | noFunction front items back | noImplementation front items back =>
    simp [structsOf_append, traitsOf_append, structsOf, traitsOf, structs, traits]
  | @inside front back i items _ ih =>
    have hinside : i.structs = (i.withInner items).structs ∧
        i.traits = (i.withInner items).traits := by
      cases i with
      | struct _ | trait _ | function _ | implementation _ =>
        simp [withInner, structs, traits]
      | module inside | other inside =>
        simp only [withInner, structs, traits]
        exact ih
    simp only [structsOf_append, traitsOf_append, structsOf, traitsOf, hinside, and_self]

theorem declarations_eq_of_eqvGen {items items' : List Item}
    (h : Relation.EqvGen Regroups items items') :
    structsOf items = structsOf items' ∧ traitsOf items = traitsOf items' := by
  induction h with
  | rel _ _ h => exact h.declarations_eq
  | refl _ => exact ⟨rfl, rfl⟩
  | symm _ _ _ ih => exact ⟨ih.1.symm, ih.2.symm⟩
  | trans _ _ _ _ _ ih ih' => exact ⟨ih.1.trans ih'.1, ih.2.trans ih'.2⟩

end Item

/-! ## Recording -/

namespace Parser

variable {α : Type} {p : Parser α} {s s' : ParseState}

theorem items_of_tracing {r : α × Trace} (h : (tracing p).run s = .ok (r, s')) :
    s'.trace = s.trace := by
  obtain ⟨before, m, hbefore, h⟩ := exists_of_run_bind h
  cases hbefore
  obtain ⟨_, m, hmodify, h⟩ := exists_of_run_bind h
  cases hmodify
  obtain ⟨a, m, -, h⟩ := exists_of_run_bind h
  obtain ⟨after, m', hafter, h⟩ := exists_of_run_bind h
  cases hafter
  obtain ⟨_, m', hmodify, h⟩ := exists_of_run_bind h
  cases hmodify
  cases h
  rfl

/-- An item is recorded once, and what is inside it is not recorded beside it. -/
theorem items_of_item {g : Grammar} (h : (item g).run s = .ok ((), s')) :
    ∃ i, s'.trace.items = i :: s.trace.items := by
  obtain ⟨start, m, hstart, h⟩ := exists_of_run_bind h
  cases hstart
  obtain ⟨⟨attributes, t⟩, m, hattributes, h⟩ := exists_of_run_bind h
  obtain ⟨⟨i?, inside⟩, m', hitem, h⟩ := exists_of_run_bind h
  have htrace : m'.trace = s.trace :=
    (items_of_tracing hitem).trans (items_of_tracing hattributes)
  cases i? with
  | some i =>
    cases h
    refine ⟨prependInner (t.items.reverse ++ inside.items.reverse) i, ?_⟩
    rw [← htrace]
    rfl
  | none =>
    cases h
    refine ⟨.other [], ?_⟩
    rw [← htrace]
    rfl

end Parser

/-! ## Declarations of a file -/

/-- The declarations of a file are the structs and the traits that are visible in it, each once, in
the order of the tree; opening modules and leaving out or putting in functions and implementations,
at any depth and in any number, does not change them. -/
theorem SourceFile.declarations_are_visible (f : SourceFile) :
    (∃ shown : List (List Nat × Item),
      shown.Pairwise (·.1 < ·.1) ∧
      (∀ place i, (place, i) ∈ shown ↔ (Item.module f.items).Shows place i) ∧
      f.structs = shown.filterMap (·.2.struct?) ∧ f.traits = shown.filterMap (·.2.trait?)) ∧
    ∀ f' : SourceFile, Relation.EqvGen Item.Regroups f.items f'.items →
      f'.structs = f.structs ∧ f'.traits = f.traits := by
  refine ⟨⟨(Item.module f.items).visible, Item.pairwise_visible _, fun place i => Item.mem_visible,
    Item.declarations_eq (.module f.items)⟩, fun f' h => ?_⟩
  obtain ⟨hstructs, htraits⟩ := Item.declarations_eq_of_eqvGen h
  exact ⟨hstructs.symm, htraits.symm⟩

/-- A file with a struct in a module in a module, beside a function with a struct of its own. -/
def nestedFile : SourceFile :=
  ⟨"m.rs", [.module [.function [.struct ⟨[], "Draft", none⟩],
    .module [.struct ⟨[], "Page", none⟩]], .trait ⟨[], "PageService", []⟩]⟩

/-- The same file with nothing around its declarations. -/
def flatFile : SourceFile :=
  ⟨"m.rs", [.struct ⟨[], "Page", none⟩, .trait ⟨[], "PageService", []⟩]⟩

theorem nested_declarations_stay : Relation.EqvGen Item.Regroups nestedFile.items flatFile.items ∧
    flatFile.structs = nestedFile.structs ∧ flatFile.traits = nestedFile.traits := by
  have hregroups : Relation.EqvGen Item.Regroups nestedFile.items flatFile.items := by
    refine .trans _ _ _ (.rel _ _ (.inside [] _ (.noFunction [] _ _))) ?_
    refine .trans _ _ _ (.rel _ _ (.inside [] _ (.opened [] _ []))) ?_
    exact .rel _ _ (.opened [] _ _)
  exact ⟨hregroups, nestedFile.declarations_are_visible.2 flatFile hregroups⟩

/-! ## The order of the text -/

/-- A function whose parameter has a struct in its type, and whose condition has another one. -/
def conditionText : String :=
  "extern \"C\" \x7b
    fn f(x: [u8; \x7b struct A; 1 \x7d]) where [u8; \x7b struct B; 1 \x7d]: Sized;
\x7d"

-- the characters of the text are spelled out before it is parsed, for decoding them takes long
set_option maxRecDepth 4000 in
/-- The declarations of a file do not always come in the order of its text. -/
theorem conditions_come_first :
    (∃ front between back,
      conditionText = front ++ "struct A;" ++ between ++ "struct B;" ++ back) ∧
    ∃ f, SourceFile.parse "m.rs" conditionText = .ok f ∧ f.structs.map (·.name) = ["B", "A"] := by
  have htext : conditionText.toList = _ := String.toList_ofList
  have hread : ((SourceFile.parse "m.rs" conditionText).toOption.any
      fun f => f.structs.map (·.name) == ["B", "A"]) = true := by
    rw [SourceFile.parse, tokenizeFile, fileText, htext]
    decide +kernel
  obtain ⟨f, hf, hnames⟩ := exists_of_any hread
  refine ⟨⟨"extern \"C\" \x7b\n    fn f(x: [u8; \x7b ", " 1 \x7d]) where [u8; \x7b ",
    " 1 \x7d]: Sized;\n\x7d", rfl⟩, f, hf, beq_iff_eq.1 hnames⟩

end ApiDecl.Syntax
