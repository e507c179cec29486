import ApiDecl.Catalog.Basic

/-!
# Paths through a catalog

Sealing and compiling structs follow names from struct to struct and keep the path of names behind
them. A path never holds a name twice, so the number of structs that are not on it
(`Catalog.remaining`) shrinks with every step to a known struct; that is why both end.
-/

namespace ApiDecl

namespace Catalog

/-- The number of structs that are not on a path. -/
def remaining (c : Catalog) (path : List String) : Nat :=
  (c.names.filter fun n => !path.contains n).length

/-- A struct that is found by a name has that name. -/
theorem name_of_find? {c : Catalog} {name : String} {s : StructDescriptor}
    (h : c.find? name = some s) : s.name = name := by
  simpa using List.find?_some h

/-- A struct that is found is in the table. -/
theorem mem_of_find? {c : Catalog} {name : String} {s : StructDescriptor}
    (h : c.find? name = some s) : s ∈ c.structs := List.mem_of_find?_eq_some h

/-- The name of a struct that is found is one of the names. -/
theorem mem_names_of_find? {c : Catalog} {name : String} {s : StructDescriptor}
    (h : c.find? name = some s) : name ∈ c.names :=
  List.mem_map.2 ⟨s, mem_of_find? h, name_of_find? h⟩

/-- The names of the structs are those that are found. -/
theorem mem_names_iff {c : Catalog} {name : String} :
    name ∈ c.names ↔ ∃ s, c.find? name = some s := by
  refine ⟨fun h => ?_, fun ⟨s, hs⟩ => mem_names_of_find? hs⟩
  obtain ⟨s, hs, rfl⟩ := List.mem_map.1 h
  exact Option.isSome_iff_exists.1 (List.find?_isSome.2 ⟨s, hs, beq_self_eq_true _⟩)

theorem find?_eq_none_iff {c : Catalog} {name : String} :
    c.find? name = none ↔ name ∉ c.names := by
  rw [mem_names_iff, Option.eq_none_iff_forall_ne_some, not_exists]

/-- A longer path leaves no more names than a shorter one. -/
theorem length_filter_append_le (names path : List String) (name : String) :
    (names.filter fun n => !(path ++ [name]).contains n).length ≤
      (names.filter fun n => !path.contains n).length := by
  induction names with
  | nil => simp
  | cons n names ih => simp only [List.filter_cons]; grind

/-- A step to a known struct that is not on the path leaves fewer structs. -/
theorem remaining_append_lt {c : Catalog} {path : List String} {name : String}
    (known : name ∈ c.names) (fresh : name ∉ path) :
    c.remaining (path ++ [name]) < c.remaining path := by
  unfold remaining
  generalize c.names = names at known
  induction names with
  | nil => simp at known
  | cons n names ih =>
    have le := length_filter_append_le names path name
    by_cases h : n = name
    · subst h
      simp [fresh] at le ⊢
      omega
    · have known' : name ∈ names := by simpa [Ne.symm h] using known
      have lt := ih known'
      by_cases hn : n ∈ path
      · simpa [List.filter_cons, hn, h] using lt
      · simpa [List.filter_cons, hn, h] using lt

end Catalog

end ApiDecl
