import ApiDecl.Catalog.Path
import Mathlib.Data.List.Chain
import Mathlib.Data.List.Nodup
import Mathlib.Logic.Relation

/-!
# Proofs: tables in order

A table holds its structs in the order of their names, so that every struct is found by its name. The
embeddings and the types of the structs make graphs on the names; a graph has no cycle through a name
from which every descent ends.
-/

namespace ApiDecl

open Relation

namespace Catalog

/-- The names of the structs are strictly increasing. -/
def Ordered (c : Catalog) : Prop := c.names.Pairwise (· < ·)

instance (c : Catalog) : Decidable c.Ordered := inferInstanceAs (Decidable (c.names.Pairwise _))

theorem Ordered.nodup {c : Catalog} (hc : c.Ordered) : c.names.Nodup := nodup_of_sorted hc

/-- In a table in order, a struct is found by its name. -/
theorem Ordered.find? {c : Catalog} (hc : c.Ordered) {s : StructDescriptor} (hs : s ∈ c.structs) :
    c.find? s.name = some s := by
  obtain ⟨t, ht⟩ := mem_names_iff.1 (List.mem_map.2 ⟨s, hs, rfl⟩ : s.name ∈ c.names)
  rw [ht, List.inj_on_of_nodup_map hc.nodup (mem_of_find? ht) hs (name_of_find? ht)]

/-- A struct that a name denotes is found by its own name. -/
theorem find?_of_get? {c : Catalog} {n : TypeName} {s : StructDescriptor} (h : c.get? n = some s) :
    c.find? s.name = some s := by
  rw [name_of_find? h]
  exact h

end Catalog

variable {α : Type} {r : α → α → Prop}

theorem not_transGen_of_acc {a : α} (h : Acc (fun y x => r x y) a) : ¬ TransGen r a a := by
  induction h with
  | intro a _ ih =>
    intro hcycle
    obtain ⟨b, hab, hba⟩ := TransGen.head'_iff.1 hcycle
    exact ih b hab (TransGen.tail'_iff.2 ⟨a, hba, hab⟩)

/-- From a point from which every descent ends no cycle is reached. -/
theorem not_cycle_of_acc {a b : α} (h : Acc (fun y x => r x y) a) (hab : ReflTransGen r a b) :
    ¬ TransGen r b b := by
  refine not_transGen_of_acc ?_
  induction hab with
  | refl => exact h
  | tail _ hstep ih => exact ih.inv hstep

/-- Along a chain its first element leads to all others. -/
theorem transGen_of_isChain {a : α} {l : List α} (h : (a :: l).IsChain r) :
    ∀ b ∈ l, TransGen r a b := by
  induction l generalizing a with
  | nil => simp
  | cons c l ih =>
    obtain ⟨hac, hl⟩ := List.isChain_cons_cons.1 h
    intro b hb
    rcases List.mem_cons.1 hb with rfl | hb
    · exact .single hac
    · exact .head hac (ih hl b hb)

end ApiDecl
