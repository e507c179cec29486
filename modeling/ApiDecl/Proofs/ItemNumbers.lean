import ApiDecl.Document.Basic
import ApiDecl.Proofs.Result
import Mathlib.Data.List.Flatten
import Mathlib.Data.Nat.ModEq

/-!
# Proofs: the numbers of items

The number of a text is that of its parts added up (`definitionId_append`), and it knows no more
than how many bytes there are and what they add up to (`definitionId_eq_iff`). So the items of a
document have different numbers exactly if no two of them have names that are equal in this respect
(`item_numbers_differ_iff`).
-/

namespace ApiDecl

/-! ## Numbers of names -/

/-- What the bytes of a name add up to. -/
def byteSum (name : String) : Nat := (name.toUTF8.data.toList.map UInt8.toNat).sum

/-- Two names have the same number: what they differ by in length is made up for by their bytes, in
64 bits. -/
def SameNumber (n n' : String) : Prop :=
  n.utf8ByteSize * 10000 + byteSum n ≡ n'.utf8ByteSize * 10000 + byteSum n' [MOD 2 ^ 64]

instance (n n' : String) : Decidable (SameNumber n n') := inferInstanceAs (Decidable (_ = _))

theorem byteSum_append (a b : String) : byteSum (a ++ b) = byteSum a + byteSum b := by
  simp [byteSum]

theorem foldl_bytes (bytes : List UInt8) (start : Nat) :
    bytes.foldl (fun sum b => sum + b.toNat) start = start + (bytes.map UInt8.toNat).sum := by
  induction bytes generalizing start with
  | nil => rfl
  | cons b bytes ih => rw [List.foldl_cons, ih, List.map_cons, List.sum_cons, Nat.add_assoc]

theorem definitionId_eq (name : String) :
    definitionId name = UInt64.ofNat (name.utf8ByteSize * 10000 + byteSum name) := by
  have hlength : name.toUTF8.data.toList.length = name.utf8ByteSize := by simp
  rw [definitionId, foldl_bytes, hlength, Nat.zero_add, byteSum]

/-- The number of a text is that of its parts added up. -/
theorem definitionId_append (a b : String) :
    definitionId (a ++ b) = definitionId a + definitionId b := by
  have hparts : (a ++ b).utf8ByteSize * 10000 + byteSum (a ++ b) =
      (a.utf8ByteSize * 10000 + byteSum a) + (b.utf8ByteSize * 10000 + byteSum b) := by
    rw [String.utf8ByteSize_append, byteSum_append]
    omega
  rw [definitionId_eq, hparts, UInt64.ofNat_add, definitionId_eq, definitionId_eq]

theorem definitionId_eq_iff {n n' : String} :
    definitionId n = definitionId n' ↔ SameNumber n n' := by
  rw [definitionId_eq, definitionId_eq, ← UInt64.toNat_inj, UInt64.toNat_ofNat',
    UInt64.toNat_ofNat']
  exact Iff.rfl

theorem sum_bytes_le (bytes : List UInt8) :
    (bytes.map UInt8.toNat).sum ≤ bytes.length * 255 := by
  induction bytes with
  | nil => exact Nat.le_refl 0
  | cons b bytes ih =>
    have hb := b.toNat_lt
    rw [List.map_cons, List.sum_cons, List.length_cons]
    omega

theorem byteSum_le (name : String) : byteSum name ≤ name.utf8ByteSize * 255 := by
  have hlength : name.toUTF8.data.toList.length = name.utf8ByteSize := by simp
  rw [byteSum, ← hlength]
  exact sum_bytes_le _

/-- Names of less than 40 bytes have the same number exactly if they have the same length and their
bytes add up to the same: 39 bytes add up to less than 10000. -/
theorem sameNumber_short {n n' : String} (hn : n.utf8ByteSize < 40) (hn' : n'.utf8ByteSize < 40) :
    SameNumber n n' ↔ n.utf8ByteSize = n'.utf8ByteSize ∧ byteSum n = byteSum n' := by
  have hsum := byteSum_le n
  have hsum' := byteSum_le n'
  rw [SameNumber, Nat.ModEq, Nat.mod_eq_of_lt (by omega), Nat.mod_eq_of_lt (by omega)]
  omega

/-- What the two names have in common does not count. -/
theorem sameNumber_append_left {a b b' : String} :
    SameNumber (a ++ b) (a ++ b') ↔ SameNumber b b' := by
  simp only [← definitionId_eq_iff, definitionId_append, UInt64.add_right_inj]

theorem sameNumber_append_right {a a' b : String} :
    SameNumber (a ++ b) (a' ++ b) ↔ SameNumber a a' := by
  simp only [← definitionId_eq_iff, definitionId_append, UInt64.add_left_inj]

/-! ## Numbers of items -/

/-- The items of a document, in order. -/
def Document.items (d : Document) : List DocumentItem := d.categories.flatMap (·.items)

/-- What the items of some groups are numbered by, in order: the name of the group and that of the
route behind it. -/
def itemNames (groups : List RouteGroup) : List String :=
  groups.flatMap fun g => g.routes.map fun r => g.name ++ r.name

theorem map_id_items (definitions : List Definition) (groups : List RouteGroup) :
    (Document.assemble definitions groups).value.items.map (·.id) =
      (itemNames groups).map definitionId := by
  have hcategories : (Document.assemble definitions groups).value.categories =
      groups.map (·.category) := rfl
  simp [Document.items, hcategories, itemNames, List.flatMap_map, List.map_flatMap,
    RouteGroup.category, RouteGroup.item, Function.comp_def]

theorem nodup_map_definitionId (names : List String) :
    (names.map definitionId).Nodup ↔ names.Pairwise fun n n' => ¬ SameNumber n n' := by
  rw [List.Nodup, List.pairwise_map]
  simp only [ne_eq, definitionId_eq_iff]

/-- Any two items of a document have different numbers exactly if no two names, of the group and the
route, have the same number. In one group it is the names of the routes that have to differ in
number; routes of the same name in two groups have different numbers exactly if the groups have; and
short names have the same number exactly if they have the same length and the same sum of bytes. -/
theorem item_numbers_differ_iff (definitions : List Definition) (groups : List RouteGroup) :
    (((Document.assemble definitions groups).value.items.map (·.id)).Nodup ↔
      (itemNames groups).Pairwise fun n n' => ¬ SameNumber n n') ∧
    (∀ g ∈ groups, (g.category.items.map (·.id)).Nodup ↔
      (g.routes.map (·.name)).Pairwise fun n n' => ¬ SameNumber n n') ∧
    (∀ g ∈ groups, ∀ g' ∈ groups, ∀ r ∈ g.routes, ∀ r' ∈ g'.routes, r.name = r'.name →
      ((g.item r).id = (g'.item r').id ↔ g.category.id = g'.category.id)) ∧
    (∀ n ∈ itemNames groups, ∀ n' ∈ itemNames groups, n.utf8ByteSize < 40 → n'.utf8ByteSize < 40 →
      (SameNumber n n' ↔ n.utf8ByteSize = n'.utf8ByteSize ∧ byteSum n = byteSum n')) := by
  refine ⟨?_, fun g _ => ?_, ?_, fun n _ n' _ => sameNumber_short⟩
  · rw [map_id_items, nodup_map_definitionId]
  · have hids : g.category.items.map (·.id) =
        (g.routes.map fun r => g.name ++ r.name).map definitionId := by
      simp [RouteGroup.category, RouteGroup.item, Function.comp_def]
    rw [hids, nodup_map_definitionId, List.pairwise_map, List.pairwise_map]
    simp only [sameNumber_append_left]
  · intro g _ g' _ r _ r' _ hname
    change definitionId (g.name ++ r.name) = definitionId (g'.name ++ r'.name) ↔
      definitionId g.name = definitionId g'.name
    rw [hname, definitionId_eq_iff, definitionId_eq_iff, sameNumber_append_right]

/-! ## Names with the same number -/

/-- Groups of routes of which only the names are given. -/
def groupsNamed (names : List (String × List String)) : List RouteGroup :=
  names.map fun (name, routes) => ⟨name, "", "", routes.map ({ (default : Route) with name := · })⟩

theorem shop_numbers_differ :
    ((Document.assemble [] (groupsNamed [("CartService", ["list", "add"]),
      ("OrderService", ["list", "add"])])).value.items.map (·.id)).Nodup :=
  (item_numbers_differ_iff [] _).1.2 (by decide +kernel)

/-- Two groups whose names have the same letters. -/
def anagramGroups : List RouteGroup := groupsNamed [("AbService", ["get"]), ("BaService", ["get"])]

theorem anagrams_share_number :
    (anagramGroups.map (·.name)).Nodup ∧
      (∀ g ∈ anagramGroups, (g.routes.map (·.name)).Nodup) ∧
      ¬ ((Document.assemble [] anagramGroups).value.items.map (·.id)).Nodup := by
  decide +kernel

end ApiDecl
