/-!
# Lists with keys

A list whose values have different keys is a table. A value that is put into it takes the place of
the one with the same key; a new key goes to the end (`putByKey`) or, in a list that is ordered by
its keys, to its place (`putSorted`). Both add exactly the key of the new value, keep the keys
different, and `putSorted` keeps them in order.
-/

namespace ApiDecl

variable {α : Type} {key : α → String}

/-- Puts a value into a list at the place of the value with the same key, or at the end. -/
def putByKey (key : α → String) (new : α) : List α → List α
  | [] => [new]
  | a :: rest => if key a = key new then new :: rest else a :: putByKey key new rest

/-- Puts a value into a list that is ordered by strictly increasing keys. -/
def putSorted (key : α → String) (new : α) : List α → List α
  | [] => [new]
  | a :: rest =>
    if key a = key new then new :: rest
    else if key new < key a then new :: a :: rest
    else a :: putSorted key new rest

/-- Putting a value in adds its key and no other. -/
theorem mem_map_putByKey {new : α} {l : List α} {k : String} :
    k ∈ (putByKey key new l).map key ↔ k = key new ∨ k ∈ l.map key := by
  induction l with
  | nil => simp [putByKey]
  | cons a rest ih =>
    unfold putByKey
    split
    · next h => simp [h]
    · rw [List.map_cons, List.mem_cons, ih, List.map_cons, List.mem_cons]
      exact or_left_comm

/-- Putting a value in leaves the keys as they are, or puts its key at the end if it is new. -/
theorem map_putByKey (new : α) (l : List α) :
    (putByKey key new l).map key =
      if key new ∈ l.map key then l.map key else l.map key ++ [key new] := by
  induction l with
  | nil => simp [putByKey]
  | cons a rest ih =>
    unfold putByKey
    split
    · next same => simp [same]
    · next other =>
      rw [List.map_cons, ih, List.map_cons]
      by_cases h : key new ∈ rest.map key
      · rw [if_pos h, if_pos (List.mem_cons_of_mem _ h)]
      · have hne : key new ∉ key a :: rest.map key := by simp [Ne.symm other, h]
        rw [if_neg h, if_neg hne, List.cons_append]

/-- Putting a value in keeps the keys different. -/
theorem nodup_map_putByKey {new : α} {l : List α} (h : (l.map key).Nodup) :
    ((putByKey key new l).map key).Nodup := by
  induction l with
  | nil => simp [putByKey]
  | cons a rest ih =>
    obtain ⟨fresh, h⟩ := List.nodup_cons.1 h
    unfold putByKey
    split
    · next same => exact List.nodup_cons.2 ⟨same ▸ fresh, h⟩
    · next other =>
      refine List.nodup_cons.2 ⟨fun found => ?_, ih h⟩
      exact (mem_map_putByKey.1 found).elim other fresh

/-- A value of a list with one put in is the new one or was there before. -/
theorem eq_or_mem_of_mem_putByKey {new a : α} {l : List α} (ha : a ∈ putByKey key new l) :
    a = new ∨ a ∈ l := by
  induction l with
  | nil => simpa [putByKey] using ha
  | cons b rest ih =>
    unfold putByKey at ha
    split at ha
    · exact (List.mem_cons.1 ha).imp_right (List.mem_cons_of_mem _)
    · rcases List.mem_cons.1 ha with rfl | found
      · exact .inr List.mem_cons_self
      · exact (ih found).imp_right (List.mem_cons_of_mem _)

/-- The value that is put in is there. -/
theorem mem_putByKey_self (new : α) (l : List α) : new ∈ putByKey key new l := by
  induction l with
  | nil => exact List.mem_singleton_self new
  | cons b rest ih =>
    unfold putByKey
    split
    · exact List.mem_cons_self
    · exact List.mem_cons_of_mem _ ih

/-- A value with another key stays. -/
theorem mem_putByKey_of_ne {new a : α} {l : List α} (ha : a ∈ l) (hne : key a ≠ key new) :
    a ∈ putByKey key new l := by
  induction l with
  | nil => cases ha
  | cons b rest ih =>
    unfold putByKey
    split
    · next same =>
      rcases List.mem_cons.1 ha with rfl | ha
      · exact absurd same hne
      · exact List.mem_cons_of_mem _ ha
    · rcases List.mem_cons.1 ha with rfl | ha
      · exact List.mem_cons_self
      · exact List.mem_cons_of_mem _ (ih ha)

/-- A value with a new key goes to the end. -/
theorem putByKey_of_new {new : α} {l : List α} (h : key new ∉ l.map key) :
    putByKey key new l = l ++ [new] := by
  induction l with
  | nil => rfl
  | cons a rest ih =>
    obtain ⟨hne, hrest⟩ := not_or.1 fun hmem => h (List.mem_cons.2 hmem)
    rw [putByKey, if_neg (Ne.symm hne), ih hrest, List.cons_append]

/-- Putting values in adds their keys and no others. -/
theorem mem_map_foldl_putByKey {l found : List α} {k : String} :
    k ∈ (l.foldl (fun found a => putByKey key a found) found).map key ↔
      k ∈ l.map key ∨ k ∈ found.map key := by
  induction l generalizing found with
  | nil => simp
  | cons a rest ih =>
    rw [List.foldl_cons, ih, mem_map_putByKey, List.map_cons, List.mem_cons, or_left_comm, or_assoc]

theorem mem_or_mem_of_mem_foldl_putByKey {a : α} {l found : List α}
    (ha : a ∈ l.foldl (fun found a => putByKey key a found) found) : a ∈ l ∨ a ∈ found := by
  induction l generalizing found with
  | nil => exact .inr ha
  | cons b rest ih =>
    rcases ih ha with ha | ha
    · exact .inl (List.mem_cons_of_mem _ ha)
    · rcases eq_or_mem_of_mem_putByKey ha with rfl | ha
      · exact .inl List.mem_cons_self
      · exact .inr ha

/-- Values with different new keys go to the end, in order. -/
theorem foldl_putByKey {l found : List α} (h : ((found ++ l).map key).Nodup) :
    l.foldl (fun found a => putByKey key a found) found = found ++ l := by
  induction l generalizing found with
  | nil => rw [List.foldl_nil, List.append_nil]
  | cons a rest ih =>
    have hsplit : found ++ a :: rest = found ++ [a] ++ rest := by simp
    have hnew : key a ∉ found.map key := by
      rw [List.map_append, List.map_cons] at h
      exact fun hmem => (List.nodup_append.1 h).2.2 _ hmem _ List.mem_cons_self rfl
    rw [List.foldl_cons, putByKey_of_new hnew, ih (hsplit ▸ h), hsplit]

/-- In a list with different keys, a value that is put in is the only one of its key. -/
theorem mem_putByKey {new a : α} {l : List α} (h : (l.map key).Nodup) (ha : a ∈ putByKey key new l) :
    a = new ∨ (a ∈ l ∧ key a ≠ key new) := by
  induction l with
  | nil => simpa [putByKey] using ha
  | cons b rest ih =>
    obtain ⟨fresh, h⟩ := List.nodup_cons.1 h
    unfold putByKey at ha
    split at ha
    · next same =>
      refine (List.mem_cons.1 ha).imp_right fun found => ⟨List.mem_cons_of_mem _ found, fun e => ?_⟩
      exact fresh (List.mem_map.2 ⟨a, found, e.trans same.symm⟩)
    · next other =>
      rcases List.mem_cons.1 ha with rfl | found
      · exact .inr ⟨List.mem_cons_self, other⟩
      · exact (ih h found).imp_right fun ⟨found, ne⟩ => ⟨List.mem_cons_of_mem _ found, ne⟩

/-- Putting a value into an ordered list adds its key and no other. -/
theorem mem_map_putSorted {new : α} {l : List α} {k : String} :
    k ∈ (putSorted key new l).map key ↔ k = key new ∨ k ∈ l.map key := by
  induction l with
  | nil => simp [putSorted]
  | cons a rest ih =>
    unfold putSorted
    split
    · next h => simp [h]
    · split
      · simp
      · rw [List.map_cons, List.mem_cons, ih, List.map_cons, List.mem_cons]
        exact or_left_comm

/-- A value of a list with one put in is the new one or was there before. -/
theorem mem_putSorted {new a : α} {l : List α} (ha : a ∈ putSorted key new l) :
    a = new ∨ a ∈ l := by
  induction l with
  | nil => simpa [putSorted] using ha
  | cons b rest ih =>
    unfold putSorted at ha
    split at ha
    · exact (List.mem_cons.1 ha).imp_right (List.mem_cons_of_mem _)
    · split at ha
      · exact List.mem_cons.1 ha
      · rcases List.mem_cons.1 ha with rfl | found
        · exact .inr List.mem_cons_self
        · exact (ih found).imp_right (List.mem_cons_of_mem _)

/-- A value with a new key goes somewhere between the others. -/
theorem putSorted_eq_append {new : α} {l : List α} (h : key new ∉ l.map key) :
    ∃ l₁ l₂, l = l₁ ++ l₂ ∧ putSorted key new l = l₁ ++ new :: l₂ := by
  induction l with
  | nil => exact ⟨[], [], rfl, rfl⟩
  | cons a rest ih =>
    obtain ⟨hne, hrest⟩ := not_or.1 fun hmem => h (List.mem_cons.2 hmem)
    unfold putSorted
    rw [if_neg (Ne.symm hne)]
    split
    · exact ⟨[], a :: rest, rfl, rfl⟩
    · obtain ⟨l₁, l₂, hl, hput⟩ := ih hrest
      exact ⟨a :: l₁, l₂, congrArg (a :: ·) hl, congrArg (a :: ·) hput⟩

/-- Putting a value into an ordered list keeps it ordered. -/
theorem sorted_putSorted {new : α} {l : List α} (h : (l.map key).Pairwise (· < ·)) :
    ((putSorted key new l).map key).Pairwise (· < ·) := by
  induction l with
  | nil => simp [putSorted]
  | cons a rest ih =>
    obtain ⟨least, h⟩ := List.pairwise_cons.1 h
    unfold putSorted
    split
    · next same => exact List.pairwise_cons.2 ⟨same ▸ least, h⟩
    · next other =>
      split
      · next less =>
        refine List.pairwise_cons.2 ⟨fun k found => ?_, List.pairwise_cons.2 ⟨least, h⟩⟩
        rcases List.mem_cons.1 found with rfl | found
        · exact less
        · exact String.lt_trans less (least k found)
      · next notLess =>
        refine List.pairwise_cons.2 ⟨fun k found => ?_, ih h⟩
        rcases mem_map_putSorted.1 found with rfl | found
        · exact Std.lt_of_le_of_ne (String.not_lt.1 notLess) other
        · exact least k found

/-- A key is looked up in the list with a value put in as if it were put in front. -/
theorem find?_putSorted (new : α) (l : List α) (k : String) :
    (putSorted key new l).find? (fun a => key a == k) =
      if key new = k then some new else l.find? fun a => key a == k := by
  induction l with
  | nil => by_cases h : key new = k <;> simp [putSorted, h]
  | cons a rest ih =>
    unfold putSorted
    split
    · next same => by_cases h : key new = k <;> simp [h, same]
    · next other =>
      split
      · by_cases h : key new = k <;> simp [h]
      · rw [List.find?_cons, List.find?_cons, ih]
        by_cases h : key a = k
        · have hne : key new ≠ k := fun hn => other (h.trans hn.symm)
          simp [h, hne]
        · have hne : (key a == k) = false := by simpa using h
          simp only [hne]

/-- A value whose key is smaller than the first one goes to the front. -/
theorem putSorted_front {new a : α} (rest : List α) (h : key new < key a) :
    putSorted key new (a :: rest) = new :: a :: rest := by
  have hne : key a ≠ key new := fun heq => String.lt_irrefl _ (heq ▸ h)
  rw [putSorted, if_neg hne, if_pos h]

/-- A value whose key is larger than the first one goes behind it. -/
theorem putSorted_behind {new a : α} (rest : List α) (h : key a < key new) :
    putSorted key new (a :: rest) = a :: putSorted key new rest := by
  have hne : key a ≠ key new := fun heq => String.lt_irrefl _ (heq ▸ h)
  rw [putSorted, if_neg hne, if_neg (String.lt_asymm h)]

/-- A value whose key is larger than all others goes to the end. -/
theorem putSorted_last {new : α} {l : List α} (h : ∀ a ∈ l, key a < key new) :
    putSorted key new l = l ++ [new] := by
  induction l with
  | nil => rfl
  | cons a rest ih =>
    rw [putSorted_behind rest (h a List.mem_cons_self),
      ih fun b hb => h b (List.mem_cons_of_mem _ hb), List.cons_append]

theorem putSorted_comm_of_lt {a b : α} (h : key a < key b) (l : List α) :
    putSorted key a (putSorted key b l) = putSorted key b (putSorted key a l) := by
  induction l with
  | nil =>
    rw [putSorted, putSorted, putSorted_front [] h, putSorted_behind [] h, putSorted]
  | cons x rest ih =>
    by_cases hxa : key x = key a
    · have hxb : key x < key b := hxa ▸ h
      rw [putSorted_behind rest hxb, putSorted, if_pos hxa, putSorted, if_pos hxa,
        putSorted_behind rest h]
    by_cases hlt : key a < key x
    · rw [putSorted_front rest hlt, putSorted_behind (x :: rest) h]
      -- the first key of the list with `b` put in is that of `b` or of `x`
      rw [putSorted]
      split
      · exact putSorted_front rest h
      · split
        · exact putSorted_front (x :: rest) h
        · exact putSorted_front _ hlt
    · have hxa' : key x < key a := Std.lt_of_le_of_ne (String.not_lt.1 hlt) hxa
      have hxb : key x < key b := String.lt_trans hxa' h
      rw [putSorted_behind rest hxb, putSorted_behind _ hxa', putSorted_behind rest hxa',
        putSorted_behind _ hxb, ih]

/-- Values with different keys may be put in one after the other in both orders. -/
theorem putSorted_comm {a b : α} (h : key a ≠ key b) (l : List α) :
    putSorted key a (putSorted key b l) = putSorted key b (putSorted key a l) := by
  by_cases hlt : key a < key b
  · exact putSorted_comm_of_lt hlt l
  · have hgt : key b < key a := Std.lt_of_le_of_ne (String.not_lt.1 hlt) (Ne.symm h)
    exact (putSorted_comm_of_lt hgt l).symm

/-! ## Looking up -/

section Lookup

variable {β : Type} {l : List (String × β)} {k : String} {b : β}

theorem mem_of_lookup (h : l.lookup k = some b) : (k, b) ∈ l := by
  obtain ⟨before, behind, rfl, -⟩ := List.lookup_eq_some_iff.1 h
  exact List.mem_append_right before List.mem_cons_self

/-- In a list with different keys, every value is found by its key. -/
theorem lookup_of_mem (hnd : (l.map (·.1)).Nodup) (h : (k, b) ∈ l) : l.lookup k = some b := by
  induction l with
  | nil => cases h
  | cons p rest ih =>
    obtain ⟨hfresh, hnd⟩ := List.nodup_cons.1 hnd
    rcases List.mem_cons.1 h with rfl | h
    · exact List.lookup_cons_self
    · have hne : k ≠ p.1 := by
        rintro rfl
        exact hfresh (List.mem_map.2 ⟨_, h, rfl⟩)
      rw [List.lookup_cons, beq_false_of_ne hne]
      exact ih hnd h

end Lookup

/-- Names in order are different. -/
theorem nodup_of_sorted {names : List String} (h : names.Pairwise (· < ·)) : names.Nodup := by
  refine h.imp ?_
  rintro name _ hlt rfl
  exact String.lt_irrefl name hlt

end ApiDecl
