import ApiDecl.Files.Scan
import ApiDecl.Proofs.FileChanges

/-!
# Proofs: searching a tree that has changed

In an ordered tree, putting something into one place exchanges what is found there and leaves the
rest of what is found as it is and where it is. So a file that is written matters to a search only
if it is a declaration file below the directory that is searched (`FileTree.search_putAt_file`).
-/

namespace ApiDecl

/-! ## Lists with one part exchanged -/

section Exchanges

variable {α β : Type} {old new l l' : List α}

/-- The second list is the first one with one part exchanged for another. -/
def Exchanges (old new l l' : List α) : Prop :=
  ∃ before after, l = before ++ old ++ after ∧ l' = before ++ new ++ after

theorem Exchanges.all (old new : List α) : Exchanges old new old new := ⟨[], [], by simp, by simp⟩

theorem Exchanges.within (h : Exchanges old new l l') (before after : List α) :
    Exchanges old new (before ++ l ++ after) (before ++ l' ++ after) := by
  obtain ⟨b, a, rfl, rfl⟩ := h
  exact ⟨before ++ b, a ++ after, by simp, by simp⟩

theorem Exchanges.inside {m m' : List α} (h : Exchanges l l' m m') (hpart : Exchanges old new l l') :
    Exchanges old new m m' := by
  obtain ⟨before, after, rfl, rfl⟩ := h
  exact hpart.within before after

theorem Exchanges.eq (h : Exchanges old old l l') : l' = l := by
  obtain ⟨before, after, rfl, rfl⟩ := h
  rfl

/-- Putting an entry into an ordered list exchanges the entry with its name, if there is one. -/
theorem exchanges_putSorted {entries : List (String × β)}
    (h : (entries.map (·.1)).Pairwise (· < ·)) (name : String) (b : β) :
    Exchanges ((entries.lookup name).toList.map (Prod.mk name)) [(name, b)] entries
      (putSorted (·.1) (name, b) entries) := by
  induction entries with
  | nil => exact .all _ _
  | cons entry rest ih =>
    obtain ⟨k, a⟩ := entry
    obtain ⟨least, hrest⟩ := List.pairwise_cons.1 h
    by_cases hk : k = name
    · subst hk
      rw [putSorted, if_pos rfl, List.lookup_cons_self]
      exact ⟨[], rest, rfl, rfl⟩
    · have hlookup : List.lookup name ((k, a) :: rest) = rest.lookup name := by
        rw [List.lookup_cons, beq_false_of_ne (Ne.symm hk)]
      rw [putSorted, if_neg hk, hlookup]
      split
      · next hlt =>
        -- all names are larger, so the new entry comes first
        have hnone : rest.lookup name = none := by
          rw [List.lookup_eq_none_iff]
          intro entry hentry
          have hname : k < entry.1 := least _ (List.mem_map_of_mem hentry)
          refine bne_iff_ne.2 ?_
          rintro rfl
          exact String.lt_asymm hlt hname
        rw [hnone]
        exact ⟨[], (k, a) :: rest, rfl, rfl⟩
      · simpa using (ih hrest).within [(k, a)] []

end Exchanges

namespace FileTree

/-! ## Ordered trees -/

/-- All directories of a tree are in the order of the names of their entries. -/
inductive Ordered : FileTree → Prop where
  | file (content : ByteArray) : Ordered (file content)
  | directory {entries : List (String × FileTree)}
    (sorted : (entries.map (·.1)).Pairwise (· < ·)) (inner : ∀ entry ∈ entries, entry.2.Ordered) :
    Ordered (directory entries)

theorem ordered_empty : empty.Ordered := .directory .nil nofun

namespace Ordered

variable {t new : FileTree} {place : List String}

theorem sorted {entries : List (String × FileTree)} (h : (FileTree.directory entries).Ordered) :
    (entries.map (·.1)).Pairwise (· < ·) := by
  cases h
  assumption

theorem of_lookup {entries : List (String × FileTree)} (h : (FileTree.directory entries).Ordered)
    {name : String} {inner : FileTree} (hinner : entries.lookup name = some inner) :
    inner.Ordered := by
  cases h with
  | directory sorted hentries => exact hentries (name, inner) (mem_of_lookup hinner)

theorem at? (h : t.Ordered) {inner : FileTree} (hinner : t.at? place = some inner) :
    inner.Ordered := by
  induction place generalizing t with
  | nil =>
    rw [at?_nil] at hinner
    exact Option.some.inj hinner ▸ h
  | cons name place ih =>
    rw [at?_cons] at hinner
    obtain ⟨next, hnext, hrest⟩ := Option.bind_eq_some_iff.1 hinner
    cases t with
    | file content => cases hnext
    | directory entries => exact ih (h.of_lookup hnext) hrest

/-- An ordered tree stays so with an ordered one in one of its places. -/
theorem putAt (h : t.Ordered) (hnew : new.Ordered) (place : List String) :
    (t.putAt new place).Ordered := by
  induction place generalizing t with
  | nil => exact hnew
  | cons name place ih =>
    cases t with
    | file content => exact .file content
    | directory entries =>
      have hinner : ((entries.lookup name).getD empty).Ordered := by
        cases hlookup : entries.lookup name with
        | none => exact ordered_empty
        | some inner => exact h.of_lookup hlookup
      cases h with
      | directory sorted hentries =>
        refine .directory (sorted_putSorted sorted) fun entry hentry => ?_
        rcases mem_putSorted hentry with rfl | hentry
        · exact ih hinner
        · exact hentries entry hentry

/-- Putting into a place what is there changes nothing. -/
theorem putAt_self (h : t.Ordered) {inner : FileTree} (hinner : t.at? place = some inner) :
    t.putAt inner place = t := by
  induction place generalizing t with
  | nil =>
    rw [at?_nil] at hinner
    exact (Option.some.inj hinner).symm
  | cons name place ih =>
    rw [at?_cons] at hinner
    obtain ⟨next, hnext, hrest⟩ := Option.bind_eq_some_iff.1 hinner
    cases t with
    | file content => cases hnext
    | directory entries =>
      have hlookup : entries.lookup name = some next := hnext
      have hsame := ih (h.of_lookup hlookup) hrest
      have hput := exchanges_putSorted h.sorted name next
      rw [hlookup] at hput
      rw [FileTree.putAt, hlookup, Option.getD_some, hsame]
      exact congrArg FileTree.directory hput.eq

end Ordered

/-! ## Searching -/

theorem entryDeclarations_append (path : String) (l l' : List (String × FileTree)) :
    entryDeclarations path (l ++ l') = entryDeclarations path l ++ entryDeclarations path l' := by
  induction l with
  | nil => rw [List.nil_append, entryDeclarations, List.nil_append]
  | cons entry rest ih =>
    rw [List.cons_append, entryDeclarations, entryDeclarations, ih, List.append_assoc]

/-- What a tree adds to the declaration files of a directory in which it has a place. -/
def contribution (t : FileTree) (path : String) : List String → String → List FoundFile
  | [], name => if isSkipped name then [] else t.declarations (Path.join path name) name
  | step :: place, name =>
    if isSkipped step then [] else t.contribution (Path.join path step) place name

theorem contribution_empty (path : String) (place : List String) (name : String) :
    empty.contribution path place name = [] := by
  induction place generalizing path with
  | nil => rw [contribution, empty, declarations, entryDeclarations, ite_self]
  | cons step place ih => rw [contribution, ih, ite_self]

/-- A file is found below a directory if it is a declaration file and nothing on the way to it is
skipped. -/
theorem contribution_file (content : ByteArray) (path : String) (place : List String)
    (name : String) : (file content).contribution path place name =
      if isDeclarationName name = true ∧ ∀ n ∈ place ++ [name], isSkipped n = false then
        [⟨(place ++ [name]).foldl Path.join path, content⟩] else [] := by
  induction place generalizing path with
  | nil =>
    rw [contribution, declarations]
    cases hskipped : isSkipped name <;> cases isDeclarationName name <;> simp [hskipped]
  | cons step place ih =>
    rw [contribution, ih, List.cons_append, List.foldl_cons]
    cases hstep : isSkipped step with
    | false =>
      have hway : (∀ n ∈ step :: (place ++ [name]), isSkipped n = false) ↔
          ∀ n ∈ place ++ [name], isSkipped n = false := by simp [hstep]
      rw [if_neg Bool.false_ne_true]
      exact if_congr (and_congr_right' hway.symm) rfl rfl
    | true =>
      have hway : ¬ ∀ n ∈ step :: (place ++ [name]), isSkipped n = false := by simp [hstep]
      rw [if_pos rfl, if_neg fun h => hway h.2]

theorem entryDeclarations_singleton (path name : String) (t : FileTree) :
    entryDeclarations path [(name, t)] =
      if isSkipped name then [] else t.declarations (Path.join path name) name := by
  rw [entryDeclarations, entryDeclarations, List.append_nil]

/-- With an entry that is put in, the files that are found in it are exchanged. -/
theorem exchanges_entry {entries : List (String × FileTree)}
    (h : (entries.map (·.1)).Pairwise (· < ·)) (path name : String) (t : FileTree) : Exchanges
      (entryDeclarations path ((entries.lookup name).toList.map (Prod.mk name)))
      (entryDeclarations path [(name, t)]) (entryDeclarations path entries)
      (entryDeclarations path (putSorted (·.1) (name, t) entries)) := by
  obtain ⟨before, after, hold, hnew⟩ := exchanges_putSorted h name t
  refine ⟨entryDeclarations path before, entryDeclarations path after, ?_, ?_⟩
  · rw [← entryDeclarations_append, ← entryDeclarations_append, ← hold]
  · rw [← entryDeclarations_append, ← entryDeclarations_append, ← hnew]

/-- What is in a place is exchanged in what is found, and nothing else. -/
theorem exchanges_putAt {entries around : List (String × FileTree)} {place : List String}
    (h : (directory entries).Ordered) (path : String)
    (hat : (directory entries).at? place = some (.directory around)) (name : String)
    (new : FileTree) : ∃ entries', (directory entries).putAt new (place ++ [name]) =
        directory entries' ∧
      Exchanges ((around.lookup name).elim [] fun old => old.contribution path place name)
        (new.contribution path place name) (entryDeclarations path entries)
        (entryDeclarations path entries') := by
  induction place generalizing entries path with
  | nil =>
    rw [at?_nil] at hat
    obtain ⟨rfl⟩ : around = entries := FileTree.directory.inj (Option.some.inj hat).symm
    have hname := exchanges_entry h.sorted path name new
    rw [entryDeclarations_singleton] at hname
    refine ⟨_, rfl, ?_⟩
    cases hlookup : around.lookup name with
    | none =>
      rw [hlookup] at hname
      exact hname
    | some old =>
      rw [hlookup, Option.toList_some, List.map_singleton, entryDeclarations_singleton] at hname
      exact hname
  | cons step place ih =>
    obtain ⟨_, inner, heq, hinner, hplace⟩ := at?_cons_eq_directory hat
    cases heq
    cases inner with
    | file content => cases place <;> simp [at?_cons, child?] at hplace
    | directory inside =>
      obtain ⟨inside', hput, hinside⟩ := ih (h.of_lookup hinner) (Path.join path step) hplace
      have hstep := exchanges_entry h.sorted path step (.directory inside')
      refine ⟨putSorted (·.1) (step, .directory inside') entries, ?_, hstep.inside ?_⟩
      · rw [List.cons_append, putAt, hinner, Option.getD_some, hput]
      · rw [hinner, Option.toList_some, List.map_singleton, entryDeclarations_singleton,
          entryDeclarations_singleton, declarations, declarations]
        cases hskipped : isSkipped step with
        | false => simpa [contribution, hskipped] using hinside
        | true =>
          have hnone : ((around.lookup name).elim [] fun old =>
              old.contribution path (step :: place) name) = [] := by
            cases around.lookup name <;> simp [contribution, hskipped]
          rw [hnone, contribution, if_pos hskipped]
          exact .all _ _

/-! ## Searching below a path -/

/-- What is found below a directory after something is put into a place that was free or had a
file: what is in the place is exchanged if the place is below the directory. -/
theorem search_putAt {t : FileTree} {place root : List String} {around entries : List (String × FileTree)}
    (ht : t.Ordered) (new : FileTree) (name path : String)
    (hat : t.at? place = some (.directory around))
    (hfree : ∀ es, around.lookup name ≠ some (.directory es))
    (hroot : t.at? root = some (.directory entries)) :
    ∃ entries', (t.putAt new (place ++ [name])).at? root = some (.directory entries') ∧
      (entries' = entries ∨ ∃ below, place = root ++ below ∧
        Exchanges ((around.lookup name).elim [] fun old => old.contribution path below name)
          (new.contribution path below name) (entryDeclarations path entries)
          (entryDeclarations path entries')) := by
  by_cases hway : root <+: place
  · obtain ⟨below, rfl⟩ := hway
    have hbelow : (directory entries).at? below = some (.directory around) := by
      rw [at?_append, hroot, Option.bind_some] at hat
      exact hat
    obtain ⟨entries', hput, hexchanges⟩ :=
      exchanges_putAt (ht.at? hroot) path hbelow name new
    refine ⟨entries', ?_, .inr ⟨below, rfl, hexchanges⟩⟩
    rw [List.append_assoc, at?_putAt_above new hroot, hput]
  · have hother : ¬ place ++ [name] <+: root := by
      -- a directory is neither in the place nor below it
      rintro ⟨rest, rfl⟩
      rw [List.append_assoc, List.singleton_append, at?_below hat] at hroot
      obtain ⟨old, hold, hrest⟩ := Option.bind_eq_some_iff.1 hroot
      cases old with
      | directory es => exact hfree es hold
      | file content => cases rest <;> simp [at?_cons, child?] at hrest
    exact ⟨entries, (at?_putAt_beside new hat hother hway).trans hroot, .inl rfl⟩

/-- A declaration file in a directory is found there, if nothing on the way to it is skipped. -/
theorem mem_entryDeclarations {entries : List (String × FileTree)} {place : List String}
    {name : String} {content : ByteArray} (h : (directory entries).Ordered)
    (hfile : (directory entries).at? (place ++ [name]) = some (.file content))
    (hname : isDeclarationName name = true) (hshown : ∀ n ∈ place ++ [name], isSkipped n = false)
    (path : String) : ∃ p, ⟨p, content⟩ ∈ entryDeclarations path entries := by
  have hway := hfile
  rw [at?_append] at hway
  obtain ⟨inner, hinner, hlast⟩ := Option.bind_eq_some_iff.1 hway
  cases inner with
  | file bytes => cases hlast
  | directory around =>
    -- the file is in its place already, so putting it there exchanges it for itself
    obtain ⟨entries', hput, before, after, -, hfound⟩ :=
      exchanges_putAt h path hinner name (.file content)
    rw [h.putAt_self hfile] at hput
    cases hput
    rw [hfound, contribution_file, if_pos ⟨hname, hshown⟩]
    exact ⟨_, List.mem_append_left _ (List.mem_append_right _ (List.mem_singleton_self _))⟩

/-! ## What changes do to a search -/

/-- The second tree has more directories than the first one, and is ordered: nothing more is found
in it. -/
structure Grown (t t' : FileTree) : Prop where
  ordered : t'.Ordered
  changes : ChangesOnly [] t t'
  search : ∀ path root entries, t.at? root = some (.directory entries) →
    ∃ entries', t'.at? root = some (.directory entries') ∧
      entryDeclarations path entries' = entryDeclarations path entries

namespace Grown

variable {t t' t'' : FileTree}

theorem refl (h : t.Ordered) : Grown t t := ⟨h, .refl t, fun _ _ entries he => ⟨entries, he, rfl⟩⟩

theorem trans (h : Grown t t') (h' : Grown t' t'') : Grown t t'' where
  ordered := h'.ordered
  changes := h.changes.trans h'.changes
  search path root entries hroot := by
    obtain ⟨entries', hroot', hsame⟩ := h.search path root entries hroot
    obtain ⟨entries'', hroot'', hsame'⟩ := h'.search path root entries' hroot'
    exact ⟨entries'', hroot'', hsame'.trans hsame⟩

end Grown

section Changes

variable {t t' : FileTree}

theorem makeDirectory_grown (ht : t.Ordered) {path : String} (h : t.makeDirectory path = .ok t') :
    Grown t t' := by
  have hchanges := makeDirectory_changes h
  obtain ⟨before, name, place, around, -, -, hat, -, hnone, rfl⟩ := makeDirectory_eq_ok h
  refine ⟨ht.putAt ordered_empty _, hchanges, fun path root entries hroot => ?_⟩
  obtain ⟨entries', hroot', hsearch⟩ := search_putAt ht empty name path hat
    (by simp [hnone]) hroot
  refine ⟨entries', hroot', ?_⟩
  rcases hsearch with rfl | ⟨below, -, hexchanges⟩
  · rfl
  · -- there was nothing, and there is an empty directory
    rw [hnone, contribution_empty] at hexchanges
    exact hexchanges.eq

theorem makeDirectories_grown (depth : Nat) (ht : t.Ordered) (path : String) :
    Grown t (t.makeDirectories depth path).1 := by
  induction depth generalizing t path with
  | zero => exact .refl ht
  | succ depth ih =>
    unfold makeDirectories
    split
    · exact .refl ht
    · split
      · next t' hmake => exact makeDirectory_grown ht hmake
      · split
        · exact .refl ht
        · next parent _ =>
          have hparent := ih ht parent
          split
          · next t' fault hmade =>
            rw [hmade] at hparent
            exact hparent
          · next t' hmade =>
            rw [hmade] at hparent
            split
            · next t'' hmake => exact hparent.trans (makeDirectory_grown hparent.ordered hmake)
            · exact hparent
      · exact .refl ht

/-- Making directories does not change what is found. -/
theorem createDirectory_grown (ht : t.Ordered) (path : String) :
    Grown t (t.createDirectory path).1 := makeDirectories_grown _ ht path

/-- The second tree is the first one with more directories and a file, in a place where no directory
was. -/
def Written (t t' : FileTree) (place : List String) (name : String) (content : ByteArray) : Prop :=
  ∃ t₁ around, Grown t t₁ ∧ t₁.at? place = some (.directory around) ∧
    (∀ es, around.lookup name ≠ some (.directory es)) ∧
    t' = t₁.putAt (file content) (place ++ [name])

namespace Written

variable {place : List String} {name : String} {content : ByteArray}

theorem ordered (h : Written t t' place name content) : t'.Ordered := by
  obtain ⟨t₁, around, hgrown, -, -, rfl⟩ := h
  exact hgrown.ordered.putAt (.file content) _

theorem changes (h : Written t t' place name content) :
    ChangesOnly [place ++ [name]] t t' := by
  obtain ⟨t₁, around, hgrown, hat, hother, rfl⟩ := h
  exact hgrown.changes.trans (writeFile_putAt content hat hother)

theorem at? (h : Written t t' place name content) :
    t'.at? (place ++ [name]) = some (.file content) := by
  obtain ⟨t₁, around, -, hat, -, rfl⟩ := h
  rw [at?_putAt_below _ hat, at?_nil]

/-- What is found in a directory stays the same, or the written file is a declaration file in it
and takes the place of what was there. -/
theorem search (h : Written t t' place name content) (path : String) {root : List String}
    {entries : List (String × FileTree)} (hroot : t.at? root = some (.directory entries)) :
    ∃ entries', t'.at? root = some (.directory entries') ∧
      (entryDeclarations path entries' = entryDeclarations path entries ∨
        isDeclarationName name = true ∧ ∃ below, place = root ++ below ∧
          (∀ n ∈ below ++ [name], isSkipped n = false) ∧ ∃ (p : String) (old : List ByteArray),
          (∀ bytes ∈ old, t.at? (place ++ [name]) = some (.file bytes)) ∧
          Exchanges (old.map (FoundFile.mk p)) [⟨p, content⟩] (entryDeclarations path entries)
            (entryDeclarations path entries')) := by
  obtain ⟨t₁, around, hgrown, hat, hother, rfl⟩ := h
  obtain ⟨entries₁, hroot₁, hsame⟩ := hgrown.search path root entries hroot
  obtain ⟨entries', hroot', hsearch⟩ :=
    search_putAt hgrown.ordered (file content) name path hat hother hroot₁
  refine ⟨entries', hroot', ?_⟩
  rw [← hsame]
  rcases hsearch with rfl | ⟨below, rfl, hexchanges⟩
  · exact .inl rfl
  · -- there was a file in the place, or nothing
    obtain ⟨old, hold, hcontribution⟩ : ∃ old : List ByteArray,
        (∀ bytes ∈ old, t.at? (root ++ below ++ [name]) = some (.file bytes)) ∧
        ((around.lookup name).elim [] fun found => found.contribution path below name) =
          old.flatMap fun bytes => (file bytes).contribution path below name := by
      cases hlookup : around.lookup name with
      | none => exact ⟨[], nofun, rfl⟩
      | some found =>
        cases found with
        | directory es => exact absurd hlookup (hother es)
        | file bytes =>
          refine ⟨[bytes], fun bytes' hbytes => ?_, by simp⟩
          rw [List.mem_singleton.1 hbytes, ← hgrown.changes.file _ (by simp), at?_snoc hat, hlookup]
    rw [hcontribution, contribution_file] at hexchanges
    simp only [contribution_file] at hexchanges
    by_cases hshown : isDeclarationName name = true ∧ ∀ n ∈ below ++ [name], isSkipped n = false
    · simp only [if_pos hshown] at hexchanges
      rw [← List.map_eq_flatMap] at hexchanges
      exact .inr ⟨hshown.1, below, rfl, hshown.2, _, old, hold, hexchanges⟩
    · simp only [if_neg hshown] at hexchanges
      have hnone : (old.flatMap fun _ => ([] : List FoundFile)) = [] := by simp
      rw [hnone] at hexchanges
      exact .inl hexchanges.eq

end Written

end Changes

end FileTree

end ApiDecl
