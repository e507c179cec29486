import ApiDecl.Compilation
import ApiDecl.Proofs.Scanning
import Mathlib.Data.List.Sort

/-!
# Proofs: which files are found

A directory is searched for its declaration files: the files below it whose name ends in `.rs`, with
something in front of it, and no name on the way to which starts with a dot or is `target`
(`FileTree.IsDeclaration`). All of them are found and nothing else is, each once, in the order of
the components of their paths, and nothing is reported but their number (`FileTree.scan_finds`). So
a compilation depends on these files alone.
-/

namespace ApiDecl

namespace Path

/-! ## Extensions -/

theorem extension?_of_no_dot {name : String} (h : '.' ∉ name.toList) : extension? name = none := by
  rw [extension?, Text.splitOn_of_not_mem h]
  rfl

/-- The extension is what follows the last dot, if there is something in front of it. -/
theorem extension?_of_dot (front : String) {last : String} (h : '.' ∉ last.toList) :
    extension? (front ++ "." ++ last) = if front = "" then none else some last := by
  by_cases hfront : front = ""
  · subst hfront
    have hpieces : Text.splitOn '.' ("" ++ "." ++ last) = ["", last] := by
      rw [show "." = String.singleton '.' from rfl, Text.splitOn_append, Text.splitOn_of_not_mem h]
      rfl
    rw [extension?, hpieces]
    rfl
  · obtain ⟨piece, pieces, hpieces⟩ : ∃ piece pieces,
        (Text.splitOn '.' front).reverse = piece :: pieces :=
      List.exists_cons_of_ne_nil (mt List.reverse_eq_nil_iff.1 (Text.splitOn_ne_nil '.' front))
    have hne : piece :: pieces ≠ [""] := fun heq =>
      hfront (Text.splitOn_eq_empty (List.reverse_eq_iff.1 (hpieces.trans heq)))
    rw [extension?, show "." = String.singleton '.' from rfl, Text.splitOn_append,
      Text.splitOn_of_not_mem h, List.reverse_append, hpieces, List.reverse_singleton,
      List.singleton_append, if_neg hfront]
    split
    · next heq => cases heq
    · next heq => cases heq
    · next heq => exact absurd (List.cons.inj heq).2 hne
    · next heq => rw [(List.cons.inj heq).1]

/-! ## Components -/

instance (name : String) : Decidable (IsName name) :=
  decidable_of_iff ('/' ∉ name.toList ∧ name ≠ "" ∧ name ≠ here ∧ name ≠ above)
    ⟨fun ⟨hslash, hempty, hhere, habove⟩ => ⟨hslash, hempty, hhere, habove⟩,
      fun h => ⟨h.no_slash, h.ne_empty, h.ne_here, h.ne_above⟩⟩

/-- With another step, a path has one more component, unless the step leads nowhere. -/
theorem components_of_splitOn {path base last : String}
    (h : Text.splitOn '/' path = Text.splitOn '/' base ++ [last]) :
    components path = (if base = "" then ["/"] else components base) ++
      [last].filter fun s => s ≠ "" ∧ s ≠ here := by
  obtain ⟨first, rest, hbase⟩ := List.exists_cons_of_ne_nil (Text.splitOn_ne_nil '/' base)
  have hpath : path ≠ "" := by
    rintro rfl
    have hlength := congrArg List.length h
    rw [hbase] at hlength
    simp [Text.splitOn, Text.splitWhere] at hlength
  rw [components, h, hbase, List.cons_append]
  dsimp only
  rw [List.filter_append, if_neg hpath]
  by_cases hempty : base = ""
  · subst hempty
    obtain ⟨rfl, rfl⟩ := List.cons.inj (hbase.symm.trans (rfl : Text.splitOn '/' "" = [""]))
    rfl
  · rw [if_neg hempty, components, hbase]
    dsimp only
    rw [if_neg hempty]
    split <;> rfl

/-- An entry of a directory is one component further. -/
theorem components_join {base name : String} (hbase : base ≠ "") (hname : IsName name) :
    components (join base name) = components base ++ [name] := by
  have hstep : [name].filter (fun s => s ≠ "" ∧ s ≠ here) = [name] := by
    simp [hname.ne_empty, hname.ne_here]
  rcases join_cases hbase name with ⟨front, rfl, hjoin⟩ | hjoin
  · rw [hjoin, components_of_splitOn (splitOn_slash hname front),
      components_of_splitOn (splitOn_slash_end front), hstep]
    simp
  · rw [hjoin, components_of_splitOn (splitOn_slash hname base), if_neg hbase, hstep]

theorem isAbsolute_append {front : String} (hfront : front ≠ "") (behind : String) :
    isAbsolute (front ++ behind) = isAbsolute front := by
  have hne : front.toList ≠ [] := by simpa using hfront
  rw [isAbsolute, String.toList_append, List.head?_append_of_ne_nil _ hne, isAbsolute]

theorem join_ne_empty {base name : String} (hname : IsName name) : join base name ≠ "" := by
  by_cases hbase : base = ""
  · rw [join, if_pos hbase]
    exact hname.ne_empty
  · intro h
    have hlength := congrArg String.length h
    rcases join_cases hbase name with ⟨front, -, hjoin⟩ | hjoin <;>
      simp [hjoin] at hlength

/-- The components of what is found below a path are those of the path and the names on the way. -/
theorem components_foldl_join {base : String} {place : List String} (hbase : base ≠ "")
    (hplace : ∀ name ∈ place, IsName name) :
    components (place.foldl join base) = components base ++ place := by
  induction place generalizing base with
  | nil => rw [List.foldl_nil, List.append_nil]
  | cons name place ih =>
    obtain ⟨hname, hplace⟩ := List.forall_mem_cons.1 hplace
    rw [List.foldl_cons, ih (join_ne_empty hname) hplace, components_join hbase hname,
      List.append_assoc, List.singleton_append]

end Path

/-- A declaration file is called some text with `.rs` behind it. -/
theorem isDeclarationName_iff {name : String} :
    isDeclarationName name = true ↔ ∃ stem, stem ≠ "" ∧ name = stem ++ ".rs" := by
  have hdot : '.' ∉ "rs".toList := by decide
  rw [isDeclarationName, beq_iff_eq]
  constructor
  · intro h
    by_cases hmem : '.' ∈ name.toList
    · -- cut at the last dot
      obtain ⟨last, front, hcut, hlast⟩ := List.eq_append_cons_of_mem (List.mem_reverse.2 hmem)
      have hname : name = String.ofList front.reverse ++ "." ++ String.ofList last.reverse := by
        apply String.toList_injective
        have hback := congrArg List.reverse hcut
        simpa using hback
      have hlast : '.' ∉ (String.ofList last.reverse).toList := by simpa using hlast
      rw [hname, Path.extension?_of_dot _ hlast] at h
      split at h
      · cases h
      · next hfront =>
        refine ⟨_, hfront, ?_⟩
        rw [hname, Option.some.inj h, declarationExtension, String.append_assoc]
        rfl
    · rw [Path.extension?_of_no_dot hmem] at h
      cases h
  · rintro ⟨stem, hstem, rfl⟩
    have hname : stem ++ ".rs" = stem ++ "." ++ "rs" := by
      rw [String.append_assoc]
      rfl
    rw [hname, Path.extension?_of_dot stem hdot, if_neg hstem]
    rfl

namespace FileTree

/-! ## Trees -/

/-- The entries of all directories of a tree have names. -/
inductive Named : FileTree → Prop where
  | file (content : ByteArray) : Named (file content)
  | directory {entries : List (String × FileTree)} (names : ∀ entry ∈ entries, Path.IsName entry.1)
    (inner : ∀ entry ∈ entries, entry.2.Named) : Named (directory entries)

theorem Named.entries {entries : List (String × FileTree)}
    (h : (FileTree.directory entries).Named) :
    (∀ entry ∈ entries, Path.IsName entry.1) ∧ ∀ entry ∈ entries, entry.2.Named := by
  cases h with
  | directory names inner => exact ⟨names, inner⟩

theorem Named.of_at? {t inner : FileTree} {place : List String} (h : t.Named)
    (hat : t.at? place = some inner) : (∀ name ∈ place, Path.IsName name) ∧ inner.Named := by
  induction place generalizing t with
  | nil =>
    rw [at?_nil] at hat
    exact ⟨List.forall_mem_nil _, Option.some.inj hat ▸ h⟩
  | cons name place ih =>
    rw [at?_cons] at hat
    obtain ⟨next, hnext, hrest⟩ := Option.bind_eq_some_iff.1 hat
    cases h with
    | file content => cases hnext
    | @directory entries names hinner =>
      have hentry : (name, next) ∈ entries := mem_of_lookup hnext
      obtain ⟨hplace, hfound⟩ := ih (hinner _ hentry) hrest
      exact ⟨List.forall_mem_cons.2 ⟨names _ hentry, hplace⟩, hfound⟩

/-- There is a declaration file with this content at this place of the directory. -/
structure IsDeclaration (root : FileTree) (place : List String) (content : ByteArray) : Prop where
  file : root.at? place = some (.file content)
  name : ∃ stem, stem ≠ "" ∧ place.getLast? = some (stem ++ ".rs")
  shown : ∀ name ∈ place, name.toList.head? ≠ some '.' ∧ name ≠ "target"

/-! ## What is found -/

theorem isSkipped_eq_false {name : String} :
    isSkipped name = false ↔ name.toList.head? ≠ some '.' ∧ name ≠ "target" := by
  simp [isSkipped, buildDirectoryName]

theorem entryDeclarations_eq (path : String) (entries : List (String × FileTree)) :
    entryDeclarations path entries = entries.flatMap fun entry =>
      if isSkipped entry.1 then []
      else entry.2.declarations (Path.join path entry.1) entry.1 := by
  induction entries with
  | nil => rw [entryDeclarations, List.flatMap_nil]
  | cons entry rest ih =>
    obtain ⟨name, inner⟩ := entry
    rw [entryDeclarations, List.flatMap_cons, ih]

theorem mem_entryDeclarations_iff {path : String} {entries : List (String × FileTree)}
    {f : FoundFile} : f ∈ entryDeclarations path entries ↔
      ∃ name inner, (name, inner) ∈ entries ∧ isSkipped name = false ∧
        f ∈ inner.declarations (Path.join path name) name := by
  rw [entryDeclarations_eq, List.mem_flatMap]
  constructor
  · rintro ⟨⟨name, inner⟩, hentry, hf⟩
    split at hf
    · cases hf
    · next hshown => exact ⟨name, inner, hentry, by simpa using hshown, hf⟩
  · rintro ⟨name, inner, hentry, hshown, hf⟩
    exact ⟨(name, inner), hentry, by rwa [if_neg (by simp [hshown])]⟩

/-- What is found in an entry are the declaration files at places that nothing on the way to is
skipped. -/
theorem Ordered.mem_declarations {t : FileTree} (h : t.Ordered) {path name : String}
    {f : FoundFile} : f ∈ t.declarations path name ↔
      ∃ place, t.at? place = some (.file f.content) ∧ f.path = place.foldl Path.join path ∧
        isDeclarationName ((name :: place).getLast (List.cons_ne_nil _ _)) = true ∧
        ∀ n ∈ place, isSkipped n = false := by
  induction h generalizing path name with
  | file content =>
    rw [declarations]
    constructor
    · intro hf
      split at hf
      · next hname =>
        rw [List.mem_singleton.1 hf]
        exact ⟨[], rfl, rfl, hname, List.forall_mem_nil _⟩
      · cases hf
    · rintro ⟨place, hat, hpath, hname, -⟩
      cases place with
      | nil =>
        obtain ⟨p, c⟩ := f
        cases hat
        cases hpath
        rw [if_pos (by exact hname)]
        exact List.mem_singleton_self _
      | cons n place =>
        rw [at?_file] at hat
        cases hat
  | @directory entries sorted _ ih =>
    rw [declarations, mem_entryDeclarations_iff]
    constructor
    · rintro ⟨n, inner, hentry, hshown, hf⟩
      obtain ⟨place, hat, hpath, hname, hplace⟩ := (ih _ hentry).1 hf
      refine ⟨n :: place, ?_, hpath, hname, List.forall_mem_cons.2 ⟨hshown, hplace⟩⟩
      have hlookup : entries.lookup n = some inner := lookup_of_mem (nodup_of_sorted sorted) hentry
      rw [at?_cons, child?, hlookup]
      exact hat
    · rintro ⟨place, hat, hpath, hname, hshown⟩
      cases place with
      | nil => cases hat
      | cons n place =>
        obtain ⟨hn, hplace⟩ := List.forall_mem_cons.1 hshown
        rw [at?_cons, child?] at hat
        obtain ⟨inner, hlookup, hat⟩ := Option.bind_eq_some_iff.1 hat
        have hentry : (n, inner) ∈ entries := mem_of_lookup hlookup
        exact ⟨n, inner, hentry, hn, (ih _ hentry).2 ⟨place, hat, hpath, hname, hplace⟩⟩

/-- Below a directory, exactly its declaration files are found, by their paths. -/
theorem mem_entryDeclarations_iff_isDeclaration {entries : List (String × FileTree)}
    (h : (directory entries).Ordered) {path : String} {f : FoundFile} :
    f ∈ entryDeclarations path entries ↔ ∃ place,
      (directory entries).IsDeclaration place f.content ∧ f.path = place.foldl Path.join path := by
  have hmem : f ∈ (directory entries).declarations path "" ↔ _ := h.mem_declarations
  rw [declarations] at hmem
  rw [hmem]
  constructor
  · rintro ⟨place, hat, hpath, hname, hshown⟩
    refine ⟨place, ⟨hat, ?_, fun n hn => isSkipped_eq_false.1 (hshown n hn)⟩, hpath⟩
    cases place with
    | nil => cases hat
    | cons n place =>
      obtain ⟨stem, hstem, hlast⟩ := isDeclarationName_iff.1 hname
      refine ⟨stem, hstem, ?_⟩
      rw [List.getLast_cons (List.cons_ne_nil _ _)] at hlast
      rw [List.getLast?_eq_getLast_of_ne_nil (List.cons_ne_nil _ _), hlast]
  · rintro ⟨place, hplace, hpath⟩
    obtain ⟨stem, hstem, hlast⟩ := hplace.name
    refine ⟨place, hplace.file, hpath, ?_, fun n hn => isSkipped_eq_false.2 (hplace.shown n hn)⟩
    obtain ⟨front, rfl⟩ := List.getLast?_eq_some_iff.1 hlast
    simp only [← List.cons_append, List.getLast_concat]
    exact isDeclarationName_iff.2 ⟨stem, hstem, rfl⟩

/-! ## The order of what is found -/

/-- The path of the first file comes first, component by component. -/
def Precedes (f g : FoundFile) : Prop := Path.components f.path < Path.components g.path

/-- What is found comes in the order of the paths, each path once. -/
theorem pairwise_declarations {t : FileTree} (h : t.Ordered) (hn : t.Named) {path : String}
    (hpath : path ≠ "") (name : String) : (t.declarations path name).Pairwise Precedes := by
  induction h generalizing path name with
  | file content =>
    rw [declarations]
    split
    · exact List.pairwise_singleton _ _
    · exact .nil
  | @directory entries sorted hordered ih =>
    obtain ⟨hnames, hnamed⟩ := hn.entries
    rw [declarations, entryDeclarations_eq, List.pairwise_flatMap]
    constructor
    · intro entry hentry
      split
      · exact .nil
      · exact ih entry hentry (hnamed entry hentry) (Path.join_ne_empty (hnames entry hentry)) _
    · refine (List.pairwise_map.1 sorted).imp_of_mem ?_
      -- files in different entries differ in the component behind those of the directory
      have hcomponents : ∀ entry ∈ entries, ∀ f ∈ (if isSkipped entry.1 then [] else
          entry.2.declarations (Path.join path entry.1) entry.1),
          ∃ place, Path.components f.path = Path.components path ++ entry.1 :: place := by
        intro entry hentry f hf
        split at hf
        · cases hf
        · obtain ⟨place, hat, hfile, -⟩ := (hordered entry hentry).mem_declarations.1 hf
          refine ⟨place, ?_⟩
          rw [hfile, Path.components_foldl_join (Path.join_ne_empty (hnames entry hentry))
            ((hnamed entry hentry).of_at? hat).1, Path.components_join hpath (hnames entry hentry),
            List.append_assoc, List.singleton_append]
      intro entry entry' hentry hentry' hlt f hf g hg
      obtain ⟨place, hplace⟩ := hcomponents entry hentry f hf
      obtain ⟨place', hplace'⟩ := hcomponents entry' hentry' g hg
      rw [Precedes, hplace, hplace']
      exact List.append_left_lt (List.cons_lt_cons_iff.2 (.inl hlt))

theorem Precedes.irrefl (f : FoundFile) : ¬ Precedes f f := List.lt_irrefl _

instance : Std.Irrefl Precedes := ⟨Precedes.irrefl⟩

instance : Std.Antisymm Precedes :=
  ⟨fun _ _ h h' => absurd h' (List.lt_asymm h)⟩

/-! ## Paths to what is found -/

section Paths

variable {t : FileTree} {base : String} {place : List String}

theorem follow_here {around : List String} (h : t.follow around [Path.here] = .ok place) :
    around = place := by
  rw [follow] at h
  split at h
  · cases h
  · cases h
  · rw [if_pos rfl, follow] at h
    exact Except.ok.inj h

theorem place?_of_find? {inner : FileTree} (h : t.find? base = some inner) :
    ∃ place, t.place? base = .ok place ∧ t.at? place = some inner := by
  rw [find?] at h
  split at h
  · next place hplace => exact ⟨place, hplace, h⟩
  · cases h

/-- The path of an entry leads to the entry. -/
theorem place?_join {entries : List (String × FileTree)} {name : String}
    (hbase : t.place? base = .ok place) (hat : t.at? place = some (.directory entries))
    (hname : Path.IsName name) (hentry : (entries.lookup name).isSome) :
    t.place? (Path.join base name) = .ok (place ++ [name]) := by
  obtain ⟨hne, habsolute, hfollow⟩ := follow_of_place? hbase
  have hstep : t.follow place [name] = .ok (place ++ [name]) := by
    obtain ⟨inner, hinner⟩ := Option.isSome_iff_exists.1 hentry
    exact follow_name hname ((at?_snoc hat name).trans hinner) hat
  rcases Path.join_cases hne name with ⟨front, rfl, hjoin⟩ | hjoin
  · -- the step behind the slash stays where it is
    have hfront : t.follow [] (Path.steps front) = .ok place := by
      rw [Path.steps_slash_end, follow_append] at hfollow
      cases haround : t.follow [] (Path.steps front) with
      | error fault =>
        rw [haround] at hfollow
        cases hfollow
      | ok around =>
        rw [haround] at hfollow
        exact follow_here hfollow ▸ rfl
    rw [place?, hjoin, if_neg, Path.steps_name hname, follow_append, hfront]
    · exact hstep
    · rw [Path.isAbsolute_append hne]
      simp [habsolute]
  · rw [place?, hjoin, if_neg, Path.steps_name hname, follow_append, hfollow]
    · exact hstep
    · rw [String.append_assoc, Path.isAbsolute_append hne]
      simp [habsolute, hne]

/-- A path that goes on with the names on the way to a place leads to what is in the place. -/
theorem find?_foldl_join {inner found : FileTree} {below : List String} (hn : inner.Named)
    (hbase : t.find? base = some inner) (hat : inner.at? below = some found) :
    t.find? (below.foldl Path.join base) = some found := by
  induction below generalizing base inner with
  | nil => rwa [at?_nil, ← hbase] at hat
  | cons name below ih =>
    rw [at?_cons] at hat
    obtain ⟨next, hnext, hrest⟩ := Option.bind_eq_some_iff.1 hat
    cases inner with
    | file content => cases hnext
    | directory entries =>
      obtain ⟨hnames, hnamed⟩ := hn.entries
      have hentry : (name, next) ∈ entries := mem_of_lookup hnext
      have hlookup : entries.lookup name = some next := hnext
      obtain ⟨place, hplace, hdirectory⟩ := place?_of_find? hbase
      refine ih (hnamed _ hentry) ?_ hrest
      rw [find?, place?_join hplace hdirectory (hnames _ hentry) (hlookup ▸ rfl)]
      exact (at?_snoc hdirectory name).trans hlookup

end Paths

/-! ## What a search gives -/

/-- Two directories with the same declaration files give the same. -/
theorem entryDeclarations_congr {path : String} (hpath : path ≠ "")
    {entries entries' : List (String × FileTree)} (h : (directory entries).Ordered)
    (h' : (directory entries').Ordered) (hn : (directory entries).Named)
    (hn' : (directory entries').Named)
    (hsame : ∀ place content, (directory entries').IsDeclaration place content ↔
      (directory entries).IsDeclaration place content) :
    entryDeclarations path entries' = entryDeclarations path entries := by
  have hsorted := pairwise_declarations h hn hpath ""
  have hsorted' := pairwise_declarations h' hn' hpath ""
  rw [declarations] at hsorted hsorted'
  refine hsorted'.eq_of_mem_iff hsorted fun {f} => ?_
  rw [mem_entryDeclarations_iff_isDeclaration h', mem_entryDeclarations_iff_isDeclaration h]
  exact exists_congr fun place => and_congr_left' (hsame place f.content)

/-- Searching a directory finds all its declaration files and nothing else, each once, in the order
of their paths, reports nothing but their number, and a compilation does not depend on any other
file. -/
theorem scan_finds (t : FileTree) (path : String) (entries : List (String × FileTree))
    (ht : t.Ordered) (hn : t.Named) (hroot : t.find? path = some (directory entries)) :
    ∃ found : List FoundFile,
      (t.scan path).outcome = (.ok found, [.scanDone path found.length]) ∧
      found.Pairwise Precedes ∧
      (∀ f, f ∈ found ↔ ∃ place,
        (directory entries).IsDeclaration place f.content ∧ f.path = place.foldl Path.join path) ∧
      (∀ f ∈ found, t.find? f.path = some (file f.content)) ∧
      ∀ t' entries', t'.Ordered → t'.Named → t'.find? path = some (directory entries') →
        (∀ place content, (directory entries').IsDeclaration place content ↔
          (directory entries).IsDeclaration place content) →
        compileDirectory t' path = compileDirectory t path := by
  obtain ⟨place, hplace, hat⟩ := place?_of_find? hroot
  have hpath : path ≠ "" := (follow_of_place? hplace).1
  have hordered : (directory entries).Ordered := ht.at? hat
  have hnamed : (directory entries).Named := (hn.of_at? hat).2
  refine ⟨entryDeclarations path entries, ?_, ?_,
    fun f => mem_entryDeclarations_iff_isDeclaration hordered, ?_, ?_⟩
  · rw [scan, hroot]
    rfl
  · have hsorted := pairwise_declarations hordered hnamed hpath ""
    rwa [declarations] at hsorted
  · intro f hf
    obtain ⟨below, hbelow, hfile⟩ := (mem_entryDeclarations_iff_isDeclaration hordered).1 hf
    rw [hfile]
    exact find?_foldl_join hnamed hroot hbelow.file
  · intro t' entries' ht' hn' hroot' hsame
    obtain ⟨place', -, hat'⟩ := place?_of_find? hroot'
    have hfound := entryDeclarations_congr hpath hordered (ht'.at? hat') hnamed (hn'.of_at? hat').2
      hsame
    rw [compileDirectory, compileDirectory, hroot, hroot', compileFound, compileFound, scanFound,
      scanFound, hfound]

/-- A directory with two declaration files, among hidden files, other files and build results. -/
def crowded : List (String × FileTree) :=
  [(".git", directory [("c.rs", file .empty)]), ("a", directory [("b.rs", file .empty)]),
    ("a.rs", file .empty), ("notes.md", file .empty), ("target", directory [("d.rs", file .empty)])]

theorem crowded_ordered : (directory [("proto", directory crowded)]).Ordered := by
  have hsingle : ∀ name, (directory [(name, file .empty)]).Ordered := fun name =>
    .directory (List.pairwise_singleton _ _) (by simpa using .file _)
  refine .directory (List.pairwise_singleton _ _) ?_
  simp only [List.forall_mem_singleton]
  refine .directory (by decide) ?_
  simp only [crowded, List.forall_mem_cons]
  exact ⟨hsingle _, hsingle _, .file _, .file _, hsingle _, List.forall_mem_nil _⟩

theorem crowded_named : (directory [("proto", directory crowded)]).Named := by
  have hsingle : ∀ name, Path.IsName name → (directory [(name, file .empty)]).Named :=
    fun name hname => .directory (by simpa using hname) (by simpa using .file _)
  refine .directory (by decide) ?_
  simp only [List.forall_mem_singleton]
  refine .directory (by decide) ?_
  simp only [crowded, List.forall_mem_cons]
  exact ⟨hsingle _ (by decide), hsingle _ (by decide), .file _, .file _, hsingle _ (by decide),
    List.forall_mem_nil _⟩

/-- A file in `a` comes before the file `a.rs`. -/
theorem scan_finds_two : (directory [("proto", directory crowded)]).Ordered ∧
    (directory [("proto", directory crowded)]).Named ∧
    (directory [("proto", directory crowded)]).find? "proto" = some (directory crowded) ∧
    ∃ found, ((directory [("proto", directory crowded)]).scan "proto").outcome =
        (.ok found, [.scanDone "proto" found.length]) ∧
      found.Pairwise Precedes ∧ found.map FoundFile.path = ["proto/a/b.rs", "proto/a.rs"] := by
  have hroot : (directory [("proto", directory crowded)]).find? "proto" =
      some (directory crowded) := by rfl
  obtain ⟨found, houtcome, hsorted, -⟩ :=
    scan_finds _ "proto" crowded crowded_ordered crowded_named hroot
  refine ⟨crowded_ordered, crowded_named, hroot, found, houtcome, hsorted, ?_⟩
  have hfound : ((directory [("proto", directory crowded)]).scan "proto").outcome.1 =
    .ok [⟨"proto/a/b.rs", .empty⟩, ⟨"proto/a.rs", .empty⟩] := by rfl
  rw [houtcome] at hfound
  rw [Except.ok.inj hfound]
  rfl

end FileTree

end ApiDecl
