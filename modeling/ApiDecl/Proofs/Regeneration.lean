import ApiDecl.Proofs.Repeating
import ApiDecl.Proofs.SilentFiles

/-!
# Proofs: running again

A run succeeds exactly if the declarations compile and both texts can be written, and this tells the
tree that it leaves (`leaves_run_writes`, `leaves_run_of_writes`). What was written can be written
again without a change. So a second run does nothing if the declarations compile to the same after
the first one. They do if the written source is not among them, or if neither the source nor what
was in its place declares anything (`Arguments.Writes.compiled_again`).
-/

namespace ApiDecl

open FileWork Syntax

/-! ## Texts in their files -/

namespace FileTree

/-- A text is in a file of a directory, and the directories around the file are there. -/
structure HoldsText (t : FileTree) (directory name content : String) (place : List String) :
    Prop where
  leads : t.place? (Path.join directory name) = .ok place
  found : t.at? place = some (.file content.toUTF8)
  parent : ∀ parent, Path.parent? (Path.join directory name) = some parent → t.IsReady parent

variable {t t' : FileTree} {directory name content : String} {place : List String}

/-- A text that is in its file can be written there again. -/
theorem HoldsText.takesText (h : t.HoldsText directory name content place) (ht : t.Ordered)
    (hname : Path.IsName name) : t.TakesText (Path.join directory name) content t :=
  ⟨t, fun parent hparent => createDirectory_of_isReady (h.parent parent hparent), fun _ => rfl,
    writeFile_of_placed ht hname h.leads h.found⟩

/-- A text that was written is in its file. -/
theorem TakesText.written (h : t.TakesText (Path.join directory name) content t') (ht : t.Ordered)
    (hname : Path.IsName name) :
    ∃ place, t.Written t' place name content.toUTF8 ∧
      t'.HoldsText directory name content (place ++ [name]) := by
  obtain ⟨t₁, hmade, hsame, hwrite⟩ := h
  obtain ⟨hgrown, hready⟩ : t.Grown t₁ ∧
      ∀ parent, Path.parent? (Path.join directory name) = some parent → t₁.IsReady parent := by
    cases hparent : Path.parent? (Path.join directory name) with
    | none =>
      rw [hsame hparent]
      exact ⟨.refl ht, nofun⟩
    | some parent =>
      have hgrown := createDirectory_grown ht parent
      have hready := isReady_of_createDirectory (congrArg Prod.snd (hmade parent hparent))
      rw [hmade parent hparent] at hgrown hready
      refine ⟨hgrown, ?_⟩
      rintro _ ⟨⟩
      exact hready
  obtain ⟨place, around, hat, hother, hput, hfound⟩ := writeFile_eq_putAt hname hwrite
  have hwritten : t.Written t' place name content.toUTF8 := ⟨t₁, around, hgrown, hat, hother, hput⟩
  have hchanges := writeFile_putAt content.toUTF8 hat hother
  exact ⟨place, hwritten, hfound, hwritten.at?,
    fun parent h => (hput ▸ hchanges).isReady (hready parent h)⟩

end FileTree

/-! ## Runs -/

/-- Only a directory compiles. -/
theorem exists_directory_of_compileFound {path : String} {found : Option FileTree}
    {c : Compilation} (h : (compileFound path found).result = .ok c) :
    ∃ entries, found = some (.directory entries) := by
  match found with
  | some (.directory entries) => exact ⟨entries, rfl⟩
  | some (.file content) => cases h
  | none => cases h

namespace Arguments

variable (a : Arguments)

/-- A run that succeeds writes what its declarations give. -/
theorem leaves_run_writes (t : FileTree) :
    a.run.run.Leaves t fun r t' => r = .ok () → ∃ c, a.Writes c t t' := by
  refine (a.leaves_run t).mono fun r t' h => ?_
  rintro rfl
  exact h

/-- A run succeeds if its declarations compile and what they give can be written. -/
theorem leaves_run_of_writes {c : Compilation} {t t' : FileTree} (h : a.Writes c t t') :
    a.run.run.Leaves t fun r left => r = .ok () ∧ left = t' := by
  obtain ⟨hc, t₁, t₂, hcreate, hroutes, hdocument⟩ := h
  obtain ⟨entries, hfound⟩ := exists_directory_of_compileFound hc
  have hcheck : Traced.Yields (· = .ok ()) (a.check (t.find? a.inDirectory)).run := by
    rw [hfound]
    exact fun _ => rfl
  have hgenerate := a.yields_generate (t.find? a.inDirectory)
  rw [← compileDirectory, hc] at hgenerate
  unfold run
  refine Leaves.bindOk (a := t) (fun _ => ⟨rfl, rfl⟩) ?_
  refine Leaves.bindOk (leaves_withoutChange hcheck t) ?_
  refine Leaves.bindOk (leaves_withoutChange hgenerate t) ?_
  have hmade := leaves_changeTree (t := t) (·.createDirectory a.outDirectory)
    (P := fun r left => r = .ok () ∧ left = t₁) (by
      rw [hcreate]
      exact ⟨rfl, rfl⟩)
  refine hmade.bindLift ?_
  rintro _ _ ⟨rfl, rfl⟩
  refine Leaves.bindOk (leaves_writeOutput_of_takes hroutes) ?_
  refine Leaves.bindOk (leaves_writeOutput_of_takes hdocument) ?_
  exact fun log => ⟨rfl, rfl⟩

end Arguments

/-! ## The second run -/

/-- A text stays in its file if another file is written. -/
theorem FileTree.HoldsText.of_changes {t t' : FileTree} {directory name content : String}
    {place other : List String} (h : t.HoldsText directory name content place)
    (hchanges : ChangesOnly [other] t t') (hne : place ≠ other) :
    t'.HoldsText directory name content place where
  leads := hchanges.place? h.leads
  found := (hchanges.file _ (by simpa using hne) _).2 h.found
  parent := fun parent hparent => hchanges.isReady (h.parent parent hparent)

/-- A place is searched for the declaration files below a path. -/
def FileTree.IsScanned (t : FileTree) (path : String) (place : List String) : Prop :=
  ∃ root below, t.place? path = .ok root ∧ place = root ++ below ∧
    ∀ name ∈ below, isSkipped name = false

/-- A compilation stays the same if the declaration files do. -/
theorem compileFound_congr {path : String} {entries entries' : List (String × FileTree)}
    (h : FileTree.entryDeclarations path entries' = FileTree.entryDeclarations path entries) :
    (compileFound path (some (.directory entries'))).result =
      (compileFound path (some (.directory entries))).result := by
  rw [compileFound_result, compileFound_result, h]

theorem decodeText_toUTF8 (text : String) : FileTree.decodeText text.toUTF8 = .ok text := by
  have hdecode : String.fromUTF8? text.toUTF8 = some text := dif_pos text.isValidUTF8
  rw [FileTree.decodeText, hdecode]

/-- A file holds one text. -/
theorem FileTree.HoldsText.unique {t : FileTree} {directory name content content' : String}
    {place place' : List String} (h : t.HoldsText directory name content place)
    (h' : t.HoldsText directory name content' place') : content = content' := by
  obtain rfl : place = place' := Except.ok.inj (h.leads.symm.trans h'.leads)
  have hbytes : content.toUTF8 = content'.toUTF8 :=
    FileTree.file.inj (Option.some.inj (h.found.symm.trans h'.found))
  have htext := congrArg FileTree.decodeText hbytes
  rw [decodeText_toUTF8, decodeText_toUTF8] at htext
  exact Except.ok.inj htext

namespace Arguments

/-- The places of the two files that a run wrote. -/
structure Wrote (a : Arguments) (c : Compilation) (t t' : FileTree)
    (routes document : List String) : Prop where
  steps : ∃ t₁ t₂, t.Grown t₁ ∧ t₁.IsReady a.outDirectory ∧
    t₁.Written t₂ routes routesFileName (a.sourceNames.render c.groups).value.toUTF8 ∧
    t₂.HoldsText a.outDirectory routesFileName (a.sourceNames.render c.groups).value
      (routes ++ [routesFileName]) ∧
    t₂.Written t' document documentFileName c.document.value.print.value.toUTF8 ∧
    t'.HoldsText a.outDirectory documentFileName c.document.value.print.value
      (document ++ [documentFileName])

variable {a : Arguments} {c : Compilation} {t t' : FileTree} {routes document : List String}

theorem Writes.wrote (h : a.Writes c t t') (ht : t.Ordered) :
    ∃ routes document, a.Wrote c t t' routes document := by
  obtain ⟨-, t₁, t₂, hcreate, hroutes, hdocument⟩ := h
  have hgrown := FileTree.createDirectory_grown ht a.outDirectory
  have hready := FileTree.isReady_of_createDirectory (congrArg Prod.snd hcreate)
  rw [hcreate] at hgrown hready
  obtain ⟨routes, hroutes, hheld⟩ := hroutes.written hgrown.ordered isName_routesFileName
  obtain ⟨document, hdocument, hheld'⟩ := hdocument.written hroutes.ordered isName_documentFileName
  exact ⟨routes, document, t₁, t₂, hgrown, hready, hroutes, hheld, hdocument, hheld'⟩

theorem Wrote.ordered (h : a.Wrote c t t' routes document) : t'.Ordered := by
  obtain ⟨t₁, t₂, -, -, -, -, hdocument, -⟩ := h
  exact hdocument.ordered

theorem Wrote.routes_held (h : a.Wrote c t t' routes document) :
    t'.HoldsText a.outDirectory routesFileName (a.sourceNames.render c.groups).value
      (routes ++ [routesFileName]) := by
  obtain ⟨t₁, t₂, -, -, -, hroutes, hdocument, -⟩ := h
  refine hroutes.of_changes hdocument.changes fun heq => ?_
  have hnames := List.singleton_injective (List.append_inj' heq rfl).2
  exact absurd hnames (by decide)

theorem Wrote.document_held (h : a.Wrote c t t' routes document) :
    t'.HoldsText a.outDirectory documentFileName c.document.value.print.value
      (document ++ [documentFileName]) := by
  obtain ⟨t₁, t₂, -, -, -, -, -, hdocument⟩ := h
  exact hdocument

/-- The written source is among the declarations if it is searched for them. -/
theorem Wrote.mem_declarations (h : a.Wrote c t t' routes document)
    {entries : List (String × FileTree)} (hfound : t'.find? a.inDirectory = some (.directory entries))
    (hscanned : t'.IsScanned a.inDirectory (routes ++ [routesFileName])) :
    ∃ path, ⟨path, (a.sourceNames.render c.groups).value.toUTF8⟩ ∈
      FileTree.entryDeclarations a.inDirectory entries := by
  obtain ⟨root, below, hroot, hplace, hshown⟩ := hscanned
  have hfound : t'.at? root = some (.directory entries) := by
    rwa [FileTree.find?, hroot] at hfound
  have hheld := h.routes_held.found
  rw [hplace, FileTree.at?_append, hfound, Option.bind_some] at hheld
  rcases List.eq_nil_or_concat' below with rfl | ⟨below, last, rfl⟩
  · cases hheld
  · rw [← List.append_assoc] at hplace
    have hlast : last = routesFileName := by simpa using (List.append_inj' hplace rfl).2.symm
    have hname : isDeclarationName last = true := by
      rw [hlast]
      decide +kernel
    exact FileTree.mem_entryDeclarations (h.ordered.at? hfound) hheld hname hshown _

/-- If the declarations compile to the same after a run, another run writes the same and changes
nothing. -/
theorem Wrote.writes_again (h : a.Wrote c t t' routes document)
    (hc : (compileDirectory t' a.inDirectory).result = .ok c) : a.Writes c t' t' := by
  have hroutes := h.routes_held.takesText h.ordered isName_routesFileName
  have hordered := h.ordered
  obtain ⟨t₁, t₂, -, hready, hwritten, -, hwritten', hdocument⟩ := h
  have hready := hwritten'.changes.isReady (hwritten.changes.isReady hready)
  exact ⟨hc, t', t', FileTree.createDirectory_of_isReady hready, hroutes,
    hdocument.takesText hordered isName_documentFileName⟩

/-- After a run the declarations compile to the same, if the written source is not searched, or if
neither it nor what was in its place declares anything. -/
theorem Wrote.compiled_again (h : a.Wrote c t t' routes document)
    (hcompiled : (compileDirectory t a.inDirectory).result = .ok c)
    (hsilent : t'.IsScanned a.inDirectory (routes ++ [routesFileName]) → ∀ path,
      (∀ bytes f, t.at? (routes ++ [routesFileName]) = some (.file bytes) →
        FoundFile.ParsedAs ⟨path, bytes⟩ f → f.IsSilent) ∧
      ∃ f, SourceFile.parse path (a.sourceNames.render c.groups).value = .ok f ∧ f.IsSilent) :
    (compileDirectory t' a.inDirectory).result = .ok c := by
  obtain ⟨t₁, t₂, hgrown, -, hroutes, -, hdocument, -⟩ := h
  have hchanges := hroutes.changes.trans hdocument.changes
  obtain ⟨entries, hfound⟩ := exists_directory_of_compileFound hcompiled
  rw [compileDirectory, hfound] at hcompiled
  -- the directory of the declarations stays where it is
  obtain ⟨root, hplace, hroot⟩ : ∃ root, t.place? a.inDirectory = .ok root ∧
      t.at? root = some (.directory entries) := by
    rw [FileTree.find?] at hfound
    split at hfound
    · next root hplace => exact ⟨root, hplace, hfound⟩
    · cases hfound
  have hplace' := hchanges.place? (hgrown.changes.place? hplace)
  obtain ⟨entries₁, hroot₁, hsame₁⟩ := hgrown.search a.inDirectory root entries hroot
  rw [← compileFound_congr hsame₁] at hcompiled
  obtain ⟨entries₂, hroot₂, hsearch₂⟩ := hroutes.search a.inDirectory hroot₁
  obtain ⟨entries', hroot', hsearch'⟩ := hdocument.search a.inDirectory hroot₂
  have hfound' : t'.find? a.inDirectory = some (.directory entries') := by
    rw [FileTree.find?, hplace']
    exact hroot'
  rw [compileDirectory, hfound']
  -- the document is not a declaration file
  have hsame' : FileTree.entryDeclarations a.inDirectory entries' =
      FileTree.entryDeclarations a.inDirectory entries₂ := by
    rcases hsearch' with hsame' | ⟨hname, -⟩
    · exact hsame'
    · exact absurd hname (by decide)
  rw [compileFound_congr hsame']
  rcases hsearch₂ with hsame₂ | ⟨-, below, rfl, hshown, path, old, hold, hexchanges⟩
  · rw [compileFound_congr hsame₂]
    exact hcompiled
  · have hscanned : t'.IsScanned a.inDirectory (root ++ below ++ [routesFileName]) :=
      ⟨root, below ++ [routesFileName], hplace', List.append_assoc _ _ _, hshown⟩
    obtain ⟨hprevious, f, hf, hquiet⟩ := hsilent hscanned path
    refine compileFound_exchanges hexchanges ?_ ?_ hcompiled
    · intro found hmem f hparsed
      obtain ⟨bytes, hbytes, rfl⟩ := List.mem_map.1 hmem
      exact hprevious bytes f ((hgrown.changes.file _ (by simp) _).1 (hold bytes hbytes)) hparsed
    · intro found hmem
      rw [List.mem_singleton.1 hmem]
      exact ⟨f, ⟨_, decodeText_toUTF8 _, hf⟩, hquiet⟩

end Arguments

end ApiDecl
