import ApiDecl.Proofs.FileOrder
import ApiDecl.Proofs.Runs
import ApiDecl.Proofs.Scanning

/-!
# Proofs: files that declare nothing

A file without structs for the table and without services adds nothing to a compilation. So such
files may be exchanged for others of the kind (`compileFound_exchanges`).
-/

namespace ApiDecl

open Compile Syntax

/-- The file has no struct for the table, and no service. -/
def Syntax.SourceFile.IsSilent (f : SourceFile) : Prop :=
  f.collected = [] ∧ f.traits.filter Catalog.isService = []

namespace Catalog

theorem ofFiles_silent {before silent after : List SourceFile} (h : ∀ f ∈ silent, f.IsSilent) :
    ofFiles (before ++ silent ++ after) = ofFiles (before ++ after) := by
  have hskip : ∀ c : Catalog, silent.foldl (fun c f => c.insertAll f.collected) c = c := by
    intro c
    induction silent with
    | nil => rfl
    | cons f rest ih =>
      obtain ⟨hf, hrest⟩ := List.forall_mem_cons.1 h
      rw [List.foldl_cons, hf.1]
      exact ih hrest
  rw [ofFiles, ofFiles, List.foldl_append, List.foldl_append, List.foldl_append, hskip]

theorem groups_silent (c : Catalog) {before silent after : List SourceFile}
    (h : ∀ f ∈ silent, f.IsSilent) :
    (c.groups (before ++ silent ++ after)).result = (c.groups (before ++ after)).result := by
  have hskip : silent.mapM (fun f => (c.groupsOfFile f).result) =
      .ok (silent.map fun _ => []) := by
    refine mapM_ok_of_forall₂ (List.forall₂_map_right_iff.2 (List.forall₂_same.2 fun f hf => ?_))
    rw [groupsOfFile, (h f hf).2]
    rfl
  have hflat : (silent.map fun _ => ([] : List RouteGroup)).flatten = [] := by simp
  rw [groups_result, groups_result, List.mapM_append, List.mapM_append, List.mapM_append, hskip]
  cases before.mapM fun f => (c.groupsOfFile f).result with
  | error e => rfl
  | ok found =>
    cases after.mapM fun f => (c.groupsOfFile f).result with
    | error e => rfl
    | ok found' =>
      refine congrArg Except.ok ?_
      rw [List.flatten_append, List.flatten_append, hflat, List.append_nil, List.flatten_append]

end Catalog

/-- Files that declare nothing do not matter to a compilation. -/
theorem compile_silent {before silent after : List SourceFile} (h : ∀ f ∈ silent, f.IsSilent) :
    (compile (before ++ silent ++ after)).result = (compile (before ++ after)).result := by
  have hcatalog : (Catalog.collect (before ++ silent ++ after)).value =
      (Catalog.collect (before ++ after)).value := by
    rw [Catalog.collect_value, Catalog.collect_value, Catalog.ofFiles_silent h]
  rw [compile_result, compile_result, hcatalog, Catalog.groups_silent _ h]

/-! ## Files that are found -/

/-- A file that is found is parsed. -/
def FoundFile.ParsedAs (found : FoundFile) (f : SourceFile) : Prop :=
  ∃ text, FileTree.decodeText found.content = .ok text ∧ SourceFile.parse found.path text = .ok f

theorem parseFile_ok_iff {path : String} {content : ByteArray} {f : SourceFile} :
    (parseFile path (.ok content)).result = .ok f ↔ FoundFile.ParsedAs ⟨path, content⟩ f := by
  have hparse : (parseFile path (.ok content)).result =
      (FileTree.decodeText content).mapError Error.io >>= fun text =>
        (SourceFile.parse path text).mapError (Error.parse path) := by
    unfold parseFile
    have hread : ∀ u : Unit, (do
        let text ← liftExcept ((.ok content >>= FileTree.decodeText).mapError Error.io)
        parseText path text : Compile SourceFile).Steady := fun _ =>
      (steady_liftExcept _).bind (steady_parseText path)
    rw [result_bind hread, result_note, ok_bind, result_bind (steady_parseText path),
      result_liftExcept]
    exact bind_congr fun text => result_liftExcept _
  rw [hparse, FoundFile.ParsedAs]
  cases FileTree.decodeText content with
  | error fault => simp [Except.mapError, bind, Except.bind]
  | ok text =>
    cases hfile : SourceFile.parse path text <;>
      simp [Except.mapError, bind, Except.bind, hfile]

theorem compileFound_result (path : String) (entries : List (String × FileTree)) :
    (compileFound path (some (.directory entries))).result =
      (parseFiles ((FileTree.entryDeclarations path entries).map
        fun f => (f.path, .ok f.content))).result >>= fun files => (compile files).result := by
  have hrest : ∀ parts, (parseFiles parts >>= compile).Steady := fun parts =>
    (steady_parseFiles parts).bind steady_compile
  have hpure : (pure (FileTree.entryDeclarations path entries) : Compile (List FoundFile)).result =
      .ok (FileTree.entryDeclarations path entries) := rfl
  unfold compileFound FileTree.scanFound
  rw [result_bind, result_note, ok_bind, result_bind, result_bind, result_note, ok_bind, hpure,
    ok_bind]
  · dsimp only
    split
    · rw [result_bind fun _ => hrest _, result_note, ok_bind]
      exact result_bind steady_compile
    · exact result_bind steady_compile
  · exact fun _ => steady_pure _
  · intro files
    dsimp only
    split
    · exact (steady_note _).bind fun _ => hrest _
    · exact hrest _
  · refine fun _ => (steady_scanFound path (some (.directory entries))).bind fun files => ?_
    dsimp only
    split
    · exact (steady_note _).bind fun _ => hrest _
    · exact hrest _

theorem parseFiles_result (parts : List (String × Except IoFault ByteArray)) :
    (parseFiles parts).result = parts.mapM fun part => (parseFile part.1 part.2).result := by
  have hparse : ∀ part : String × Except IoFault ByteArray, (parseFile part.1 part.2).Steady :=
    fun part => steady_parseFile part.1 part.2
  unfold parseFiles
  rw [result_bind fun _ => Steady.mapM hparse _, result_note, ok_bind]
  exact result_mapM hparse parts

/-- A directory compiles to what its declaration files compile to, if they can be parsed. -/
theorem compileFound_ok_iff {path : String} {entries : List (String × FileTree)}
    {c : Compilation} : (compileFound path (some (.directory entries))).result = .ok c ↔
      ∃ files, List.Forall₂ FoundFile.ParsedAs (FileTree.entryDeclarations path entries) files ∧
        (compile files).result = .ok c := by
  rw [compileFound_result, parseFiles_result, List.mapM_map]
  constructor
  · intro h
    obtain ⟨files, hfiles, hc⟩ := exists_of_bind_ok h
    exact ⟨files, (forall₂_of_mapM_ok hfiles).imp fun _ _ => parseFile_ok_iff.1, hc⟩
  · rintro ⟨files, hfiles, hc⟩
    have hparsed := mapM_ok_of_forall₂ (hfiles.imp fun _ _ => parseFile_ok_iff.2)
    exact (congrArg (· >>= fun files => (compile files).result) hparsed).trans hc

/-- If some of the declaration files are exchanged for others, and none of both declare anything,
the compilation stays the same. -/
theorem compileFound_exchanges {path : String} {entries entries' : List (String × FileTree)}
    {old new : List FoundFile} {c : Compilation}
    (h : Exchanges old new (FileTree.entryDeclarations path entries)
      (FileTree.entryDeclarations path entries'))
    (hold : ∀ found ∈ old, ∀ f, found.ParsedAs f → f.IsSilent)
    (hnew : ∀ found ∈ new, ∃ f, found.ParsedAs f ∧ f.IsSilent)
    (hc : (compileFound path (some (.directory entries))).result = .ok c) :
    (compileFound path (some (.directory entries'))).result = .ok c := by
  obtain ⟨before, after, hentries, hentries'⟩ := h
  obtain ⟨files, hfiles, hcompile⟩ := compileFound_ok_iff.1 hc
  rw [hentries] at hfiles
  obtain ⟨front, back, rfl, hfront, hback⟩ := exists_append_of_forall₂ hfiles
  obtain ⟨front, silent, rfl, hfront, hsilent⟩ := exists_append_of_forall₂ hfront
  have hsilent : ∀ f ∈ silent, f.IsSilent := fun f hf => by
    obtain ⟨found, hfound, hparsed⟩ := exists_of_mem_right hsilent hf
    exact hold found hfound f hparsed
  -- the other files are parsed as others that declare nothing
  obtain ⟨silent', hparsed, hsilent'⟩ : ∃ silent', List.Forall₂ FoundFile.ParsedAs new silent' ∧
      ∀ f ∈ silent', f.IsSilent := by
    obtain ⟨silent', h⟩ := exists_forall₂ hnew
    refine ⟨silent', h.imp fun _ _ => And.left, fun f hf => ?_⟩
    obtain ⟨found, -, -, hf⟩ := exists_of_mem_right h hf
    exact hf
  refine compileFound_ok_iff.2 ⟨front ++ silent' ++ back, ?_, ?_⟩
  · rw [hentries']
    exact List.rel_append (List.rel_append hfront hparsed) hback
  · rw [compile_silent hsilent', ← compile_silent hsilent]
    exact hcompile

end ApiDecl
