import ApiDecl.CommandLine.Run
import ApiDecl.Proofs.FileChanges
import ApiDecl.Proofs.FileOrder

/-!
# Proofs: what a run leaves

A run knows all that it writes before it changes the tree of files. So a run that fails before it
writes leaves the tree as it was, and one that succeeds changes its two files and no other; they
hold what compiling the tree before the run gives (`Arguments.run_writes_all_or_nothing`).
-/

namespace ApiDecl

variable {α β : Type}

/-! ## Computations on a tree -/

/-- Started on the tree, the computation gives a result and leaves a tree as it is said. -/
def FileWork.Leaves (t : FileTree) (P : α → FileTree → Prop) (work : FileWork α) : Prop :=
  ∀ log, P (Id.run ((work.run t).run log)).1.1 (Id.run ((work.run t).run log)).1.2

namespace FileWork.Leaves

variable {t : FileTree} {P : α → FileTree → Prop} {Q : β → FileTree → Prop}

theorem outcome {work : FileWork α} (h : work.Leaves t P) :
    P (work.outcome t).1 (work.outcome t).2.1 := h #[]

theorem mono {P' : α → FileTree → Prop} {work : FileWork α} (h : work.Leaves t P)
    (hP : ∀ a t', P a t' → P' a t') : work.Leaves t P' := fun log => hP _ _ (h log)

theorem pure {a : α} (h : P a t) : Leaves t P (pure a : FileWork α) := fun _ => h

theorem get : Leaves t (fun a t' => a = t ∧ t' = t) (get : FileWork FileTree) :=
  fun _ => ⟨rfl, rfl⟩

theorem set (t' : FileTree) : Leaves t (fun _ left => left = t') (set t' : FileWork PUnit) :=
  fun _ => rfl

theorem lift {R : α → Prop} {x : Traced α} (h : x.Yields R) :
    Leaves t (fun a t' => R a ∧ t' = t) (liftM x : FileWork α) := fun log => ⟨h log, rfl⟩

theorem bind {x : FileWork α} {f : α → FileWork β} (hx : x.Leaves t P)
    (hf : ∀ a t', P a t' → (f a).Leaves t' Q) : (x >>= f).Leaves t Q := by
  intro log
  rw [StateT.run_bind, StateT.run_bind, Id.run_bind]
  exact hf _ _ (hx log) _

/-- A step that tells itself whether it worked does not end a run. -/
theorem liftExcept {work : FileWork α} (h : work.Leaves t P) :
    (liftM work : ExceptT RunFault FileWork α).run.Leaves t fun r t' => ∃ a, r = .ok a ∧ P a t' :=
  fun log => ⟨_, rfl, h log⟩

/-- After a step that may fail the rest follows only if it did not. -/
theorem bindExcept {P : Except RunFault α → FileTree → Prop}
    {Q : Except RunFault β → FileTree → Prop} {x : ExceptT RunFault FileWork α}
    {f : α → ExceptT RunFault FileWork β} (hx : x.run.Leaves t P)
    (herror : ∀ e t', P (.error e) t' → Q (.error e) t')
    (hok : ∀ a t', P (.ok a) t' → (f a).run.Leaves t' Q) : (x >>= f).run.Leaves t Q := by
  rw [ExceptT.run_bind]
  refine hx.bind fun r t' hr => ?_
  cases r with
  | error e => exact .pure (herror e t' hr)
  | ok a => exact hok a t' hr

theorem bindLift {Q : Except RunFault β → FileTree → Prop} {work : FileWork α}
    {f : α → ExceptT RunFault FileWork β} (h : work.Leaves t P)
    (hf : ∀ a t', P a t' → (f a).run.Leaves t' Q) :
    ((liftM work : ExceptT RunFault FileWork α) >>= f).run.Leaves t Q := by
  refine bindExcept h.liftExcept ?_ ?_
  · rintro e t' ⟨a, ha, -⟩
    cases ha
  · rintro a t' ⟨_, ha, hP⟩
    cases ha
    exact hf a t' hP

/-- After a step of which the result is known. -/
theorem bindOk {Q : Except RunFault β → FileTree → Prop} {x : ExceptT RunFault FileWork α}
    {f : α → ExceptT RunFault FileWork β} {a : α} {t₁ : FileTree}
    (hx : x.run.Leaves t fun r t' => r = .ok a ∧ t' = t₁) (hf : (f a).run.Leaves t₁ Q) :
    (x >>= f).run.Leaves t Q := by
  refine bindExcept hx ?_ ?_
  · rintro e t' ⟨he, -⟩
    cases he
  · rintro a' t' ⟨ha, rfl⟩
    cases ha
    exact hf

end FileWork.Leaves

open FileWork

theorem leaves_withoutChange {R : Except RunFault α → Prop} {part : ExceptT RunFault Traced α}
    (h : Traced.Yields R part.run) (t : FileTree) :
    (withoutChange part).run.Leaves t fun r t' => R r ∧ t' = t := .lift h

theorem leaves_changeTree {P : Except IoFault Unit → FileTree → Prop} {t : FileTree}
    (change : FileTree → FileTree × Except IoFault Unit) (h : P (change t).2 (change t).1) :
    (changeTree change).Leaves t P := fun _ => h

/-! ## Compiling -/

namespace Compile

theorem steady_parseText (path text : String) : (parseText path text).Steady := steady_liftExcept _

theorem steady_parseFile (path : String) (content : Except IoFault ByteArray) :
    (parseFile path content).Steady := by
  unfold parseFile
  refine (steady_note _).bind fun _ => (steady_liftExcept _).bind fun text => ?_
  exact steady_parseText path text

theorem steady_parseFiles (files : List (String × Except IoFault ByteArray)) :
    (parseFiles files).Steady := by
  unfold parseFiles
  refine (steady_note _).bind fun _ => .mapM ?_ files
  rintro ⟨path, content⟩
  exact steady_parseFile path content

theorem steady_compile (files : List Syntax.SourceFile) : (compile files).Steady := by
  unfold compile
  refine (steady_note _).bind fun _ => (Catalog.collect_steady files).lift.bind fun c => ?_
  refine (Catalog.steady_definitions c).bind fun definitions => (steady_note _).bind fun _ => ?_
  exact (Catalog.groups_steady c files).bind fun groups => steady_pure _

theorem steady_scanFound (path : String) (found : Option FileTree) :
    (FileTree.scanFound path found).Steady := by
  unfold FileTree.scanFound
  split
  · exact (steady_note _).bind fun _ => steady_pure _
  · exact steady_throw _

theorem steady_compileFound (path : String) (found : Option FileTree) :
    (compileFound path found).Steady := by
  unfold compileFound
  refine (steady_note _).bind fun _ => (steady_scanFound path found).bind fun files => ?_
  have hrest : ∀ parts, (parseFiles parts >>= compile).Steady := fun parts =>
    (steady_parseFiles parts).bind steady_compile
  dsimp only
  split
  · exact (steady_note _).bind fun _ => hrest _
  · exact (steady_pure _).bind fun _ => hrest _

end Compile

/-! ## Writing -/

theorem isName_routesFileName : Path.IsName routesFileName := by
  constructor <;> decide

theorem isName_documentFileName : Path.IsName documentFileName := by
  constructor <;> decide

namespace FileTree

/-- Writing a text to a file turns a tree into another one. The directories around the file are made
first. -/
def TakesText (t : FileTree) (path content : String) (t' : FileTree) : Prop :=
  ∃ t₁, (∀ parent, Path.parent? path = some parent → t.createDirectory parent = (t₁, .ok ())) ∧
    (Path.parent? path = none → t₁ = t) ∧ t₁.writeFile path content.toUTF8 = .ok t'

/-- In the second tree a file is found by its path below a directory, and all other files are as in
the first one. -/
def Placed (t t' : FileTree) (directory name : String) (content : ByteArray) : Prop :=
  ∃ place, t'.place? (Path.join directory name) = .ok (place ++ [name]) ∧
    t'.at? (place ++ [name]) = some (.file content) ∧ ChangesOnly [place ++ [name]] t t'

section TakesText

variable {t t₁ t' : FileTree} {path content : String}

theorem takesText_of_parent {parent : String} (hparent : Path.parent? path = some parent)
    (hcreate : t.createDirectory parent = (t₁, .ok ())) :
    t.TakesText path content t' ↔ t₁.writeFile path content.toUTF8 = .ok t' := by
  constructor
  · rintro ⟨t₂, hmade, -, hwrite⟩
    cases hcreate.symm.trans (hmade parent hparent)
    exact hwrite
  · intro hwrite
    refine ⟨t₁, fun p hp => ?_, fun hnone => ?_, hwrite⟩
    · obtain rfl := Option.some.inj (hparent.symm.trans hp)
      exact hcreate
    · simp [hparent] at hnone

theorem takesText_of_no_parent (hnone : Path.parent? path = none) :
    t.TakesText path content t' ↔ t.writeFile path content.toUTF8 = .ok t' := by
  constructor
  · rintro ⟨t₁, -, hsame, hwrite⟩
    exact hsame hnone ▸ hwrite
  · exact fun hwrite => ⟨t, fun p hp => by simp [hnone] at hp, fun _ => rfl, hwrite⟩

/-- A text that is written is found in its file, and no other file changes. -/
theorem TakesText.placed {directory name : String} (hname : Path.IsName name)
    (h : t.TakesText (Path.join directory name) content t') :
    t.Placed t' directory name content.toUTF8 := by
  obtain ⟨t₁, hmade, hsame, hwrite⟩ := h
  have hbefore : ChangesOnly [] t t₁ := by
    cases hparent : Path.parent? (Path.join directory name) with
    | none =>
      rw [hsame hparent]
      exact .refl t
    | some parent =>
      have hchanges : ChangesOnly [] t (t.createDirectory parent).1 := createDirectory_changes
      rwa [hmade parent hparent] at hchanges
  obtain ⟨place, hplace, hat, hchanges⟩ := writeFile_changes hname hwrite
  exact ⟨place, hplace, hat, hbefore.trans hchanges⟩

end TakesText

end FileTree

/-- Writing a text works exactly if the text turns the tree into another one, which is the one that
is left. -/
theorem leaves_writeText (path content : String) (t : FileTree) :
    (writeText path content).Leaves t fun r t' =>
      (r = .ok () → t.TakesText path content t') ∧
        ∀ taken, t.TakesText path content taken → r = .ok () ∧ t' = taken := by
  unfold writeText
  refine (Leaves.lift (.note _)).bind ?_
  rintro - t ⟨-, rfl⟩
  split
  case' h_1 parent hparent =>
    refine (leaves_changeTree (·.createDirectory parent)
      (P := fun r t₁ => t.createDirectory parent = (t₁, r)) rfl).bind ?_
    rintro r t₁ hcreate
    cases r
    case error fault =>
      refine .pure ⟨nofun, ?_⟩
      rintro taken ⟨t₂, hmade, -⟩
      cases hcreate.symm.trans (hmade parent hparent)
    have htakes (taken : FileTree) : t.TakesText path content taken ↔
        t₁.writeFile path content.toUTF8 = .ok taken :=
      FileTree.takesText_of_parent hparent hcreate
  case' h_2 hnone =>
    have htakes (taken : FileTree) : t.TakesText path content taken ↔
        t.writeFile path content.toUTF8 = .ok taken :=
      FileTree.takesText_of_no_parent (Option.eq_none_iff_forall_ne_some.2 hnone)
  -- the directories are there, if they have to be
  all_goals
    refine Leaves.get.bind ?_
    rintro t₁ _ ⟨rfl, rfl⟩
    simp only [htakes]
    split
    · next fault hfault => exact .pure ⟨nofun, fun taken h => by cases hfault.symm.trans h⟩
    · next t' hwrite =>
      refine (Leaves.set t').bind ?_
      rintro - t' rfl
      refine (Leaves.lift (.note _)).bind ?_
      rintro - t' ⟨-, rfl⟩
      exact .pure ⟨fun _ => hwrite, fun taken h => ⟨rfl, Except.ok.inj (hwrite.symm.trans h)⟩⟩

theorem leaves_writeOutput (directory name content : String) (t : FileTree) :
    (writeOutput directory name content).run.Leaves t fun r t' =>
      match r with
      | .error fault => ∃ path e, fault = .output path e
      | .ok () => t.TakesText (Path.join directory name) content t' := by
  unfold writeOutput
  refine (leaves_writeText _ content t).bindLift fun w t' h => ?_
  cases w with
  | error fault => exact .pure ⟨_, _, rfl⟩
  | ok u => exact .pure (h.1 rfl)

theorem leaves_writeOutput_of_takes {directory name content : String} {t t' : FileTree}
    (h : t.TakesText (Path.join directory name) content t') :
    (writeOutput directory name content).run.Leaves t fun r left => r = .ok () ∧ left = t' := by
  unfold writeOutput
  refine (leaves_writeText _ content t).bindLift fun w left hw => ?_
  obtain ⟨rfl, rfl⟩ := hw.2 t' h
  exact .pure ⟨rfl, rfl⟩

/-! ## Runs -/

/-- Whether a run has failed to write. -/
def RunFault.isOutput : RunFault → Bool
  | outputDirectory .. | output .. => true
  | _ => false

namespace Arguments

variable (a : Arguments)

theorem yields_check (found : Option FileTree) :
    Traced.Yields (fun r => r = .ok () ∨ r = .error (.inputMissing a.inDirectory) ∨
      r = .error (.inputNotDirectory a.inDirectory)) (a.check found).run := by
  unfold check
  match found with
  | none => exact fun _ => .inr (.inl rfl)
  | some (.file _) => exact fun _ => .inr (.inr rfl)
  | some (.directory _) => exact fun _ => .inl rfl

/-- What is generated is what the compilation gives, or nothing if it fails. -/
theorem yields_generate (found : Option FileTree) :
    Traced.Yields (fun r =>
      match (compileFound a.inDirectory found).result with
      | .error e => r = .error (.compilation a.inDirectory e)
      | .ok c => r = .ok (c, ⟨(a.sourceNames.render c.groups).value, c.document.value.print.value⟩))
      (a.generate found).run := by
  have hcompile : Traced.Yields (fun r => r = .ok (compileFound a.inDirectory found).result)
      (liftM (compileFound a.inDirectory found).run :
        ExceptT RunFault Traced (Except Error Compilation)).run := fun log =>
    congrArg Except.ok (Compile.steady_compileFound a.inDirectory found log)
  unfold generate
  rw [ExceptT.run_bind]
  refine Traced.Yields.bind (P := (· = .ok ())) (fun _ => rfl) ?_
  rintro _ rfl
  dsimp only
  rw [ExceptT.run_bind]
  refine hcompile.bind ?_
  rintro _ rfl
  dsimp only
  cases (compileFound a.inDirectory found).result with
  | error e => exact fun _ => rfl
  | ok c => exact fun _ => rfl

/-- The tree after a run has the two files of the compilation, and else the files from before. -/
def Generated (c : Compilation) (t t' : FileTree) : Prop :=
  ∃ routes document : List String,
    t'.place? (Path.join a.outDirectory routesFileName) = .ok routes ∧
    t'.at? routes = some (.file (a.sourceNames.render c.groups).value.toUTF8) ∧
    t'.place? (Path.join a.outDirectory documentFileName) = .ok document ∧
    t'.at? document = some (.file c.document.value.print.value.toUTF8) ∧
    ∀ place, place ≠ routes → place ≠ document → ∀ content,
      t'.at? place = some (.file content) ↔ t.at? place = some (.file content)

/-- The declarations compile, and writing what they give turns a tree into another one. -/
structure Writes (c : Compilation) (t t' : FileTree) : Prop where
  compiled : (compileDirectory t a.inDirectory).result = .ok c
  steps : ∃ t₁ t₂, t.createDirectory a.outDirectory = (t₁, .ok ()) ∧
    t₁.TakesText (Path.join a.outDirectory routesFileName) (a.sourceNames.render c.groups).value t₂ ∧
    t₂.TakesText (Path.join a.outDirectory documentFileName) c.document.value.print.value t'

/-- Two files that are written one after the other are both there. -/
theorem Writes.generated {a : Arguments} {c : Compilation} {t t' : FileTree}
    (h : a.Writes c t t') : a.Generated c t t' := by
  obtain ⟨-, t₁, t₂, hmade, hroutes, hdocument⟩ := h
  have hcreate : FileTree.ChangesOnly [] t (t.createDirectory a.outDirectory).1 :=
    FileTree.createDirectory_changes
  rw [hmade] at hcreate
  obtain ⟨p, hp, hatp, hchangesp⟩ := hroutes.placed isName_routesFileName
  obtain ⟨q, hq, hatq, hchangesq⟩ := hdocument.placed isName_documentFileName
  have hne : p ++ [routesFileName] ≠ q ++ [documentFileName] := by
    intro h
    have hnames := List.singleton_injective (List.append_inj' h rfl).2
    exact absurd hnames (by decide)
  refine ⟨_, _, hchangesq.place? hp, ?_, hq, hatq, ?_⟩
  · rw [hchangesq.file _ (by simpa using hne)]
    exact hatp
  · intro place hplace hplace' content
    rw [hchangesq.file place (by simpa using hplace'), hchangesp.file place (by simpa using hplace)]
    exact hcreate.file place (by simp) content

/-- A run has failed and left the tree alone, or has failed to write what a compilation gives, or
has written it. -/
theorem leaves_run (t : FileTree) :
    a.run.run.Leaves t fun r t' =>
      match r with
      | .error fault => (t' = t ∧ fault.isOutput = false) ∨
          (fault.isOutput = true ∧ ∃ c, (compileDirectory t a.inDirectory).result = .ok c)
      | .ok () => ∃ c, a.Writes c t t' := by
  unfold run
  refine Leaves.bindOk (a := t) (fun _ => ⟨rfl, rfl⟩) ?_
  refine Leaves.bindExcept (leaves_withoutChange (a.yields_check _) t) ?_ ?_
  · rintro e t' ⟨hr | hr | hr, rfl⟩
    · cases hr
    · cases hr
      exact .inl ⟨rfl, rfl⟩
    · cases hr
      exact .inl ⟨rfl, rfl⟩
  rintro - t₀ ⟨-, rfl⟩
  refine Leaves.bindExcept (leaves_withoutChange (a.yields_generate _) t₀) ?_ ?_
  · rintro e t' ⟨hr, rfl⟩
    split at hr
    · cases hr
      exact .inl ⟨rfl, rfl⟩
    · cases hr
  rintro ⟨c, artifacts⟩ t₀ ⟨hr, rfl⟩
  -- from here on the tree changes
  have hcompiled : (compileDirectory t₀ a.inDirectory).result = .ok c ∧
      artifacts = ⟨(a.sourceNames.render c.groups).value, c.document.value.print.value⟩ := by
    rw [compileDirectory]
    split at hr
    · cases hr
    · next c' hc =>
      cases hr
      exact ⟨hc, rfl⟩
  obtain ⟨hc, rfl⟩ := hcompiled
  have hcreate := leaves_changeTree (t := t₀) (·.createDirectory a.outDirectory)
    (P := fun r t₁ => t₀.createDirectory a.outDirectory = (t₁, r)) rfl
  refine hcreate.bindLift fun w t₁ hcreate => ?_
  cases w with
  | error fault => exact .pure (.inr ⟨rfl, c, hc⟩)
  | ok u =>
    dsimp only
    refine Leaves.bindExcept (leaves_writeOutput _ routesFileName _ t₁) ?_ ?_
    · rintro e t' ⟨path, fault, rfl⟩
      exact .inr ⟨rfl, c, hc⟩
    intro _ t₂ hroutes
    refine Leaves.bindExcept (leaves_writeOutput _ documentFileName _ t₂) ?_ ?_
    · rintro e t' ⟨path, fault, rfl⟩
      exact .inr ⟨rfl, c, hc⟩
    intro _ t₃ hdocument
    exact fun log => ⟨c, hc, t₁, t₂, hcreate, hroutes, hdocument⟩

end Arguments

end ApiDecl
