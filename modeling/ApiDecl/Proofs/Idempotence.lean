import ApiDecl.Proofs.Regeneration
import ApiDecl.Proofs.SilentSource

/-!
# Proofs: running again changes nothing

A run that succeeds can be repeated: another one right after it succeeds too and leaves the tree as
it is (`Arguments.run_idempotent`). Only if the source of the first run is found among the
declarations there is something to ask for: the source must be readable, and must not have taken the
place of a file that declared something. Without that the second run may fail or write another
document (`Arguments.run_not_idempotent`).
-/

namespace ApiDecl

open FileWork Syntax

/-- The file in a place of the tree, if there is one and it can be parsed, declares nothing. -/
def FileTree.IsSilentAt (t : FileTree) (place : List String) : Prop :=
  ∀ bytes, t.at? place = some (.file bytes) →
    ∀ path f, FoundFile.ParsedAs ⟨path, bytes⟩ f → f.IsSilent

namespace Arguments

variable {a : Arguments} {t : FileTree} {c : Compilation} {place : List String}

/-- The path of the source leads to a place that is searched for declarations. -/
def FindsSource (a : Arguments) (t : FileTree) (place : List String) : Prop :=
  t.IsScanned a.inDirectory place ∧ t.place? (Path.join a.outDirectory routesFileName) = .ok place

/-- A run right after another one on the tree succeeds and leaves the tree as it is. -/
def Repeats (a : Arguments) (t : FileTree) : Prop :=
  (a.run.run.outcome (a.run.run.outcome t).2.1).1 = .ok () ∧
    (a.run.run.outcome (a.run.run.outcome t).2.1).2.1 = (a.run.run.outcome t).2.1

/-! ## The source of the first run -/

/-- The names in what a directory compiles to are words, so its source can be parsed and declares
nothing if it can be read again. -/
theorem parse_source (hc : (compileDirectory t a.inDirectory).result = .ok c)
    (h : a.sourceNames.IsReadable c.groups) (path : String) :
    ∃ f, SourceFile.parse path (a.sourceNames.render c.groups).value = .ok f ∧ f.IsSilent := by
  obtain ⟨entries, hfound⟩ := exists_directory_of_compileFound hc
  rw [compileDirectory, hfound] at hc
  obtain ⟨files, hfiles, hk⟩ := compileFound_ok_iff.1 hc
  refine h.parse_render (fun f hf => ?_) hk path
  obtain ⟨found, -, text, -, hparsed⟩ := exists_of_mem_right hfiles hf
  exact (SourceFile.isWorded_parse hparsed).2

/-- A run that succeeds writes the source of what its declarations compile to. -/
theorem exists_wrote (ht : t.Ordered) (hrun : (a.run.run.outcome t).1 = .ok ())
    (hc : (compileDirectory t a.inDirectory).result = .ok c)
    (hplace : a.FindsSource (a.run.run.outcome t).2.1 place) :
    ∃ routes document, a.Wrote c t (a.run.run.outcome t).2.1 routes document ∧
      place = routes ++ [routesFileName] := by
  obtain ⟨c', hwrites⟩ := (a.leaves_run_writes t).outcome hrun
  obtain rfl : c' = c := Except.ok.inj (hwrites.compiled.symm.trans hc)
  obtain ⟨routes, document, hwrote⟩ := hwrites.wrote ht
  have hleads := hplace.2.symm.trans hwrote.routes_held.leads
  exact ⟨routes, document, hwrote, Except.ok.inj hleads⟩

/-- If a run right after another one succeeds, it has parsed the source of the first one, in case it
has found it. -/
theorem parses_source (ht : t.Ordered) (hrun : (a.run.run.outcome t).1 = .ok ())
    (hc : (compileDirectory t a.inDirectory).result = .ok c)
    (hplace : a.FindsSource (a.run.run.outcome t).2.1 place)
    (hagain : (a.run.run.outcome (a.run.run.outcome t).2.1).1 = .ok ()) :
    ∃ path f, SourceFile.parse path (a.sourceNames.render c.groups).value = .ok f := by
  obtain ⟨routes, document, hwrote, rfl⟩ := exists_wrote ht hrun hc hplace
  obtain ⟨k, hwrites⟩ := (a.leaves_run_writes _).outcome hagain
  have hk := hwrites.compiled
  obtain ⟨entries, hfound⟩ := exists_directory_of_compileFound hk
  rw [compileDirectory, hfound] at hk
  obtain ⟨files, hfiles, -⟩ := compileFound_ok_iff.1 hk
  obtain ⟨path, hmem⟩ := hwrote.mem_declarations hfound hplace.1
  obtain ⟨f, -, text, htext, hf⟩ := exists_of_mem_left hfiles hmem
  obtain rfl := Except.ok.inj ((decodeText_toUTF8 _).symm.trans htext)
  exact ⟨path, f, hf⟩

/-- If the source of a run is the only declaration file after it and the run repeats, the document
is that of no declarations. -/
theorem document_of_source_alone (ht : t.Ordered) (hrun : (a.run.run.outcome t).1 = .ok ())
    (hc : (compileDirectory t a.inDirectory).result = .ok c)
    (hplace : a.FindsSource (a.run.run.outcome t).2.1 place)
    (hreadable : a.sourceNames.IsReadable c.groups)
    (halone : ∃ path, ((a.run.run.outcome t).2.1.find? a.inDirectory).map (fun found =>
      (found.declarations a.inDirectory "").map (·.path)) = some [path])
    (h : a.Repeats t) : ∃ k, (compile []).result = .ok k ∧
      c.document.value.print.value = k.document.value.print.value := by
  obtain ⟨routes, document, hwrote, rfl⟩ := exists_wrote ht hrun hc hplace
  obtain ⟨hagain, hsame⟩ := h
  obtain ⟨k, hwrites⟩ := (a.leaves_run_writes _).outcome hagain
  obtain ⟨routes', document', hwrote'⟩ := hwrites.wrote hwrote.ordered
  rw [hsame] at hwrote'
  refine ⟨k, ?_, hwrote.document_held.unique hwrote'.document_held⟩
  -- the second run finds the source of the first one and nothing else
  have hk := hwrites.compiled
  obtain ⟨entries, hfound⟩ := exists_directory_of_compileFound hk
  obtain ⟨p, hmem⟩ := hwrote.mem_declarations hfound hplace.1
  rw [compileDirectory, hfound] at hk
  obtain ⟨files, hfiles, hk⟩ := compileFound_ok_iff.1 hk
  obtain ⟨path, hpaths⟩ := halone
  rw [hfound, Option.map_some, FileTree.declarations] at hpaths
  obtain ⟨found, honly, -⟩ := List.map_eq_singleton_iff.1 (Option.some.inj hpaths)
  rw [honly] at hmem hfiles
  obtain rfl := List.mem_singleton.1 hmem
  obtain ⟨f, _, ⟨text, htext, hf⟩, hnone, rfl⟩ := List.forall₂_cons_left_iff.1 hfiles
  cases hnone
  obtain rfl := Except.ok.inj ((decodeText_toUTF8 _).symm.trans htext)
  -- and the source declares nothing
  obtain ⟨f', hf', hsilent⟩ := parse_source hc hreadable p
  obtain rfl := Except.ok.inj (hf.symm.trans hf')
  have hnone := @compile_silent [] [f] [] (List.forall_mem_singleton.2 hsilent)
  exact hnone.symm.trans hk

/-! ## Running again -/

/-- A tree with one declaration file. -/
def protoTree (name text : String) : FileTree :=
  .directory [("proto", .directory [(name, .file text.toUTF8)])]

theorem ordered_protoTree (name text : String) : (protoTree name text).Ordered := by
  have hfile : ∀ entry ∈ [(name, FileTree.file text.toUTF8)], entry.2.Ordered :=
    List.forall_mem_singleton.2 (.file _)
  refine .directory (List.pairwise_singleton _ _) (List.forall_mem_singleton.2 ?_)
  exact .directory (List.pairwise_singleton _ _) hfile

/-- A service with a route. -/
def routeText : String :=
  "pub trait PingService \x7b
   #[doc = r\"@route GET /\"] fn get(&self, c: &Context, r: &()) -> Result<(), Error>; \x7d"

/-- Arguments that have the source written below the declarations. -/
def intoGen : Arguments := ⟨"proto", "proto/gen", none, defaultRuntimeCrate, false⟩

/-- A service without methods. -/
def pingText : String := "pub trait PingService \x7b\x7d"

/-- Arguments that have everything in one directory. -/
def inOne (protoModule : String) : Arguments :=
  ⟨"proto", "proto", some protoModule, defaultRuntimeCrate, false⟩

/-- The source takes the place of the only declaration file. -/
theorem replaced_not_repeats :
    ((inOne defaultProtoModule).run.run.outcome (protoTree "routes.rs" pingText)).1 = .ok () ∧
      ¬ (inOne defaultProtoModule).Repeats (protoTree "routes.rs" pingText) := by
  have hrun : ((inOne defaultProtoModule).run.run.outcome (protoTree "routes.rs" pingText)).1 =
      .ok () := by
    decide +kernel
  refine ⟨hrun, fun hrepeats => ?_⟩
  obtain ⟨c, hc, hroutes⟩ : ∃ c,
      (compileDirectory (protoTree "routes.rs" pingText) "proto").result = .ok c ∧
        decide (∀ g ∈ c.groups, ∀ r ∈ g.routes, SourceNames.IsUsable g r) = true :=
    exists_of_any (by decide +kernel)
  obtain ⟨k, hk, htext⟩ := document_of_source_alone (ordered_protoTree _ _) hrun hc
    ⟨⟨["proto"], ["routes.rs"], by decide +kernel, rfl, by decide⟩, by decide +kernel⟩
    ⟨fun _ => ⟨⟨_, SourceNames.isPathOf_defaultProtoModule⟩,
      _, SourceNames.isPathOf_defaultRuntimeCrate⟩, of_decide_eq_true hroutes⟩
    ⟨"proto/routes.rs", by decide +kernel⟩ hrepeats
  have hdiffer : ((compileDirectory (protoTree "routes.rs" pingText) "proto").result.toOption.map
      fun c => c.document.value.print.value) ≠
      (compile []).result.toOption.map fun c => c.document.value.print.value := by
    decide +kernel
  rw [hc, hk] at hdiffer
  exact hdiffer (congrArg some htext)

/-- The source of a service without methods cannot be parsed if the path of the module has a
reserved word. -/
theorem no_parse_of_reserved_module {g : RouteGroup} (hname : g.name = "PingService")
    (hroutes : g.routes = []) (path : String) (f : SourceFile) :
    SourceFile.parse path (SourceNames.render ⟨"crate::type", defaultRuntimeCrate⟩ [g]).value ≠
      .ok f := by
  have hnone : (tokenize (Lexer.Piece.charsAll (SourceNames.sourcePieces ["crate", "type"]
      ["apicat_rpc"] [⟨"PingService", "", "", []⟩])) >>= items?).isOk = false := by
    decide +kernel
  have hchars : fileText (SourceNames.render ⟨"crate::type", defaultRuntimeCrate⟩ [g]).value =
      Lexer.Piece.charsAll (SourceNames.sourcePieces ["crate", "type"] ["apicat_rpc"]
        [⟨"PingService", "", "", []⟩]) := by
    have hpieces : SourceNames.sourcePieces ["crate", "type"] ["apicat_rpc"] [g] =
        SourceNames.sourcePieces ["crate", "type"] ["apicat_rpc"]
          [⟨"PingService", "", "", []⟩] := by
      simp [SourceNames.sourcePieces, SourceNames.blockPieces, hname, hroutes]
    have htext := @SourceNames.toList_render ⟨"crate::type", defaultRuntimeCrate⟩ ["crate", "type"]
      _ ⟨List.cons_ne_nil _ _, rfl⟩ SourceNames.isPathOf_defaultRuntimeCrate.toIsJoined [g]
    rw [fileText, htext, hpieces]
    rfl
  intro hparse
  obtain ⟨tokens, htokens, hparse⟩ := exists_of_bind_ok hparse
  obtain ⟨items, hitems, -⟩ := exists_of_bind_ok hparse
  rw [tokenizeFile, hchars] at htokens
  rw [htokens] at hnone
  have hfails : (items? tokens).isOk = false := hnone
  rw [hitems] at hfails
  cases hfails

/-- The second run finds a source that it cannot parse. -/
theorem misnamed_not_repeats :
    ((inOne "crate::type").run.run.outcome (protoTree "ping.rs" pingText)).1 = .ok () ∧
      ¬ (inOne "crate::type").Repeats (protoTree "ping.rs" pingText) := by
  have hrun : ((inOne "crate::type").run.run.outcome (protoTree "ping.rs" pingText)).1 = .ok () := by
    decide +kernel
  refine ⟨hrun, fun hrepeats => ?_⟩
  obtain ⟨c, hc, hgroups⟩ : ∃ c,
      (compileDirectory (protoTree "ping.rs" pingText) "proto").result = .ok c ∧
        (c.groups.map (fun g => (g.name, g.routes.length)) == [("PingService", 0)]) = true :=
    exists_of_any (by decide +kernel)
  obtain ⟨g, hgroup, hg⟩ := List.map_eq_singleton_iff.1 (beq_iff_eq.1 hgroups)
  obtain ⟨hname, hlength⟩ := Prod.mk.inj hg
  obtain ⟨path, f, hf⟩ := parses_source (ordered_protoTree _ _) hrun hc
    ⟨⟨["proto"], ["routes.rs"], by decide +kernel, rfl, by decide⟩, by decide +kernel⟩ hrepeats.1
  rw [hgroup] at hf
  exact no_parse_of_reserved_module hname (List.eq_nil_of_length_eq_zero hlength) path f hf

end Arguments

end ApiDecl
