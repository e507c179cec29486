import ApiDecl.Proofs.RouteDeclarations
import ApiDecl.Route.RouterPath

/-!
# Proofs: the paths of routes

The paths of directives are words, so there is no blank in the path of a route
(`RouteGroup.DeclaredBy.isUnbroken_fullPath`). The path that a router has holds the same characters,
but for the braces and colons of parameters (`mem_routerPath`).
-/

namespace ApiDecl

open Compile Syntax

/-- There is no blank in the text. -/
def IsUnbroken (s : String) : Prop := ∀ c ∈ s.toList, Text.isBlank c = false

theorem isUnbroken_empty : IsUnbroken "" := by simp [IsUnbroken]

theorem IsUnbroken.append {s t : String} (hs : IsUnbroken s) (ht : IsUnbroken t) :
    IsUnbroken (s ++ t) := by
  intro c hc
  rw [String.toList_append, List.mem_append] at hc
  exact hc.elim (hs c) (ht c)

/-! ## Directives -/

theorem isUnbroken_of_mem_words {s word : String} (h : word ∈ Text.words s) : IsUnbroken word := by
  obtain ⟨piece, hpiece, rfl⟩ := List.mem_map.1 h
  obtain ⟨hpiece, -⟩ := List.mem_filter.1 hpiece
  rw [IsUnbroken, String.toList_ofList]
  exact Text.not_mem_of_mem_splitWhere hpiece

/-- How the words of a line spell a directive. -/
def Directive.IsSpelled (words : List String) : Directive → Prop
  | .group path => words = ["@group", path]
  | .route method path =>
    ∃ name, words = ["@route", name, path] ∧ HttpMethod.ofName? name = some method
  | .code status => ∃ number, words = ["@code", number] ∧ status? number = some status
  | .schema => words.head? = some "@schema"
  | .text _ => True

theorem isSpelled_of_directive? {line : DocLine} {owner : String} {d : Directive}
    (h : line.directive? owner = .ok (some d)) :
    d.IsSpelled (Text.words (Text.trim line.text)) := by
  unfold DocLine.directive? at h
  dsimp only at h
  split at h
  · cases h
  · split at h
    · next hwords =>
      cases h
      exact hwords
    · cases h
  · split at h
    · next name path hwords =>
      split at h
      · next method hmethod =>
        cases h
        exact ⟨name, hwords, hmethod⟩
      · cases h
    · cases h
  · split at h
    · next number hwords =>
      split at h
      · next status hstatus =>
        cases h
        exact ⟨number, hwords, hstatus⟩
      · cases h
    · cases h
  · next hwords =>
    cases h
    rw [Directive.IsSpelled, hwords]
    rfl
  · cases h
    trivial

theorem isUnbroken_of_group {line : DocLine} {owner path : String}
    (h : line.directive? owner = .ok (some (.group path))) : IsUnbroken path := by
  have hwords : Text.words (Text.trim line.text) = ["@group", path] := isSpelled_of_directive? h
  exact isUnbroken_of_mem_words (by rw [hwords]; simp)

theorem isUnbroken_of_route {line : DocLine} {owner path : String} {method : HttpMethod}
    (h : line.directive? owner = .ok (some (.route method path))) : IsUnbroken path := by
  obtain ⟨name, hwords, -⟩ := isSpelled_of_directive? h
  exact isUnbroken_of_mem_words (by rw [hwords]; simp)

/-! ## Documentation -/

/-- What every step keeps is kept by going through a list. -/
theorem foldlM_ok {α β ε : Type} {P : β → Prop} {f : β → α → Except ε β} {l : List α} {b b' : β}
    (hb : P b) (hf : ∀ b a b', P b → f b a = .ok b' → P b') (h : l.foldlM f b = .ok b') : P b' := by
  induction l generalizing b with
  | nil =>
    cases h
    exact hb
  | cons a l ih =>
    rw [List.foldlM_cons] at h
    obtain ⟨c, hc, h⟩ := exists_of_bind_ok h
    exact ih (hf b a c hb hc) h

theorem GroupDoc.isUnbroken_basePath {owner : String} {lines : List DocLine} {doc : GroupDoc}
    (h : GroupDoc.ofLines owner lines = .ok doc) : IsUnbroken doc.basePath := by
  refine foldlM_ok (P := fun doc => IsUnbroken doc.basePath) isUnbroken_empty ?_ h
  intro doc line doc' hdoc hadd
  obtain ⟨found, hfound, hadd⟩ := exists_of_bind_ok hadd
  split at hadd
  · cases hadd
    exact hdoc
  · cases hadd
    exact isUnbroken_of_group hfound
  · cases hadd
    exact hdoc

theorem RouteDoc.isUnbroken_path {owner : String} {lines : List DocLine} {doc : RouteDoc}
    (h : RouteDoc.ofLines owner lines = .ok doc) :
    ∀ route, doc.route = some route → IsUnbroken route.2.1 := by
  refine foldlM_ok (P := fun doc => ∀ route, doc.route = some route → IsUnbroken route.2.1)
    nofun ?_ h
  intro doc line doc' hdoc hadd
  obtain ⟨found, hfound, hadd⟩ := exists_of_bind_ok hadd
  split at hadd
  · cases hadd
    exact hdoc
  · dsimp only at hadd
    split at hadd
    · cases hadd
    · cases hadd
      rintro route ⟨⟩
      exact isUnbroken_of_route hfound
  · cases hadd
    exact hdoc
  · cases hadd
    exact hdoc

/-- There is no blank in the full path of a route. -/
theorem RouteGroup.DeclaredBy.isUnbroken_fullPath {file : String} {t : TraitDecl} {g : RouteGroup}
    (h : g.DeclaredBy file t) {r : Route} (hr : r ∈ g.routes) : IsUnbroken (g.fullPath r) := by
  obtain ⟨doc, hdoc, hbase, -⟩ := h.doc
  obtain ⟨m, -, hm⟩ := h.exists_method hr
  obtain ⟨routeDoc, hrouteDoc, hroute, -⟩ := hm.doc
  have hbasePath : IsUnbroken g.basePath := hbase ▸ GroupDoc.isUnbroken_basePath hdoc
  exact hbasePath.append (RouteDoc.isUnbroken_path hrouteDoc _ hroute)

/-! ## Paths of a router -/

theorem mem_intercalate {c separator : Char} (hc : c ≠ separator) (pieces : List (List Char)) :
    c ∈ [separator].intercalate pieces ↔ ∃ piece ∈ pieces, c ∈ piece := by
  induction pieces with
  | nil => simp [List.intercalate]
  | cons piece rest ih =>
    cases rest with
    | nil => simp [List.intercalate]
    | cons next rest =>
      simp [List.intercalate_cons_cons, ih, hc]

theorem mem_routerSegment {c : Char} (hopen : c ≠ '{') (hclose : c ≠ '}') (hcolon : c ≠ ':')
    (segment : List Char) : c ∈ routerSegment segment ↔ c ∈ segment := by
  unfold routerSegment
  split
  · next rest =>
    split
    · next hlast =>
      obtain ⟨name, rfl⟩ := List.getLast?_eq_some_iff.1 hlast
      simp [hopen, hclose, hcolon]
    · rfl
  · rfl

/-- A router has the same characters in its path, but for braces and colons. -/
theorem mem_routerPath {c : Char} (hslash : c ≠ '/') (hopen : c ≠ '{') (hclose : c ≠ '}')
    (hcolon : c ≠ ':') (path : String) : c ∈ (routerPath path).toList ↔ c ∈ path.toList := by
  have hpath := Text.intercalate_splitWhere '/' path.toList
  rw [routerPath, String.toList_ofList, mem_intercalate hslash]
  simp only [List.mem_map, exists_exists_and_eq_and, mem_routerSegment hopen hclose hcolon]
  rw [← mem_intercalate hslash, hpath]

end ApiDecl
