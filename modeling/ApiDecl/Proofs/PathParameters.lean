import ApiDecl.Proofs.RoutePaths

/-!
# Proofs: parameters in paths

A segment of a declared path is a parameter if it is a name in braces (`IsPathParameter`). A router
has such a segment behind a colon, and every other one as it is declared, unless the segment is
tangled (`IsTangled`): it starts with the opening brace of one parameter and ends with the closing
brace of another, or has braces inside a parameter. Only its outer braces are taken off, and what is
left is taken for a name (`routerPath_segments`).
-/

namespace ApiDecl

/-! ## Segments -/

/-- The segments of a path. -/
def pathSegments (path : String) : List (List Char) :=
  Text.splitWhere (· == '/') path.toList

/-- A text in braces. -/
def braced (inner : List Char) : List Char := '{' :: (inner ++ ['}'])

/-- The segment is a parameter of this name: there are braces around the name and none in it. -/
def IsPathParameter (segment name : List Char) : Prop :=
  segment = braced name ∧ '{' ∉ name ∧ '}' ∉ name

/-- The segment has braces around it, and more inside. -/
def IsTangled (segment : List Char) : Prop :=
  ∃ inner, segment = braced inner ∧ ('{' ∈ inner ∨ '}' ∈ inner)

/-- A declared segment and the same segment with a colon in front of the name if it is a
parameter. -/
inductive Rewrites : List Char → List Char → Prop
  | parameter {segment name : List Char} (h : IsPathParameter segment name) :
      Rewrites segment (':' :: name)
  | text {segment : List Char} (h : ∀ name, ¬ IsPathParameter segment name) :
      Rewrites segment segment

/-- A declared segment and the same segment with a colon in place of the braces around it, if there
are any. -/
inductive Unbraces : List Char → List Char → Prop
  | braced (inner : List Char) : Unbraces (braced inner) (':' :: inner)
  | text {segment : List Char} (h : ∀ inner, segment ≠ braced inner) : Unbraces segment segment

theorem braced_injective {inner inner' : List Char} (h : braced inner = braced inner') :
    inner = inner' := by
  simpa [braced] using h

/-- A router has every segment without the braces around it. -/
theorem unbraces_routerSegment (segment : List Char) :
    Unbraces segment (routerSegment segment) := by
  unfold routerSegment
  split
  · next rest =>
    split
    · next hlast =>
      obtain ⟨inner, rfl⟩ := List.getLast?_eq_some_iff.1 hlast
      rw [List.dropLast_concat]
      exact .braced inner
    · next hlast =>
      refine .text fun inner heq => hlast ?_
      rw [(List.cons.inj heq).2, List.getLast?_concat]
  · next hstart =>
    exact .text fun inner heq => hstart _ heq

/-- Taking the outer braces off is right for all segments but those with more braces inside. -/
theorem Unbraces.rewrites_iff {segment piece : List Char} (h : Unbraces segment piece) :
    Rewrites segment piece ↔ ¬ IsTangled segment := by
  cases h with
  | braced inner =>
    constructor
    · rintro hrewrites ⟨inner', heq, hbrace⟩
      cases braced_injective heq
      cases hrewrites with
      | parameter h => exact hbrace.elim h.2.1 h.2.2
    · intro htangled
      refine .parameter ⟨rfl, fun hopen => htangled ?_, fun hclose => htangled ?_⟩
      · exact ⟨inner, rfl, .inl hopen⟩
      · exact ⟨inner, rfl, .inr hclose⟩
  | text hplain =>
    refine iff_of_true (.text fun name h => hplain name h.1) ?_
    rintro ⟨inner, heq, -⟩
    exact hplain inner heq

/-! ## Paths -/

/-- Pieces without separators are read back from the text with separators between them. -/
theorem splitWhere_intercalate {separator : Char} {pieces : List (List Char)} (hne : pieces ≠ [])
    (h : ∀ piece ∈ pieces, separator ∉ piece) :
    Text.splitWhere (· == separator) ([separator].intercalate pieces) = pieces := by
  induction pieces with
  | nil => exact absurd rfl hne
  | cons piece rest ih =>
    obtain ⟨hpiece, hrest⟩ := List.forall_mem_cons.1 h
    have hwhole : Text.splitWhere (· == separator) piece = [piece] :=
      Text.splitWhere_of_none fun c hc => beq_false_of_ne fun heq => hpiece (heq ▸ hc)
    cases rest with
    | nil => rwa [List.intercalate_singleton]
    | cons next rest =>
      have hcut := Text.splitWhere_append (p := (· == separator)) (beq_self_eq_true separator) piece
        ([separator].intercalate (next :: rest))
      rw [List.intercalate_cons_cons, List.append_assoc, List.singleton_append, hcut, hwhole,
        ih (List.cons_ne_nil _ _) hrest, List.singleton_append]

theorem slash_not_mem_of_mem_pathSegments {path : String} {segment : List Char}
    (h : segment ∈ pathSegments path) : '/' ∉ segment := fun hslash => by
  simpa using Text.not_mem_of_mem_splitWhere h '/' hslash

theorem Unbraces.slash_not_mem {segment piece : List Char} (h : Unbraces segment piece)
    (hslash : '/' ∉ segment) : '/' ∉ piece := by
  cases h with
  | braced inner => simpa [ApiDecl.braced] using hslash
  | text _ => exact hslash

/-- The path of a router has the segments of the declared one, rewritten one by one. -/
theorem pathSegments_routerPath (path : String) :
    pathSegments (routerPath path) = (pathSegments path).map routerSegment := by
  rw [routerPath, pathSegments, String.toList_ofList]
  refine splitWhere_intercalate ?_ ?_
  · simpa using Text.splitWhere_ne_nil _ _
  · intro piece hpiece
    obtain ⟨segment, hsegment, rfl⟩ := List.mem_map.1 hpiece
    have hslash := slash_not_mem_of_mem_pathSegments hsegment
    exact (unbraces_routerSegment segment).slash_not_mem hslash

/-- The segments of every path go to the router one by one, each without the braces around it. That
is the name of the segment behind a colon if the segment is a parameter, and the segment as it is if
it is none, exactly unless the segment is tangled. -/
theorem routerPath_segments (path : String) :
    List.Forall₂
      (fun segment piece => Unbraces segment piece ∧ (Rewrites segment piece ↔ ¬ IsTangled segment))
      (pathSegments path) (pathSegments (routerPath path)) := by
  rw [pathSegments_routerPath, List.forall₂_map_right_iff, List.forall₂_same]
  intro segment _
  have hunbraces := unbraces_routerSegment segment
  exact ⟨hunbraces, hunbraces.rewrites_iff⟩

/-- A segment of two parameters, the name and the extension of a file. -/
def twoParameters : List Char := "\x7bname\x7d.\x7bext\x7d".toList

theorem isTangled_twoParameters : IsTangled twoParameters :=
  ⟨"name\x7d.\x7bext".toList, rfl, .inl (by decide)⟩

/-- Two parameters in one segment come to the router as one, with the inner braces in its name. -/
theorem two_parameters_tangle :
    routerPath "/files/\x7bname\x7d.\x7bext\x7d" = "/files/:name\x7d.\x7bext" ∧
      ¬ List.Forall₂ Rewrites (pathSegments "/files/\x7bname\x7d.\x7bext\x7d")
        (pathSegments (routerPath "/files/\x7bname\x7d.\x7bext\x7d")) := by
  refine ⟨by decide +kernel, fun h => ?_⟩
  have hmem : twoParameters ∈ pathSegments "/files/\x7bname\x7d.\x7bext\x7d" := by decide +kernel
  rw [pathSegments_routerPath, List.forall₂_map_right_iff, List.forall₂_same] at h
  exact (unbraces_routerSegment _).rewrites_iff.1 (h _ hmem) isTangled_twoParameters

end ApiDecl
