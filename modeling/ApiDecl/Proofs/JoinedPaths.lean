import ApiDecl.Proofs.PathParameters

/-!
# Proofs: joined paths

A path goes to the router segment by segment, so the parts of a path that a slash joins go there on
their own (`routerPath_join`). The segments of a router's path are in its final form, for none has
braces around it (`isRouterPath_routerPath`), and only such paths stay as they are
(`routerPath_eq_self_iff`).
-/

namespace ApiDecl

/-! ## Segments -/

theorem pathSegments_injective : Function.Injective pathSegments := by
  intro p q h
  have hp := Text.intercalate_splitWhere '/' p.toList
  have hq := Text.intercalate_splitWhere '/' q.toList
  rw [pathSegments, pathSegments] at h
  exact String.toList_injective (by rw [← hp, ← hq, h])

theorem pathSegments_join (a b : String) :
    pathSegments (a ++ "/" ++ b) = pathSegments a ++ pathSegments b := by
  have hslash : "/".toList = ['/'] := rfl
  have hcut := Text.splitWhere_append (p := (· == '/')) (beq_self_eq_true '/') a.toList b.toList
  rw [pathSegments, String.toList_append, String.toList_append, hslash, List.append_assoc,
    List.singleton_append, hcut, pathSegments, pathSegments]

/-- A text without slashes is one segment. -/
theorem pathSegments_ofList {segment : List Char} (h : '/' ∉ segment) :
    pathSegments (String.ofList segment) = [segment] := by
  rw [pathSegments, String.toList_ofList]
  exact Text.splitWhere_of_none fun c hc => beq_false_of_ne (ne_of_mem_of_not_mem hc h)

/-- There is one segment more than slashes. -/
theorem length_pathSegments (path : String) :
    (pathSegments path).length = path.toList.count '/' + 1 :=
  Text.length_splitWhere '/' path.toList

theorem routerSegment_braced (name : List Char) : routerSegment (braced name) = ':' :: name := by
  rw [braced, routerSegment, List.getLast?_concat, if_pos rfl, List.dropLast_concat]

/-- What a segment becomes has no braces around it. -/
theorem Unbraces.ne_braced {segment piece : List Char} (h : Unbraces segment piece)
    (inner : List Char) : piece ≠ ApiDecl.braced inner := by
  cases h with
  | braced name =>
    intro heq
    have hcolon : ':' = '{' := (List.cons.inj heq).1
    exact absurd hcolon (by decide)
  | text hplain => exact hplain inner

/-- Exactly the segments without braces around them stay as they are. -/
theorem routerSegment_eq_self_iff {segment : List Char} :
    routerSegment segment = segment ↔ ∀ inner, segment ≠ braced inner := by
  have hunbraces := unbraces_routerSegment segment
  constructor
  · intro h
    rw [h] at hunbraces
    exact hunbraces.ne_braced
  · intro hplain
    generalize routerSegment segment = piece at hunbraces ⊢
    cases hunbraces with
    | braced inner => exact absurd rfl (hplain inner)
    | text _ => rfl

/-! ## Paths -/

/-- No segment of the path has braces around it. -/
def IsRouterPath (path : String) : Prop :=
  ∀ segment ∈ pathSegments path, ∀ inner, segment ≠ braced inner

/-- The parts of a path go to the router on their own. -/
theorem routerPath_join (a b : String) :
    routerPath (a ++ "/" ++ b) = routerPath a ++ "/" ++ routerPath b := by
  apply pathSegments_injective
  rw [pathSegments_routerPath, pathSegments_join, List.map_append, pathSegments_join,
    pathSegments_routerPath, pathSegments_routerPath]

/-- A single segment in braces is a name behind a colon. -/
theorem routerPath_braced {name : List Char} (h : '/' ∉ name) :
    routerPath (String.ofList (braced name)) = String.ofList (':' :: name) := by
  have hbraced : '/' ∉ braced name := by simpa [braced] using h
  have hcolon : '/' ∉ ':' :: name := by simpa using h
  apply pathSegments_injective
  rw [pathSegments_routerPath, pathSegments_ofList hbraced, List.map_singleton,
    routerSegment_braced, pathSegments_ofList hcolon]

theorem count_slash_routerPath (path : String) :
    (routerPath path).toList.count '/' = path.toList.count '/' := by
  have hlength : (pathSegments (routerPath path)).length = (pathSegments path).length := by
    rw [pathSegments_routerPath, List.length_map]
  rw [length_pathSegments, length_pathSegments] at hlength
  exact Nat.succ_inj.1 hlength

theorem isRouterPath_routerPath (path : String) : IsRouterPath (routerPath path) := by
  intro piece hpiece
  rw [pathSegments_routerPath] at hpiece
  obtain ⟨segment, -, rfl⟩ := List.mem_map.1 hpiece
  exact (unbraces_routerSegment segment).ne_braced

/-- Exactly the paths without braces around segments stay as they are. -/
theorem routerPath_eq_self_iff {path : String} : routerPath path = path ↔ IsRouterPath path := by
  have hsegments : routerPath path = path ↔
      (pathSegments path).map routerSegment = (pathSegments path).map id := by
    rw [← pathSegments_injective.eq_iff, pathSegments_routerPath, List.map_id]
  rw [hsegments, List.map_inj_left]
  exact forall₂_congr fun segment _ => routerSegment_eq_self_iff

/-- The path of a router keeps the structure of the declared one: what stands in front of a slash
and what stands behind it go to the router on their own, and there are as many slashes. A segment in
braces becomes a name behind a colon. No segment is left with braces around it, so that the router
has its own paths as they are, and no others. -/
theorem routerPath_keeps_structure :
    (∀ a b, routerPath (a ++ "/" ++ b) = routerPath a ++ "/" ++ routerPath b) ∧
    (∀ path, (routerPath path).toList.count '/' = path.toList.count '/') ∧
    (∀ name, '/' ∉ name → routerPath (String.ofList (braced name)) = String.ofList (':' :: name)) ∧
    (∀ path, IsRouterPath (routerPath path)) ∧
    (∀ path, routerPath path = path ↔ IsRouterPath path) ∧
    (∀ path, routerPath (routerPath path) = routerPath path) := by
  refine ⟨routerPath_join, count_slash_routerPath, fun _ => routerPath_braced,
    isRouterPath_routerPath, fun _ => routerPath_eq_self_iff, fun path => ?_⟩
  exact routerPath_eq_self_iff.2 (isRouterPath_routerPath path)

/-- Of nested braces the outer ones become a colon, and the others stay. -/
theorem nested_braces_keep_structure :
    '/' ∉ braced "id".toList ∧
    routerPath (String.ofList (braced (braced "id".toList))) =
      String.ofList (':' :: braced "id".toList) ∧
    IsRouterPath (String.ofList (':' :: braced "id".toList)) := by
  obtain ⟨-, -, hbraced, hrouter, -⟩ := routerPath_keeps_structure
  have hslash : '/' ∉ braced "id".toList := by decide
  have hpath := hbraced (braced "id".toList) hslash
  exact ⟨hslash, hpath, hpath ▸ hrouter _⟩

/-- Empty and open braces, a brace between two texts, and a name that has its colon already. -/
example : routerPath "/\x7b\x7d/\x7bid/a\x7bb\x7d/:id" = "/:/\x7bid/a\x7bb\x7d/:id" := by
  decide +kernel

end ApiDecl
