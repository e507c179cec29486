import ApiDecl.Proofs.ParsingPaths
import ApiDecl.Proofs.Pieces
import ApiDecl.Proofs.SnakeWords

/-!
# Proofs: the source of routes in pieces

The source of routes is put together from pieces. They have the text of the source, whatever the
module of the services and the crate of the adapter are made of (`SourceNames.toList_render`).
-/

namespace ApiDecl

open Syntax Syntax.Lexer Syntax.Lexer.Piece

namespace SourceNames

/-! ## Paths -/

/-- The pieces of the segments of a path behind the first one. -/
def stepPieces (words : List String) : List Piece :=
  words.flatMap fun w => [.mark ':', .mark ':', .word w]

/-- The pieces of a path. -/
def pathPieces : List String → List Piece
  | [] => []
  | v :: words => .word v :: stepPieces words

/-- The text is some texts with colons between them. -/
structure IsJoined (texts : List String) (path : String) : Prop where
  ne_nil : texts ≠ []
  text : path = "::".intercalate texts

/-- The text is a path of words that may be segments of paths. -/
structure IsPathOf (words : List String) (path : String) : Prop extends IsJoined words path where
  word : ∀ w ∈ words, IsWord w ∧ IsSegment w

theorem charsAll_append (l l' : List Piece) : charsAll (l ++ l') = charsAll l ++ charsAll l' := by
  induction l with
  | nil => rfl
  | cons p l ih => rw [List.cons_append, charsAll, charsAll, ih, List.append_assoc]

theorem charsAll_pathPieces (words : List String) :
    charsAll (pathPieces words) = ("::".intercalate words).toList := by
  rw [String.toList_intercalate]
  cases words with
  | nil => rfl
  | cons v words =>
    rw [pathPieces, charsAll, List.map_cons]
    induction words generalizing v with
    | nil => simp [stepPieces, charsAll, chars, List.intercalate]
    | cons w words ih =>
      rw [List.map_cons, List.intercalate_cons_cons, ← ih, stepPieces, List.flatMap_cons,
        charsAll_append]
      simp [stepPieces, charsAll, chars]

/-! ## The pieces of the source -/

/-- A line feed and the blanks in front of the next line. -/
def newLine (indent : Nat) : List Piece := .gap '\n' :: List.replicate indent (.gap ' ')

/-- The pieces of an import. -/
def importPieces (tree : List Piece) : List Piece :=
  [.word "use", .gap ' '] ++ tree ++ [.mark ';'] ++ newLine 0

/-- What stands in front of all blocks, in pieces. -/
def headerPieces : List Piece :=
  [.comment " Code generated by apicat-from-source. DO NOT EDIT."] ++ newLine 0 ++
    importPieces (pathPieces ["std", "sync", "Arc"]) ++ newLine 0 ++
    importPieces (pathPieces ["axum", "routing"] ++ [.mark ':', .mark ':',
      .group .brace [.word "on", .mark ',', .gap ' ', .word "MethodFilter"]]) ++
    importPieces (pathPieces ["axum", "Router"])

/-- The pieces of a parameter. -/
def parameterPieces (name : String) (type : List Piece) : List Piece :=
  [.word name, .mark ':', .gap ' '] ++ type

/-- The pieces of the type of a service that is shared. -/
def sharedPieces : List Piece := [.word "Arc", .mark '<', .word "S", .mark '>']

/-- The pieces of a function with a body. -/
def functionPieces (name : String) (parameters : List Piece) (service : List String)
    (content : List Piece) : List Piece :=
  [.word "pub", .gap ' ', .word "fn", .gap ' ', .word name, .mark '<', .word "S", .mark '>',
    .group .paren parameters, .gap ' ', .mark '-', .mark '>', .gap ' ', .word "Router"] ++
    newLine 0 ++ [.word "where"] ++ newLine 4 ++ [.word "S", .mark ':', .gap ' '] ++
    pathPieces service ++ [.gap ' ', .mark '+', .gap ' ', .word "Send", .gap ' ', .mark '+',
      .gap ' ', .word "Sync", .gap ' ', .mark '+', .gap ' ', .lifetime "static", .mark ','] ++
    newLine 0 ++ [.group .brace content] ++ newLine 0

/-- The pieces of the call that adds a route. -/
def callPieces (crate : List String) (path method name : String) : List Piece :=
  newLine 8 ++ [.mark '.', .word "route", .group .paren (newLine 12 ++ [.literal path, .mark ','] ++
    newLine 12 ++ [.word "on", .group .paren (pathPieces ["MethodFilter", method] ++
      [.mark ',', .gap ' '] ++ pathPieces (crate ++ ["handle"]) ++ [.group .paren ([.word "srv",
        .mark '.', .word "clone", .group .paren [], .mark ',', .gap ' '] ++
          pathPieces ["S", name])]), .mark ','] ++ newLine 8)]

/-- The pieces of the block of a group. -/
def blockPieces (module crate : List String) (g : RouteGroup) : List Piece :=
  newLine 0 ++ [.doc (" Routes of `" ++ g.name ++
    "` on their own router, for group-scoped layers.")] ++
    functionPieces (routesFunction g.name) (parameterPieces "srv" sharedPieces)
      (module ++ [g.name]) (newLine 4 ++ pathPieces ["Router", "new"] ++ [.group .paren []] ++
        g.routes.flatMap (fun r => callPieces crate (routerPath (g.fullPath r)) r.method.name r.name) ++
        newLine 0) ++ newLine 0 ++
    functionPieces (addFunction g.name) (parameterPieces "router" [.word "Router"] ++
      [.mark ',', .gap ' '] ++ parameterPieces "srv" sharedPieces) (module ++ [g.name])
      (newLine 4 ++ [.word "router", .mark '.', .word "merge", .group .paren
        [.word (routesFunction g.name), .group .paren [.word "srv"]]] ++ newLine 0)

/-- The pieces of the source. -/
def sourcePieces (module crate : List String) (groups : List RouteGroup) : List Piece :=
  headerPieces ++ groups.flatMap (blockPieces module crate)

theorem charsAll_flatMap {α : Type} (f : α → List Piece) (l : List α) :
    charsAll (l.flatMap f) = l.flatMap fun a => charsAll (f a) := by
  induction l with
  | nil => rfl
  | cons a l ih => rw [List.flatMap_cons, charsAll_append, ih, List.flatMap_cons]

theorem toList_header : header.toList = charsAll headerPieces := by
  decide +kernel

section Text

variable {names : SourceNames} {module crate : List String}

theorem IsJoined.concat {words : List String} {path : String} (h : IsJoined words path)
    (last : String) : "::".intercalate (words ++ [last]) = path ++ "::" ++ last := by
  rw [h.text, String.intercalate_append_of_ne_nil h.ne_nil (List.cons_ne_nil _ _),
    String.intercalate_singleton]

theorem toList_call (hcrate : IsJoined crate names.runtimeCrate) (g : RouteGroup) (r : Route) :
    '\n' :: (names.routeCall g r).toList =
      charsAll (callPieces crate (routerPath (g.fullPath r)) r.method.name r.name) ++ ['\n'] := by
  simp [callPieces, charsAll_append, charsAll_pathPieces, hcrate.concat, charsAll, chars, newLine,
    List.replicate, openingSign, closingSign, routeCall, call, ofLines, pathLiteral, handlerPath]

theorem toList_calls (hcrate : IsJoined crate names.runtimeCrate) (g : RouteGroup)
    (routes : List Route) :
    '\n' :: (String.join (routes.map (names.routeCall g))).toList =
      charsAll (routes.flatMap fun r =>
        callPieces crate (routerPath (g.fullPath r)) r.method.name r.name) ++ ['\n'] := by
  induction routes with
  | nil => rfl
  | cons r routes ih =>
    rw [List.map_cons, String.join_cons, String.toList_append, ← List.cons_append,
      toList_call hcrate, List.flatMap_cons, charsAll_append, List.append_assoc, List.append_assoc,
      ← ih]
    rfl

theorem ofLines_cons (line : String) (lines : List String) :
    ofLines (line :: lines) = line ++ "\n" ++ ofLines lines := by
  rw [ofLines, List.map_cons, String.join_cons, ofLines]

theorem charsAll_functionPieces (hmodule : IsJoined module names.protoModule)
    (name service : String) (parameters content : List Piece) :
    charsAll (functionPieces name parameters (module ++ [service]) (newLine 4 ++ content)) =
      "pub fn ".toList ++ (name.toList ++ ("<S>(".toList ++ (charsAll parameters ++
        (") -> Router\n".toList ++ ((ofLines (names.bound service)).toList ++
          ("    ".toList ++ (charsAll content ++ "\x7d\n".toList))))))) := by
  simp [functionPieces, charsAll_append, charsAll_pathPieces, hmodule.concat, charsAll, chars,
    newLine, List.replicate, openingSign, closingSign, bound, ofLines, Text.apostrophe]

theorem charsAll_docPiece (service : String) :
    charsAll [.doc (" Routes of `" ++ service ++
      "` on their own router, for group-scoped layers.")] =
      ("/// Routes of `" ++ service ++
        "` on their own router, for group-scoped layers.\n").toList := by
  simp [charsAll, chars]

theorem toList_block (hmodule : IsJoined module names.protoModule)
    (hcrate : IsJoined crate names.runtimeCrate) (g : RouteGroup) :
    (names.block g).toList = charsAll (blockPieces module crate g) := by
  have hcalls : ∀ rest, charsAll (g.routes.flatMap fun r =>
      callPieces crate (routerPath (g.fullPath r)) r.method.name r.name) ++ '\n' :: rest =
      '\n' :: ((String.join (g.routes.map (names.routeCall g))).toList ++ rest) := by
    intro rest
    have h := congrArg (· ++ rest) (toList_calls hcrate g g.routes)
    simpa using h.symm
  have hpieces : charsAll (blockPieces module crate g) = charsAll (newLine 0) ++
      (charsAll [.doc (" Routes of `" ++ g.name ++
        "` on their own router, for group-scoped layers.")] ++
      (charsAll (functionPieces (routesFunction g.name) (parameterPieces "srv" sharedPieces)
        (module ++ [g.name]) (newLine 4 ++ (pathPieces ["Router", "new"] ++ [.group .paren []] ++
          g.routes.flatMap (fun r =>
            callPieces crate (routerPath (g.fullPath r)) r.method.name r.name) ++ newLine 0))) ++
      (charsAll (newLine 0) ++ charsAll (functionPieces (addFunction g.name)
        (parameterPieces "router" [.word "Router"] ++ [.mark ',', .gap ' '] ++
          parameterPieces "srv" sharedPieces) (module ++ [g.name])
        (newLine 4 ++ ([.word "router", .mark '.', .word "merge", .group .paren
          [.word (routesFunction g.name), .group .paren [.word "srv"]]] ++ newLine 0)))))) := by
    simp only [blockPieces, charsAll_append, List.append_assoc]
  have hnil : ofLines [] = "" := rfl
  rw [hpieces, charsAll_functionPieces hmodule, charsAll_functionPieces hmodule, charsAll_docPiece]
  simp [block, blockHead, blockFoot, ofLines_append, ofLines_cons, hnil, parameterPieces, sharedPieces,
    charsAll_append, charsAll_pathPieces, hcalls, charsAll, chars, newLine, openingSign,
    closingSign, routesFunction, addFunction]

/-- The text of the source is that of its pieces. -/
theorem toList_render (hmodule : IsJoined module names.protoModule)
    (hcrate : IsJoined crate names.runtimeCrate) (groups : List RouteGroup) :
    (names.render groups).value.toList = charsAll (sourcePieces module crate groups) := by
  have hblocks : (String.join (groups.map names.block)).toList =
      charsAll (groups.flatMap (blockPieces module crate)) := by
    rw [String.toList_join, charsAll_flatMap, List.flatMap_map]
    exact List.flatMap_congr fun g _ => toList_block hmodule hcrate g
  rw [names.value_render, String.toList_append, toList_header, hblocks, sourcePieces,
    charsAll_append]

end Text

end SourceNames

end ApiDecl
