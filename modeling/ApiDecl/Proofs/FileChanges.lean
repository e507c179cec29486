import ApiDecl.Files.Tree
import ApiDecl.Proofs.Result
import Mathlib.Data.List.TakeWhile
import Mathlib.Data.Option.Basic
import Mathlib.Tactic.SplitIfs

/-!
# Proofs: changes of a tree of files

Making directories changes no file, and writing a file changes the file at one place only. Both leave
everything where it is found, so paths lead to the same places before and after
(`FileTree.ChangesOnly`).
-/

namespace ApiDecl

theorem lookup_eq_find? {β : Type} (l : List (String × β)) (k : String) :
    l.lookup k = (l.find? fun entry => entry.1 == k).map (·.2) := by
  induction l with
  | nil => rfl
  | cons entry rest ih =>
    rw [List.lookup_cons, List.find?_cons, ih, BEq.comm]
    cases entry.1 == k <;> rfl

theorem lookup_putSorted {β : Type} (name : String) (b : β) (l : List (String × β)) (k : String) :
    (putSorted (·.1) (name, b) l).lookup k = if k = name then some b else l.lookup k := by
  rw [lookup_eq_find?, find?_putSorted, lookup_eq_find?]
  by_cases h : k = name
  · rw [if_pos h, if_pos h.symm, Option.map_some]
  · rw [if_neg h, if_neg (Ne.symm h)]

namespace FileTree

/-! ## Places in a tree -/

@[simp] theorem at?_nil (t : FileTree) : t.at? [] = some t := by
  rw [at?]

theorem at?_cons (t : FileTree) (name : String) (rest : List String) :
    t.at? (name :: rest) = (t.child? name).bind fun inner => inner.at? rest := by
  rw [at?]
  cases t.child? name <;> rfl

theorem at?_append (t : FileTree) (p q : List String) :
    t.at? (p ++ q) = (t.at? p).bind fun inner => inner.at? q := by
  induction p generalizing t with
  | nil => simp
  | cons name p ih =>
    rw [List.cons_append, at?_cons, at?_cons]
    cases t.child? name with
    | none => rfl
    | some inner => exact ih inner

theorem at?_snoc {t : FileTree} {place : List String} {entries : List (String × FileTree)}
    (h : t.at? place = some (.directory entries)) (name : String) :
    t.at? (place ++ [name]) = entries.lookup name := by
  rw [at?_append, h, Option.bind_some, at?_cons]
  simp [child?]

/-- Below a name that a directory does not have there is nothing. -/
theorem at?_below {t : FileTree} {place : List String} {entries : List (String × FileTree)}
    (h : t.at? place = some (.directory entries)) (name : String) (rest : List String) :
    t.at? (place ++ name :: rest) = (entries.lookup name).bind fun inner => inner.at? rest := by
  rw [at?_append, h, Option.bind_some, at?_cons, child?]

theorem at?_file (content : ByteArray) (name : String) (rest : List String) :
    (file content).at? (name :: rest) = none := by
  rw [at?_cons, child?, Option.bind_none]

/-! ## What is put in a place -/

section PutAt

variable {t : FileTree} (new : FileTree) {place : List String} {entries : List (String × FileTree)}

theorem at?_cons_eq_directory {name : String} {rest : List String}
    (h : t.at? (name :: rest) = some (.directory entries)) :
    ∃ around inner, t = .directory around ∧ around.lookup name = some inner ∧
      inner.at? rest = some (.directory entries) := by
  cases t with
  | file content => simp [at?_file] at h
  | directory around =>
    rw [at?_cons, child?] at h
    obtain ⟨inner, hinner, hrest⟩ := Option.bind_eq_some_iff.1 h
    exact ⟨around, inner, rfl, hinner, hrest⟩

theorem child?_putAt (around : List (String × FileTree)) (name k : String) (rest : List String) :
    ((directory around).putAt new (name :: rest)).child? k =
      if k = name then some (((around.lookup name).getD empty).putAt new rest)
      else around.lookup k := by
  rw [putAt, child?, lookup_putSorted]

/-- What is put into a directory is there, with everything in it. -/
theorem at?_putAt_below (h : t.at? place = some (.directory entries)) (name : String)
    (rest : List String) :
    (t.putAt new (place ++ [name])).at? (place ++ name :: rest) = new.at? rest := by
  induction place generalizing t with
  | nil =>
    obtain rfl := Option.some.inj ((at?_nil t).symm.trans h)
    rw [List.nil_append, List.nil_append, at?_cons, child?_putAt, if_pos rfl, putAt]
    rfl
  | cons step place ih =>
    obtain ⟨around, inner, rfl, hinner, hplace⟩ := at?_cons_eq_directory h
    rw [List.cons_append, List.cons_append, at?_cons, child?_putAt, if_pos rfl, hinner]
    exact ih hplace

/-- Where a place is not on the way to another one, nothing changes there at all. -/
theorem at?_putAt_beside (h : t.at? place = some (.directory entries)) {name : String}
    {other : List String} (hother : ¬ place ++ [name] <+: other) (hway : ¬ other <+: place) :
    (t.putAt new (place ++ [name])).at? other = t.at? other := by
  induction place generalizing t other with
  | nil =>
    obtain rfl := Option.some.inj ((at?_nil t).symm.trans h)
    cases other with
    | nil => exact absurd List.nil_prefix hway
    | cons k other =>
      have hne : k ≠ name := by
        rintro rfl
        exact hother (List.prefix_cons_inj k |>.2 List.nil_prefix)
      rw [List.nil_append, at?_cons, child?_putAt, if_neg hne, at?_cons, child?]
  | cons step place ih =>
    obtain ⟨around, inner, rfl, hinner, hplace⟩ := at?_cons_eq_directory h
    cases other with
    | nil => exact absurd List.nil_prefix hway
    | cons k other =>
      rw [List.cons_append, at?_cons, child?_putAt, at?_cons, child?]
      by_cases hk : k = step
      · subst hk
        rw [if_pos rfl, hinner]
        exact ih hplace (fun hp => hother (List.prefix_cons_inj k |>.2 hp))
          fun hp => hway (List.prefix_cons_inj k |>.2 hp)
      · rw [if_neg hk]

/-- On the way to a place, what is there changes as the whole tree does. -/
theorem at?_putAt_above {inner : FileTree} (h : t.at? place = some inner) (below : List String) :
    (t.putAt new (place ++ below)).at? place = some (inner.putAt new below) := by
  induction place generalizing t with
  | nil =>
    rw [at?_nil] at h
    rw [at?_nil, List.nil_append, Option.some.inj h]
  | cons step place ih =>
    rw [at?_cons] at h
    obtain ⟨next, hnext, hplace⟩ := Option.bind_eq_some_iff.1 h
    cases t with
    | file content => cases hnext
    | directory around =>
      have hlookup : around.lookup step = some next := hnext
      rw [List.cons_append, at?_cons, child?_putAt, if_pos rfl, hlookup]
      exact ih hplace

/-- Everywhere else a tree stays as it is, but for the entries of the directories on the way. -/
theorem at?_putAt_other (h : t.at? place = some (.directory entries)) {name : String}
    {other : List String} (hother : ¬ place ++ [name] <+: other) :
    (t.putAt new (place ++ [name])).at? other = t.at? other ∨
      ∃ es es', t.at? other = some (.directory es) ∧
        (t.putAt new (place ++ [name])).at? other = some (.directory es') := by
  by_cases hway : other <+: place
  · obtain ⟨below, rfl⟩ := hway
    rw [at?_append] at h
    obtain ⟨inner, hinner, hbelow⟩ := Option.bind_eq_some_iff.1 h
    rw [List.append_assoc, at?_putAt_above new hinner]
    -- there is a directory on the way to another one, and it stays one
    cases inner with
    | file content => cases below <;> simp [at?_file] at hbelow
    | directory es => cases below <;> exact .inr ⟨es, _, hinner, rfl⟩
  · exact .inl (at?_putAt_beside new h hother hway)

end PutAt

/-! ## Changes at some places only -/

/-- Only the files at some places change. What is found is still found, and directories stay. -/
structure ChangesOnly (places : List (List String)) (t t' : FileTree) : Prop where
  found : ∀ p, (t.at? p).isSome → (t'.at? p).isSome
  directory : ∀ p es, t.at? p = some (.directory es) → ∃ es', t'.at? p = some (.directory es')
  file : ∀ p, p ∉ places → ∀ content,
    t'.at? p = some (.file content) ↔ t.at? p = some (.file content)

namespace ChangesOnly

variable {places places' : List (List String)} {t t' t'' : FileTree}

theorem refl (t : FileTree) : ChangesOnly [] t t where
  found _ h := h
  directory _ es h := ⟨es, h⟩
  file _ _ _ := Iff.rfl

theorem trans (h : ChangesOnly places t t') (h' : ChangesOnly places' t' t'') :
    ChangesOnly (places ++ places') t t'' where
  found p hp := h'.found p (h.found p hp)
  directory p es hp := by
    obtain ⟨es', hp'⟩ := h.directory p es hp
    exact h'.directory p es' hp'
  file p hp content := by
    obtain ⟨hp, hp'⟩ := not_or.1 (mt List.mem_append.2 hp)
    exact (h'.file p hp' content).trans (h.file p hp content)

/-- A path leads to the same place before and after. -/
theorem follow (h : ChangesOnly places t t') {place p steps : List String}
    (hp : t.follow place steps = .ok p) : t'.follow place steps = .ok p := by
  induction steps generalizing place with
  | nil =>
    rw [FileTree.follow] at hp ⊢
    exact hp
  | cons step rest ih =>
    rw [FileTree.follow] at hp ⊢
    match hat : t.at? place with
    | none => simp [hat] at hp
    | some (.file content) => simp [hat] at hp
    | some (.directory es) =>
      obtain ⟨es', hat'⟩ := h.directory place es hat
      rw [hat] at hp
      rw [hat']
      dsimp only at hp ⊢
      by_cases hhere : step = Path.here
      · rw [if_pos hhere] at hp ⊢
        exact ih hp
      · rw [if_neg hhere] at hp ⊢
        by_cases habove : step = Path.above
        · rw [if_pos habove] at hp ⊢
          split at hp
          · cases hp
          · next hne =>
            rw [if_neg hne]
            exact ih hp
        · rw [if_neg habove] at hp ⊢
          split at hp
          · next hsome =>
            have hsome' : (es'.lookup step).isSome := by
              rw [← at?_snoc hat' step]
              exact h.found _ (by rwa [at?_snoc hat step])
            rw [if_pos hsome']
            exact ih hp
          · cases hp

theorem place? (h : ChangesOnly places t t') {path : String} {p : List String}
    (hp : t.place? path = .ok p) : t'.place? path = .ok p := by
  unfold FileTree.place? at hp ⊢
  split at hp
  · cases hp
  · next hpath =>
    rw [if_neg hpath]
    exact h.follow hp

theorem hasDirectory (h : ChangesOnly places t t') {path : String}
    (hd : t.hasDirectory path = true) : t'.hasDirectory path = true := by
  unfold FileTree.hasDirectory find? at hd ⊢
  cases hp : t.place? path with
  | error fault => simp [hp] at hd
  | ok p =>
    rw [hp] at hd
    rw [h.place? hp]
    obtain ⟨inner, hat, hinner⟩ := (Option.any_eq_true _ _).1 hd
    cases inner with
    | file content => cases hinner
    | directory es =>
      obtain ⟨es', hat'⟩ := h.directory p es hat
      dsimp only
      rw [hat']
      rfl

end ChangesOnly

/-- What a new entry of a directory has to be like if it takes the place of what was there. -/
theorem changesOnly_putAt {places : List (List String)} {t new : FileTree} {place : List String}
    {name : String} {entries : List (String × FileTree)}
    (h : t.at? place = some (.directory entries))
    (hfound : ∀ rest, (t.at? (place ++ name :: rest)).isSome → (new.at? rest).isSome)
    (hdirectory : ∀ rest es, t.at? (place ++ name :: rest) = some (.directory es) →
      ∃ es', new.at? rest = some (.directory es'))
    (hfile : ∀ rest, place ++ name :: rest ∉ places → ∀ content,
      new.at? rest = some (.file content) ↔ t.at? (place ++ name :: rest) = some (.file content)) :
    ChangesOnly places t (t.putAt new (place ++ [name])) := by
  have hbelow : ∀ p, place ++ [name] <+: p → ∃ rest, p = place ++ name :: rest := by
    rintro p ⟨rest, rfl⟩
    exact ⟨rest, by rw [List.append_assoc, List.singleton_append]⟩
  constructor
  · intro p hp
    by_cases hprefix : place ++ [name] <+: p
    · obtain ⟨rest, rfl⟩ := hbelow p hprefix
      rw [at?_putAt_below new h]
      exact hfound rest hp
    · rcases at?_putAt_other new h hprefix with hsame | ⟨es, es', -, hp'⟩
      · rwa [hsame]
      · rw [hp']
        rfl
  · intro p es hp
    by_cases hprefix : place ++ [name] <+: p
    · obtain ⟨rest, rfl⟩ := hbelow p hprefix
      rw [at?_putAt_below new h]
      exact hdirectory rest es hp
    · rcases at?_putAt_other new h hprefix with hsame | ⟨es, es', -, hp'⟩
      · exact ⟨es, hsame.trans hp⟩
      · exact ⟨es', hp'⟩
  · intro p hp content
    by_cases hprefix : place ++ [name] <+: p
    · obtain ⟨rest, rfl⟩ := hbelow p hprefix
      rw [at?_putAt_below new h]
      exact hfile rest hp content
    · rcases at?_putAt_other new h hprefix with hsame | ⟨es, es', hes, hes'⟩
      · rw [hsame]
      · simp [hes, hes']

/-! ## Making directories -/

section MakeDirectory

variable {t t' : FileTree} {path : String}

theorem makeDirectory_eq_ok (h : t.makeDirectory path = .ok t') :
    ∃ before name place entries, lastStep? path = some (before, name) ∧
      t.follow [] before = .ok place ∧ t.at? place = some (.directory entries) ∧
      ¬ (name = Path.here ∨ name = Path.above) ∧ entries.lookup name = none ∧
      t' = t.putAt empty (place ++ [name]) := by
  unfold makeDirectory at h
  split at h
  · next before name hlast =>
    obtain ⟨place, hplace, h⟩ := exists_of_bind_ok h
    split at h
    · next entries hat =>
      split at h
      · cases h
      · next hname =>
        obtain ⟨hhere, habove, hnone⟩ := not_or.1 hname |>.imp_right not_or.1
        refine ⟨before, name, place, entries, hlast, hplace, hat, not_or.2 ⟨hhere, habove⟩, ?_, ?_⟩
        · exact Option.not_isSome_iff_eq_none.1 hnone
        · cases h
          rfl
    · cases h
    · cases h
  · cases h

theorem makeDirectory_changes (h : t.makeDirectory path = .ok t') : ChangesOnly [] t t' := by
  obtain ⟨before, name, place, entries, -, -, hat, -, hnone, rfl⟩ := makeDirectory_eq_ok h
  -- there was nothing at the place of the new directory and below it
  have hbelow : ∀ rest, t.at? (place ++ name :: rest) = none := fun rest => by
    rw [at?_below hat, hnone, Option.bind_none]
  have hempty : ∀ rest content, empty.at? rest ≠ some (.file content) := by
    intro rest content
    cases rest with
    | nil => simp [empty]
    | cons step rest => simp [at?_cons, empty, child?]
  refine changesOnly_putAt hat ?_ ?_ ?_
  · intro rest hsome
    simp [hbelow] at hsome
  · intro rest es hes
    simp [hbelow] at hes
  · intro rest _ content
    simp [hbelow, hempty]

theorem makeDirectories_changes (depth : Nat) :
    ChangesOnly [] t (t.makeDirectories depth path).1 := by
  induction depth generalizing t path with
  | zero => exact .refl t
  | succ depth ih =>
    unfold makeDirectories
    split
    · exact .refl t
    · split
      · next t' hmake => exact makeDirectory_changes hmake
      · split
        · exact .refl t
        · next parent _ =>
          have hparent : ChangesOnly [] t (t.makeDirectories depth parent).1 := ih
          split
          · next t' fault hmade =>
            rw [hmade] at hparent
            exact hparent
          · next t' hmade =>
            rw [hmade] at hparent
            split
            · next t'' hmake => exact hparent.trans (makeDirectory_changes hmake)
            · exact hparent
      · exact .refl t

/-- Making a directory changes no file. -/
theorem createDirectory_changes : ChangesOnly [] t (t.createDirectory path).1 :=
  makeDirectories_changes _

end MakeDirectory

/-! ## Writing files -/

section WriteFile

variable {t t' : FileTree} {path : String}

theorem writeFile_eq_ok {content : ByteArray} (h : t.writeFile path content = .ok t') :
    ∃ before name place entries, lastStep? path = some (before, name) ∧
      t.follow [] before = .ok place ∧ t.at? place = some (.directory entries) ∧
      ¬ (name = Path.here ∨ name = Path.above) ∧ path.toList.getLast? ≠ some '/' ∧
      (∀ es, entries.lookup name ≠ some (.directory es)) ∧
      t' = t.putAt (file content) (place ++ [name]) := by
  unfold writeFile at h
  split at h
  · next before name hlast =>
    obtain ⟨place, hplace, h⟩ := exists_of_bind_ok h
    split at h
    · next entries hat =>
      by_cases hname : name = Path.here ∨ name = Path.above ∨ path.toList.getLast? = some '/'
      · rw [if_pos hname] at h
        cases h
      · rw [if_neg hname] at h
        obtain ⟨hhere, habove, hslash⟩ := not_or.1 hname |>.imp_right not_or.1
        split at h
        · cases h
        · next hother =>
          refine ⟨before, name, place, entries, hlast, hplace, hat, not_or.2 ⟨hhere, habove⟩,
            hslash, hother, ?_⟩
          cases h
          rfl
    · cases h
    · cases h
  · cases h

/-- Writing a file changes the file at one place only. -/
theorem writeFile_putAt (content : ByteArray) {place : List String} {name : String}
    {entries : List (String × FileTree)}
    (hat : t.at? place = some (.directory entries))
    (hother : ∀ es, entries.lookup name ≠ some (.directory es)) :
    ChangesOnly [place ++ [name]] t (t.putAt (file content) (place ++ [name])) := by
  -- there was a file or nothing at the place, and nothing below it
  have hbelow : ∀ step rest, t.at? (place ++ name :: step :: rest) = none := by
    intro step rest
    rw [at?_below hat]
    cases hlookup : entries.lookup name with
    | none => rfl
    | some inner =>
      cases inner with
      | file content => exact at?_file content step rest
      | directory es => exact absurd hlookup (hother es)
  refine changesOnly_putAt hat ?_ ?_ ?_
  · intro rest hsome
    cases rest with
    | nil => rfl
    | cons step rest => simp [hbelow] at hsome
  · intro rest es hes
    cases rest with
    | nil =>
      rw [at?_snoc hat] at hes
      exact absurd hes (hother es)
    | cons step rest => simp [hbelow] at hes
  · intro rest hrest c
    cases rest with
    | nil => exact absurd (List.mem_singleton_self _) hrest
    | cons step rest => simp [hbelow, at?_file]

end WriteFile

end FileTree

/-! ## Paths and their steps -/

namespace Path

/-- The name of an entry of a directory. -/
structure IsName (name : String) : Prop where
  no_slash : '/' ∉ name.toList
  ne_empty : name ≠ ""
  ne_here : name ≠ here
  ne_above : name ≠ above

/-- A path below another one is that path with a slash and the name behind it; if the other path has
a slash at its end already, that slash is not doubled. -/
theorem join_cases {base : String} (hbase : base ≠ "") (name : String) :
    (∃ front, base = front ++ "/" ∧ join base name = front ++ "/" ++ name) ∨
      join base name = base ++ "/" ++ name := by
  rw [join, if_neg hbase]
  split
  · next hlast =>
    obtain ⟨front, hfront⟩ := List.getLast?_eq_some_iff.1 hlast
    have heq : base = String.ofList front ++ "/" := by
      apply String.toList_injective
      simpa using hfront
    exact .inl ⟨String.ofList front, heq, heq ▸ rfl⟩
  · exact .inr rfl

theorem splitOn_slash {name : String} (hname : IsName name) (front : String) :
    Text.splitOn '/' (front ++ "/" ++ name) = Text.splitOn '/' front ++ [name] := by
  rw [show "/" = String.singleton '/' from rfl, Text.splitOn_append,
    Text.splitOn_of_not_mem hname.no_slash]

theorem splitOn_slash_end (front : String) :
    Text.splitOn '/' (front ++ "/") = Text.splitOn '/' front ++ [""] := by
  have h := Text.splitOn_append '/' front ""
  rwa [String.append_empty] at h

theorem steps_name {name : String} (hname : IsName name) (front : String) :
    steps (front ++ "/" ++ name) = steps front ++ [name] := by
  rw [steps, splitOn_slash hname, List.map_append, List.map_singleton, if_neg hname.ne_empty, steps]

theorem steps_slash_end (front : String) : steps (front ++ "/") = steps front ++ [here] := by
  rw [steps, splitOn_slash_end, List.map_append, List.map_singleton, if_pos rfl, steps]

/-- The last step of a path below another one is its name. -/
theorem steps_join (base : String) {name : String} (h : IsName name) :
    ∃ before, steps (join base name) = before ++ [name] := by
  by_cases hbase : base = ""
  · refine ⟨[], ?_⟩
    rw [join, if_pos hbase, steps, Text.splitOn_of_not_mem h.no_slash, List.map_singleton,
      if_neg h.ne_empty, List.nil_append]
  · rcases join_cases hbase name with ⟨front, -, hjoin⟩ | hjoin
    · exact ⟨_, hjoin ▸ steps_name h front⟩
    · exact ⟨_, hjoin ▸ steps_name h base⟩

end Path

namespace FileTree

/-- Behind its last step a path has only slashes. -/
theorem steps_of_lastStep? {path name : String} {before : List String}
    (h : lastStep? path = some (before, name)) :
    Path.isAbsolute path = false ∧ path ≠ "" ∧
      ∃ slashes, Path.steps path = before ++ name :: List.replicate slashes Path.here := by
  unfold lastStep? at h
  split at h
  · cases h
  · next habsolute =>
    have hpath : path ≠ "" := by
      rintro rfl
      simp [Text.splitOn, Text.splitWhere] at h
    refine ⟨by simpa using habsolute, hpath, ?_⟩
    split at h
    · cases h
    · next last rest hdrop =>
      cases h
      have hback := List.takeWhile_append_dropWhile (p := (· == ""))
        (l := (Text.splitOn '/' path).reverse)
      have hblank : ∀ s ∈ (Text.splitOn '/' path).reverse.takeWhile (· == ""), s = "" :=
        fun s hs => beq_iff_eq.1 (List.mem_takeWhile_imp (p := (· == "")) hs)
      have hhead := List.head?_dropWhile_not (· == "") (Text.splitOn '/' path).reverse
      rw [hdrop] at hback hhead
      generalize (Text.splitOn '/' path).reverse.takeWhile (· == "") = blank at hback hblank
      have hpieces : Text.splitOn '/' path = rest.reverse ++ name :: blank.reverse := by
        rw [← List.reverse_reverse (Text.splitOn '/' path), ← hback]
        simp
      have hhere : ∀ s ∈ blank.reverse, (if s = "" then Path.here else s) = Path.here := by
        intro s hs
        rw [if_pos (hblank s (List.mem_reverse.1 hs))]
      have hlast : name ≠ "" := by simpa using hhead
      refine ⟨blank.length, ?_⟩
      rw [Path.steps, hpieces, List.map_append, List.map_cons, if_neg hlast,
        List.map_congr_left hhere, List.map_const', List.length_reverse]

theorem steps_of_lastStep?_join {base name last : String} {before : List String}
    (hname : Path.IsName name) (h : lastStep? (Path.join base name) = some (before, last)) :
    last = name ∧ Path.steps (Path.join base name) = before ++ [name] := by
  obtain ⟨-, -, slashes, hsteps⟩ := steps_of_lastStep? h
  obtain ⟨around, hjoin⟩ := Path.steps_join base hname
  rw [hjoin] at hsteps
  rcases slashes.eq_zero_or_eq_succ_pred with hzero | hsucc
  · rw [hzero, List.replicate_zero] at hsteps
    obtain ⟨rfl, hlast⟩ := List.append_inj' hsteps rfl
    cases hlast
    exact ⟨rfl, hjoin⟩
  · rw [hsucc, List.replicate_succ', ← List.cons_append, ← List.append_assoc] at hsteps
    obtain ⟨-, hlast⟩ := List.append_inj' hsteps rfl
    exact absurd (List.singleton_injective hlast) hname.ne_here

theorem follow_append (t : FileTree) (place steps more : List String) :
    t.follow place (steps ++ more) = t.follow place steps >>= fun p => t.follow p more := by
  induction steps generalizing place with
  | nil =>
    rw [List.nil_append, follow.eq_1]
    rfl
  | cons step steps ih =>
    rw [List.cons_append, follow, follow]
    match t.at? place with
    | none => rfl
    | some (.file _) => rfl
    | some (.directory entries) =>
      dsimp only
      rw [ih, ih, ih]
      split_ifs <;> rfl

theorem follow_of_place? {t : FileTree} {path : String} {place : List String}
    (h : t.place? path = .ok place) :
    path ≠ "" ∧ Path.isAbsolute path = false ∧ t.follow [] (Path.steps path) = .ok place := by
  rw [place?] at h
  split at h
  · cases h
  · next hstart =>
    obtain ⟨hne, habsolute⟩ := not_or.1 hstart
    exact ⟨hne, by simpa using habsolute, h⟩

/-- A name in a directory that exists is a step to what has that name. -/
theorem follow_name {t : FileTree} {place : List String} {name : String} {inner : FileTree}
    (hname : Path.IsName name) (hat : t.at? (place ++ [name]) = some inner) {entries}
    (hplace : t.at? place = some (.directory entries)) :
    t.follow place [name] = .ok (place ++ [name]) := by
  have hsome : (entries.lookup name).isSome := by
    rw [← at?_snoc hplace name, hat]
    rfl
  rw [follow, hplace]
  dsimp only
  rw [if_neg hname.ne_here, if_neg hname.ne_above, if_pos hsome, follow]

/-- A file that is written is put into a directory, where no directory was, and is found by its path
afterwards. -/
theorem writeFile_eq_putAt {t t' : FileTree} {base name : String} {content : ByteArray}
    (hname : Path.IsName name) (h : t.writeFile (Path.join base name) content = .ok t') :
    ∃ place entries, t.at? place = some (.directory entries) ∧
      (∀ es, entries.lookup name ≠ some (.directory es)) ∧
      t' = t.putAt (file content) (place ++ [name]) ∧
      t'.place? (Path.join base name) = .ok (place ++ [name]) := by
  obtain ⟨before, last, place, entries, hlast, hplace, hat, hhere, -, hother, rfl⟩ :=
    writeFile_eq_ok h
  obtain ⟨habsolute, hpath, -⟩ := steps_of_lastStep? hlast
  obtain ⟨rfl, hsteps⟩ := steps_of_lastStep?_join hname hlast
  have hchanges := writeFile_putAt content hat hother
  have hplaced := at?_putAt_below (file content) hat last []
  obtain ⟨entries', hat'⟩ := hchanges.directory place entries hat
  refine ⟨place, entries, hat, hother, rfl, ?_⟩
  rw [place?, if_neg (by simp [habsolute, hpath]), hsteps, follow_append, hchanges.follow hplace]
  exact follow_name hname hplaced hat'

/-- Nothing else changes with a file that is written. -/
theorem writeFile_changes {t t' : FileTree} {base name : String} {content : ByteArray}
    (hname : Path.IsName name) (h : t.writeFile (Path.join base name) content = .ok t') :
    ∃ place, t'.place? (Path.join base name) = .ok (place ++ [name]) ∧
      t'.at? (place ++ [name]) = some (.file content) ∧ ChangesOnly [place ++ [name]] t t' := by
  obtain ⟨place, entries, hat, hother, rfl, hplace⟩ := writeFile_eq_putAt hname h
  have hplaced := at?_putAt_below (file content) hat name []
  rw [at?_nil] at hplaced
  exact ⟨place, hplace, hplaced, writeFile_putAt content hat hother⟩

end FileTree

end ApiDecl
