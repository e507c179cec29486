import ApiDecl.Proofs.Scanning

/-!
# Proofs: changing a tree again

A directory that has been made can be made again, and a file that has been written can be written
again with the same content. Both leave the tree as it is, also after other files have been written
(`FileTree.createDirectory_of_isReady`, `FileTree.writeFile_of_placed`).
-/

namespace ApiDecl

theorem Path.join_eq_append (base name : String) : ∃ before, join base name = before ++ name := by
  unfold join
  split
  · exact ⟨"", String.empty_append.symm⟩
  · split
    · exact ⟨base, rfl⟩
    · exact ⟨base ++ "/", rfl⟩

namespace FileTree

variable {t t' : FileTree} {path : String}

/-! ## Directories -/

/-- A path that is not empty and starts in the tree has a last step. -/
theorem exists_lastStep? (habsolute : Path.isAbsolute path = false) (hpath : path ≠ "") :
    ∃ before name, lastStep? path = some (before, name) := by
  obtain ⟨c, cs, hcs⟩ : ∃ c cs, path.toList = c :: cs := by
    refine List.exists_cons_of_ne_nil fun hnil => hpath ?_
    exact String.toList_injective hnil
  have hc : (c == '/') = false := by
    simpa [Path.isAbsolute, hcs] using habsolute
  -- the first piece of the path starts with its first character
  obtain ⟨first, rest, hpieces, hfirst⟩ : ∃ first rest, Text.splitOn '/' path = first :: rest ∧
      first ≠ "" := by
    rw [Text.splitOn, hcs, Text.splitWhere, hc]
    obtain ⟨piece, pieces, h⟩ := List.exists_cons_of_ne_nil (Text.splitWhere_ne_nil (· == '/') cs)
    rw [h]
    exact ⟨_, _, rfl, by simp⟩
  unfold lastStep?
  rw [habsolute, if_neg Bool.false_ne_true]
  split
  · next hnone =>
    have hall := List.dropWhile_eq_nil_iff.1 hnone first (by simp [hpieces])
    exact absurd (by simpa using hall) hfirst
  · exact ⟨_, _, rfl⟩

theorem follow_heres {place : List String} {entries : List (String × FileTree)}
    (h : t.at? place = some (.directory entries)) (count : Nat) :
    t.follow place (List.replicate count Path.here) = .ok place := by
  induction count with
  | zero => rw [List.replicate_zero, follow]
  | succ count ih =>
    rw [List.replicate_succ, follow, h]
    exact ih

/-- What a path to something leads through: a directory, and something in it or the directory
itself or the one around. -/
theorem place?_eq_ok {p : List String} (h : t.place? path = .ok p) :
    ∃ before name place entries, lastStep? path = some (before, name) ∧
      t.follow [] before = .ok place ∧ t.at? place = some (.directory entries) ∧
      (name = Path.here ∨ name = Path.above ∨ (entries.lookup name).isSome) ∧
      ∃ slashes, t.follow place (name :: List.replicate slashes Path.here) = .ok p := by
  obtain ⟨hne, habsolute, hsteps⟩ := follow_of_place? h
  obtain ⟨before, name, hlast⟩ := exists_lastStep? habsolute hne
  obtain ⟨-, -, slashes, hlaststeps⟩ := steps_of_lastStep? hlast
  rw [hlaststeps, follow_append] at hsteps
  obtain ⟨place, hplace, hfollow⟩ := exists_of_bind_ok hsteps
  have hrest := hfollow
  rw [follow] at hrest
  split at hrest
  · cases hrest
  · cases hrest
  · next entries hat =>
    refine ⟨before, name, place, entries, hlast, hplace, hat, ?_, slashes, hfollow⟩
    by_contra hname
    obtain ⟨hhere, habove, hnone⟩ := not_or.1 hname |>.imp_right not_or.1
    rw [if_neg hhere, if_neg habove, if_neg hnone] at hrest
    cases hrest

/-- A directory that exists cannot be made once more. -/
theorem makeDirectory_of_hasDirectory (h : t.hasDirectory path = true) :
    t.makeDirectory path = .error .alreadyExists := by
  unfold hasDirectory find? at h
  cases hp : t.place? path with
  | error fault => simp [hp] at h
  | ok p =>
    obtain ⟨before, name, place, entries, hlast, hplace, hat, hname, -⟩ := place?_eq_ok hp
    unfold makeDirectory
    rw [hlast]
    dsimp only
    rw [hplace, Compile.ok_bind, hat]
    dsimp only
    rw [if_pos hname]
    rfl

/-- The directories of a path are there. -/
def IsReady (t : FileTree) (path : String) : Prop := path = "" ∨ t.hasDirectory path = true

theorem ChangesOnly.isReady {places : List (List String)} (h : ChangesOnly places t t')
    (hready : t.IsReady path) : t'.IsReady path := hready.imp_right h.hasDirectory

/-- Making the directories of a path again changes nothing. -/
theorem createDirectory_of_isReady (h : t.IsReady path) : t.createDirectory path = (t, .ok ()) := by
  unfold createDirectory makeDirectories
  rcases h with hempty | h
  · rw [if_pos hempty]
  · split
    · rfl
    · rw [makeDirectory_of_hasDirectory h]

theorem hasDirectory_of_makeDirectory (h : t.makeDirectory path = .ok t') :
    t'.hasDirectory path = true := by
  have hchanges := makeDirectory_changes h
  obtain ⟨before, name, place, entries, hlast, hplace, hat, hname, -, rfl⟩ := makeDirectory_eq_ok h
  obtain ⟨hhere, habove⟩ := not_or.1 hname
  obtain ⟨habsolute, hne, slashes, hsteps⟩ := steps_of_lastStep? hlast
  obtain ⟨entries', hat'⟩ := hchanges.directory place entries hat
  have hnew := at?_putAt_below empty hat name []
  rw [at?_nil] at hnew
  have hsome : (entries'.lookup name).isSome := by
    rw [← at?_snoc hat' name, hnew]
    rfl
  have hplace' : (t.putAt empty (place ++ [name])).place? path = .ok (place ++ [name]) := by
    rw [place?, if_neg (by simp [habsolute, hne]), hsteps, follow_append, hchanges.follow hplace,
      Compile.ok_bind, follow, hat']
    dsimp only
    rw [if_neg hhere, if_neg habove, if_pos hsome]
    exact follow_heres hnew slashes
  rw [hasDirectory, find?, hplace']
  dsimp only
  rw [hnew]
  rfl

/-- After the directories of a path are made they are there. -/
theorem isReady_of_createDirectory (h : (t.createDirectory path).2 = .ok ()) :
    (t.createDirectory path).1.IsReady path := by
  have hlast : ∀ (t : FileTree) fault, (if t.hasDirectory path then .ok () else .error fault :
      Except IoFault Unit) = .ok () → t.hasDirectory path = true := by
    intro t fault h
    split at h
    · next hd => exact hd
    · cases h
  unfold createDirectory makeDirectories at h ⊢
  by_cases hpath : path = ""
  · exact .inl hpath
  rw [if_neg hpath] at h ⊢
  right
  revert h
  split
  · next hmake => exact fun _ => hasDirectory_of_makeDirectory hmake
  · split
    · intro h
      cases h
    · -- the directory is tried again after those around it
      split
      · intro h
        cases h
      · split
        · next hmake => exact fun _ => hasDirectory_of_makeDirectory hmake
        · exact hlast _ _
  · exact hlast _ _

/-! ## Files -/

/-- A file that is where its path leads can be written there again with the same content. -/
theorem writeFile_of_placed {base name : String} {place : List String} {content : ByteArray}
    (ht : t.Ordered) (hname : Path.IsName name) (hplace : t.place? (Path.join base name) = .ok place)
    (hat : t.at? place = some (.file content)) :
    t.writeFile (Path.join base name) content = .ok t := by
  obtain ⟨before, last, around, entries, hlast, hbefore, haround, -⟩ := place?_eq_ok hplace
  obtain ⟨rfl, hsteps⟩ := steps_of_lastStep?_join hname hlast
  obtain ⟨habsolute, hne, -⟩ := steps_of_lastStep? hlast
  -- the path leads to the entry with the name, and that is the file
  obtain ⟨rfl, hlookup⟩ : place = around ++ [last] ∧
      entries.lookup last = some (.file content) := by
    rw [place?, if_neg (by simp [habsolute, hne]), hsteps, follow_append, hbefore,
      Compile.ok_bind, follow, haround] at hplace
    dsimp only at hplace
    rw [if_neg hname.ne_here, if_neg hname.ne_above, follow] at hplace
    split at hplace
    · cases hplace
      rw [at?_snoc haround] at hat
      exact ⟨rfl, hat⟩
    · cases hplace
  have hslash : (Path.join base last).toList.getLast? ≠ some '/' := by
    obtain ⟨before, hbefore⟩ := Path.join_eq_append base last
    have hlast : last.toList ≠ [] := fun hnil => hname.ne_empty (String.toList_injective hnil)
    rw [hbefore, String.toList_append, List.getLast?_append_of_ne_nil _ hlast]
    exact fun h => hname.no_slash (List.mem_of_getLast? h)
  unfold writeFile
  rw [hlast]
  dsimp only
  rw [hbefore, Compile.ok_bind, haround]
  dsimp only
  rw [if_neg (by simp [hname.ne_here, hname.ne_above, hslash]), hlookup]
  exact congrArg Except.ok (ht.putAt_self hat)

end FileTree

end ApiDecl
