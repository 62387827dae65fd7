import LinkGraph.Proofs.Files.Tree

/-!
# The file that a path leads to

A path to a name in a directory keeps leading there, whatever files are put
anywhere.  What is written to it, and what is read from it, is the file of that
name.
-/

namespace LinkGraph.FileTree

variable {t : FileTree} {path name : String}
  {directory place place' : List String} {content : FileContent}

/-- What is put at a place a second time is all that is there. -/
theorem put_put (t : FileTree) (place : List String) (node node' : FileNode) :
    (t.put place node).put place node' = t.put place node' := by
  have hnodes :
      (t.nodes.insert (absolute place) node).insert (absolute place) node' =
        t.nodes.insert (absolute place) node' := by
    refine Std.ExtTreeMap.ext_getElem? fun key => ?_
    simp only [Std.ExtTreeMap.getElem?_insert]
    split
    · rfl
    · rfl
  simp only [put, hnodes]

/-- Putting what is there already changes nothing. -/
theorem put_self
    {node : FileNode} (hplace : place ≠ []) (h : t.node? place = some node) :
    t.put place node = t := by
  rw [node?, if_neg hplace] at h
  have hnodes : t.nodes.insert (absolute place) node = t.nodes := by
    refine Std.ExtTreeMap.ext_getElem? fun key => ?_
    rw [Std.ExtTreeMap.getElem?_insert]
    split
    · next hkey => rw [← Std.LawfulEqCmp.compare_eq_iff_eq.mp hkey, h]
    · rfl
  rw [put, hnodes]

/-- A file that is put where no directory is leaves everything that is no
directory one that is none. -/
theorem node?_put_file
    (hplace : place' ≠ []) (h : t.node? place' ≠ some .directory) :
    (t.put place (.file content)).node? place' ≠ some .directory := by
  rw [node?_put_of_ne t place _ hplace]
  split
  · simp
  · exact h

namespace Locates

theorem put (h : t.Locates path directory name) (hplace : place ≠ [])
    (hnode : t.node? place ≠ some .directory) :
    (t.put place (.file content)).Locates path directory name where
  checked := h.checked
  way := by
    obtain ⟨names, hparts, hwalk⟩ := h.way
    exact ⟨names, hparts, walk_put hplace hnode hwalk⟩
  isDirectory := node?_put_directory hplace hnode h.isDirectory
  notIdle := h.notIdle
  notUp := h.notUp
  size := h.size
  free := node?_put_file (by simp) h.free

/-- The path that is walked ends with the name. -/
theorem resolve_eq (h : t.Locates path directory name) :
    t.resolve path = t.walk [name] directory := by
  obtain ⟨names, hparts, hwalk⟩ := h.way
  rw [resolve, h.checked, hparts]
  change t.walk (names ++ [name]) (t.start path) = _
  rw [walk_append, hwalk]
  rfl

theorem locate_eq (h : t.Locates path directory name) {old : Option FileContent}
    (hnode : t.node? (directory ++ [name]) = old.map .file) :
    t.locate path = .ok (directory ++ [name], old) := by
  have hne : name ≠ "" := by
    rintro rfl
    exact absurd h.notIdle (by decide)
  have hdot : name ≠ "." := by
    rintro rfl
    exact absurd h.notIdle (by decide)
  obtain ⟨names, hparts, hwalk⟩ := h.way
  have htrimmed : ((names ++ [name]).reverse.dropWhile (· = "")).reverse =
      names ++ [name] := by
    simp [hne]
  have hdirectory : t.walk (names ++ [""]) (t.start path) = .ok directory := by
    rw [walk_append, hwalk]
    exact walk_cons_idle h.isDirectory (by decide)
  have hproper : ¬(name = "." ∨ name = ".." ∨
      (names ++ [name]).length < (names ++ [name]).length) := by
    simp [hdot, h.notUp]
  rw [locate, h.checked, hparts]
  simp only [htrimmed, List.getLast?_concat, List.dropLast_concat, hdirectory,
    hproper, Nat.not_lt.mpr h.size, hnode, bind, Except.bind, if_false]
  cases old with
  | none => rfl
  | some content => rfl

end Locates

/-- The path leads to a place in a directory.  A file may be there, but no
directory. -/
def Finds (t : FileTree) (path : String) (place : List String) : Prop :=
  ∃ directory name, t.Locates path directory name ∧ place = directory ++ [name]

namespace Finds

theorem ne_nil (h : t.Finds path place) : place ≠ [] := by
  obtain ⟨directory, name, -, rfl⟩ := h
  simp

theorem free (h : t.Finds path place) : t.node? place ≠ some .directory := by
  obtain ⟨directory, name, hlocates, rfl⟩ := h
  exact hlocates.free

theorem sound
    (h : t.Finds path place) (hworking : t.Sound t.working) :
    t.Sound place := by
  obtain ⟨directory, name, hlocates, rfl⟩ := h
  exact hlocates.sound hworking

/-- A file that is put where no directory is leaves the ways of all paths. -/
theorem put
    (h : t.Finds path place) (hplace' : t.node? place' ≠ some .directory) :
    (t.put place' (.file content)).Finds path place := by
  obtain ⟨directory, name, hlocates, hplace⟩ := h
  have hroot : place' ≠ [] := by
    rintro rfl
    exact hplace' rfl
  exact ⟨directory, name, hlocates.put hroot hplace', hplace⟩

theorem resolve_found
    (h : t.Finds path place) (hnode : (t.node? place).isSome) :
    t.resolve path = .ok place := by
  obtain ⟨directory, name, hlocates, rfl⟩ := h
  rw [hlocates.resolve_eq, walk_cons_name hlocates.isDirectory hlocates.notIdle
    hlocates.notUp hlocates.size hnode]
  rfl

theorem kind?_eq_none (h : t.Finds path place) (hnode : t.node? place = none) :
    t.kind? path = none := by
  obtain ⟨directory, name, hlocates, rfl⟩ := h
  have hresolve : t.resolve path = .error .notFound := by
    have hidle := hlocates.notIdle
    rw [hlocates.resolve_eq, walk, hlocates.isDirectory]
    simp only [hidle, hlocates.notUp, Nat.not_lt.mpr hlocates.size, hnode,
      Option.isSome_none, Bool.false_eq_true, if_false]
  rw [kind?, hresolve]

theorem locate_eq
    (h : t.Finds path place) {old : Option FileContent}
    (hnode : t.node? place = old.map .file) :
    t.locate path = .ok (place, old) := by
  obtain ⟨directory, name, hlocates, rfl⟩ := h
  exact hlocates.locate_eq hnode

theorem write_eq (h : t.Finds path place) (content : FileContent) :
    t.write path content = .ok (t.put place (.file content)) := by
  have hold : ∃ old : Option FileContent, t.node? place = old.map .file := by
    cases hnode : t.node? place with
    | none => exact ⟨none, rfl⟩
    | some node =>
      cases node with
      | directory => exact absurd hnode h.free
      | file content => exact ⟨some content, rfl⟩
  obtain ⟨old, hold⟩ := hold
  rw [write, h.locate_eq hold]
  rfl

theorem openFile_found
    (h : t.Finds path place) (hnode : t.node? place = some (.file content)) :
    t.openFile path = .ok (content, t) := by
  have hold : t.node? place = (some content).map .file := hnode
  rw [openFile, h.locate_eq hold]
  rfl

theorem openFile_missing
    (h : t.Finds path place) (hnode : t.node? place = none) :
    t.openFile path = .ok (⟨[], 0⟩, t.put place (.file ⟨[], 0⟩)) := by
  have hold : t.node? place = (none : Option FileContent).map .file := hnode
  rw [openFile, h.locate_eq hold]
  rfl

end Finds

end LinkGraph.FileTree
