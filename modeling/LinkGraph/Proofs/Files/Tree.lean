import LinkGraph.Files.Tree
import LinkGraph.Proofs.Files.Path
import LinkGraph.Proofs.Results

/-!
# Files that have been written

A file that has been written is found again, by the path it was written to and
by the absolute path that this leads to, and has the content that was written.
The walk along a path passes through directories only, and writing a file
changes none of them.
-/

namespace LinkGraph.FileTree

variable {t t' : FileTree} {place place' : List String} {path name : String}

/-- A text that names something in a directory. -/
structure IsName (name : String) : Prop where
  notIdle : Path.isIdle name = false
  notUp : name ≠ ".."
  size : name.utf8ByteSize ≤ maxName
  noSlash : '/' ∉ name.toList
  noNul : '\x00' ∉ name.toList

/-- The way to a place consists of names and leads through directories. -/
structure Sound (t : FileTree) (place : List String) : Prop where
  names : ∀ name ∈ place, IsName name
  above (front : List String) (name : String) (rest : List String) :
    place = front ++ name :: rest → t.node? front = some .directory

/-! ## Walks -/

theorem walk_cons_idle
    {part : String} {parts : List String}
    (hplace : t.node? place = some .directory)
    (hpart : Path.isIdle part = true) :
    t.walk (part :: parts) place = t.walk parts place := by
  rw [walk, hplace]
  simp only [hpart, if_true]

theorem walk_cons_up
    {parts : List String} (hplace : t.node? place = some .directory) :
    t.walk (".." :: parts) place = t.walk parts place.dropLast := by
  have hidle : Path.isIdle ".." = false := by decide
  rw [walk, hplace]
  simp only [hidle, Bool.false_eq_true, if_false, if_true]

theorem walk_cons_name
    {parts : List String} (hplace : t.node? place = some .directory)
    (hidle : Path.isIdle name = false) (hup : name ≠ "..")
    (hsize : name.utf8ByteSize ≤ maxName)
    (hnode : (t.node? (place ++ [name])).isSome) :
    t.walk (name :: parts) place = t.walk parts (place ++ [name]) := by
  rw [walk, hplace]
  simp only [hidle, Bool.false_eq_true, if_false, hup, Nat.not_lt.mpr hsize,
    hnode, if_true]

/-- What a step of a walk can be: an idle part, a way up, or a name that leads
to something. -/
theorem walk_cons_cases {part : String} {parts : List String}
    (h : t.walk (part :: parts) place = .ok place') :
    t.node? place = some .directory ∧
      ((Path.isIdle part = true ∧ t.walk parts place = .ok place') ∨
        (part = ".." ∧ t.walk parts place.dropLast = .ok place') ∨
        (Path.isIdle part = false ∧ part ≠ ".." ∧ part.utf8ByteSize ≤ maxName ∧
          (t.node? (place ++ [part])).isSome ∧
          t.walk parts (place ++ [part]) = .ok place')) := by
  rw [walk] at h
  split at h
  · cases h
  · cases h
  · next hplace =>
    refine ⟨hplace, ?_⟩
    split at h
    · next hidle => exact Or.inl ⟨hidle, h⟩
    · next hidle =>
      have hidle : Path.isIdle part = false := Bool.not_eq_true _ ▸ hidle
      split at h
      · next hup => exact Or.inr (Or.inl ⟨hup, h⟩)
      · next hup =>
        split at h
        · cases h
        · next hsize =>
          split at h
          · next hnode =>
              exact Or.inr (Or.inr ⟨hidle, hup, Nat.not_lt.mp hsize, hnode, h⟩)
          · cases h

theorem walk_append
    (t : FileTree) (parts rest : List String) (place : List String) :
    t.walk (parts ++ rest) place = t.walk parts place >>= t.walk rest := by
  induction parts generalizing place with
  | nil => rfl
  | cons part parts ih =>
    rw [List.cons_append, walk, walk]
    split
    · rfl
    · rfl
    · simp only [ih]
      split_ifs
      · rfl
      · rfl
      · rfl
      · rfl
      · rfl

theorem Sound.dropLast (h : t.Sound place) : t.Sound place.dropLast := by
  constructor
  · intro name hname
    exact h.names name ((List.dropLast_sublist place).subset hname)
  · intro front name rest hsplit
    obtain rfl | ⟨init, last, rfl⟩ := List.eq_nil_or_concat place
    · simp at hsplit
    · refine h.above front name (rest ++ [last]) ?_
      rw [List.concat_eq_append, List.dropLast_concat] at hsplit
      rw [hsplit]
      simp

theorem Sound.append
    (h : t.Sound place) (hplace : t.node? place = some .directory)
    (hname : IsName name) :
    t.Sound (place ++ [name]) := by
  constructor
  · intro other hother
    rcases List.mem_append.mp hother with hother | hother
    · exact h.names other hother
    · rw [List.mem_singleton] at hother
      exact hother ▸ hname
  · intro front other rest hsplit
    obtain rfl | ⟨init, last, rfl⟩ := List.eq_nil_or_concat rest
    · obtain ⟨rfl, -⟩ := List.append_inj' hsplit rfl
      exact hplace
    · rw [List.concat_eq_append, ← List.cons_append, ← List.append_assoc]
        at hsplit
      obtain ⟨hinit, -⟩ := List.append_inj' hsplit rfl
      exact h.above front other init hinit

/-- From the root, one name is a sound way. -/
theorem Sound.singleton (hname : IsName name) : t.Sound [name] := by
  have hroot : t.Sound [] := ⟨by simp, by simp⟩
  exact hroot.append rfl hname

/-- A walk along parts without slashes and NUL characters keeps a sound way
sound. -/
theorem Sound.walk (h : t.Sound place) {parts : List String}
    (hparts : ∀ part ∈ parts, '/' ∉ part.toList ∧ '\x00' ∉ part.toList)
    (hwalk : t.walk parts place = .ok place') : t.Sound place' := by
  induction parts generalizing place with
  | nil =>
    obtain rfl : place = place' := Except.ok.inj hwalk
    exact h
  | cons part parts ih =>
    have hrest : ∀ part ∈ parts, '/' ∉ part.toList ∧ '\x00' ∉ part.toList :=
      fun other hother => hparts other (List.mem_cons_of_mem part hother)
    obtain ⟨hplace, hidle | hup | ⟨hidle, hup, hsize, -, hwalk⟩⟩ :=
      walk_cons_cases hwalk
    · exact ih h hrest hidle.2
    · exact ih h.dropLast hrest hup.2
    · obtain ⟨hslash, hnul⟩ := hparts part List.mem_cons_self
      exact ih (h.append hplace ⟨hidle, hup, hsize, hslash, hnul⟩) hrest hwalk

/-- The names on a sound way lead to its end. -/
theorem Sound.walk_names (h : t.Sound place) (hplace : (t.node? place).isSome) :
    t.walk place [] = .ok place := by
  have hsuffix (rest front : List String) (hsplit : place = front ++ rest) :
      t.walk rest front = .ok place := by
    induction rest generalizing front with
    | nil =>
      rw [List.append_nil] at hsplit
      exact congrArg Except.ok hsplit.symm
    | cons name rest ih =>
      have hnext : place = (front ++ [name]) ++ rest := by simp [hsplit]
      have hname : IsName name := h.names name (by simp [hsplit])
      have hnode : (t.node? (front ++ [name])).isSome := by
        cases rest with
        | nil =>
          rw [List.append_nil] at hnext
          exact hnext ▸ hplace
        | cons other rest => rw [h.above _ _ _ hnext, Option.isSome_some]
      rw [walk_cons_name (h.above front name rest hsplit) hname.notIdle
        hname.notUp hname.size hnode]
      exact ih (front ++ [name]) hnext
  exact hsuffix place [] rfl

/-! ## Writing -/

theorem node?_put_of_ne
    (t : FileTree) (place : List String) (node : FileNode)
    (hplace : place' ≠ []) :
    (t.put place node).node? place' =
      if absolute place = absolute place' then some node
      else t.node? place' := by
  rw [node?, node?, if_neg hplace, if_neg hplace, put,
    Std.ExtTreeMap.getElem?_insert]
  simp only [Std.LawfulEqCmp.compare_eq_iff_eq]

theorem node?_put (t : FileTree) (node : FileNode) (hplace : place ≠ []) :
    (t.put place node).node? place = some node := by
  rw [node?_put_of_ne t place node hplace, if_pos rfl]

theorem isSome_node?_put (node : FileNode) (h : (t.node? place').isSome) :
    ((t.put place node).node? place').isSome := by
  by_cases hroot : place' = []
  · rw [hroot]
    rfl
  · rw [node?_put_of_ne t place node hroot]
    split
    · rfl
    · exact h

/-- What is put where no directory is leaves every directory. -/
theorem node?_put_directory
    {node : FileNode} (hplace : place ≠ [])
    (hnode : t.node? place ≠ some .directory)
    (h : t.node? place' = some .directory) :
    (t.put place node).node? place' = some .directory := by
  by_cases hroot : place' = []
  · rw [hroot]
    rfl
  · have habsolute : absolute place ≠ absolute place' := by
      intro heq
      rw [node?, if_neg hplace, heq] at hnode
      rw [node?, if_neg hroot] at h
      exact hnode h
    rw [node?_put_of_ne t place node hroot, if_neg habsolute]
    exact h

theorem walk_put
    {node : FileNode} (hplace : place ≠ [])
    (hnode : t.node? place ≠ some .directory) {parts : List String}
    {start : List String} (h : t.walk parts start = .ok place') :
    (t.put place node).walk parts start = .ok place' := by
  induction parts generalizing start with
  | nil => exact h
  | cons part parts ih =>
    obtain ⟨hstart, hcases⟩ := walk_cons_cases h
    have hstart' : (t.put place node).node? start = some .directory :=
      node?_put_directory hplace hnode hstart
    rcases hcases with
      ⟨hidle, hrest⟩ | ⟨rfl, hrest⟩ | ⟨hidle, hup, hsize, hnext, hrest⟩
    · rw [walk_cons_idle hstart' hidle]
      exact ih hrest
    · rw [walk_cons_up hstart']
      exact ih hrest
    · rw [walk_cons_name hstart' hidle hup hsize (isSome_node?_put node hnext)]
      exact ih hrest

theorem Sound.put
    {node : FileNode} (h : t.Sound place') (hplace : place ≠ [])
    (hnode : t.node? place ≠ some .directory) :
    (t.put place node).Sound place' where
  names := h.names
  above front name rest hsplit :=
    node?_put_directory hplace hnode (h.above front name rest hsplit)

theorem checkPath_ok (h : checkPath path = .ok ()) :
    checkText path = .ok () ∧ '\x00' ∉ path.toList ∧
      path.utf8ByteSize ≤ maxPath := by
  obtain ⟨u, htext, hsize⟩ := bind_eq_ok h
  refine ⟨htext, ?_, ?_⟩
  · intro hnul
    rw [checkText, if_pos hnul] at htext
    cases htext
  · by_contra hlong
    rw [if_pos (Nat.not_le.mp hlong)] at hsize
    cases hsize

/-- Unless a path ends with a slash, dropping the empty parts at its end drops
nothing. -/
theorem trimmed_eq {parts : List String}
    (h : ¬(parts.reverse.dropWhile (· = "")).reverse.length < parts.length) :
    (parts.reverse.dropWhile (· = "")).reverse = parts := by
  have hsuffix : parts.reverse.dropWhile (· = "") <:+ parts.reverse :=
    List.dropWhile_suffix _
  have hlength :
      (parts.reverse.dropWhile (· = "")).length = parts.reverse.length := by
    have hle := hsuffix.length_le
    simp only [List.length_reverse] at h hle ⊢
    omega
  rw [hsuffix.eq_of_length hlength, List.reverse_reverse]

theorem trimmed_prefix (parts : List String) :
    (parts.reverse.dropWhile (· = "")).reverse <+: parts := by
  rw [← List.reverse_suffix, List.reverse_reverse]
  exact List.dropWhile_suffix _

theorem ne_of_getLast?_trimmed
    {parts : List String}
    (h : (parts.reverse.dropWhile (· = "")).reverse.getLast? = some name) :
    name ≠ "" := by
  rw [List.getLast?_reverse] at h
  have hhead := List.head?_dropWhile_not
    (fun part : String => decide (part = "")) parts.reverse
  rw [h] at hhead
  simpa using hhead

/-- The path leads to a name in a directory, and no directory has that name. -/
structure Locates
    (t : FileTree) (path : String) (directory : List String) (name : String) :
    Prop where
  checked : checkPath path = .ok ()
  way : ∃ names, Path.parts path = names ++ [name] ∧
    t.walk names (t.start path) = .ok directory
  isDirectory : t.node? directory = some .directory
  notIdle : Path.isIdle name = false
  notUp : name ≠ ".."
  size : name.utf8ByteSize ≤ maxName
  free : t.node? (directory ++ [name]) ≠ some .directory

/-- A file that is located is one that the path leads to, whether it is there or
not. -/
theorem locate_ok
    {old : Option FileContent} (h : t.locate path = .ok (place, old)) :
    ∃ directory name,
      t.Locates path directory name ∧ place = directory ++ [name] := by
  obtain ⟨u, hcheck, hlocate⟩ := bind_eq_ok h
  dsimp only at hlocate
  split at hlocate
  · cases hlocate
  · next name hlast =>
    obtain ⟨directory, hwalk, hlocate⟩ := bind_eq_ok hlocate
    split at hlocate
    · cases hlocate
    next hproper =>
    split at hlocate
    · cases hlocate
    next hsize =>
    rw [not_or, not_or] at hproper
    obtain ⟨hdot, hup, htrimmed⟩ := hproper
    have hne := ne_of_getLast?_trimmed hlast
    -- The path does not end with a slash, so none of its parts is dropped.
    rw [trimmed_eq htrimmed] at hwalk hlast
    -- The empty part at the end of the walk only asks for a directory.
    obtain ⟨front, hfront, hend⟩ :=
      bind_eq_ok ((walk_append t _ _ _).symm.trans hwalk)
    have hidle : Path.isIdle "" = true := by decide
    obtain ⟨hdirectory, -⟩ := walk_cons_cases hend
    rw [walk_cons_idle hdirectory hidle] at hend
    obtain rfl : front = directory := Except.ok.inj hend
    have hparts : Path.parts path = (Path.parts path).dropLast ++ [name] :=
      (List.dropLast_append_getLast? name hlast).symm
    refine ⟨front, name, ?_, ?_⟩
    · constructor
      · exact hcheck
      · exact ⟨_, hparts, hfront⟩
      · exact hdirectory
      · simp [Path.isIdle, hne, hdot]
      · exact hup
      · exact Nat.not_lt.mp hsize
      · intro hnode
        rw [hnode] at hlocate
        cases hlocate
    · split at hlocate
      · exact (congrArg Prod.fst (Except.ok.inj hlocate)).symm
      · exact (congrArg Prod.fst (Except.ok.inj hlocate)).symm
      · cases hlocate

/-- A write that succeeds puts the content where the path leads to. -/
theorem write_ok {content : FileContent} (h : t.write path content = .ok t') :
    ∃ directory name, t.Locates path directory name ∧
      t' = t.put (directory ++ [name]) (.file content) := by
  obtain ⟨⟨place, old⟩, hlocate, hput⟩ := bind_eq_ok h
  obtain ⟨directory, name, hlocates, rfl⟩ := locate_ok hlocate
  exact ⟨directory, name, hlocates, (Except.ok.inj hput).symm⟩

/-- The parts of a text without NUL characters have none, and no slashes. -/
theorem parts_plain
    (hnul : '\x00' ∉ path.toList) {part : String}
    (hpart : part ∈ Path.parts path) :
    '/' ∉ part.toList ∧ '\x00' ∉ part.toList := by
  obtain ⟨chars, hchars, rfl⟩ := List.mem_map.mp hpart
  rw [String.toList_ofList]
  exact ⟨fun hc => (Path.mem_partsOf hchars hc).1 rfl,
    fun hc => hnul (Path.mem_partsOf hchars hc).2⟩

theorem Sound.at_start
    (hworking : t.Sound t.working) (path : String) :
    t.Sound (t.start path) := by
  unfold FileTree.start
  split
  · exact ⟨by simp, by simp⟩
  · exact hworking

theorem Locates.sound
    {directory : List String} (h : t.Locates path directory name)
    (hworking : t.Sound t.working) :
    t.Sound (directory ++ [name]) := by
  obtain ⟨-, hnul, -⟩ := checkPath_ok h.checked
  obtain ⟨names, hparts, hwalk⟩ := h.way
  have hdirectory : t.Sound directory :=
    (hworking.at_start path).walk
      (fun part hp => parts_plain hnul (by simp [hparts, hp])) hwalk
  have hname : name ∈ Path.parts path := by simp [hparts]
  obtain ⟨hslash, hnul⟩ := parts_plain hnul hname
  exact hdirectory.append h.isDirectory ⟨h.notIdle, h.notUp, h.size,
    hslash, hnul⟩

/-- What has been put where a path leads to is there. -/
theorem Locates.resolve_put
    {directory : List String} (h : t.Locates path directory name)
    (node : FileNode) :
    (t.put (directory ++ [name]) node).resolve path =
      .ok (directory ++ [name]) := by
  have hplace : directory ++ [name] ≠ [] := by simp
  have hsome : ((t.put (directory ++ [name]) node).node?
      (directory ++ [name])).isSome := by
    rw [node?_put t node hplace]
    rfl
  obtain ⟨names, hparts, hwalk⟩ := h.way
  rw [resolve, h.checked, hparts]
  change FileTree.walk _ (names ++ [name]) (t.start path) = _
  rw [walk_append, walk_put hplace h.free hwalk]
  change FileTree.walk _ [name] directory = _
  rw [walk_cons_name (node?_put_directory hplace h.free h.isDirectory) h.notIdle
    h.notUp h.size hsome]
  rfl

/-! ## Reading again -/

theorem checkText_of_noNul (hne : path ≠ "") (hnul : '\x00' ∉ path.toList) :
    checkText path = .ok () := by
  have hempty : path.isEmpty = false := by simpa using hne
  rw [checkText, if_neg hnul, hempty]
  rfl

theorem Sound.parts_absolute (h : t.Sound place) (hplace : place ≠ []) :
    Path.parts (absolute place) = "" :: place :=
  Path.parts_slash_join (fun name hname => (h.names name hname).noSlash) hplace

/-- The absolute path of a sound way leads to its end, unless it is too long. -/
theorem Sound.resolve_absolute
    (h : t.Sound place) (hne : place ≠ []) (hplace : (t.node? place).isSome)
    (hlength : (absolute place).utf8ByteSize ≤ maxPath) :
    t.resolve (absolute place) = .ok place := by
  have hnul : '\x00' ∉ (absolute place).toList := by
    intro hnul
    rcases Path.mem_toList_slash_join hnul with hnul | ⟨name, hname, hnul⟩
    · exact absurd hnul (by decide)
    · exact (h.names name hname).noNul hnul
  have hstart : t.start (absolute place) = [] := by
    rw [start, absolute, Path.toList_slash_join]
    rfl
  have hempty : absolute place ≠ "" := by
    intro hempty
    have hchars := Path.toList_slash_join place
    rw [← absolute, hempty] at hchars
    cases hchars
  have hcheck : checkPath (absolute place) = .ok () := by
    rw [checkPath, checkText_of_noNul hempty hnul]
    exact if_neg (Nat.not_lt.mpr hlength)
  have hidle : Path.isIdle "" = true := by decide
  rw [resolve, hcheck, hstart, h.parts_absolute hne]
  change t.walk ("" :: place) [] = _
  rw [walk_cons_idle rfl hidle]
  exact h.walk_names hplace

theorem canonical_of_resolve (h : t.resolve path = .ok place) :
    t.canonical path = .ok (absolute place) := by
  obtain ⟨u, hcheck, hwalk⟩ := bind_eq_ok h
  rw [canonical, (checkPath_ok hcheck).1]
  change (do return absolute (← t.walk _ _) : Except FileError String) = _
  rw [hwalk]
  rfl

theorem kind?_of_resolve
    {content : FileContent} (h : t.resolve path = .ok place)
    (hnode : t.node? place = some (.file content)) :
    t.kind? path = some .regular := by
  rw [kind?, h]
  simp only [hnode, Option.map_some]

theorem read_of_resolve
    {content : FileContent} (h : t.resolve path = .ok place)
    (hnode : t.node? place = some (.file content)) :
    t.read path = .ok content := by
  simp only [read, h, bind, Except.bind, hnode]
  rfl

/-- A file that has been written, from a working directory that is soundly
reached, is found by the path it was written to, and under the absolute path of
that, unless it is too long. -/
theorem reread {content : FileContent} (hworking : t.Sound t.working)
    (h : t.write path content = .ok t') :
    ∃ place, t'.canonical path = .ok place ∧ t'.kind? path = some .regular ∧
      (place.utf8ByteSize ≤ maxPath →
        t'.kind? place = some .regular ∧ t'.read place = .ok content) := by
  obtain ⟨directory, name, hlocates, rfl⟩ := write_ok h
  have hplace : directory ++ [name] ≠ [] := by simp
  have hsound : (t.put (directory ++ [name]) (.file content)).Sound
      (directory ++ [name]) :=
    (hlocates.sound hworking).put hplace hlocates.free
  have hwritten := node?_put t (.file content) hplace
  have hresolve := hlocates.resolve_put (.file content)
  refine ⟨absolute (directory ++ [name]), canonical_of_resolve hresolve,
    kind?_of_resolve hresolve hwritten, fun hlength => ?_⟩
  have hagain := hsound.resolve_absolute hplace (by rw [hwritten]; rfl) hlength
  exact ⟨kind?_of_resolve hagain hwritten, read_of_resolve hagain hwritten⟩

end LinkGraph.FileTree
