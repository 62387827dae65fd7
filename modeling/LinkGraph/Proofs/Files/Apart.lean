import LinkGraph.Proofs.Files.Locating
import Mathlib.Data.List.Infix

/-!
# Trees that differ in some files only

Two trees may differ at a few places, none of which is a directory in either.  A
path that comes by none of these places leads to the same in both, and what is
written there keeps the trees alike.
-/

namespace LinkGraph.FileTree

variable {t t' : FileTree} {keys : List String}
  {parts place place' : List String} {path name : String}

/-! ## Where paths lead by themselves -/

/-- Where parts of a path lead from a place, whatever is there. -/
def lead (parts place : List String) : List String :=
  parts.foldl (fun place part =>
    if Path.isIdle part then place
    else if part = ".." then place.dropLast
    else place ++ [part]) place

@[simp] theorem lead_nil (place : List String) : lead [] place = place := rfl

theorem lead_append (parts rest place : List String) :
    lead (parts ++ rest) place = lead rest (lead parts place) :=
  List.foldl_append

theorem lead_cons_idle {part : String} (hpart : Path.isIdle part = true) :
    lead (part :: parts) place = lead parts place := by
  rw [lead, List.foldl_cons, if_pos hpart]
  rfl

theorem lead_cons_up :
    lead (".." :: parts) place = lead parts place.dropLast := rfl

theorem lead_cons_name (hidle : Path.isIdle name = false) (hup : name ≠ "..") :
    lead (name :: parts) place = lead parts (place ++ [name]) := by
  rw [lead, List.foldl_cons, if_neg (by simp [hidle]), if_neg hup]
  rfl

/-- An empty part at the end leads nowhere else. -/
theorem lead_concat_empty
    (parts place : List String) :
    lead (parts ++ [""]) place = lead parts place := by
  rw [lead_append, lead_cons_idle (by decide), lead_nil]

theorem lead_of_walk
    (h : t.walk parts place = .ok place') :
    lead parts place = place' := by
  induction parts generalizing place with
  | nil => exact Except.ok.inj h
  | cons part parts ih =>
    obtain ⟨-, ⟨hidle, hrest⟩ | ⟨rfl, hrest⟩ | ⟨hidle, hup, -, -, hrest⟩⟩ :=
      walk_cons_cases h
    · rw [lead_cons_idle hidle]
      exact ih hrest
    · rw [lead_cons_up]
      exact ih hrest
    · rw [lead_cons_name hidle hup]
      exact ih hrest

/-- Names lead to where they are. -/
theorem lead_names {names : List String} (hnames : ∀ name ∈ names, IsName name)
    (place : List String) : lead names place = place ++ names := by
  induction names generalizing place with
  | nil => simp
  | cons name names ih =>
    have hname := hnames name List.mem_cons_self
    rw [lead_cons_name hname.notIdle hname.notUp,
      ih fun other hother => hnames other (List.mem_cons_of_mem name hother)]
    simp

/-- No front of the path leads to one of the absolute paths. -/
def Avoids (t : FileTree) (keys : List String) (path : String) : Prop :=
  ∀ front, front <+: Path.parts path →
    absolute (lead front (t.start path)) ∉ keys

instance
    (t : FileTree) (keys : List String) (path : String) :
    Decidable (t.Avoids keys path) :=
  decidable_of_iff
    (∀ front ∈ (Path.parts path).inits,
      absolute (lead front (t.start path)) ∉ keys)
    (by simp [Avoids, List.mem_inits])

/-! ## Looking into both trees -/

/-- Nothing tells the trees apart but what is at the absolute paths, which are
directories in neither. -/
structure Apart (keys : List String) (t t' : FileTree) : Prop where
  working : t.working = t'.working
  node {place : List String} :
    absolute place ∉ keys → t.node? place = t'.node? place
  free {place : List String} :
    absolute place ∈ keys → t.node? place ≠ some .directory ∧
      t'.node? place ≠ some .directory

namespace Apart

theorem symm (h : Apart keys t t') : Apart keys t' t where
  working := h.working.symm
  node hplace := (h.node hplace).symm
  free hplace := (h.free hplace).symm

/-- A tree is alike itself, if none of the paths is that of a directory. -/
theorem refl
    (hfree : ∀ {place}, absolute place ∈ keys →
      t.node? place ≠ some .directory) :
    Apart keys t t where
  working := rfl
  node _ := rfl
  free hplace := ⟨hfree hplace, hfree hplace⟩

theorem start
    (h : Apart keys t t') (path : String) :
    t.start path = t'.start path := by
  rw [FileTree.start, FileTree.start, h.working]

/-- A directory is at none of the paths. -/
theorem notMem_of_directory
    (h : Apart keys t t') (hplace : t.node? place = some .directory) :
    absolute place ∉ keys :=
  fun hkey => (h.free hkey).1 hplace

/-- Directories are the same, and so are sound ways. -/
theorem sound
    (h : Apart keys t t') (hsound : t.Sound place) :
    t'.Sound place where
  names := hsound.names
  above front name rest hsplit := by
    have hfront := hsound.above front name rest hsplit
    rw [← h.node (h.notMem_of_directory hfront)]
    exact hfront

theorem walk_eq (h : Apart keys t t')
    (havoids : ∀ front, front <+: parts → absolute (lead front place) ∉ keys) :
    t.walk parts place = t'.walk parts place := by
  induction parts generalizing place with
  | nil => rfl
  | cons part parts ih =>
    have hrest {place' : List String}
        (hlead : ∀ front, lead (part :: front) place = lead front place') :
        t.walk parts place' = t'.walk parts place' := by
      refine ih fun front hfront => ?_
      rw [← hlead]
      exact havoids _ (List.cons_prefix_cons.mpr ⟨rfl, hfront⟩)
    have hplace : t.node? place = t'.node? place :=
      h.node (havoids [] List.nil_prefix)
    rw [walk, walk, ← hplace]
    split
    · rfl
    · rfl
    · by_cases hidle : Path.isIdle part = true
      · rw [if_pos hidle, if_pos hidle]
        exact hrest fun front => lead_cons_idle hidle
      rw [if_neg hidle, if_neg hidle]
      by_cases hup : part = ".."
      · rw [if_pos hup, if_pos hup]
        exact hrest fun front => by rw [hup, lead_cons_up]
      rw [if_neg hup, if_neg hup]
      have hname (front : List String) :
          lead (part :: front) place = lead front (place ++ [part]) :=
        lead_cons_name (Bool.not_eq_true _ ▸ hidle) hup
      have hnext : t.node? (place ++ [part]) = t'.node? (place ++ [part]) := by
        refine h.node ?_
        have hfront :=
          havoids [part] (List.cons_prefix_cons.mpr ⟨rfl, List.nil_prefix⟩)
        rwa [hname] at hfront
      rw [hnext, hrest hname]

theorem resolve_eq (h : Apart keys t t') (havoids : t.Avoids keys path) :
    t.resolve path = t'.resolve path := by
  rw [resolve, resolve, h.walk_eq havoids, h.start]

theorem canonical_eq (h : Apart keys t t') (havoids : t.Avoids keys path) :
    t.canonical path = t'.canonical path := by
  rw [canonical, canonical, h.walk_eq havoids, h.start]

/-- What the path leads to is none of the places where the trees differ. -/
theorem notMem_of_resolve
    (havoids : t.Avoids keys path) (hplace : t.resolve path = .ok place) :
    absolute place ∉ keys := by
  obtain ⟨u, -, hwalk⟩ := bind_eq_ok hplace
  rw [← lead_of_walk hwalk]
  exact havoids _ List.prefix_rfl

theorem kind?_eq (h : Apart keys t t') (havoids : t.Avoids keys path) :
    t.kind? path = t'.kind? path := by
  rw [kind?, kind?, ← h.resolve_eq havoids]
  cases hplace : t.resolve path with
  | error e => rfl
  | ok place => simp only [h.node (notMem_of_resolve havoids hplace)]

theorem read_eq
    (h : Apart keys t t') (havoids : t.Avoids keys path) :
    t.read path = t'.read path := by
  rw [read, read, ← h.resolve_eq havoids]
  cases hplace : t.resolve path with
  | error e => rfl
  | ok place =>
    have hnode := h.node (notMem_of_resolve havoids hplace)
    simp only [bind, Except.bind, hnode]

/-! ## Writing into both trees -/

/-- The directory of a name on the path is the same in both. -/
theorem walk_directory_eq
    (h : Apart keys t t') (havoids : t.Avoids keys path) {names : List String}
    (hnames : names <+: Path.parts path) :
    t.walk (names.dropLast ++ [""]) (t.start path) =
      t'.walk (names.dropLast ++ [""]) (t'.start path) := by
  have hdirectory : names.dropLast <+: Path.parts path :=
    (List.dropLast_prefix names).trans hnames
  rw [← h.start]
  refine h.walk_eq fun front hfront => ?_
  rcases List.prefix_concat_iff.mp hfront with rfl | hfront
  · rw [lead_concat_empty]
    exact havoids _ hdirectory
  · exact havoids _ (hfront.trans hdirectory)

theorem locate_eq (h : Apart keys t t') (havoids : t.Avoids keys path) :
    t.locate path = t'.locate path := by
  rw [locate, locate]
  cases hcheck : checkPath path with
  | error e => rfl
  | ok u =>
    simp only [bind, Except.bind]
    have htrimmed := trimmed_prefix (Path.parts path)
    generalize hnames : ((Path.parts path).reverse.dropWhile (· = "")).reverse =
      names at htrimmed ⊢
    cases hlast : names.getLast? with
    | none => rfl
    | some name =>
      rw [← h.walk_directory_eq havoids htrimmed]
      cases hdirectory : t.walk (names.dropLast ++ [""]) (t.start path) with
      | error e => rfl
      | ok directory =>
        by_cases hproper :
          name = "." ∨ name = ".." ∨ names.length < (Path.parts path).length
        · simp only [if_pos hproper]
          rfl
        · rw [not_or, not_or] at hproper
          have hne : name ≠ "" := ne_of_getLast?_trimmed (hnames ▸ hlast)
          have hlead : lead names (t.start path) = directory ++ [name] := by
            have hfront := lead_of_walk hdirectory
            rw [lead_concat_empty] at hfront
            rw [← List.dropLast_append_getLast? name hlast, lead_append, hfront,
              lead_cons_name (by simp [Path.isIdle, hne, hproper.1])
                hproper.2.1, lead_nil]
          have hnode :
              t.node? (directory ++ [name]) = t'.node? (directory ++ [name]) :=
            h.node (hlead ▸ havoids names htrimmed)
          simp only [hnode]

/-- What a path that avoids the places leads to is none of them. -/
theorem notMem_of_finds
    (havoids : t.Avoids keys path) (hfinds : t.Finds path place) :
    absolute place ∉ keys := by
  obtain ⟨directory, name, hlocates, rfl⟩ := hfinds
  obtain ⟨names, hparts, hwalk⟩ := hlocates.way
  have hlead : lead (Path.parts path) (t.start path) = directory ++ [name] := by
    rw [hparts, lead_append, lead_of_walk hwalk,
      lead_cons_name hlocates.notIdle hlocates.notUp, lead_nil]
  rw [← hlead]
  exact havoids _ List.prefix_rfl

/-- What is put elsewhere in both trees keeps them alike. -/
theorem put_both
    {node : FileNode} (h : Apart keys t t') (hkey : absolute place ∉ keys) :
    Apart keys (t.put place node) (t'.put place node) := by
  have hother {place' : List String} (hplace' : absolute place' ∈ keys) :
      absolute place ≠ absolute place' := fun heq => hkey (heq ▸ hplace')
  constructor
  · exact h.working
  · intro place' hplace'
    by_cases hroot : place' = []
    · rw [hroot]
      rfl
    · rw [node?_put_of_ne t place node hroot,
        node?_put_of_ne t' place node hroot, h.node hplace']
  · intro place' hplace'
    by_cases hroot : place' = []
    · exact absurd (hroot ▸ rfl) (h.free hplace').1
    · rw [node?_put_of_ne t place node hroot,
        node?_put_of_ne t' place node hroot, if_neg (hother hplace'),
        if_neg (hother hplace')]
      exact h.free hplace'

/-- A file that is put where the trees differ keeps them alike elsewhere. -/
theorem put_left
    {content : FileContent} (h : Apart keys t t')
    (hkey : absolute place ∈ keys) :
    Apart keys (t.put place (.file content)) t' := by
  constructor
  · exact h.working
  · intro place' hplace'
    by_cases hroot : place' = []
    · rw [hroot]
      rfl
    · have hother : absolute place ≠ absolute place' :=
        fun heq => hplace' (heq ▸ hkey)
      rw [node?_put_of_ne t place _ hroot, if_neg hother, h.node hplace']
  · intro place' hplace'
    have hroot : place' ≠ [] := by
      rintro rfl
      exact (h.free hplace').1 rfl
    exact ⟨node?_put_file hroot (h.free hplace').1, (h.free hplace').2⟩

/-- A path that avoids the places where the trees differ is written to in both,
or in none. -/
theorem write_cases
    {content : FileContent} (h : Apart keys t t')
    (havoids : t.Avoids keys path) :
    (∃ e, t.write path content = .error e ∧ t'.write path content = .error e) ∨
      ∃ place, t.Finds path place ∧
        t.write path content = .ok (t.put place (.file content)) ∧
        t'.write path content = .ok (t'.put place (.file content)) := by
  cases hlocate : t.locate path with
  | error e =>
    refine Or.inl ⟨e, ?_, ?_⟩
    · rw [write, hlocate]
      rfl
    · rw [write, ← h.locate_eq havoids, hlocate]
      rfl
  | ok found =>
    obtain ⟨place, old⟩ := found
    refine Or.inr ⟨place, locate_ok hlocate, ?_, ?_⟩
    · rw [write, hlocate]
      rfl
    · rw [write, ← h.locate_eq havoids, hlocate]
      rfl

end Apart

/-! ## Absolute paths -/

/-- What is at a place below the root depends on its absolute path. -/
theorem node?_congr
    (hplace : place ≠ []) (hplace' : place' ≠ [])
    (h : absolute place = absolute place') :
    t.node? place = t.node? place' := by
  rw [node?, node?, if_neg hplace, if_neg hplace', h]

/-- A sound way below the root has another absolute path than the root. -/
theorem Sound.absolute_ne_root (h : t.Sound place) (hplace : place ≠ []) :
    absolute place ≠ absolute [] := by
  intro heq
  have hparts := h.parts_absolute hplace
  have hroot : Path.parts (absolute []) = ["", ""] := by decide
  rw [heq, hroot] at hparts
  obtain rfl : [""] = place := (List.cons.inj hparts).2
  have hname := h.names "" (by simp)
  exact absurd hname.notIdle (by decide)

/-- A place that a path leads to shares its absolute path with no directory. -/
theorem Finds.free_of_absolute_eq
    (h : t.Finds path place) (hworking : t.Sound t.working)
    (hplace' : absolute place' = absolute place) :
    t.node? place' ≠ some .directory := by
  by_cases hroot : place' = []
  · rw [hroot] at hplace'
    exact absurd hplace'.symm ((h.sound hworking).absolute_ne_root h.ne_nil)
  · rw [node?_congr hroot h.ne_nil hplace']
    exact h.free

/-- The absolute path of a sound way avoids the places if its end is none of
them. -/
theorem Sound.avoids (h : t.Sound place)
    (hfree : ∀ {place}, absolute place ∈ keys → t.node? place ≠ some .directory)
    (hkey : absolute place ∉ keys) : t.Avoids keys (absolute place) := by
  have hroot : absolute [] ∉ keys := fun hmem => hfree hmem rfl
  have hstart : t.start (absolute place) = [] := by
    rw [FileTree.start, absolute, Path.toList_slash_join]
    rfl
  intro front hfront
  rw [hstart]
  by_cases hplace : place = []
  · have hparts : Path.parts (absolute []) = ["", ""] := by decide
    rw [hplace, hparts] at hfront
    have hidle : ∀ part ∈ front, part = "" := fun part hpart => by
      simpa using hfront.subset hpart
    have hlead : lead front [] = [] := by
      clear hfront
      induction front with
      | nil => rfl
      | cons part front ih =>
        rw [lead_cons_idle (by rw [hidle part List.mem_cons_self]; decide)]
        exact ih fun other hother =>
          hidle other (List.mem_cons_of_mem part hother)
    rw [hlead]
    exact hroot
  rw [h.parts_absolute hplace] at hfront
  cases front with
  | nil => exact hroot
  | cons part front =>
    obtain ⟨rfl, rest, rfl⟩ := List.cons_prefix_cons.mp hfront
    have hnames : ∀ name ∈ front, IsName name :=
      fun name hname => h.names name (List.mem_append_left rest hname)
    rw [lead_cons_idle (by decide), lead_names hnames, List.nil_append]
    cases rest with
    | nil => rwa [List.append_nil] at hkey
    | cons name rest =>
      exact fun hmem => hfree hmem (h.above front name rest rfl)

/-- What a path that avoids the places leads to does so under its absolute path
too. -/
theorem Apart.avoids_canonical
    {path' : String} (h : Apart keys t t') (hworking : t.Sound t.working)
    (havoids : t.Avoids keys path) (hcanonical : t.canonical path = .ok path') :
    t.Avoids keys path' := by
  obtain ⟨u, htext, hrest⟩ := bind_eq_ok hcanonical
  obtain ⟨place, hwalk, hplace⟩ := bind_eq_ok hrest
  obtain rfl : absolute place = path' := Except.ok.inj hplace
  have hnul : '\x00' ∉ path.toList := by
    intro hnul
    rw [checkText, if_pos hnul] at htext
    cases htext
  have hsound : t.Sound place :=
    (hworking.at_start path).walk (fun part hpart => parts_plain hnul hpart) hwalk
  refine hsound.avoids (fun hkey => (h.free hkey).1) ?_
  rw [← lead_of_walk hwalk]
  exact havoids _ List.prefix_rfl

end LinkGraph.FileTree
