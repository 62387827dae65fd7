import LinkGraph.Proofs.CommandLine.Twins

/-!
# The backends agree

One script of commands is carried out on two trees, in memory on the one and
over tables on the other.  After each command the two files keep the same graph,
and nothing else tells the trees apart, so that the next command finds the same
files and the same graph.
-/

namespace LinkGraph.CommandLine

open FileTree (Apart absolute)

variable {settings : Settings} {d d' : String} {place place' : List String}
  {m m' : VolatileStore} {t t' u u' : FileTree}

/-! ## One command -/

/-- The outcomes say the same, but for the backend and the database in the lines
on the status. -/
def SayAlike
    (settings : Settings) (d d' : String) (json : Bool) (command : Command)
    (o o' : Outcome) : Prop :=
  if command = .status then
    ∃ stats, o = { lines := statusLines (settings.on .volatile d) json stats } ∧
      o' = { lines := statusLines (settings.on .durable d') json stats }
  else o = o'

/-- The file is refused as a snapshot, or is what a graph exports that
operations have made. -/
def Importable (content : FileContent) : Prop :=
  (∃ e, snapshotEntities content = .error e) ∨
    ∃ (σ : Type) (_ : EntityStore σ) (_ : FaithfulStore σ) (g : Graph σ),
      g.Reached ∧ g.exportBytes = .ok content.toBytes

/-- The command starts no server.  The way to its snapshot file, if it has one,
leads past the files at the absolute paths, and what it imports is refused or is
an export. -/
def Permits (keys : List String) (t : FileTree) : Command → Prop
  | .server .. => False
  | .exportTo output =>
    t.Avoids keys (Path.directory output) ∧
      ∀ file t',
          (outputFile output : StoreM FileTree String) t = (.ok file, t') →
          t.Avoids keys file
  | .importFrom input =>
    t.Avoids keys input ∧
      ∀ content t', (readSnapshot input : StoreM FileTree FileContent) t =
          (.ok content, t') →
        Importable content
  | _ => True

def after
    (settings : Settings) (json : Bool) (command : Command) (t : FileTree) :
    FileTree :=
  ((runCommand settings json (some command) : StateM FileTree Outcome) t).2

def said
    (settings : Settings) (json : Bool) (command : Command) (t : FileTree) :
    Outcome :=
  ((runCommand settings json (some command) : StateM FileTree Outcome) t).1

theorem Importable.entities {content : FileContent} (h : Importable content) :
    (∃ e, snapshotEntities content = .error e) ∨
      ∃ m : VolatileStore,
          m.Anchored ∧ snapshotEntities content = .ok m.entities.values := by
  rcases h with hrefused | ⟨σ, _, _, g, hreached, hexport⟩
  · exact Or.inl hrefused
  cases hentities : snapshotEntities content with
  | error e => exact Or.inl ⟨e, rfl⟩
  | ok es =>
    obtain ⟨header, -, hrest⟩ := bind_eq_ok hentities
    obtain ⟨u, -, hread⟩ := bind_eq_ok hrest
    obtain ⟨v, -, hagrees, hanchored, -⟩ := hreached.content
    have hbytes : Snapshot.write v.store.entities.values = content.toBytes :=
      Except.ok.inj ((Graph.exportBytes_of_agrees hagrees).symm.trans hexport)
    have hsize := Snapshot.length_le_of_read hread
    rw [← hbytes] at hread hsize
    obtain rfl : v.store.entities.values = es :=
      Except.ok.inj ((Snapshot.read_write hsize).symm.trans hread)
    exact Or.inr ⟨v.store, hanchored, rfl⟩

/-- The programs say alike on the trees, and leave twins again.  If the one in
memory fails, the graph that is kept is the one that was kept before. -/
def Steps
    (settings : Settings) (d d' : String) (place place' : List String)
    (m : VolatileStore) (t t' : FileTree) (R : Outcome → Outcome → Prop)
    (p q : StateM FileTree Outcome) : Prop :=
  ∃ m', Twins settings d d' place place' m' (p t).2 (q t').2 ∧ m'.Anchored ∧
    m'.Indexed ∧
    R (p t).1 (q t').1 ∧ ((p t).1.failure ≠ none → m' = m)

theorem steps_outcome
    {R : Outcome → Outcome → Prop} {p q : StoreM FileTree (List String)}
    {r r' : Except StoreError (List String)} (hp : p t = (r, u))
    (hq : q t' = (r', u')) (htwins : Twins settings d d' place place' m' u u')
    (hanchored : m'.Anchored) (hindexed : m'.Indexed)
    (hR : R (.ofAnswer r) (.ofAnswer r')) (hfail : ∀ e, r = .error e → m' = m) :
    Steps settings d d' place place' m t t' R (outcome p) (outcome q) := by
  refine ⟨m', ?_⟩
  rw [outcome_run, outcome_run, hp, hq]
  refine ⟨htwins, hanchored, hindexed, hR, fun hfailure => ?_⟩
  cases r with
  | ok lines => exact absurd rfl hfailure
  | error e => exact hfail e rfl

theorem sayAlike_refl
    {json : Bool} {command : Command} (hcommand : command ≠ .status)
    (o : Outcome) :
    SayAlike settings d d' json command o o := by
  rw [SayAlike, if_neg hcommand]

namespace Twins

variable {R : Outcome → Outcome → Prop}

/-- A command that only reports does so alike. -/
theorem steps_look
    (h : Twins settings d d' place place' m t t') (hm : m.Keepable)
    (op op' : {σ : Type} → [EntityStore σ] → SessionM σ (List String))
    (hop : Echoes (op : SessionM DurableStore (List String))
      (op : SessionM VolatileStore _))
    (hop' : Echoes (op' : SessionM DurableStore (List String))
      (op' : SessionM VolatileStore _))
    (hR : R (.ofAnswer (op (memorySession settings m)).1)
      (.ofAnswer (op' (memorySession settings m)).1)) :
    Steps settings d d' place place' m t t' R
      (outcome (inSession (settings.on .volatile d) false op))
      (outcome (inSession (settings.on .durable d') false op')) := by
  obtain ⟨hleft, u', hright, htwins⟩ := h.shown hm op op' hop hop'
  exact steps_outcome hleft hright htwins hm.anchored hm.indexed hR fun _ _ => rfl

theorem steps_delete
    (h : Twins settings d d' place place' m t t') (hm : m.Keepable)
    (hR : ∀ o, R o o) (name : String) :
    Steps settings d d' place place' m t t' R
      (outcome (inSession (settings.on .volatile d) true (reportDeleted name)))
      (outcome
        (inSession (settings.on .durable d') true (reportDeleted name))) := by
  have hdeleted (backend : Backend) (database : String) :
      ∃ session, OpenSession.perform (reportDeleted name)
        (keptSession (settings.on backend database) m) =
        (.ok [deletedLine name m (deleted settings m name)], session) ∧
      session.Stores backend (deleted settings m name) :=
    perform_reportDeleted (settings.on backend database) hm name
  obtain ⟨u, u', hleft, hright, htwins⟩ :=
    h.changed hm (reportDeleted name) hdeleted
  have hmove : Move m (deleted settings m name) :=
    @Operation.perform_move (.delete name) (memorySession settings m).graph
      hm.indexed.keyed rfl
  exact steps_outcome hleft hright htwins (hm.anchored.move hmove)
    (hm.indexed.move hmove) (hR _) fun _ he => by cases he

/-- A snapshot is imported alike, or refused alike. -/
theorem steps_import
    {input : String} (h : Twins settings d d' place place' m t t')
    (hm : m.Keepable) (hR : ∀ o, R o o)
    (hpermits : Permits [absolute place, absolute place'] t
      (.importFrom input)) :
    Steps settings d d' place place' m t t' R
      (outcome (runImport (settings.on .volatile d) input))
      (outcome (runImport (settings.on .durable d') input)) := by
  obtain ⟨r, hleft, hright, -⟩ :=
    Alike.readSnapshot h.apart h.working hpermits.1
  cases r with
  | error e =>
    exact steps_outcome (bind_run_error hleft) (bind_run_error hright) h
      hm.anchored hm.indexed (hR _) fun _ _ => rfl
  | ok content =>
    rcases (hpermits.2 content t hleft).entities with
      ⟨e, hrefused⟩ | ⟨m₀, hanchored, hentities⟩
    · obtain ⟨u, u', hleft', hright', htwins⟩ :=
        h.refused hm (importing content) (perform_importing_refused hrefused)
      exact steps_outcome ((bind_run_ok hleft).trans hleft')
        ((bind_run_ok hright).trans hright') htwins hm.anchored hm.indexed
        (hR _) fun _ _ => rfl
    · obtain ⟨u, u', hleft', hright', htwins⟩ :=
        h.changed hm (importing content) fun backend database =>
          perform_importing (settings.on backend database) hm hentities
      exact steps_outcome ((bind_run_ok hleft).trans hleft')
        ((bind_run_ok hright).trans hright')
        htwins (hm.anchored.merged hanchored (.refl _))
          (hm.indexed.restored _) (hR _)
        fun _ he => by cases he

/-- An export writes the same file, or fails alike. -/
theorem steps_export
    {output : String} (h : Twins settings d d' place place' m t t')
    (hm : m.Keepable) (hR : ∀ o, R o o)
    (hpermits : Permits [absolute place, absolute place'] t
      (.exportTo output)) :
    Steps settings d d' place place' m t t' R
      (outcome (runExport (settings.on .volatile d) output))
      (outcome (runExport (settings.on .durable d') output)) := by
  obtain ⟨r, hleft, hright, -⟩ := Alike.outputFile h.apart h.working hpermits.1
  cases r with
  | error e =>
    exact steps_outcome (bind_run_error hleft) (bind_run_error hright) h
      hm.anchored hm.indexed (hR _) fun _ _ => rfl
  | ok file =>
    obtain ⟨hbytes, u', hbytes', htwins⟩ :=
      h.shown hm (Session.lookup Graph.exportBytes)
        (Session.lookup Graph.exportBytes) exportBytes_echoes exportBytes_echoes
    have hexport :
        (Session.lookup Graph.exportBytes (memorySession settings m)).1 =
          .ok (Snapshot.write m.entities.values) := rfl
    rw [hexport] at hbytes hbytes'
    have havoids := hpermits.2 file t hleft
    rcases htwins.apart.write_cases havoids with
      ⟨e, hwrite, hwrite'⟩ | ⟨written, hfinds, hwrite, hwrite'⟩
    · exact steps_outcome (runExport_failed hleft hbytes hwrite)
        (runExport_failed hright hbytes' hwrite') htwins hm.anchored hm.indexed
        (hR _) fun _ _ => rfl
    · have hkey := FileTree.Apart.notMem_of_finds havoids hfinds
      exact steps_outcome (runExport_written hleft hbytes hwrite)
        (runExport_written hright hbytes' hwrite')
        (htwins.put_both hfinds.free hkey) hm.anchored hm.indexed (hR _)
        fun _ _ => rfl

/-- A command that is permitted takes twins to twins. -/
theorem step
    (h : Twins settings d d' place place' m t t') (hm : m.Keepable)
    (json : Bool) {command : Command}
    (hpermits : Permits [absolute place, absolute place'] t command) :
    Steps settings d d' place place' m t t'
      (SayAlike settings d d' json command)
      (runCommand (settings.on .volatile d) json (some command))
      (runCommand (settings.on .durable d') json (some command)) := by
  have hsame (hcommand : command ≠ .status) (o : Outcome) :
      SayAlike settings d d' json command o o := sayAlike_refl hcommand o
  cases command with
  | server host port => exact hpermits.elim
  | status =>
    have hstats : SayAlike settings d d' json .status
        (.ofAnswer (reportStatus (settings.on .volatile d) json
          (memorySession settings m)).1)
        (.ofAnswer (reportStatus (settings.on .durable d') json
          (memorySession settings m)).1) := by
      rw [SayAlike, if_pos rfl]
      exact ⟨_, rfl, rfl⟩
    exact h.steps_look hm _ _ (reportStatus_echoes _ json)
      (reportStatus_echoes _ json) hstats
  | find id =>
    exact h.steps_look hm _ _ (reportFound_echoes json id)
      (reportFound_echoes json id) (hsame (by simp) _)
  | load id =>
    exact h.steps_look hm _ _ (reportLoaded_echoes json id)
      (reportLoaded_echoes json id) (hsame (by simp) _)
  | list name =>
    exact h.steps_look hm _ _ (reportListed_echoes json name)
      (reportListed_echoes json name) (hsame (by simp) _)
  | delete name => exact h.steps_delete hm (hsame (by simp)) name
  | exportTo output => exact h.steps_export hm (hsame (by simp)) hpermits
  | importFrom input => exact h.steps_import hm (hsame (by simp)) hpermits

end Twins

/-! ## Scripts of commands -/

def afterScript
    (settings : Settings) : List (Bool × Command) → FileTree → FileTree
  | [], t => t
  | (json, command) :: script, t =>
    afterScript settings script (after settings json command t)

/-- Each command of the script is permitted where its turn comes, and after it
the file of the database is small enough to be read as a snapshot. -/
def Permitted
    (settings : Settings) (keys : List String) :
    List (Bool × Command) → FileTree → Prop
  | [], _ => True
  | (json, command) :: script, t =>
    Permits keys t command ∧
      (∀ content, (after settings json command t).read settings.database =
          .ok content →
        content.size ≤ Snapshot.maxSize) ∧
      Permitted settings keys script (after settings json command t)

namespace Twins

/-- Twins agree on the size of a snapshot with the file in memory. -/
theorem small
    (h : Twins settings d d' place place' m t t')
    (hsize : ∀ content, t.read d = .ok content →
      content.size ≤ Snapshot.maxSize) :
    (Snapshot.write m.entities.values).length ≤ Snapshot.maxSize := by
  rcases h.memory.node with hnode | ⟨-, rfl⟩
  · have hresolve := h.memory.finds.resolve_found (hnode ▸ rfl)
    exact hsize _ (FileTree.read_of_resolve hresolve hnode)
  · exact VolatileStore.Keepable.empty.small

theorem script
    (h : Twins settings d d' place place' m t t') (hm : m.Keepable)
    {script : List (Bool × Command)}
    (hscript : Permitted (settings.on .volatile d)
      [absolute place, absolute place'] script t) :
    ∃ m', m'.Keepable ∧ Twins settings d d' place place' m'
      (afterScript (settings.on .volatile d) script t)
      (afterScript (settings.on .durable d') script t') := by
  induction script generalizing m t t' with
  | nil => exact ⟨m, hm, h⟩
  | cons entry script ih =>
    obtain ⟨json, command⟩ := entry
    obtain ⟨hpermits, hsize, hrest⟩ := hscript
    obtain ⟨m', htwins, hanchored, hindexed, -⟩ := h.step hm json hpermits
    exact ih htwins ⟨hanchored, hindexed, htwins.small hsize⟩ hrest

/-- A tree where both files are missing is its own twin. -/
theorem start
    (hmemory : t.Finds d place) (htables : t.Finds d' place')
    (hmissing : t.node? place = none) (hmissing' : t.node? place' = none)
    (hworking : t.Sound t.working)
    (hlength : (absolute place).utf8ByteSize ≤ FileTree.maxPath) :
    Twins settings d d' place place' {} t t where
  apart := by
    refine .refl fun {elsewhere} hkey => ?_
    rw [List.mem_cons, List.mem_singleton] at hkey
    rcases hkey with hkey | hkey
    · exact hmemory.free_of_absolute_eq hworking hkey
    · exact htables.free_of_absolute_eq hworking hkey
  memory := ⟨hmemory, Or.inr ⟨hmissing, rfl⟩, fun _ => hlength⟩
  tables :=
    ⟨htables, Or.inr ⟨hmissing', rfl⟩, fun hbackend => by cases hbackend⟩
  working := hworking

end Twins

/-- The command says the same on both backends and makes the same files; the
graph that both keep is the same before it, and if it fails also afterwards. -/
structure Agree
    (settings : Settings) (d d' : String) (keys : List String) (json : Bool)
    (command : Command) (t t' : FileTree) : Prop where
  stored : ∃ m : VolatileStore,
    ((openSession (settings.on .volatile d) : StoreM FileTree OpenSession)
        t).1 = .ok (keptSession (settings.on .volatile d) m) ∧
      ((openSession (settings.on .durable d') : StoreM FileTree OpenSession)
        t').1 = .ok (keptSession (settings.on .durable d') m)
  said : SayAlike settings d d' json command
    (said (settings.on .volatile d) json command t)
    (said (settings.on .durable d') json command t')
  files (path : String) :
    (after (settings.on .volatile d) json command t).Avoids keys path →
    (after (settings.on .volatile d) json command t).read path =
      (after (settings.on .durable d') json command t').read path
  unchanged :
    (CommandLine.said (settings.on .volatile d) json command t).failure ≠ none →
    ((openSession (settings.on .volatile d) : StoreM FileTree OpenSession)
        (after (settings.on .volatile d) json command t)).1 =
      ((openSession (settings.on .volatile d) : StoreM FileTree OpenSession)
        t).1 ∧
    ((openSession (settings.on .durable d') : StoreM FileTree OpenSession)
        (after (settings.on .durable d') json command t')).1 =
      ((openSession (settings.on .durable d') : StoreM FileTree OpenSession)
        t').1

theorem Twins.agree
    (h : Twins settings d d' place place' m t t') (hm : m.Keepable)
    (json : Bool) {command : Command}
    (hpermits : Permits [absolute place, absolute place'] t command) :
    Agree settings d d' [absolute place, absolute place'] json command
      t t' := by
  have hopened {t t' : FileTree} (h : Twins settings d d' place place' m t t') :
      ((openSession (settings.on .volatile d) : StoreM FileTree OpenSession)
        t).1 = .ok (keptSession (settings.on .volatile d) m) ∧
        ((openSession (settings.on .durable d') : StoreM FileTree OpenSession)
          t').1 = .ok (keptSession (settings.on .durable d') m) := by
    obtain ⟨u, hopen, -⟩ := h.memory.opened hm h.working
    obtain ⟨u', hopen', -⟩ := h.tables.opened hm h.working'
    rw [hopen, hopen']
    exact ⟨rfl, rfl⟩
  obtain ⟨m', htwins, -, -, hsaid, hfail⟩ := h.step hm json hpermits
  constructor
  · exact ⟨m, hopened h⟩
  · exact hsaid
  · exact fun path havoids => htwins.apart.read_eq havoids
  · intro hfailure
    obtain rfl : m' = m := hfail hfailure
    obtain ⟨hmemory, htables⟩ := hopened h
    obtain ⟨hmemory', htables'⟩ := hopened htwins
    exact ⟨hmemory'.trans hmemory.symm, htables'.trans htables.symm⟩

/-- After any script that the two backends have carried out from a tree without
their files, they agree on the next command.  The files may be at one path or at
two. -/
theorem backends_agree
    {script : List (Bool × Command)} {json : Bool} {command : Command}
    (hmemory : t.Finds d place) (htables : t.Finds d' place')
    (hmissing : t.node? place = none) (hmissing' : t.node? place' = none)
    (hworking : t.Sound t.working)
    (hlength : (absolute place).utf8ByteSize ≤ FileTree.maxPath)
    (hscript : Permitted (settings.on .volatile d)
      [absolute place, absolute place'] script t)
    (hcommand : Permits [absolute place, absolute place']
      (afterScript (settings.on .volatile d) script t) command) :
    Agree settings d d' [absolute place, absolute place'] json command
      (afterScript (settings.on .volatile d) script t)
      (afterScript (settings.on .durable d') script t) := by
  have hstart : Twins settings d d' place place' {} t t :=
    .start hmemory htables hmissing hmissing' hworking hlength
  obtain ⟨m, hm, htwins⟩ := hstart.script .empty hscript
  exact htwins.agree hm json hcommand

/-- A home directory with a file that has been exported from a graph, and one
that is no snapshot. -/
def homeTree : FileTree :=
  let g := Graph.after { store := ({} : VolatileStore) } Graph.linkFromC
  let t :=
    (FileTree.empty ["home"]).put ["home", "notes.txt"] (.file ⟨[1, 2, 3], 0⟩)
  t.put ["home", "graph.snap"]
    (.file ⟨Snapshot.write g.store.entities.values, 0⟩)

/-- A script that imports the graph, deletes some of it and exports the rest. -/
def homeScript : List (Bool × Command) :=
  [(false, .importFrom "graph.snap"), (true, .delete "a"),
    (false, .exportTo "left.snap")]

theorem backends_agree_home :
    Agree {} "graph.db" "graph.db"
      [absolute ["home", "graph.db"], absolute ["home", "graph.db"]] false
      (.importFrom "notes.txt")
      (afterScript (Settings.on {} .volatile "graph.db") homeScript homeTree)
      (afterScript (Settings.on {} .durable "graph.db") homeScript
        homeTree) := by
  have hfinds : homeTree.Finds "graph.db" ["home", "graph.db"] := by
    refine ⟨["home"], "graph.db", ?_, rfl⟩
    constructor
    · rfl
    · exact ⟨[], by decide +kernel, rfl⟩
    · decide +kernel
    · decide
    · decide
    · decide
    · decide +kernel
  have hworking : homeTree.Sound homeTree.working := by
    have hhome : FileTree.IsName "home" :=
      ⟨by decide, by decide, by decide, by decide, by decide⟩
    exact .singleton hhome
  have hfile {t : FileTree} {path : String} {content : FileContent}
      (hcontent : Importable content)
      (hread : ((readSnapshot path : StoreM FileTree FileContent) t).1 =
        .ok content) :
      ∀ found t', (readSnapshot path : StoreM FileTree FileContent) t =
        (.ok found, t') → Importable found := by
    intro found t' hfound
    rw [hfound] at hread
    exact Except.ok.inj hread ▸ hcontent
  have hsmall {r : Except FileError FileContent}
      (h : (r.toOption.all fun content =>
        decide (content.size ≤ Snapshot.maxSize)) = true) :
      ∀ content, r = .ok content → content.size ≤ Snapshot.maxSize := by
    rintro content rfl
    exact of_decide_eq_true h
  have hgraph : Importable ⟨Snapshot.write
      (Graph.after { store := ({} : VolatileStore) }
        Graph.linkFromC).store.entities.values, 0⟩ := by
    have hreached : Graph.Reached
        (Graph.after { store := ({} : VolatileStore) } Graph.linkFromC) :=
      .after ⟨rfl, VolatileStore.keyed_empty⟩ (by decide)
        (Graph.unfailing_volatile VolatileStore.keyed_empty _)
    refine Or.inr ⟨VolatileStore, _, _, _, hreached, ?_⟩
    decide +kernel
  have hnotes : Importable ⟨[1, 2, 3], 0⟩ :=
    Or.inl ⟨.deserialization "Header too short", by decide +kernel⟩
  have houtput {t : FileTree} {keys : List String}
      (h : ((outputFile "left.snap" : StoreM FileTree String) t).1 =
        .ok "/home/left.snap")
      (havoids : t.Avoids keys "/home/left.snap") :
      ∀ file t',
        (outputFile "left.snap" : StoreM FileTree String) t = (.ok file, t') →
          t.Avoids keys file := by
    intro file t' hfound
    rw [hfound] at h
    exact Except.ok.inj h ▸ havoids
  have hmissing : homeTree.node? ["home", "graph.db"] = none := by
    decide +kernel
  refine backends_agree hfinds hfinds hmissing hmissing hworking
    (by decide) ?_ ?_
  · refine ⟨⟨by decide +kernel, hfile hgraph (by decide +kernel)⟩,
      hsmall (by decide +kernel), ?_⟩
    refine ⟨trivial, hsmall (by decide +kernel), ?_⟩
    refine ⟨⟨by decide +kernel, houtput (by decide +kernel) (by decide +kernel)⟩,
      ?_, trivial⟩
    exact hsmall (by decide +kernel)
  · exact ⟨by decide +kernel, hfile hnotes (by decide +kernel)⟩

end LinkGraph.CommandLine
