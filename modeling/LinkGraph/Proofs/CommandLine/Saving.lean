import LinkGraph.CommandLine.Storage
import LinkGraph.Proofs.Files.Tree
import LinkGraph.Proofs.Graph.Exporting

/-!
# Saved sessions

A session in memory is saved as the snapshot of its graph.  The next session is
opened from the file: that it is a regular file and not too large is found out
first, then its header is read, and its entities are restored into an empty
store.
-/

namespace LinkGraph

namespace CommandLine

variable {settings : Settings} {t t' : FileTree} {path place : String}
  {content : FileContent}

theorem attempt_run {α : Type} (describe : String → String)
    (op : StateM FileTree (Except FileError α)) (t : FileTree) :
    (attempt describe op : StoreM FileTree α) t =
      ((op t).1.mapError fun e => .io (describe e.message), (op t).2) := by
  have hlift : (liftM op : StoreM FileTree (Except FileError α)) t =
      (.ok (op t).1, (op t).2) := rfl
  rw [attempt, bind_run_ok hlift]
  cases (op t).1 with
  | ok a => rfl
  | error e => rfl

theorem attempt_run_ok
    {α : Type} {describe : String → String}
    {op : StateM FileTree (Except FileError α)} {a : α}
    (h : op t = (.ok a, t')) :
    (attempt describe op : StoreM FileTree α) t = (.ok a, t') := by
  rw [attempt_run, h]
  rfl

theorem kindOf_run (t : FileTree) (path : String) :
    (kindOf path : StoreM FileTree (Option FileKind)) t =
      (.ok (t.kind? path), t) := rfl

theorem regularFile_run (hplace : t.canonical path = .ok place)
    (hkind : t.kind? place = some .regular) :
    (regularFile path : StoreM FileTree String) t = (.ok place, t) := by
  have hcanonical :
      (FileAccess.canonical path : StateM FileTree _) t = (.ok place, t) := by
    change (t.canonical path, t) = _
    rw [hplace]
  rw [regularFile, bind_run_ok (attempt_run_ok hcanonical),
    bind_run_ok (kindOf_run t place), hkind]
  rfl

theorem readSnapshot_run (hplace : t.canonical path = .ok place)
    (hkind : t.kind? place = some .regular) (hread : t.read place = .ok content)
    (hsize : content.size ≤ Snapshot.maxSize) :
    (readSnapshot path : StoreM FileTree FileContent) t = (.ok content, t) := by
  have hcontent :
      (FileAccess.read place : StateM FileTree _) t = (.ok content, t) := by
    change (t.read place, t) = _
    rw [hread]
  rw [readSnapshot, bind_run_ok (regularFile_run hplace hkind),
    bind_run_ok (attempt_run_ok hcontent), Snapshot.checkSize,
    if_neg (Nat.not_lt.mpr hsize)]
  rfl

theorem attempt_write_ok (describe : String → String) {bs : List UInt8}
    (h : t.write path ⟨bs, 0⟩ = .ok t') :
    (attempt describe (FileAccess.write path bs) : StoreM FileTree Unit) t =
      (.ok (), t') := by
  refine attempt_run_ok ?_
  simp only [FileAccess.write, h]

theorem attempt_write_error
    (describe : String → String) {bs : List UInt8} {e : FileError}
    (h : t.write path ⟨bs, 0⟩ = .error e) :
    (attempt describe (FileAccess.write path bs) : StoreM FileTree Unit) t =
      (.error (.io (describe e.message)), t) := by
  rw [attempt_run]
  simp only [FileAccess.write, h]
  rfl

theorem attempt_write_eq_ok
    {describe : String → String} {bs : List UInt8}
    (h : (attempt describe (FileAccess.write path bs) :
      StoreM FileTree Unit) t = (.ok (), t')) :
    t.write path ⟨bs, 0⟩ = .ok t' := by
  rw [attempt_run] at h
  simp only [FileAccess.write] at h
  split at h
  · next hwrite =>
    obtain rfl : _ = t' := congrArg Prod.snd h
    exact hwrite
  · cases h

theorem snapshotEntities_write {es : List Entity}
    (hsize : (Snapshot.write es).length ≤ Snapshot.maxSize) :
    snapshotEntities ⟨Snapshot.write es, 0⟩ = .ok es := by
  have hbytes :
      FileContent.toBytes ⟨Snapshot.write es, 0⟩ = Snapshot.write es := by
    simp [FileContent.toBytes]
  rw [snapshotEntities, hbytes, Snapshot.read_write hsize]
  rfl

/-- A session in memory that has been saved is the snapshot of its graph in the
file. -/
theorem write_of_saveSession
    {session : Session VolatileStore}
    (h : (saveSession settings (.volatile session) : StoreM FileTree Unit) t =
      (.ok (), t')) :
    ∃ bs, session.graph.exportBytes = .ok bs ∧
      t.write settings.database ⟨bs, 0⟩ = .ok t' := by
  rw [saveSession] at h
  cases hexport : session.graph.exportBytes with
  | error e =>
    rw [hexport] at h
    cases h
  | ok bs =>
    rw [hexport] at h
    exact ⟨bs, rfl, attempt_write_eq_ok h⟩

theorem perform_restore
    {session : Session VolatileStore} (hs : session.graph.store.Keyed)
    (es : List Entity) :
    OpenSession.perform (Session.run (Graph.restore es)) (.volatile session) =
      (.ok es.length, .volatile
        { session with
          graph := { session.graph with
                     store := session.graph.store.restored es } }) := by
  change ((Graph.restore es session.graph).1, OpenSession.volatile
    { session with graph := (Graph.restore es session.graph).2 }) = _
  rw [Graph.restore_run hs]

/-- A session in memory into which entities have been restored. -/
def restoredSession
    (settings : Settings) (es : List Entity) : Session VolatileStore :=
  let empty := Session.inMemory settings.registry settings.validates
  { empty with
    graph := { empty.graph with store := empty.graph.store.restored es } }

/-- A session is opened from a snapshot by restoring its entities. -/
theorem openSession_run
    {es : List Entity} (hbackend : settings.backend = .volatile)
    (hkind : t.kind? settings.database = some .regular)
    (hread : (readSnapshot settings.database : StoreM FileTree FileContent) t =
      (.ok content, t))
    (hentities : snapshotEntities content = .ok es) :
    (openSession settings : StoreM FileTree OpenSession) t =
      (.ok (.volatile (restoredSession settings es)), t) := by
  have hlift :
      (liftM (snapshotEntities content) : StoreM FileTree (List Entity)) t =
        (.ok es, t) := by
    rw [hentities]
    rfl
  have hempty : (Session.inMemory settings.registry
      settings.validates).graph.store.Keyed :=
    VolatileStore.keyed_empty
  rw [openSession, hbackend]
  dsimp only
  rw [bind_run_ok (kindOf_run t settings.database), hkind, Option.isNone_some,
    if_neg (by decide), bind_run_ok hread, bind_run_ok hlift,
    perform_restore hempty]
  rfl

/-- After a session in memory has been saved, one with the same store is opened,
unless the snapshot or the path that leads to it is too long. -/
theorem openSession_saved
    {session : Session VolatileStore} (hbackend : settings.backend = .volatile)
    (hfilled : session.graph.Filled) (hworking : t.Sound t.working)
    (hsave : (saveSession settings (.volatile session) :
      StoreM FileTree Unit) t = (.ok (), t')) :
    ∃ bs place, session.graph.exportBytes = .ok bs ∧
      t'.canonical settings.database = .ok place ∧
      (bs.length ≤ Snapshot.maxSize → place.utf8ByteSize ≤ FileTree.maxPath →
        ∃ session', session'.graph =
            { store := session.graph.store, registry := settings.registry,
              validates := settings.validates } ∧
          (openSession settings : StoreM FileTree OpenSession) t' =
            (.ok (.volatile session'), t')) := by
  obtain ⟨m, hholds, hreads, hindexed, hmoored⟩ := hfilled.content
  obtain ⟨rfl, -⟩ : session.graph.store = m ∧ m.Keyed := hholds
  obtain ⟨bs, hexport, hwrite⟩ := write_of_saveSession hsave
  obtain ⟨place, hplace, hkind, hreread⟩ := FileTree.reread hworking hwrite
  refine ⟨bs, place, hexport, hplace, fun hsize hlength => ?_⟩
  -- What is read is the absolute path that was found, not the path that was
  -- written to.
  obtain ⟨hregular, hread⟩ := hreread hlength
  obtain rfl : Snapshot.write session.graph.store.entities.values = bs :=
    Except.ok.inj hexport
  have hsnapshot := readSnapshot_run hplace hregular hread hsize
  have hopen :=
    openSession_run hbackend hkind hsnapshot (snapshotEntities_write hsize)
  refine ⟨_, ?_, hopen⟩
  rw [restoredSession, Session.inMemory,
    VolatileStore.restored_values hindexed hmoored]

end CommandLine

open LinkGraph.Graph FaithfulStore

/-- What a graph exports makes any empty graph, on whichever store, the same
graph when it is imported.  What a session in memory has saved is the graph that
the next session starts from. -/
theorem exported_preserved
    {σ τ : Type} [EntityStore σ] [FaithfulStore σ] [EntityStore τ]
    [FaithfulStore τ] {g : Graph σ} (h : g.Filled) :
    (∃ all bs, g.entities = .ok all ∧ g.exportBytes = .ok bs ∧
      (bs.length ≤ Snapshot.maxSize →
      ∀ (t : τ) (registry : HookRegistry) (validates : Bool), Holds t {} →
        Unfailing { store := t, registry, validates } [.restore all] →
        (importBytes bs { store := t, registry, validates }).1 =
            .ok all.length ∧
          Matches (importBytes bs { store := t, registry, validates }).2 g)) ∧
    ∀ (settings : Settings) (session : Session VolatileStore) (t t' : FileTree),
      settings.backend = .volatile → session.graph.Filled → t.Sound t.working →
      (CommandLine.saveSession settings (.volatile session) :
        StoreM FileTree Unit) t = (.ok (), t') →
      ∃ bs place, session.graph.exportBytes = .ok bs ∧
        t'.canonical settings.database = .ok place ∧
        (bs.length ≤ Snapshot.maxSize → place.utf8ByteSize ≤ FileTree.maxPath →
          ∃ session', session'.graph =
              { store := session.graph.store, registry := settings.registry,
                validates := settings.validates } ∧
            Matches session'.graph session.graph ∧
            (CommandLine.openSession settings :
              StoreM FileTree OpenSession) t' =
              (.ok (.volatile session'), t')) := by
  refine ⟨import_export h, ?_⟩
  intro settings session t t' hbackend hfilled hworking hsave
  obtain ⟨bs, place, hexport, hplace, hopened⟩ :=
    CommandLine.openSession_saved hbackend hfilled hworking hsave
  refine ⟨bs, place, hexport, hplace, fun hsize hlength => ?_⟩
  obtain ⟨session', hgraph, hopen⟩ := hopened hsize hlength
  exact ⟨session', hgraph, matches_of_reads fun r => by rw [hgraph], hopen⟩

/-- A link whose source is missing, an entity twice, and one that names a link
that is none. -/
def oddEntities : List Entity :=
  [{ id := "l", kind := "k", endpoints := some ⟨"a", "b"⟩ },
    { id := "c", kind := "k" },
    { id := "d", kind := "k", linkedFrom := {"c", "x"} },
    { id := "c", kind := "n", serial := 7 }]

def oddSession : Session VolatileStore :=
  { graph := (importBytes (Snapshot.write oddEntities) { store := {} }).2,
    backend := .volatile }

/-- The tree with a file to which it has been saved. -/
def oddTree : FileTree :=
  ((CommandLine.saveSession {} (.volatile oddSession) : StoreM FileTree Unit)
    (.empty ["home"])).2

theorem exported_preserved_oddEntities :
    ∃ bs, oddSession.graph.exportBytes = .ok bs ∧
      (importBytes bs { store := ({} : DurableStore) }).1 = .ok 3 ∧
      Matches (importBytes bs { store := ({} : DurableStore) }).2
        oddSession.graph ∧
      ∃ session, Matches session.graph oddSession.graph ∧
        (CommandLine.openSession {} : StoreM FileTree OpenSession) oddTree =
          (.ok (.volatile session), oddTree) := by
  have himport : (importBytes (Snapshot.write oddEntities)
      { store := ({} : VolatileStore) }).1 = .ok 4 := by decide +kernel
  have hfilled : oddSession.graph.Filled := by
    have hstart : Holds ({} : VolatileStore) {} :=
      ⟨rfl, VolatileStore.keyed_empty⟩
    exact .imported hstart (Prod.ext himport rfl) (readable_volatile _)
  have hworking : (FileTree.empty ["home"]).Sound ["home"] := by
    constructor
    · intro name hname
      obtain rfl : name = "home" := by simpa using hname
      exact ⟨by decide, by decide, by decide, by decide, by decide⟩
    · intro front name rest hsplit
      obtain rfl : front = [] := by
        rw [List.eq_nil_iff_length_eq_zero]
        have hlength := congrArg List.length hsplit
        simp at hlength
        omega
      rfl
  have hsaved :
    ((CommandLine.saveSession {} (.volatile oddSession) : StoreM FileTree Unit)
      (.empty ["home"])).1 = .ok () := by decide +kernel
  have hsize : (Snapshot.write oddSession.graph.store.entities.values).length ≤
      Snapshot.maxSize := by
    decide +kernel
  obtain ⟨⟨all, bs, hall, hbs, himports⟩, hsaves⟩ :=
    exported_preserved (σ := VolatileStore) (τ := DurableStore) hfilled
  obtain rfl : oddSession.graph.store.entities.values = all :=
    Except.ok.inj hall
  obtain rfl : Snapshot.write oddSession.graph.store.entities.values = bs :=
    Except.ok.inj hbs
  have hrestore : Unfailing { store := ({} : DurableStore) }
      [.restore oddSession.graph.store.entities.values] :=
    unfailing_durable (n := 3) (Prod.ext (by decide +kernel) rfl)
      (by decide +kernel)
  obtain ⟨hcount, hmatches⟩ :=
    himports hsize {} {} false holds_durable_empty hrestore
  obtain ⟨bs', place, hbs', hplace, hopens⟩ :=
    hsaves {} oddSession (.empty ["home"]) oddTree rfl hfilled hworking
      (Prod.ext hsaved rfl)
  obtain rfl := Except.ok.inj (hbs'.symm.trans hbs)
  have hcanonical :
      oddTree.canonical "occistore.db" = .ok "/home/occistore.db" := by
    decide +kernel
  obtain rfl : "/home/occistore.db" = place :=
    Except.ok.inj (hcanonical.symm.trans hplace)
  obtain ⟨session, -, hsame, hopen⟩ := hopens hsize (by decide +kernel)
  have hthree : oddSession.graph.store.entities.values.length = 3 := by
    decide +kernel
  exact ⟨_, hbs, hthree ▸ hcount, hmatches, session, hsame, hopen⟩

end LinkGraph
