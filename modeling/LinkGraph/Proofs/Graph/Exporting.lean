import LinkGraph.Proofs.Binary.RoundTrip
import LinkGraph.Proofs.Graph.Merging
import LinkGraph.Proofs.Store.Replay

/-!
# Exporting and importing

A snapshot is read as the entities it was written from.  Restoring them into an
empty store gives back the store they were taken from, provided that its index
is exact and its links hang on their sources: the index is built anew, and
attaching the links in the end adds nothing that was not there.
-/

namespace LinkGraph

namespace Snapshot

theorem payload_lawful : payload.Lawful :=
  Binary.Format.list_lawful Binary.Format.entity_lawful

theorem checkSize_of_le (kind : String) {size : Nat} (h : size ≤ maxSize) :
    checkSize kind size = .ok () :=
  if_neg (Nat.not_lt.mpr h)

/-- After its header a snapshot is read as its entities. -/
theorem read_header_append {bs : List UInt8}
    (hsize : (Header.current.toBytes ++ bs).length ≤ maxSize) :
    read (Header.current.toBytes ++ bs) =
      match payload.read bs with
      | .ok (es, _) => .ok es
      | .error e =>
        .error (.deserialization
          s!"Failed to decode snapshot: {e.message}") := by
  rw [read, checkSize_of_le "Data" hsize]
  rfl

/-- A snapshot is read as the entities it was written from, whatever follows it,
unless all of it is too long. -/
theorem read_write_append
    {es : List Entity} {tail : List UInt8}
    (hsize : (write es ++ tail).length ≤ maxSize) :
    read (write es ++ tail) = .ok es := by
  have hlength : (payload.write es).length < 2 ^ 64 := by
    have hle : (payload.write es).length ≤ (write es ++ tail).length := by
      simp only [write, List.length_append]
      omega
    exact lt_of_le_of_lt (hle.trans hsize) (by decide)
  have hpayload : payload.read (payload.write es ++ tail) = .ok (es, tail) :=
    payload_lawful.complete es tail hlength
  rw [write, List.append_assoc] at hsize ⊢
  rw [read_header_append hsize, hpayload]

/-- A snapshot that is not too long is read as the entities it was written
from. -/
theorem read_write {es : List Entity} (hsize : (write es).length ≤ maxSize) :
    read (write es) = .ok es := by
  have hread : read (write es ++ []) = .ok es :=
    read_write_append (by rwa [List.append_nil])
  rwa [List.append_nil] at hread

theorem length_le_of_read
    {bs : List UInt8} {es : List Entity} (h : read bs = .ok es) :
    bs.length ≤ maxSize := by
  by_contra hlong
  rw [read, checkSize, if_pos (Nat.not_le.mp hlong)] at h
  cases h

end Snapshot

namespace VolatileStore

variable {s : VolatileStore} {l x : EntityId}

/-- An empty store into which the entities of a store are restored becomes that
store. -/
theorem restored_values
    (h : s.Indexed) (hmoored : s.Moored) :
    restored {} s.entities.values = s := by
  have hmem {e : Entity} : e ∈ s.entities.values ↔ s.entities[e.id]? = some e :=
    h.keyed.mem_values
  have hbare (x : EntityId) :
      (restored {} s.entities.values).entities[x]?.map Entity.bare =
        s.entities[x]?.map Entity.bare := by
    rw [bare_restored keyed_empty, latest_of_perm_values h.keyed (.refl _)]
    simp
  have hsource {e : Entity} {x : EntityId} (he : e ∈ s.entities.values)
      (hsource : e.source? = some x) (hx : x ∈ s.entities) :
      s.Hangs e.id x := by
    refine hmoored e.id x ?_ hx
    rw [sourceOf, hmem.mp he]
    exact hsource
  refine (indexed_empty.restored _).eq_of_entities_eq h
    (entities_eq_of_views hbare fun l x => ?_)
  constructor
  · intro hl
    have hx : x ∈ s.entities := by
      rw [mem_entities_iff_bare, ← hbare, ← mem_entities_iff_bare]
      exact hl.stored
    by_cases hne : l = x
    · subst hne
      rcases (hangs_self_restored keyed_empty).mp hl with
        ⟨e, he, -⟩ | ⟨e, he, rfl, hown | hstart⟩
      · simp at he
      · exact ⟨e, hmem.mp he, hown⟩
      · exact hsource he hstart hx
    · rcases hangs_restored_cases keyed_empty hne hl with ⟨e, he, rfl, hstart⟩ |
          ⟨e, he, rfl, hle⟩ | ⟨⟨e, he, -⟩, -⟩
      · exact hsource he hstart hx
      · exact ⟨e, hmem.mp he, hle⟩
      · simp at he
  · rintro ⟨e, he, hle⟩
    obtain rfl : e.id = x := h.keyed x e he
    have hnodup := nodup_of_perm_values h.keyed (.refl s.entities.values)
    refine (hangs_foldl_attached _).mpr (Or.inl ?_)
    refine hangs_foldl_replaced_of_listed keyed_empty hnodup (fun _ => ?_) ?_
    · simp [sourceOf]
    · exact Or.inr ⟨e, hmem.mpr he, rfl, hle⟩

end VolatileStore

namespace Graph

open FaithfulStore (Holds)

variable {σ τ : Type} [EntityStore σ] [FaithfulStore σ] [EntityStore τ]
  [FaithfulStore τ]

omit [FaithfulStore σ] in
theorem importBytes_run_ok
    {bs : List UInt8} {es : List Entity} (hread : Snapshot.read bs = .ok es)
    (g : Graph σ) :
    importBytes bs g = restore es g := by
  have hlift :
      (liftM (Snapshot.read bs) : GraphM σ (List Entity)) g = (.ok es, g) := by
    rw [hread]
    rfl
  rw [importBytes, bind_run_ok hlift]

omit [FaithfulStore σ] in
theorem importBytes_run_error
    {bs : List UInt8} {e : StoreError} (hread : Snapshot.read bs = .error e)
    (g : Graph σ) :
    importBytes bs g = (.error e, g) := by
  have hlift : (liftM (Snapshot.read bs) : GraphM σ (List Entity)) g =
      (.error e, g) := by
    rw [hread]
    rfl
  rw [importBytes, bind_run_error hlift]

omit [FaithfulStore σ] in
theorem exportBytes_of_agrees
    {g : Graph σ} {m : VolatileStore} (h : Agrees g.store m) :
    g.exportBytes = .ok (Snapshot.write m.entities.values) := by
  rw [exportBytes, entities, h.entities]
  rfl

/-- An import that succeeds restores what is read, and nothing else. -/
theorem related_of_importBytes
    {s : σ} {registry : HookRegistry} {validates : Bool} {bs : List UInt8}
    {n : Nat} {g : Graph σ} (hs : Holds s {})
    (hrun : importBytes bs { store := s, registry, validates } = (.ok n, g)) :
    ∃ es, Snapshot.read bs = .ok es ∧
      Related g
        { store := VolatileStore.restored {} es, registry, validates } := by
  cases hread : Snapshot.read bs with
  | error e =>
    rw [importBytes_run_error hread] at hrun
    cases hrun
  | ok es =>
    have hstart : Related { store := s, registry, validates }
        { store := ({} : VolatileStore), registry, validates } :=
      ⟨hs, rfl, rfl, .nil⟩
    have hsimulates := restore_simulates es _ _ hstart
    rw [importBytes_run_ok hread] at hrun
    rw [hrun, restore_run VolatileStore.keyed_empty] at hsimulates
    rcases hsimulates with ⟨-, hrel⟩ | ⟨e, hr, -⟩
    · exact ⟨es, rfl, hrel⟩
    · cases hr

/-- The graph results from local operations on an empty graph.  In between it
may have been exported, and its export imported into an empty graph again. -/
inductive Evolved : Graph σ → Prop
  | reached {g : Graph σ} : Reached g → Evolved g
  | resumed {g₀ g : Graph σ} {s : σ} {registry : HookRegistry}
    {validates : Bool}
      {bs : List UInt8} {n : Nat} {ops : List Operation} :
      Evolved g₀ → g₀.exportBytes = .ok bs → Holds s {} →
      importBytes bs { store := s, registry, validates } = (.ok n, g) →
      (∀ op ∈ ops, op.isLocal) → g.Unfailing ops → Evolved (g.after ops)

/-- The graph results from local operations, or from importing into an empty
graph whatever bytes are accepted, and can be read. -/
inductive Filled : Graph σ → Prop
  | evolved {g : Graph σ} : Evolved g → Filled g
  | imported {s : σ} {registry : HookRegistry} {validates : Bool}
    {bs : List UInt8} {n : Nat}
      {g : Graph σ} : Holds s {} →
      importBytes bs { store := s, registry, validates } = (.ok n, g) →
      Readable g.store → Filled g

theorem Evolved.content {g : Graph σ} (h : Evolved g) :
    ∃ m, Holds g.store m ∧ Agrees g.store m ∧ m.Anchored ∧ m.Indexed := by
  induction h with
  | reached h =>
    obtain ⟨v, hrel, hreads, hanchored, hindexed⟩ := h.content
    exact ⟨v.store, hrel.store, hreads, hanchored, hindexed⟩
  | @resumed g₀ g s registry validates bs n ops _ hexport hs hrun hlocal
    hops ih =>
    obtain ⟨m, -, hreads, hanchored, hindexed⟩ := ih
    obtain ⟨es, hread, hrel⟩ := related_of_importBytes hs hrun
    obtain rfl : Snapshot.write m.entities.values = bs :=
      Except.ok.inj ((exportBytes_of_agrees hreads).symm.trans hexport)
    obtain rfl : m.entities.values = es :=
      Except.ok.inj ((Snapshot.read_write
        (Snapshot.length_le_of_read hread)).symm.trans hread)
    rw [VolatileStore.restored_values hindexed hanchored.moored] at hrel
    have hrel' := hrel.after hops
    exact ⟨_, hrel'.store, hops.readable.agrees hrel'.store,
      anchored_after hanchored hlocal, hindexed.after ops⟩

theorem Filled.content {g : Graph σ} (h : Filled g) :
    ∃ m, Holds g.store m ∧ Agrees g.store m ∧ m.Indexed ∧ m.Moored := by
  cases h with
  | evolved h =>
    obtain ⟨m, hholds, hreads, hanchored, hindexed⟩ := h.content
    exact ⟨m, hholds, hreads, hindexed, hanchored.moored⟩
  | imported hs hrun hreadable =>
    obtain ⟨es, -, hrel⟩ := related_of_importBytes hs hrun
    exact ⟨_, hrel.store, hreadable.agrees hrel.store,
      VolatileStore.indexed_empty.restored es, VolatileStore.moored_restored es⟩

/-- What a graph exports can be imported into any empty graph, on whichever
store, and makes it the same graph. -/
theorem import_export {g : Graph σ} (h : Filled g) :
    ∃ all bs, g.entities = .ok all ∧ g.exportBytes = .ok bs ∧
      (bs.length ≤ Snapshot.maxSize →
      ∀ (t : τ) (registry : HookRegistry) (validates : Bool), Holds t {} →
        Unfailing { store := t, registry, validates } [.restore all] →
        (importBytes bs { store := t, registry, validates }).1 =
            .ok all.length ∧
          Matches (importBytes bs { store := t, registry, validates }).2 g) := by
  obtain ⟨m, -, hreads, hindexed, hmoored⟩ := h.content
  refine ⟨_, _, hreads.entities, exportBytes_of_agrees hreads,
    fun hsize t registry validates ht hrestore => ?_⟩
  have hstart : Related { store := t, registry, validates }
      { store := ({} : VolatileStore), registry, validates } :=
    ⟨ht, rfl, rfl, .nil⟩
  obtain ⟨hr, hreads'⟩ := hstart.restore hrestore
  rw [VolatileStore.restored_values hindexed hmoored] at hreads'
  rw [importBytes_run_ok (Snapshot.read_write hsize)]
  exact ⟨hr, matches_of_agrees hreads' hreads⟩

theorem holds_durable_empty : Holds ({} : DurableStore) {} :=
  ⟨_, (DurableStore.tracks_empty none).reflects⟩

/-- When a restoring into empty tables succeeds and leaves no row that is too
long, no call on the store has failed. -/
theorem unfailing_durable
    {es : List Entity} {n : Nat} {registry : HookRegistry} {validates : Bool}
    {g : Graph DurableStore}
    (hrun : restore es { store := ({} : DurableStore), registry, validates } =
      (.ok n, g))
    (hfits : g.store.tables.Fits) :
    Unfailing { store := ({} : DurableStore), registry, validates }
      [.restore es] := by
  have hstart : Related { store := ({} : DurableStore), registry, validates }
      { store := ({} : VolatileStore), registry, validates } :=
    ⟨holds_durable_empty, rfl, rfl, .nil⟩
  have hsimulates := restore_simulates es _ _ hstart
  have hperform := forget_run (restore es)
    { store := ({} : DurableStore), registry, validates }
  rw [hrun] at hsimulates hperform
  obtain ⟨base, hempty⟩ := holds_durable_empty
  refine ⟨(hempty.agrees (by decide)).readable, ?_, ?_⟩
  · intro e he
    rw [Operation.perform, hperform] at he
    cases he
  · rw [Operation.perform, hperform]
    rcases hsimulates with ⟨-, hrel⟩ | ⟨e, he, -⟩
    · obtain ⟨base', hreflects⟩ := hrel.store
      exact (hreflects.agrees hfits).readable
    · cases he

end Graph

end LinkGraph
