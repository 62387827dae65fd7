import LinkGraph.Proofs.Binary.RoundTrip
import LinkGraph.Proofs.Store.Faithful
import LinkGraph.Proofs.Store.Sequencing
import LinkGraph.Proofs.Store.SortedBucket
import LinkGraph.Store.Durable

/-!
# What a durable store holds

The tables of a durable store hold the content of one volatile store, its base,
and with the staged writes on top they stand for the content of another.
Reading answers from the latter, unless a row is too long to be decoded.
-/

namespace LinkGraph

namespace Tables

open Binary (Format)

variable {t : Tables} {α β : Type}

/-- The tables that hold the content of a volatile store. -/
def holding (m : VolatileStore) : Tables where
  entities := m.entities.map fun _ e => Format.entity.write e
  categories := m.index.map fun _ bucket => membersFormat.write bucket.toList

/-- Every row is shorter than `2 ^ 64` bytes. -/
structure Fits (t : Tables) : Prop where
  entities {id : EntityId} {row : List UInt8} :
    t.entities[id]? = some row → row.length < 2 ^ 64
  categories {c : Category} {row : List UInt8} :
    t.categories[c]? = some row → row.length < 2 ^ 64

theorem ext_rows
    {t t' : Tables}
    (hentities : ∀ id : EntityId, t.entities[id]? = t'.entities[id]?)
    (hcategories : ∀ c : Category, t.categories[c]? = t'.categories[c]?) :
    t = t' := by
  cases t
  cases t'
  exact Tables.mk.injEq .. |>.mpr ⟨Std.ExtTreeMap.ext_getElem? hentities,
    Std.ExtTreeMap.ext_getElem? hcategories⟩

theorem fits_iff : t.Fits ↔ (∀ row ∈ t.entities.values, row.length < 2 ^ 64) ∧
    ∀ row ∈ t.categories.values, row.length < 2 ^ 64 := by
  constructor
  · intro h
    constructor
    · intro row hrow
      obtain ⟨id, hid⟩ := (mem_values t.entities).mp hrow
      exact h.entities hid
    · intro row hrow
      obtain ⟨c, hc⟩ := (mem_values t.categories).mp hrow
      exact h.categories hc
  · rintro ⟨hentities, hcategories⟩
    exact ⟨fun hid => hentities _ ((mem_values t.entities).mpr ⟨_, hid⟩),
      fun hc => hcategories _ ((mem_values t.categories).mpr ⟨_, hc⟩)⟩

instance : Decidable t.Fits :=
  decidable_of_iff _ fits_iff.symm

/-- A reading call on tables answers as expected, or fails because a row is too
long. -/
def Reads (t : Tables) (actual expected : Except StoreError α) : Prop :=
  actual = expected ∨ ((∃ e, actual = .error e ∧ e.isRefusal = false) ∧ ¬t.Fits)

theorem Reads.answers
    {actual expected : Except StoreError α} (h : t.Reads actual expected) :
    Answers actual expected :=
  h.imp_right And.left

theorem Reads.eq_of_fits
    {actual expected : Except StoreError α} (h : t.Reads actual expected)
    (hfits : t.Fits) :
    actual = expected :=
  h.resolve_right fun hor => hor.2 hfits

theorem Reads.map
    {actual : Except StoreError α} {a : α} (h : t.Reads actual (.ok a))
    (f : α → β) :
    t.Reads (f <$> actual) (.ok (f a)) := by
  rcases h with rfl | ⟨⟨e, rfl, he⟩, hfits⟩
  · exact Or.inl rfl
  · exact Or.inr ⟨⟨e, rfl, he⟩, hfits⟩

theorem Reads.bind
    {actual : Except StoreError α} {a : α} {f : α → Except StoreError β}
    {expected : Except StoreError β} (h : t.Reads actual (.ok a))
    (hf : t.Reads (f a) expected) :
    t.Reads (actual >>= f) expected := by
  rcases h with rfl | ⟨⟨e, rfl, he⟩, hfits⟩
  · exact hf
  · exact Or.inr ⟨⟨e, rfl, he⟩, hfits⟩

theorem membersFormat_lawful : membersFormat.Lawful :=
  Format.list_lawful Format.text_lawful

theorem decode_reads {format : Format α} (hformat : format.Lawful) {v : α}
    (hlength : t.Fits → (format.write v).length < 2 ^ 64) :
    t.Reads (decode format (format.write v)) (.ok v) := by
  have hread := hformat.faithful v []
  unfold Format.Returns at hread
  rw [List.append_nil] at hread
  unfold decode
  rcases hread with hok | ⟨e, he⟩
  · rw [hok]
    exact Or.inl rfl
  · right
    refine ⟨⟨_, by rw [he], rfl⟩, fun hfits => ?_⟩
    have hok := hformat.complete v [] (hlength hfits)
    unfold Format.Returns at hok
    rw [List.append_nil, he] at hok
    simp at hok

/-! ## Reading the rows of a content -/

theorem length_entity_lt {m : VolatileStore} {id : EntityId} {e : Entity}
    (he : m.entities[id]? = some e) (hfits : (holding m).Fits) :
    (Format.entity.write e).length < 2 ^ 64 := by
  have hrow : (holding m).entities[id]? = some (Format.entity.write e) := by
    simp [holding, he]
  exact hfits.entities hrow

theorem entity_reads (m : VolatileStore) (id : EntityId) :
    (holding m).Reads ((holding m).entity id) (.ok m.entities[id]?) := by
  have hrow :
      (holding m).entities[id]? = m.entities[id]?.map Format.entity.write := by
    simp [holding]
  unfold entity
  rw [hrow]
  cases he : m.entities[id]? with
  | none => exact Or.inl rfl
  | some e =>
    exact (decode_reads Format.entity_lawful (length_entity_lt he)).map some

theorem members_reads (m : VolatileStore) (c : Category) :
    (holding m).Reads ((holding m).members c)
      (.ok (m.index[c]?.map fun b => b.toList)) := by
  have hrow : (holding m).categories[c]? =
      m.index[c]?.map fun b => membersFormat.write b.toList := by
    simp [holding]
  unfold members
  rw [hrow]
  cases hb : m.index[c]? with
  | none => exact Or.inl rfl
  | some b =>
    refine (decode_reads membersFormat_lawful fun hfits => ?_).map some
    apply hfits.categories (c := c)
    rw [hrow, hb]
    rfl

theorem rows_reads (m : VolatileStore) :
    (holding m).Reads
      ((holding m).entities.toList.mapM fun (id, row) => do
        let e ← decode Format.entity row
        return (id, e))
      (.ok m.entities.toList) := by
  have hlist (rows : List (EntityId × Entity))
      (hrows : ∀ row ∈ rows, (holding m).Fits →
        (Format.entity.write row.2).length < 2 ^ 64) :
      (holding m).Reads
        ((rows.map fun row => (row.1, Format.entity.write row.2)).mapM
          fun (id, row) => do
            let e ← decode Format.entity row
            return (id, e))
        (.ok rows) := by
    induction rows with
    | nil => exact Or.inl rfl
    | cons row rows ih =>
      have hrow := decode_reads (t := holding m) Format.entity_lawful
        (hrows row List.mem_cons_self)
      have hrest := ih fun row' h => hrows row' (List.mem_cons_of_mem row h)
      rw [List.map_cons, List.mapM_cons]
      have hfirst : (holding m).Reads
          (do let e ← decode Format.entity (Format.entity.write row.2);
              return (row.1, e)) (.ok row) := hrow.bind (Or.inl rfl)
      exact hfirst.bind (hrest.bind (Or.inl rfl))
  have htoList : (holding m).entities.toList =
      m.entities.toList.map fun row => (row.1, Format.entity.write row.2) :=
    Std.ExtTreeMap.toList_map
  rw [htoList]
  refine hlist _ fun row hrow => ?_
  exact length_entity_lt
    (Std.ExtTreeMap.mem_toList_iff_getElem?_eq_some.mp hrow)

/-! ## Applying a batch -/

theorem entities_apply (t : Tables) (b : Batch) (id : EntityId) :
    (t.apply b).entities[id]? =
      (b.entities[id]?.map fun e? => e?.map Format.entity.write).getD
        t.entities[id]? := by
  refine view_foldl b.entities
    (fun (rows : Std.ExtTreeMap String (List UInt8)) key => rows[key]?)
    (fun rows key e? key' => ?_) t.entities id
  cases e? with
  | none => simp [Std.ExtTreeMap.getElem?_erase, eq_comm (a := key')]
  | some e => simp [Std.ExtTreeMap.getElem?_insert, eq_comm (a := key')]

theorem categories_apply (t : Tables) (b : Batch) (c : Category) :
    (t.apply b).categories[c]? =
      (b.buckets[c]?.map fun members =>
        if members.isEmpty then none
        else some (membersFormat.write members)).getD
          t.categories[c]? := by
  refine view_foldl b.buckets
    (fun (rows : Std.ExtTreeMap String (List UInt8)) key => rows[key]?)
    (fun rows key members key' => ?_) t.categories c
  cases hempty : members.isEmpty with
  | true => simp [Std.ExtTreeMap.getElem?_erase, eq_comm (a := key')]
  | false => simp [Std.ExtTreeMap.getElem?_insert, eq_comm (a := key')]

end Tables

namespace DurableStore

variable {s : DurableStore} {base m : VolatileStore}

/-- How many batches are open. -/
def level (s : DurableStore) : Nat :=
  s.pending.depth

/-- A list of members, none if there are no members. -/
def occupied (members : List EntityId) : Option (List EntityId) :=
  if members.isEmpty then none else some members

/-- The tables hold the content of `base`, and with the staged writes on top of
them that of `m`. -/
structure Reflects (s : DurableStore) (base m : VolatileStore) : Prop where
  base_keyed : base.Keyed
  base_pruned : base.Pruned
  keyed : m.Keyed
  pruned : m.Pruned
  tables : s.tables = .holding base
  entity (id : EntityId) :
    m.entities[id]? = s.pending.entities[id]?.getD base.entities[id]?
  bucket (c : Category) : (m.index[c]?.map fun b => b.toList) =
    (s.pending.buckets[c]?.map occupied).getD
      (base.index[c]?.map fun b => b.toList)
  opened (b : Batch) : s.batch = some b → 0 < b.depth

theorem Reflects.of_idle
    (hkeyed : base.Keyed) (hpruned : base.Pruned)
    (htables : s.tables = .holding base) (hbatch : s.batch = none) :
    s.Reflects base base where
  base_keyed := hkeyed
  base_pruned := hpruned
  keyed := hkeyed
  pruned := hpruned
  tables := htables
  entity id := by simp [pending, hbatch]
  bucket c := by simp [pending, hbatch]
  opened b hb := by simp [hbatch] at hb

/-! ## Reading calls -/

theorem staged?_eq
    (s : DurableStore) (id : EntityId) :
    s.staged? id = s.pending.entities[id]? := by
  unfold staged? pending
  cases s.batch with
  | none => simp
  | some b => rfl

theorem members?_eq (s : DurableStore) (c : Category) :
    s.members? c =
      match s.pending.buckets[c]? with
      | some members => .ok (occupied members)
      | none => s.tables.members c := by
  unfold members? pending
  cases s.batch with
  | none => simp
  | some b => rfl

theorem Reflects.get_reads (h : s.Reflects base m) (id : EntityId) :
    s.tables.Reads (s.get id) (.ok m.entities[id]?) := by
  rw [get, staged?_eq, h.entity id]
  cases s.pending.entities[id]? with
  | some e? => exact Or.inl rfl
  | none =>
    simp only [Option.getD_none]
    rw [h.tables]
    exact Tables.entity_reads base id

theorem Reflects.members?_reads (h : s.Reflects base m) (c : Category) :
    s.tables.Reads (s.members? c)
      (.ok (m.index[c]?.map fun b => b.toList)) := by
  rw [members?_eq, h.bucket c]
  cases s.pending.buckets[c]? with
  | some members => exact Or.inl rfl
  | none =>
    simp only [Option.map_none, Option.getD_none]
    rw [h.tables]
    exact Tables.members_reads base c

theorem Reflects.entityMap_reads (h : s.Reflects base m) :
    s.tables.Reads s.entityMap (.ok m.entities) := by
  have hrows := Tables.rows_reads base
  rw [← h.tables] at hrows
  refine hrows.bind (Or.inl (congrArg Except.ok ?_))
  apply Std.ExtTreeMap.ext_getElem?
  intro id
  rw [ofList_toList, h.entity id]
  have hvalue : s.pending.entities[id]?.getD base.entities[id]? =
      (s.pending.entities[id]?.map fun e? => e?).getD base.entities[id]? := by
    rw [Option.map_id']
  rw [hvalue]
  refine view_foldl s.pending.entities
    (fun (entities : Std.ExtTreeMap EntityId Entity) key => entities[key]?)
    (fun entities key e? key' => ?_) base.entities id
  cases e? with
  | none => simp [Std.ExtTreeMap.getElem?_erase, eq_comm (a := key')]
  | some e => simp [Std.ExtTreeMap.getElem?_insert, eq_comm (a := key')]

theorem mem_bucketNames_iff (s : DurableStore) (c : Category) :
    c ∈ s.bucketNames ↔
      (s.pending.buckets[c]?.map fun members => members ≠ []).getD
        (c ∈ s.tables.categories) := by
  have hkeys : c ∈ s.tables.categories ↔
      c ∈ (.ofList s.tables.categories.keys : NameSet) := by
    rw [Std.ExtTreeSet.mem_ofList, List.contains_iff_mem,
      Std.ExtTreeMap.mem_keys]
  rw [hkeys]
  refine Eq.to_iff (view_foldl s.pending.buckets
    (fun (names : NameSet) key => key ∈ names)
    (fun names key members key' => propext ?_) _ c)
  by_cases hempty : members = []
  · simp [hempty, Std.ExtTreeSet.mem_erase, eq_comm (a := key')]
  · simp [hempty, Std.ExtTreeSet.mem_insert, eq_comm (a := key'),
      or_iff_not_imp_left]

theorem Reflects.mem_bucketNames (h : s.Reflects base m) (c : Category) :
    c ∈ s.bucketNames ↔ c ∈ m.index := by
  have hbucket := h.bucket c
  rw [mem_bucketNames_iff,
    Std.ExtTreeMap.mem_iff_isSome_getElem? (t := m.index)]
  have hsome : (m.index[c]?).isSome =
      (m.index[c]?.map fun b => b.toList).isSome := by simp
  rw [hsome, hbucket, h.tables]
  cases s.pending.buckets[c]? with
  | none => simp [Tables.holding]
  | some members => simp [occupied]

theorem Reflects.contains_eq (h : s.Reflects base m) (id : EntityId) :
    EntityStore.contains s id = .ok (m.entities.contains id) := by
  have hstaged := staged?_eq s id
  have hentity := h.entity id
  rw [Std.ExtTreeMap.contains_eq_isSome_getElem? (t := m.entities), hentity]
  cases hpending : s.pending.entities[id]? with
  | some e? =>
    rw [hpending] at hstaged
    simp only [EntityStore.contains, hstaged, Option.getD_some]
  | none =>
    rw [hpending] at hstaged
    simp only [EntityStore.contains, hstaged, Option.getD_none, h.tables]
    simp [Tables.holding]

theorem Reflects.members_reads (h : s.Reflects base m) (c : Category) :
    s.tables.Reads (EntityStore.members s c) (EntityStore.members m c) := by
  have hexpected : EntityStore.members m c =
      .ok ((m.index[c]?.map fun b => b.toList).getD []) := by
    rw [VolatileStore.toList_bucket]
    rfl
  rw [hexpected]
  exact (h.members?_reads c).map (·.getD [])

theorem Reflects.hasCategory_reads (h : s.Reflects base m) (c : Category) :
    s.tables.Reads (EntityStore.hasCategory s c)
      (EntityStore.hasCategory m c) := by
  have hexpected : EntityStore.hasCategory m c =
      .ok (m.index[c]?.map fun b => b.toList).isSome := by
    change Except.ok (m.index.contains c) = _
    rw [Std.ExtTreeMap.contains_eq_isSome_getElem?, Option.isSome_map]
  rw [hexpected]
  exact (h.members?_reads c).map Option.isSome

theorem Reflects.categories_eq (h : s.Reflects base m) :
    EntityStore.categories s = EntityStore.categories m := by
  refine congrArg Except.ok
    ((sorted_names _).eq_of_mem_iff (sorted_keys m.index) fun c => ?_)
  rw [Std.ExtTreeSet.mem_toList, Std.ExtTreeMap.mem_keys, h.mem_bucketNames]

theorem Reflects.entities_eq_base
    (h : s.Reflects base m) (hidle : s.pending.entities.isEmpty = true) :
    m.entities = base.entities := by
  apply Std.ExtTreeMap.ext_getElem?
  intro id
  rw [h.entity id, Std.ExtTreeMap.isEmpty_iff.mp hidle]
  simp

theorem Reflects.entityCount_reads (h : s.Reflects base m) :
    s.tables.Reads (EntityStore.entityCount s) (EntityStore.entityCount m) := by
  change s.tables.Reads
    (if s.pending.entities.isEmpty then .ok s.tables.entities.size
      else Std.ExtTreeMap.size <$> s.entityMap) (.ok m.entities.size)
  split
  · next hidle =>
    rw [h.entities_eq_base hidle, h.tables]
    exact Or.inl (congrArg Except.ok Std.ExtTreeMap.size_map)
  · exact h.entityMap_reads.map Std.ExtTreeMap.size

theorem Reflects.entities_reads (h : s.Reflects base m) :
    s.tables.Reads (EntityStore.entities s) (EntityStore.entities m) :=
  h.entityMap_reads.map Std.ExtTreeMap.values

/-- As long as no row is too long, a durable store is read as the volatile store
it stands for. -/
theorem Reflects.agrees
    (h : s.Reflects base m) (hfits : s.tables.Fits) :
    Agrees s m where
  get id := (h.get_reads id).eq_of_fits hfits
  contains := h.contains_eq
  members c := (h.members_reads c).eq_of_fits hfits
  hasCategory c := (h.hasCategory_reads c).eq_of_fits hfits
  categories := h.categories_eq
  entityCount := h.entityCount_reads.eq_of_fits hfits
  entities := h.entities_reads.eq_of_fits hfits

/-- Every entity is in the tables or staged. -/
theorem Reflects.size_le (h : s.Reflects base m) :
    m.entities.size ≤ s.tables.entities.size + s.pending.entities.size := by
  have hnodup : m.entities.keys.Nodup := (sorted_keys m.entities).imp ne_of_lt
  have hsubset :
      m.entities.keys ⊆ s.tables.entities.keys ++ s.pending.entities.keys := by
    intro id hid
    rw [Std.ExtTreeMap.mem_keys, Std.ExtTreeMap.mem_iff_isSome_getElem?,
      h.entity id] at hid
    rw [List.mem_append, Std.ExtTreeMap.mem_keys, Std.ExtTreeMap.mem_keys]
    cases hstaged : s.pending.entities[id]? with
    | some e? =>
      exact Or.inr (Std.ExtTreeMap.mem_iff_isSome_getElem?.mpr
        (by simp [hstaged]))
    | none =>
      left
      rw [hstaged, Option.getD_none] at hid
      rw [h.tables, Tables.holding, Std.ExtTreeMap.mem_map,
        Std.ExtTreeMap.mem_iff_isSome_getElem?]
      exact hid
  have hle := (List.subperm_of_subset hnodup hsubset).length_le
  rw [List.length_append] at hle
  simpa only [Std.ExtTreeMap.length_keys] using hle

end DurableStore

end LinkGraph
