import LinkGraph.Proofs.Graph.Index
import LinkGraph.Proofs.Store.Staging
import LinkGraph.Snapshot
import LinkGraph.Store.TableFile
import Mathlib.Algebra.Order.BigOperators.Group.List

/-!
# Tables that have been written to a file

Tables are read from their file as they were written, as long as the numbers and
the lengths of their rows fit into 64 bits.  The tables of a graph do whenever a
snapshot of it is small enough to be read: there are no more categories than
bytes in the snapshot, and no more ids.
-/

namespace LinkGraph

open Binary (Format)

namespace Tables

variable {t : Tables} {rows : Std.ExtTreeMap String (List UInt8)}

/-- The rows are few enough, and have short enough keys and contents, to be
written with their lengths. -/
structure Listable (rows : Std.ExtTreeMap String (List UInt8)) : Prop where
  size : rows.size < 2 ^ 64
  key {key : String} {row : List UInt8} :
    rows[key]? = some row → key.utf8ByteSize < 2 ^ 64
  row {key : String} {row : List UInt8} :
    rows[key]? = some row → row.length < 2 ^ 64

theorem Listable.returns
    (h : Listable rows) (rest : List UInt8) :
    rowsFormat.Returns rows rest := by
  refine Format.map_returns (ofList_toList rows)
    (Format.list_returns ?_ ?_ rest)
  · rw [Std.ExtTreeMap.length_toList]
    exact h.size
  · rintro ⟨key, row⟩ hrow rest
    have hrow := Std.ExtTreeMap.mem_toList_iff_getElem?_eq_some.mp hrow
    exact Format.pair_returns (Format.text_returns (h.key hrow) _)
      (Format.bytes_returns (h.row hrow) _)

theorem ofBytes?_toBytes
    (hentities : Listable t.entities) (hcategories : Listable t.categories) :
    ofBytes? t.toBytes = some t := by
  have hread : format.read (format.write t) = .ok (t, []) := by
    have hpair := Format.pair_returns (v := (t.entities, t.categories))
      (hentities.returns _) (hcategories.returns [])
    have hreturns : format.Returns t [] := Format.map_returns rfl hpair
    rw [Format.Returns, List.append_nil] at hreturns
    exact hreturns
  rw [ofBytes?, toBytes, List.take_left, if_pos rfl, List.drop_left, hread]

end Tables

namespace Entity

variable {e : Entity} {c : Category}

theorem utf8ByteSize_le_text
    (s : String) :
    s.utf8ByteSize ≤ (Format.text.write s).length := by
  simp only [Format.text, List.length_append, Format.length_bytes]
  omega

/-- An entity is written as its id, its kind and its mixins, among other
things. -/
theorem length_parts_le (e : Entity) :
    (Format.text.write e.id).length + (Format.text.write e.kind).length +
      (Format.names.write e.mixins).length ≤
        (Format.entity.write e).length := by
  simp only [Format.entity, Format.map, Format.pair, List.length_append]
  omega

theorem length_categories_le (e : Entity) :
    e.categories.length ≤ (Format.entity.write e).length := by
  have hparts := e.length_parts_le
  have hkind := Format.text_lawful.positive e.kind
  have hcount := Format.length_le_flatMap Format.text_lawful e.mixins.toList
  have hmixins : (e.mixins.toList.flatMap Format.text.write).length ≤
      (Format.names.write e.mixins).length := by
    simp [Format.names, Format.map, Format.list]
  rw [categories, List.length_cons]
  omega

theorem utf8ByteSize_category_le (hc : c ∈ e.categories) :
    c.utf8ByteSize ≤ (Format.entity.write e).length := by
  have hparts := e.length_parts_le
  have hsize := utf8ByteSize_le_text c
  rcases List.mem_cons.mp hc with rfl | hc
  · omega
  · have hmixin := Format.length_write_le (f := Format.text) hc
    have hmixins : (e.mixins.toList.flatMap Format.text.write).length ≤
        (Format.names.write e.mixins).length := by
      simp [Format.names, Format.map, Format.list]
    omega

end Entity

namespace VolatileStore

variable {m : VolatileStore} {id : EntityId} {c : Category} {b : NameSet}
  {e : Entity}

/-- What all entities take together in a snapshot. -/
def volume (m : VolatileStore) : Nat :=
  (m.entities.values.flatMap Format.entity.write).length

theorem volume_le
    (m : VolatileStore) :
    m.volume ≤ (Snapshot.write m.entities.values).length := by
  simp only [Snapshot.write, Snapshot.payload, Format.list,
    List.length_append, volume]
  omega

theorem length_entity_le (he : m.entities[id]? = some e) :
    (Format.entity.write e).length ≤ m.volume :=
  Format.length_write_le ((mem_values m.entities).mpr ⟨id, he⟩)

theorem size_entities_le (m : VolatileStore) : m.entities.size ≤ m.volume := by
  have hcount := Format.length_le_flatMap Format.entity_lawful m.entities.values
  rwa [values_eq, List.length_map, Std.ExtTreeMap.length_toList, ← values_eq]
    at hcount

theorem utf8ByteSize_id_le (h : m.Keyed) (he : m.entities[id]? = some e) :
    id.utf8ByteSize ≤ m.volume := by
  have hsize := Entity.utf8ByteSize_le_text e.id
  have hparts := e.length_parts_le
  have hentity := length_entity_le he
  rw [h id e he] at hsize hparts
  omega

/-- A bucket is there for the entities of its category. -/
theorem Indexed.exists_of_bucket (h : m.Indexed) (hb : m.index[c]? = some b) :
    ∃ (id : EntityId) (e : Entity),
      m.entities[id]? = some e ∧ c ∈ e.categories := by
  have hne : b ≠ ∅ := fun hempty => h.pruned c (hempty ▸ hb)
  obtain ⟨id, hid⟩ : ∃ id : EntityId, id ∈ b := by
    by_contra hnone
    exact hne (Std.ExtTreeSet.ext_mem
      fun id => by simpa using not_exists.mp hnone id)
  have hmem : id ∈ m.bucket c := by rwa [bucket_eq, hb]
  obtain ⟨e, he, hc⟩ := (h.member c id).mp hmem
  exact ⟨id, e, he, hc⟩

theorem Indexed.size_index_le (h : m.Indexed) : m.index.size ≤ m.volume := by
  have hnodup : m.index.keys.Nodup := (sorted_keys m.index).imp ne_of_lt
  have hsubset :
      m.index.keys ⊆ m.entities.values.flatMap Entity.categories := by
    intro c hc
    rw [Std.ExtTreeMap.mem_keys, Std.ExtTreeMap.mem_iff_isSome_getElem?,
      Option.isSome_iff_exists] at hc
    obtain ⟨b, hb⟩ := hc
    obtain ⟨id, e, he, hce⟩ := h.exists_of_bucket hb
    exact List.mem_flatMap.mpr ⟨e, (mem_values m.entities).mpr ⟨id, he⟩, hce⟩
  have hle := (List.subperm_of_subset hnodup hsubset).length_le
  rw [Std.ExtTreeMap.length_keys] at hle
  refine hle.trans ?_
  rw [volume, List.length_flatMap, List.length_flatMap]
  exact List.sum_le_sum fun e _ => e.length_categories_le

theorem Indexed.utf8ByteSize_index_le
    (h : m.Indexed) (hb : m.index[c]? = some b) :
    c.utf8ByteSize ≤ m.volume := by
  obtain ⟨id, e, he, hc⟩ := h.exists_of_bucket hb
  exact (Entity.utf8ByteSize_category_le hc).trans (length_entity_le he)

theorem Indexed.length_members_le (h : m.Indexed) (hb : m.index[c]? = some b) :
    (Tables.membersFormat.write b.toList).length ≤
      m.volume + 1 + m.volume * (2 * m.volume + 1) := by
  have hstored {id : EntityId} (hid : id ∈ b.toList) :
      ∃ e, m.entities[id]? = some e := by
    have hmem : id ∈ m.bucket c := by
      rw [bucket_eq, hb]
      exact Std.ExtTreeSet.mem_toList.mp hid
    obtain ⟨e, he, -⟩ := (h.member c id).mp hmem
    exact ⟨e, he⟩
  have hcount : b.toList.length ≤ m.volume := by
    have hnodup : b.toList.Nodup := (sorted_names b).imp ne_of_lt
    have hsubset : b.toList ⊆ m.entities.keys := by
      intro id hid
      rw [Std.ExtTreeMap.mem_keys, Std.ExtTreeMap.mem_iff_isSome_getElem?,
        Option.isSome_iff_exists]
      exact hstored hid
    have hle := (List.subperm_of_subset hnodup hsubset).length_le
    rw [Std.ExtTreeMap.length_keys] at hle
    exact hle.trans m.size_entities_le
  have hitems : (b.toList.flatMap Format.text.write).length ≤
      b.toList.length * (2 * m.volume + 1) := by
    rw [List.length_flatMap]
    have hsum := List.sum_le_card_nsmul (b.toList.map fun id =>
      (Format.text.write id).length) (2 * m.volume + 1) ?_
    · rwa [List.length_map, nsmul_eq_mul, Nat.cast_id] at hsum
    · intro n hn
      obtain ⟨id, hid, rfl⟩ := List.mem_map.mp hn
      obtain ⟨e, he⟩ := hstored hid
      have hsize := utf8ByteSize_id_le h.keyed he
      have hnumber := Binary.writeNat_length_le id.utf8ByteSize
      simp only [Format.text, List.length_append, Format.length_bytes]
      omega
  have hnumber := Binary.writeNat_length_le b.toList.length
  have hmul := Nat.mul_le_mul_right (2 * m.volume + 1) hcount
  simp only [Tables.membersFormat, Format.list, List.length_append]
  omega

end VolatileStore

namespace Tables

variable {m : VolatileStore}

theorem listable_holding (h : m.Indexed)
    (hsize : (Snapshot.write m.entities.values).length ≤ Snapshot.maxSize) :
    Listable (holding m).entities ∧ Listable (holding m).categories := by
  have hvolume : m.volume ≤ 2 ^ 29 := by
    have hle := m.volume_le
    simp only [Snapshot.maxSize] at hsize
    omega
  constructor
  · constructor
    · have hcount := m.size_entities_le
      simp only [holding, Std.ExtTreeMap.size_map]
      omega
    · intro id row hrow
      obtain ⟨e, he, -⟩ := Option.map_eq_some_iff.mp
        ((Std.ExtTreeMap.getElem?_map ..).symm.trans hrow)
      have hid := VolatileStore.utf8ByteSize_id_le h.keyed he
      omega
    · intro id row hrow
      obtain ⟨e, he, rfl⟩ :=
        Option.map_eq_some_iff.mp
          ((Std.ExtTreeMap.getElem?_map ..).symm.trans hrow)
      have hentity := VolatileStore.length_entity_le he
      omega
  · constructor
    · have hcount := h.size_index_le
      simp only [holding, Std.ExtTreeMap.size_map]
      omega
    · intro c row hrow
      obtain ⟨b, hb, -⟩ := Option.map_eq_some_iff.mp
        ((Std.ExtTreeMap.getElem?_map ..).symm.trans hrow)
      have hc := h.utf8ByteSize_index_le hb
      omega
    · intro c row hrow
      obtain ⟨b, hb, rfl⟩ :=
        Option.map_eq_some_iff.mp
          ((Std.ExtTreeMap.getElem?_map ..).symm.trans hrow)
      have hmembers := h.length_members_le hb
      have hsquare :=
        Nat.mul_le_mul hvolume (show 2 * m.volume + 1 ≤ 2 ^ 31 by omega)
      omega

theorem fits_holding
    (h : m.Indexed)
    (hsize : (Snapshot.write m.entities.values).length ≤ Snapshot.maxSize) :
    (holding m).Fits := by
  obtain ⟨hentities, hcategories⟩ := listable_holding h hsize
  exact ⟨fun hrow => hentities.row hrow, fun hrow => hcategories.row hrow⟩

/-- The tables of a graph are read from their file as they were written, if its
snapshot is small enough. -/
theorem ofBytes?_holding (h : m.Indexed)
    (hsize : (Snapshot.write m.entities.values).length ≤ Snapshot.maxSize) :
    ofBytes? (holding m).toBytes = some (holding m) := by
  obtain ⟨hentities, hcategories⟩ := listable_holding h hsize
  exact ofBytes?_toBytes hentities hcategories

end Tables

end LinkGraph
