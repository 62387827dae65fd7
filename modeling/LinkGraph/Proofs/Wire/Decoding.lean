import LinkGraph.Proofs.Store.Ordered
import LinkGraph.Wire.Attributes

/-!
# Decoding entry by entry

The keys of a map are divided into those that are decoded and those that errors
name, and which of them a key belongs to is a matter of its own value.  Decoding
undoes encoding, so that what has been decoded once is on the wire as texts that
are decoded to themselves.
-/

namespace LinkGraph

theorem getElem?_decoded (wire : WireAttributes) (k : String) :
    wire.decoded[k]? = wire[k]?.bind WireValue.toText? := by
  simp [WireAttributes.decoded]

theorem getElem?_encode (attributes : Attributes) (k : String) :
    attributes.encode[k]? = attributes[k]?.map .text := by
  simp [Attributes.encode]

/-- The attribute that an error is about. -/
def StoreError.attribute? : StoreError → Option String
  | unsupportedAttributeType key _ => some key
  | _ => none

namespace WireValue

variable {v : WireValue} {key : String}

theorem decode_eq_ok_iff
    {text : String} :
    v.decode key = .ok text ↔ v.toText? = some text := by
  rw [decode]
  cases v.toText? with
  | some text' => rw [Except.ok.injEq, Option.some.injEq]
  | none => exact iff_of_false nofun nofun

theorem decode_eq_error_iff {e : StoreError} :
    v.decode key = .error e ↔
      v.toText? = none ∧ e = .unsupportedAttributeType key v.signature := by
  rw [decode]
  cases v.toText? with
  | some text => exact iff_of_false nofun nofun
  | none => rw [Except.error.injEq, eq_comm (a := e), eq_self, true_and]

end WireValue

namespace WireAttributes

/-- The keys that the errors name, in the order of the errors. -/
def refused (wire : WireAttributes) : List String :=
  wire.rejected.filterMap StoreError.attribute?

variable (wire : WireAttributes)

/-- The entries whose values have a text, or those whose values have none. -/
def entries (readable : Bool) : List (String × WireValue) :=
  wire.toList.filter fun row => row.2.toText?.isSome == readable

theorem keys_decoded :
    wire.decoded.keys = (wire.entries true).map Prod.fst := by
  rw [← Std.ExtTreeMap.map_fst_toList_eq_keys, decoded,
    Std.ExtTreeMap.toList_filterMap, entries]
  induction wire.toList with
  | nil => rfl
  | cons row rows ih =>
    rw [List.filterMap_cons, List.filter_cons]
    cases row.2.toText? with
    | some text => exact congrArg (row.1 :: ·) ih
    | none => exact ih

theorem rejected_eq : wire.rejected = (wire.entries false).map fun row =>
    .unsupportedAttributeType row.1 row.2.signature := by
  rw [rejected, entries]
  induction wire.toList with
  | nil => rfl
  | cons row rows ih =>
    obtain ⟨key, v⟩ := row
    cases htext : v.toText? with
    | some text =>
      have hdecode : v.decode key = .ok text :=
        WireValue.decode_eq_ok_iff.mpr htext
      simpa [hdecode, htext] using ih
    | none =>
      have hdecode :
          v.decode key = .error (.unsupportedAttributeType key v.signature) :=
        WireValue.decode_eq_error_iff.mpr ⟨htext, rfl⟩
      simpa [hdecode, htext] using ih

theorem refused_eq : wire.refused = (wire.entries false).map Prod.fst := by
  rw [refused, rejected_eq, List.filterMap_map]
  exact congrFun List.filterMap_eq_map _

theorem entries_perm :
    (wire.entries true ++ wire.entries false).Perm wire.toList := by
  have hfilter := List.filter_append_perm
    (fun row => row.2.toText?.isSome == true) wire.toList
  have hnot :
      (fun row : String × WireValue => !(row.2.toText?.isSome == true)) =
        fun row => row.2.toText?.isSome == false := by
    funext row
    cases row.2.toText?.isSome <;> rfl
  rwa [hnot] at hfilter

theorem mem_entries {readable : Bool} {row : String × WireValue} :
    row ∈ wire.entries readable ↔
      wire[row.1]? = some row.2 ∧ row.2.toText?.isSome = readable := by
  rw [entries, List.mem_filter, Std.ExtTreeMap.mem_toList_iff_getElem?_eq_some,
    beq_iff_eq]

theorem getElem?_decoded_iff {key text : String} :
    wire.decoded[key]? = some text ↔
      ∃ v, wire[key]? = some v ∧ v.decode key = .ok text := by
  simp only [WireValue.decode_eq_ok_iff]
  rw [getElem?_decoded, Option.bind_eq_some_iff]

theorem mem_rejected {e : StoreError} :
    e ∈ wire.rejected ↔ ∃ (key : String) (v : WireValue),
      wire[key]? = some v ∧ v.decode key = .error e := by
  rw [rejected_eq, List.mem_map]
  constructor
  · rintro ⟨⟨key, v⟩, hrow, rfl⟩
    obtain ⟨hv, htext⟩ := (mem_entries wire).mp hrow
    refine ⟨key, v, hv, WireValue.decode_eq_error_iff.mpr ⟨?_, rfl⟩⟩
    exact Option.isNone_iff_eq_none.mp (Option.isSome_eq_false_iff.mp htext)
  · rintro ⟨key, v, hv, herror⟩
    obtain ⟨htext, rfl⟩ := WireValue.decode_eq_error_iff.mp herror
    refine ⟨(key, v), (mem_entries wire).mpr ⟨hv, ?_⟩, rfl⟩
    rw [htext]
    rfl

/-- Every key is decoded or named by one error, the errors are in the order of
the keys, and each is the one that the value of its key gives. -/
structure Divided : Prop where
  keys : (wire.decoded.keys ++ wire.refused).Perm wire.keys
  sorted : wire.refused.Pairwise (· < ·)
  decoded (key text : String) :
    wire.decoded[key]? = some text ↔
      ∃ v, wire[key]? = some v ∧ v.decode key = .ok text
  rejected (e : StoreError) :
    e ∈ wire.rejected ↔ ∃ (key : String) (v : WireValue), wire[key]? = some v ∧
      v.decode key = .error e ∧ e = .unsupportedAttributeType key v.signature

theorem divided : wire.Divided where
  keys := by
    rw [keys_decoded,
      refused_eq, ← List.map_append, ← Std.ExtTreeMap.map_fst_toList_eq_keys]
    exact (entries_perm wire).map Prod.fst
  sorted := by
    have hkeys := sorted_keys wire
    rw [← Std.ExtTreeMap.map_fst_toList_eq_keys] at hkeys
    rw [refused_eq]
    exact hkeys.sublist (List.filter_sublist.map Prod.fst)
  decoded _ _ := getElem?_decoded_iff wire
  rejected e := by
    rw [mem_rejected]
    constructor
    · rintro ⟨key, v, hv, herror⟩
      exact ⟨key, v, hv, herror, (WireValue.decode_eq_error_iff.mp herror).2⟩
    · rintro ⟨key, v, hv, herror, -⟩
      exact ⟨key, v, hv, herror⟩

variable {wire} {wire' : WireAttributes} {key : String}

theorem decoded_congr
    (h : wire[key]? = wire'[key]?) :
    wire.decoded[key]? = wire'.decoded[key]? := by
  apply Option.ext
  intro text
  rw [getElem?_decoded_iff, getElem?_decoded_iff, h]

theorem mem_rejected_congr
    (h : wire[key]? = wire'[key]?) {e : StoreError}
    (he : e.attribute? = some key) :
    e ∈ wire.rejected ↔ e ∈ wire'.rejected := by
  have hkey {wire : WireAttributes} : e ∈ wire.rejected ↔
      ∃ v, wire[key]? = some v ∧ v.decode key = .error e := by
    rw [mem_rejected]
    constructor
    · rintro ⟨key', v, hv, herror⟩
      obtain ⟨-, rfl⟩ := WireValue.decode_eq_error_iff.mp herror
      obtain rfl : key' = key := Option.some.inj he
      exact ⟨v, hv, herror⟩
    · rintro ⟨v, hv, herror⟩
      exact ⟨key, v, hv, herror⟩
  rw [hkey, hkey, h]

end WireAttributes

namespace Attributes

variable (attributes : Attributes)

theorem getElem?_encode_iff {key : String} {v : WireValue} :
    attributes.encode[key]? = some v ↔
      ∃ text, attributes[key]? = some text ∧ v = .text text := by
  rw [getElem?_encode, Option.map_eq_some_iff]
  simp only [eq_comm]

theorem decoded_encode : attributes.encode.decoded = attributes := by
  apply Std.ExtTreeMap.ext_getElem?
  intro key
  rw [getElem?_decoded, getElem?_encode, Option.bind_map]
  exact Option.bind_fun_some _

theorem rejected_encode : attributes.encode.rejected = [] := by
  apply List.eq_nil_iff_forall_not_mem.mpr
  intro e he
  obtain ⟨key, v, hv, herror⟩ := (WireAttributes.mem_rejected _).mp he
  obtain ⟨text, -, rfl⟩ := (getElem?_encode_iff attributes).mp hv
  cases herror

end Attributes

namespace WireAttributes

/-- The keys of a map are divided into the decoded and the refused, in which no
entry has an influence on another.  Texts are decoded to themselves, and what
has been decoded once is sent as the texts of its values, which are decoded
without a change. -/
theorem decodes_entrywise
    (wire wire' : WireAttributes) (attributes : Attributes) :
    wire.Divided ∧
    (∀ key : String, wire[key]? = wire'[key]? →
      wire.decoded[key]? = wire'.decoded[key]? ∧
        ∀ e : StoreError, e.attribute? = some key →
          (e ∈ wire.rejected ↔ e ∈ wire'.rejected)) ∧
    (attributes.encode.decoded = attributes ∧ attributes.encode.rejected = []) ∧
    (wire.decoded.encode.decoded = wire.decoded ∧
      wire.decoded.encode.rejected = []) ∧
    ∀ (key : String) (v : WireValue), wire.decoded.encode[key]? = some v ↔
      ∃ w text, wire[key]? = some w ∧ w.decode key = .ok text ∧
        v = .text text := by
  refine ⟨divided wire, fun key h =>
    ⟨decoded_congr h, fun e => mem_rejected_congr h⟩,
    ⟨attributes.decoded_encode, attributes.rejected_encode⟩,
    ⟨wire.decoded.decoded_encode, wire.decoded.rejected_encode⟩,
    fun key v => ?_⟩
  rw [Attributes.getElem?_encode_iff]
  simp only [getElem?_decoded_iff]
  constructor
  · rintro ⟨text, ⟨w, hw, htext⟩, rfl⟩
    exact ⟨w, text, hw, htext, rfl⟩
  · rintro ⟨w, text, hw, htext, rfl⟩
    exact ⟨text, ⟨w, hw, htext⟩, rfl⟩

/-- A value of an unknown type is refused as before when a key without a value
has gone and an integer has become a text. -/
theorem decodes_entrywise_unknownType :
    let wire : WireAttributes :=
      .ofList [("a", WireValue.null), ("b", .int16 7), ("c", .unsupported "o")]
    let wire' : WireAttributes :=
      .ofList [("b", WireValue.text "x"), ("c", .unsupported "o")]
    wire.refused = ["a", "c"] ∧ wire.decoded.encode["b"]? = some (.text "7") ∧
      wire["c"]? = wire'["c"]? ∧
      .unsupportedAttributeType "c" "o" ∈ wire.rejected ∧
      .unsupportedAttributeType "c" "o" ∈ wire'.rejected := by
  intro wire wire'
  obtain ⟨hdivided, hentry, -, -, hsent⟩ := decodes_entrywise wire wire' ∅
  have hsame : wire["c"]? = wire'["c"]? := by decide
  have hrefused : .unsupportedAttributeType "c" "o" ∈ wire.rejected :=
    (hdivided.rejected _).mpr ⟨"c", .unsupported "o", by decide, rfl, rfl⟩
  refine ⟨by decide,
    (hsent "b" (.text "7")).mpr ⟨.int16 7, "7", by decide, rfl, rfl⟩, hsame,
    hrefused, ?_⟩
  exact ((hentry "c" hsame).2 _ rfl).mp hrefused

end WireAttributes

end LinkGraph
