import LinkGraph.Entity.Basic
import Mathlib.Data.List.Sort
import Mathlib.Data.String.Basic

/-!
# Names in order

The lists that sets and maps of names give are strictly sorted.  A strictly
sorted list is determined by its members, which is how later files identify such
lists.
-/

namespace LinkGraph

theorem compare_eq_lt {a b : String} : compare a b = .lt ↔ a < b :=
  compareOfLessAndEq_eq_lt

theorem sorted_names (names : NameSet) : names.toList.Pairwise (· < ·) :=
  names.ordered_toList.imp compare_eq_lt.mp

theorem toList_injective
    {b b' : NameSet} (h : b.toList = b'.toList) :
    b = b' := by
  apply Std.ExtTreeSet.ext_mem
  intro x
  rw [← Std.ExtTreeSet.mem_toList, h, Std.ExtTreeSet.mem_toList]

section Maps

variable {β : Type} (rows : Std.ExtTreeMap String β)

theorem sorted_keys : rows.keys.Pairwise (· < ·) :=
  rows.ordered_keys.imp compare_eq_lt.mp

theorem values_eq : rows.values = rows.toList.map Prod.snd := by
  have hfold :
      rows.values = rows.foldr (fun _ v values => v :: values) [] := rfl
  rw [hfold, Std.ExtTreeMap.foldr_eq_foldr_toList]
  induction rows.toList with
  | nil => rfl
  | cons row rows ih => rw [List.foldr_cons, ih, List.map_cons]

theorem mem_values
    {v : β} :
    v ∈ rows.values ↔ ∃ key : String, rows[key]? = some v := by
  rw [values_eq, List.mem_map]
  constructor
  · rintro ⟨⟨key, w⟩, hrow, rfl⟩
    exact ⟨key, Std.ExtTreeMap.mem_toList_iff_getElem?_eq_some.mp hrow⟩
  · rintro ⟨key, hv⟩
    exact ⟨(key, v), Std.ExtTreeMap.mem_toList_iff_getElem?_eq_some.mpr hv, rfl⟩

theorem ofList_toList : Std.ExtTreeMap.ofList rows.toList = rows := by
  apply Std.ExtTreeMap.ext_getElem?
  intro key
  cases hv : rows[key]? with
  | some v =>
    have hrow : (key, v) ∈ rows.toList :=
      Std.ExtTreeMap.mem_toList_iff_getElem?_eq_some.mpr hv
    exact Std.ExtTreeMap.getElem?_ofList_of_mem Std.ReflCmp.compare_self
      Std.ExtTreeMap.distinct_keys_toList hrow
  | none =>
    apply Std.ExtTreeMap.getElem?_ofList_of_contains_eq_false
    rw [Std.ExtTreeMap.map_fst_toList_eq_keys]
    simpa using hv

/-- Folding over a map steps that each set what is seen under one key leaves the
value of the map to be seen where it has one, and what was seen at the start
elsewhere. -/
theorem view_foldl
    {γ δ : Type} (view : γ → String → δ) {step : γ → String → β → γ}
    {value : β → δ}
    (hstep : ∀ g key v key', view (step g key v) key' =
      if key' = key then value v else view g key')
    (start : γ) (key : String) :
    view (rows.foldl step start) key =
      (rows[key]?.map value).getD (view start key) := by
  have hlist (l : List (String × β)) (hl : (l.map Prod.fst).Nodup) (start : γ) :
      (∀ v, (key, v) ∈ l →
      view (l.foldl (fun g row => step g row.1 row.2) start) key = value v) ∧
      (key ∉ l.map Prod.fst →
        view (l.foldl (fun g row => step g row.1 row.2) start) key =
          view start key) := by
    induction l generalizing start with
    | nil => simp
    | cons row l ih =>
      rw [List.map_cons, List.nodup_cons] at hl
      obtain ⟨hin, hout⟩ := ih hl.2 (step start row.1 row.2)
      rw [List.foldl_cons, List.map_cons, List.mem_cons, not_or]
      constructor
      · intro v hv
        rcases List.mem_cons.mp hv with rfl | hv
        · rw [hout hl.1, hstep, if_pos rfl]
        · exact hin v hv
      · rintro ⟨hne, hkey⟩
        rw [hout hkey, hstep, if_neg hne]
  have hnodup : (rows.toList.map Prod.fst).Nodup := by
    rw [Std.ExtTreeMap.map_fst_toList_eq_keys]
    exact (sorted_keys rows).imp ne_of_lt
  obtain ⟨hin, hout⟩ := hlist rows.toList hnodup start
  rw [Std.ExtTreeMap.foldl_eq_foldl_toList]
  cases hv : rows[key]? with
  | some v =>
    exact hin v (Std.ExtTreeMap.mem_toList_iff_getElem?_eq_some.mpr hv)
  | none =>
    refine hout ?_
    rw [Std.ExtTreeMap.map_fst_toList_eq_keys, Std.ExtTreeMap.mem_keys,
      Std.ExtTreeMap.mem_iff_isSome_getElem?, hv]
    simp

end Maps

end LinkGraph
