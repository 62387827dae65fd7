import LinkGraph.Proofs.Store.Ordered
import LinkGraph.Store.Bucket

/-!
# Sorted buckets stay sorted

On a strictly sorted list the halving finds a name, or the one position at which
it can be inserted.  Inserting and erasing there give the list of the set with
the name, or without it.
-/

namespace LinkGraph.Bucket

variable {names : List String} {name : String} {i : Nat}

/-! ## Halving -/

theorem narrow_of_le {names : Array String} {base size : Nat} (h : size ≤ 1) :
    narrow names name base size = base := by
  rw [narrow, if_pos h]

theorem narrow_halved {base size : Nat} (hsize : ¬size ≤ 1)
    (hmiddle : base + size / 2 < names.length) :
    narrow names.toArray name base size =
      narrow names.toArray name
        (if name < names[base + size / 2] then base else base + size / 2)
          (size - size / 2) := by
  have hgetD :
      names.toArray.getD (base + size / 2) "" = names[base + size / 2] := by
    rw [Array.getD_eq_getD_getElem?, List.getElem?_toArray,
      List.getElem?_eq_getElem hmiddle]
    rfl
  rw [narrow, if_neg hsize]
  simp only [hgetD]

theorem lt_of_mem_drop (hsorted : names.Pairwise (· < ·)) {middle : String}
    (hmiddle : names[i]? = some middle) (hname : name < middle) {x : String}
    (hx : x ∈ names.drop i) : name < x := by
  have hlt : i < names.length := (List.getElem?_eq_some_iff.mp hmiddle).1
  rw [List.drop_eq_getElem_cons hlt] at hx
  have hdrop : (names.drop i).Pairwise (· < ·) := hsorted.drop
  rw [List.drop_eq_getElem_cons hlt, List.pairwise_cons] at hdrop
  obtain rfl : names[i] = middle := (List.getElem?_eq_some_iff.mp hmiddle).2
  rcases List.mem_cons.mp hx with rfl | hx
  · exact hname
  · exact hname.trans (hdrop.1 x hx)

theorem lt_of_mem_take
    (hsorted : names.Pairwise (· < ·)) {middle : String}
    (hmiddle : names[i]? = some middle) {x : String} (hx : x ∈ names.take i) :
    x < middle := by
  obtain ⟨hlt, rfl⟩ := List.getElem?_eq_some_iff.mp hmiddle
  have hparts : (names.take i ++ names.drop i).Pairwise (· < ·) := by
    rw [List.take_append_drop]
    exact hsorted
  rw [List.pairwise_append] at hparts
  have hmem : names[i] ∈ names.drop i := by
    rw [List.drop_eq_getElem_cons hlt]
    exact List.mem_cons_self
  exact hparts.2.2 x hx names[i] hmem

/-- The halving keeps every name before `base` below, and every name after the
range above. -/
theorem narrow_spec
    (hsorted : names.Pairwise (· < ·)) {base size : Nat} (hpos : 0 < size)
    (hle : base + size ≤ names.length)
    (hlow : 0 < base → ∀ x, names[base]? = some x → x ≤ name)
    (hhigh : ∀ x ∈ names.drop (base + size), name < x) :
    narrow names.toArray name base size < names.length ∧
      (0 < narrow names.toArray name base size →
        ∀ x, names[narrow names.toArray name base size]? = some x → x ≤ name) ∧
      ∀ x ∈ names.drop (narrow names.toArray name base size + 1), name < x := by
  induction size using Nat.strongRecOn generalizing base with
  | ind size ih =>
    by_cases hsize : size ≤ 1
    · obtain rfl : size = 1 := by omega
      rw [narrow_of_le hsize]
      exact ⟨by omega, hlow, hhigh⟩
    · have hmiddle : base + size / 2 < names.length := by omega
      have hsome := List.getElem?_eq_getElem hmiddle
      rw [narrow_halved hsize hmiddle]
      by_cases hname : name < names[base + size / 2]
      · simp only [hname, if_true]
        refine ih _ (by omega) (by omega) (by omega) hlow fun x hx => ?_
        refine lt_of_mem_drop hsorted hsome hname ?_
        exact (List.drop_subset_drop_left names (by omega)) hx
      · simp only [hname, if_false]
        refine ih _ (by omega) (by omega) (by omega) (fun _ x hx => ?_)
          fun x hx => ?_
        · obtain rfl : names[base + size / 2] = x :=
            Option.some.inj (hsome.symm.trans hx)
          exact le_of_not_gt hname
        · have hend :
              base + size / 2 + (size - size / 2) = base + size := by omega
          rw [hend] at hx
          exact hhigh x hx

theorem getElem?_of_locate_found
    (h : locate names name = .found i) :
    names[i]? = some name := by
  simp only [locate] at h
  split at h
  · simp at h
  · next other hother =>
    split at h
    · next hname =>
      obtain rfl : narrow names.toArray name 0 names.length = i := by
        simpa using h
      rw [hother, hname]
    · simp at h

/-- The position of a name that is not there parts the smaller names from the
greater ones. -/
theorem parts_of_locate_absent (hsorted : names.Pairwise (· < ·))
    (h : locate names name = .absent i) :
    i ≤ names.length ∧ (∀ x ∈ names.take i, x < name) ∧
      ∀ x ∈ names.drop i, name < x := by
  by_cases hempty : names = []
  · subst hempty
    obtain rfl : 0 = i := by simpa [locate, narrow_of_le] using h
    simp
  have hpos : 0 < names.length := List.length_pos_iff.mpr hempty
  have hlow : 0 < 0 → ∀ x, names[0]? = some x → x ≤ name :=
    fun h => absurd h (Nat.lt_irrefl 0)
  have hhigh : ∀ x ∈ names.drop (0 + names.length), name < x := by simp
  obtain ⟨hlt, hlow, hhigh⟩ := narrow_spec hsorted hpos (by omega) hlow hhigh
  have hsome := List.getElem?_eq_getElem hlt
  simp only [locate, hsome] at h
  split at h
  · simp at h
  · next hne =>
    generalize narrow names.toArray name 0 names.length = k at *
    by_cases hother : names[k] < name
    · obtain rfl : k + 1 = i := by simpa [hother] using h
      refine ⟨hlt, fun x hx => ?_, hhigh⟩
      rw [List.take_succ_eq_append_getElem hlt] at hx
      rcases List.mem_append.mp hx with hx | hx
      · exact (lt_of_mem_take hsorted hsome hx).trans hother
      · obtain rfl : x = names[k] := by simpa using hx
        exact hother
    · obtain rfl : k = i := by simpa [hother] using h
      have hname : name < names[k] :=
        lt_of_le_of_ne (le_of_not_gt hother) (Ne.symm hne)
      have hzero : k = 0 := by
        by_contra hk
        exact absurd (hlow (by omega) _ hsome) (not_le_of_gt hname)
      refine ⟨hlt.le, by simp [hzero], fun x hx => ?_⟩
      exact lt_of_mem_drop hsorted hsome hname hx

/-! ## Inserting and erasing -/

theorem insertIdx_eq_append (hi : i ≤ names.length) :
    names.insertIdx i name = names.take i ++ name :: names.drop i := by
  induction names generalizing i with
  | nil =>
    obtain rfl : i = 0 := by simpa using hi
    rfl
  | cons x names ih =>
    cases i with
    | zero => rfl
    | succ i =>
      rw [List.insertIdx_succ_cons, ih (by simpa using hi)]
      rfl

theorem sorted_insertIdx
    (hsorted : names.Pairwise (· < ·)) (hi : i ≤ names.length)
    (hbelow : ∀ x ∈ names.take i, x < name)
    (habove : ∀ x ∈ names.drop i, name < x) :
    (names.insertIdx i name).Pairwise (· < ·) := by
  rw [insertIdx_eq_append hi, List.pairwise_append, List.pairwise_cons]
  refine ⟨hsorted.take, ⟨habove, hsorted.drop⟩, fun x hx y hy => ?_⟩
  rcases List.mem_cons.mp hy with rfl | hy
  · exact hbelow x hx
  · exact (hbelow x hx).trans (habove y hy)

theorem mem_eraseIdx_iff
    (hsorted : names.Pairwise (· < ·)) (hname : names[i]? = some name)
    (x : String) :
    x ∈ names.eraseIdx i ↔ x ∈ names ∧ x ≠ name := by
  obtain ⟨hi, rfl⟩ := List.getElem?_eq_some_iff.mp hname
  have hsplit : names = names.take i ++ names[i] :: names.drop (i + 1) := by
    rw [← List.drop_eq_getElem_cons hi, List.take_append_drop]
  have hparts := hsplit ▸ hsorted
  rw [List.pairwise_append, List.pairwise_cons] at hparts
  have hmem :
      x ∈ names ↔ x ∈ names.take i ∨ x = names[i] ∨ x ∈ names.drop (i + 1) := by
    conv_lhs => rw [hsplit]
    rw [List.mem_append, List.mem_cons]
  rw [List.eraseIdx_eq_take_drop_succ, List.mem_append, hmem]
  constructor
  · rintro (hx | hx)
    · exact ⟨Or.inl hx, (hparts.2.2 x hx _ List.mem_cons_self).ne⟩
    · exact ⟨Or.inr (Or.inr hx), (hparts.2.1.1 x hx).ne'⟩
  · rintro ⟨hx | rfl | hx, hne⟩
    · exact Or.inl hx
    · exact absurd rfl hne
    · exact Or.inr hx

/-- Inserting into the list of a set gives the list of the set with the name. -/
theorem insert?_toList (set : NameSet) (name : String) :
    (insert? set.toList name).getD set.toList = (set.insert name).toList := by
  have hsorted := sorted_names set
  unfold insert?
  cases hlocate : locate set.toList name with
  | found i =>
    have hmem : name ∈ set := Std.ExtTreeSet.mem_toList.mp
      (List.mem_of_getElem? (getElem?_of_locate_found hlocate))
    refine hsorted.eq_of_mem_iff (sorted_names _) fun x => ?_
    simp only [Std.ExtTreeSet.mem_toList, Std.ExtTreeSet.mem_insert,
      Std.compare_eq_iff_eq]
    constructor
    · exact Or.inr
    · rintro (rfl | hx)
      · exact hmem
      · exact hx
  | absent i =>
    obtain ⟨hi, hbelow, habove⟩ := parts_of_locate_absent hsorted hlocate
    have hinserted := sorted_insertIdx hsorted hi hbelow habove
    refine hinserted.eq_of_mem_iff (sorted_names _) fun x => ?_
    rw [List.mem_insertIdx hi, Std.ExtTreeSet.mem_toList,
      Std.ExtTreeSet.mem_toList, Std.ExtTreeSet.mem_insert,
      Std.compare_eq_iff_eq, eq_comm]

/-- Erasing from the list of a set gives the list of the set without the
name. -/
theorem erase?_toList (set : NameSet) (name : String) :
    (erase? set.toList name).getD set.toList = (set.erase name).toList := by
  have hsorted := sorted_names set
  have hmem (x : String) :
      x ∈ (set.erase name).toList ↔ x ∈ set.toList ∧ x ≠ name := by
    rw [Std.ExtTreeSet.mem_toList, Std.ExtTreeSet.mem_toList,
      Std.ExtTreeSet.mem_erase, ne_eq, Std.compare_eq_iff_eq, and_comm, eq_comm]
  unfold erase?
  cases hlocate : locate set.toList name with
  | found i =>
    have herased : (set.toList.eraseIdx i).Pairwise (· < ·) :=
      hsorted.sublist (List.eraseIdx_sublist _ i)
    refine herased.eq_of_mem_iff (sorted_names _) fun x => ?_
    rw [hmem, mem_eraseIdx_iff hsorted (getElem?_of_locate_found hlocate)]
  | absent i =>
    obtain ⟨-, hbelow, habove⟩ := parts_of_locate_absent hsorted hlocate
    refine hsorted.eq_of_mem_iff (sorted_names _) fun x => ?_
    rw [hmem]
    refine ⟨fun hx => ⟨hx, ?_⟩, And.left⟩
    rintro rfl
    rw [← List.take_append_drop i set.toList, List.mem_append] at hx
    rcases hx with hx | hx
    · exact lt_irrefl x (hbelow x hx)
    · exact lt_irrefl x (habove x hx)

end LinkGraph.Bucket
