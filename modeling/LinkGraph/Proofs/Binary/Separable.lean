import LinkGraph.Proofs.Binary.RoundTrip

/-!
# Writings that can be told apart

A way of writing is separable when two values written alike, whatever stands
after them, are one value with the same continuation: no writing is the
beginning of another, and none is shared.  Every format is separable, the
lengths it writes first may be as large as they like; what readers accept plays
no part.
-/

namespace LinkGraph

variable {α β κ : Type}

/-- A value and what follows it can be told from the writing of both. -/
def Separable (write : α → List κ) : Prop :=
  ∀ (v v' : α) (rest rest' : List κ), write v ++ rest = write v' ++ rest' →
    v = v' ∧ rest = rest'

namespace Separable

variable {write : α → List κ} {write' : β → List κ}

theorem injective (h : Separable write) : Function.Injective write := by
  intro v v' heq
  exact (h v v' [] [] (by rw [heq])).1

/-- It suffices that no value's writing begins with another's. -/
theorem of_prefix
    (h : ∀ v v', write v <+: write v' → v = v') :
    Separable write := by
  intro v v' rest rest' heq
  have hv : v = v' := by
    have hleft : write v <+: write v ++ rest := List.prefix_append _ _
    have hright : write v' <+: write v ++ rest := heq ▸ List.prefix_append _ _
    rcases List.prefix_or_prefix_of_prefix hleft hright with hle | hle
    · exact h v v' hle
    · exact (h v' v hle).symm
  subst hv
  exact ⟨rfl, List.append_cancel_left heq⟩

theorem comp
    (h : Separable write) {parts : β → α} (hparts : Function.Injective parts) :
    Separable fun v => write (parts v) := by
  intro v v' rest rest' heq
  obtain ⟨hv, hrest⟩ := h _ _ rest rest' heq
  exact ⟨hparts hv, hrest⟩

theorem append (h : Separable write) (h' : Separable write') :
    Separable fun v : α × β => write v.1 ++ write' v.2 := by
  intro v v' rest rest' heq
  rw [List.append_assoc, List.append_assoc] at heq
  obtain ⟨hfirst, heq⟩ := h _ _ _ _ heq
  obtain ⟨hsecond, hrest⟩ := h' _ _ _ _ heq
  exact ⟨Prod.ext hfirst hsecond, hrest⟩

/-- Sequences of one length, written value after value. -/
theorem flatMap
    (h : Separable write) {vs vs' : List α} (hlength : vs.length = vs'.length)
    {rest rest' : List κ}
    (heq : vs.flatMap write ++ rest = vs'.flatMap write ++ rest') :
    vs = vs' ∧ rest = rest' := by
  induction vs generalizing vs' with
  | nil =>
    obtain rfl : vs' = [] := List.length_eq_zero_iff.mp hlength.symm
    exact ⟨rfl, heq⟩
  | cons v vs ih =>
    cases vs' with
    | nil => cases hlength
    | cons v' vs' =>
      rw [List.flatMap_cons, List.flatMap_cons, List.append_assoc,
        List.append_assoc] at heq
      obtain ⟨rfl, htail⟩ := h v v' _ _ heq
      obtain ⟨rfl, hrest⟩ := ih (Nat.succ.inj hlength) htail
      exact ⟨rfl, hrest⟩

end Separable

namespace Binary

theorem ofNat_injective {m n : Nat} (hm : m < 256) (hn : n < 256)
    (h : UInt8.ofNat m = UInt8.ofNat n) : m = n := by
  rw [← toNat_ofNat_of_lt hm, ← toNat_ofNat_of_lt hn, h]

theorem writeNat_separable : Separable writeNat := by
  intro n
  induction n using Nat.strongRecOn with
  | ind n ih =>
    intro m rest rest' heq
    by_cases hn : n < 128
    · by_cases hm : m < 128
      · rw [writeNat_of_lt hn, writeNat_of_lt hm] at heq
        obtain ⟨hbyte, hrest⟩ := List.cons.inj heq
        exact ⟨ofNat_injective (by omega) (by omega) hbyte, hrest⟩
      · rw [writeNat_of_lt hn, writeNat_of_le (Nat.not_lt.mp hm)] at heq
        have hbyte :=
          ofNat_injective (by omega) (by omega) (List.cons.inj heq).1
        omega
    · by_cases hm : m < 128
      · rw [writeNat_of_le (Nat.not_lt.mp hn), writeNat_of_lt hm] at heq
        have hbyte :=
          ofNat_injective (by omega) (by omega) (List.cons.inj heq).1
        omega
      · rw [writeNat_of_le (Nat.not_lt.mp hn),
          writeNat_of_le (Nat.not_lt.mp hm)] at heq
        obtain ⟨hbyte, heq⟩ := List.cons.inj heq
        have hlow := ofNat_injective (by omega) (by omega) hbyte
        obtain ⟨hhigh, hrest⟩ :=
          ih (n / 128) (by omega) (m / 128) rest rest' heq
        exact ⟨by omega, hrest⟩

namespace Format

variable {f : Format α} {g : Format β}

theorem word_separable : Separable word.write :=
  writeNat_separable.comp fun _ _ => UInt64.toNat_inj.mp

theorem bytes_injective : Function.Injective Text.bytes := by
  intro s t h
  exact Option.some.inj (by rw [← ofBytes?_bytes s, ← ofBytes?_bytes t, h])

theorem text_separable : Separable text.write := by
  intro s t rest rest' heq
  simp only [text, List.append_assoc] at heq
  obtain ⟨hlength, hcontent⟩ := writeNat_separable _ _ _ _ heq
  rw [← length_bytes, ← length_bytes] at hlength
  obtain ⟨hbytes, hrest⟩ := List.append_inj hcontent hlength
  exact ⟨bytes_injective hbytes, hrest⟩

theorem pair_separable (hf : Separable f.write) (hg : Separable g.write) :
    Separable (f.pair g).write :=
  hf.append hg

theorem list_separable (hf : Separable f.write) : Separable (list f).write := by
  intro vs vs' rest rest' heq
  simp only [list, List.append_assoc] at heq
  obtain ⟨hlength, hitems⟩ := writeNat_separable _ _ _ _ heq
  exact hf.flatMap hlength hitems

theorem map_separable (hf : Separable f.write) {make : α → β} {parts : β → α}
    (hmake : ∀ v, make (parts v) = v) : Separable (f.map make parts).write :=
  hf.comp (Function.LeftInverse.injective hmake)

theorem option_separable
    (hf : Separable f.write) :
    Separable (option f).write := by
  intro v v' rest rest' heq
  cases v with
  | none =>
    cases v' with
    | none => exact ⟨rfl, (writeNat_separable 0 0 _ _ heq).2⟩
    | some v' =>
      simp only [option, List.append_assoc] at heq
      cases (writeNat_separable 0 1 _ _ heq).1
  | some v =>
    cases v' with
    | none =>
      simp only [option, List.append_assoc] at heq
      cases (writeNat_separable 1 0 _ _ heq).1
    | some v' =>
      simp only [option, List.append_assoc] at heq
      obtain ⟨hv, hrest⟩ :=
        hf v v' rest rest' (writeNat_separable 1 1 _ _ heq).2
      exact ⟨congrArg some hv, hrest⟩

theorem names_separable : Separable names.write :=
  map_separable (list_separable text_separable) names_ofList_toList

theorem attributes_separable : Separable attributes.write :=
  map_separable (list_separable (pair_separable text_separable text_separable))
    ofList_toList

theorem endpoints_separable : Separable endpoints.write :=
  map_separable (pair_separable text_separable text_separable) fun _ => rfl

theorem entity_separable : Separable entity.write := by
  refine map_separable ?_ fun _ => rfl
  refine pair_separable text_separable
    (pair_separable (option_separable endpoints_separable) ?_)
  refine pair_separable text_separable (pair_separable names_separable ?_)
  refine pair_separable attributes_separable (pair_separable text_separable ?_)
  exact pair_separable word_separable names_separable

end Format

end Binary

end LinkGraph
