import LinkGraph.Files.Path
import Mathlib.Data.List.Basic

/-!
# The parts of a path

Dividing a path at its slashes gives parts without slashes, and puts apart again
what has been joined from such parts.
-/

namespace LinkGraph.Path

variable {cs w : List Char} {c : Char}

theorem partsOf_ne_nil (cs : List Char) : partsOf cs ≠ [] := by
  cases cs with
  | nil => simp [partsOf]
  | cons c cs =>
    unfold partsOf
    by_cases hc : c = '/'
    · simp [hc]
    · rw [if_neg hc]
      split
      · simp
      · simp

theorem partsOf_slash
    (cs : List Char) :
    partsOf ('/' :: cs) = [] :: partsOf cs := by
  rw [partsOf, if_pos rfl]

theorem partsOf_cons
    {part : List Char} {parts : List (List Char)} (hc : c ≠ '/')
    (hcs : partsOf cs = part :: parts) :
    partsOf (c :: cs) = (c :: part) :: parts := by
  rw [partsOf, if_neg hc, hcs]

/-- A part has no slashes, and no characters that are not in the path. -/
theorem mem_partsOf (hw : w ∈ partsOf cs) (hc : c ∈ w) : c ≠ '/' ∧ c ∈ cs := by
  induction cs generalizing w with
  | nil =>
    obtain rfl : w = [] := by simpa [partsOf] using hw
    cases hc
  | cons d cs ih =>
    by_cases hd : d = '/'
    · rw [hd, partsOf_slash] at hw
      rcases List.mem_cons.mp hw with rfl | hw
      · cases hc
      · exact ⟨(ih hw hc).1, List.mem_cons_of_mem d (ih hw hc).2⟩
    · obtain ⟨part, parts, hparts⟩ :=
        List.exists_cons_of_ne_nil (partsOf_ne_nil cs)
      rw [partsOf_cons hd hparts] at hw
      rcases List.mem_cons.mp hw with rfl | hw
      · rcases List.mem_cons.mp hc with rfl | hc
        · exact ⟨hd, List.mem_cons_self⟩
        · have hpart := ih (hparts ▸ List.mem_cons_self) hc
          exact ⟨hpart.1, List.mem_cons_of_mem d hpart.2⟩
      · have hpart := ih (hparts ▸ List.mem_cons_of_mem part hw) hc
        exact ⟨hpart.1, List.mem_cons_of_mem d hpart.2⟩

theorem partsOf_append_slash (hw : '/' ∉ w) (cs : List Char) :
    partsOf (w ++ '/' :: cs) = w :: partsOf cs := by
  induction w with
  | nil => exact partsOf_slash cs
  | cons c w ih =>
    rw [List.mem_cons, not_or] at hw
    exact partsOf_cons (Ne.symm hw.1) (ih hw.2)

theorem partsOf_of_no_slash (hw : '/' ∉ w) : partsOf w = [w] := by
  induction w with
  | nil => rfl
  | cons c w ih =>
    rw [List.mem_cons, not_or] at hw
    exact partsOf_cons (Ne.symm hw.1) (ih hw.2)

theorem partsOf_intercalate
    {ls : List (List Char)} (hls : ∀ w ∈ ls, '/' ∉ w) (hne : ls ≠ []) :
    partsOf (['/'].intercalate ls) = ls := by
  induction ls with
  | nil => exact absurd rfl hne
  | cons w ls ih =>
    have hw : '/' ∉ w := hls w List.mem_cons_self
    cases ls with
    | nil =>
      rw [List.intercalate_singleton]
      exact partsOf_of_no_slash hw
    | cons w' ls =>
      have hrest := ih (fun v hv => hls v (List.mem_cons_of_mem w hv)) (by simp)
      rw [List.intercalate_cons_cons, List.append_assoc, List.singleton_append,
        partsOf_append_slash hw, hrest]

theorem toList_slash_join (names : List String) :
    ("/" ++ join names).toList =
      '/' :: ['/'].intercalate (names.map String.toList) := by
  rw [String.toList_append, join, String.toList_intercalate]
  rfl

/-- The parts of an absolute path are nothing, before the first slash, and then
its names. -/
theorem parts_slash_join
    {names : List String} (hnames : ∀ name ∈ names, '/' ∉ name.toList)
    (hne : names ≠ []) :
    parts ("/" ++ join names) = "" :: names := by
  have hls : ∀ w ∈ names.map String.toList, '/' ∉ w := by
    intro w hw
    obtain ⟨name, hname, rfl⟩ := List.mem_map.mp hw
    exact hnames name hname
  rw [parts, toList_slash_join, partsOf_slash,
    partsOf_intercalate hls (by simpa using hne), List.map_cons, List.map_map]
  have hid : String.ofList ∘ String.toList = id := by
    funext name
    exact String.ofList_toList
  rw [hid, List.map_id, String.ofList_nil]

theorem mem_intercalate
    {ls : List (List Char)} (hc : c ∈ ['/'].intercalate ls) :
    c = '/' ∨ ∃ w ∈ ls, c ∈ w := by
  induction ls with
  | nil => cases hc
  | cons w ls ih =>
    cases ls with
    | nil =>
      rw [List.intercalate_singleton] at hc
      exact Or.inr ⟨w, List.mem_cons_self, hc⟩
    | cons w' ls =>
      rw [List.intercalate_cons_cons, List.mem_append, List.mem_append,
        List.mem_singleton] at hc
      rcases hc with (hc | hc) | hc
      · exact Or.inr ⟨w, List.mem_cons_self, hc⟩
      · exact Or.inl hc
      · rcases ih hc with hslash | ⟨v, hv, hc⟩
        · exact Or.inl hslash
        · exact Or.inr ⟨v, List.mem_cons_of_mem w hv, hc⟩

/-- The names of an absolute path bring in no characters but slashes. -/
theorem mem_toList_slash_join
    {names : List String} (hc : c ∈ ("/" ++ join names).toList) :
    c = '/' ∨ ∃ name ∈ names, c ∈ name.toList := by
  rw [toList_slash_join] at hc
  rcases List.mem_cons.mp hc with hc | hc
  · exact Or.inl hc
  · rcases mem_intercalate hc with hslash | ⟨w, hw, hc⟩
    · exact Or.inl hslash
    · obtain ⟨name, hname, rfl⟩ := List.mem_map.mp hw
      exact Or.inr ⟨name, hname, hc⟩

end LinkGraph.Path
