import LinkGraph.Text.Utf8

/-!
# Well-formed bytes are read without loss

The lossy reader gives back the characters whose UTF-8 bytes it meets, whatever
follows them.  Only bytes that are no text are replaced, so that a text that has
been read once is read again as itself.
-/

namespace LinkGraph.Text

namespace Utf8State

variable {owed value k : Nat} {low high : UInt8} {rest : List UInt8}

/-! ## Bytes that continue a character -/

theorem step_inside
    (hlow : low.toNat ≤ k % 64 + 128) (hhigh : k % 64 + 128 ≤ high.toNat) :
    (inside owed low high value).step (UInt8.ofNat (k % 64 + 128)) =
      if owed ≤ 1 then ([some (Char.ofNat (value * 64 + k % 64))], between)
      else ([], inside (owed - 1) 0x80 0xBF (value * 64 + k % 64)) := by
  have hbyte : (UInt8.ofNat (k % 64 + 128)).toNat = k % 64 + 128 :=
    UInt8.toNat_ofNat_of_lt' (show _ < 256 by omega)
  have hrange :
      low ≤ UInt8.ofNat (k % 64 + 128) ∧ UInt8.ofNat (k % 64 + 128) ≤ high := by
    rw [UInt8.le_iff_toNat_le, UInt8.le_iff_toNat_le, hbyte]
    exact ⟨hlow, hhigh⟩
  have hbits : k % 64 + 128 - 0x80 = k % 64 := by omega
  rw [step, if_pos hrange, hbyte, hbits]

/-- The byte that completes a character. -/
theorem run_last
    (hlow : low.toNat ≤ k % 64 + 128) (hhigh : k % 64 + 128 ≤ high.toNat) :
    run (inside 1 low high value) (UInt8.ofNat (k % 64 + 128) :: rest) =
      some (Char.ofNat (value * 64 + k % 64)) :: run between rest := by
  rw [run, step_inside hlow hhigh]
  rfl

/-- A byte after which more are owed. -/
theorem run_more
    (hlow : low.toNat ≤ k % 64 + 128) (hhigh : k % 64 + 128 ≤ high.toNat) :
    run (inside (owed + 2) low high value)
      (UInt8.ofNat (k % 64 + 128) :: rest) =
      run (inside (owed + 1) 0x80 0xBF (value * 64 + k % 64)) rest := by
  rw [run, step_inside hlow hhigh, if_neg (by omega)]
  rfl

/-- A byte that may be any continuation. -/
theorem continuation (k : Nat) :
    (0x80 : UInt8).toNat ≤ k % 64 + 128 ∧
      k % 64 + 128 ≤ (0xBF : UInt8).toNat := by
  change 128 ≤ k % 64 + 128 ∧ k % 64 + 128 ≤ 191
  omega

/-- A byte that may be any continuation, but for one case in which it must not
be too low. -/
theorem continuation_from
    {p : Prop} [Decidable p] (h : p → low.toNat ≤ k % 64 + 128) :
    (if p then low else 0x80).toNat ≤ k % 64 + 128 := by
  split
  · next hp => exact h hp
  · exact (continuation k).1

/-- A byte that may be any continuation, but for one case in which it must not
be too high. -/
theorem continuation_to
    {p : Prop} [Decidable p] (h : p → k % 64 + 128 ≤ high.toNat) :
    k % 64 + 128 ≤ (if p then high else 0xBF).toNat := by
  split
  · next hp => exact h hp
  · exact (continuation k).2

/-! ## Bytes that start a character -/

theorem start_one :
    ∀ k < 128, start (UInt8.ofNat k) = ([some (Char.ofNat k)], between) := by
  decide

theorem start_two : ∀ k < 32, 2 ≤ k →
    start (UInt8.ofNat (k + 0xC0)) = ([], inside 1 0x80 0xBF k) := by
  decide

/-- The next byte must not lead to a character that fewer bytes have, nor to a
surrogate. -/
theorem start_three : ∀ k < 16, start (UInt8.ofNat (k + 0xE0)) =
    ([], inside 2 (if k = 0 then 0xA0 else 0x80)
      (if k = 13 then 0x9F else 0xBF) k) := by
  decide

/-- The next byte must not lead to a character that fewer bytes have, nor beyond
the last one. -/
theorem start_four : ∀ k < 5, start (UInt8.ofNat (k + 0xF0)) =
    ([], inside 3 (if k = 0 then 0x90 else 0x80)
      (if k = 4 then 0x8F else 0xBF) k) := by
  decide

theorem run_start {b : UInt8} {state : Utf8State} (h : start b = ([], state)) :
    run between (b :: rest) = run state rest := by
  rw [run, step, h]
  rfl

/-! ## Characters -/

/-- The bytes of a character are read as that character, whatever follows. -/
theorem run_utf8EncodeChar (c : Char) (rest : List UInt8) :
    run between (String.utf8EncodeChar c ++ rest) =
      some c :: run between rest := by
  have hvalid : c.val.toNat < 0xD800 ∨ 0xDFFF < c.val.toNat ∧
      c.val.toNat < 0x110000 := c.valid
  have hchar {n : Nat} (h : n = c.val.toNat) : Char.ofNat n = c := by
    rw [h]
    exact Char.ofNat_toNat c
  unfold String.utf8EncodeChar
  generalize c.val.toNat = v at hvalid hchar
  dsimp only
  split
  · next h1 =>
    rw [List.singleton_append, run, step, start_one v (by omega), hchar rfl]
    rfl
  split
  · next h1 h2 =>
    rw [List.cons_append, run_start (start_two _ (by omega) (by omega)),
      List.singleton_append, run_last (continuation v).1 (continuation v).2,
      hchar (by omega)]
  split
  · next h1 h2 h3 =>
    have hlow : (if v / 4096 % 16 = 0 then (0xA0 : UInt8) else 0x80).toNat ≤
        v / 64 % 64 + 128 :=
      continuation_from fun _ => by change 160 ≤ _; omega
    have hhigh : v / 64 % 64 + 128 ≤
        (if v / 4096 % 16 = 13 then (0x9F : UInt8) else 0xBF).toNat :=
      continuation_to fun _ => by change _ ≤ 159; omega
    rw [List.cons_append, run_start (start_three _ (by omega)),
      List.cons_append, run_more hlow hhigh, List.singleton_append,
      run_last (continuation v).1 (continuation v).2, hchar (by omega)]
  · next h1 h2 h3 =>
    have hlow : (if v / 262144 % 8 = 0 then (0x90 : UInt8) else 0x80).toNat ≤
        v / 4096 % 64 + 128 :=
      continuation_from fun _ => by change 144 ≤ _; omega
    have hhigh : v / 4096 % 64 + 128 ≤
        (if v / 262144 % 8 = 4 then (0x8F : UInt8) else 0xBF).toNat :=
      continuation_to fun _ => by change _ ≤ 143; omega
    rw [List.cons_append, run_start (start_four _ (by omega)), List.cons_append,
      run_more hlow hhigh, List.cons_append, run_more (continuation (v / 64)).1
        (continuation (v / 64)).2, List.singleton_append,
      run_last (continuation v).1 (continuation v).2, hchar (by omega)]

theorem run_flatMap (cs : List Char) :
    run between (cs.flatMap String.utf8EncodeChar) = cs.map some := by
  induction cs with
  | nil => rfl
  | cons c cs ih =>
    rw [List.flatMap_cons, run_utf8EncodeChar, ih, List.map_cons]

end Utf8State

theorem bytes_eq_flatMap
    (s : String) :
    bytes s = s.toList.flatMap String.utf8EncodeChar := by
  rw [bytes, ← String.utf8Encode_toList]
  exact List.toList_data_toByteArray

theorem scalars_bytes (s : String) : scalars (bytes s) = s.toList.map some := by
  rw [scalars, bytes_eq_flatMap, Utf8State.run_flatMap]

/-- The bytes of a text are read as that text. -/
theorem lossy_bytes (s : String) : lossy (bytes s) = s := by
  have hchars : (s.toList.map some).map (·.getD replacement) = s.toList := by
    rw [List.map_map]
    exact List.map_id _
  rw [lossy, scalars_bytes, hchars, String.ofList_toList]

end LinkGraph.Text
