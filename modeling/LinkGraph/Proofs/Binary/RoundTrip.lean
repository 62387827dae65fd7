import LinkGraph.Entity.Format
import LinkGraph.Proofs.Store.Ordered
import Mathlib.Tactic.Ring

/-!
# Reading back what was written

A format is lawful when reading what it has written gives the value back, and
leaves what follows, or fails.  It fails only where a length does not fit into
64 bits, so not within fewer than `2 ^ 64` bytes.  Formats put together from
lawful formats are lawful.
-/

namespace LinkGraph.Binary

/-! ## Numbers -/

theorem writeNat_of_lt
    {n : Nat} (h : n < 128) :
    writeNat n = [UInt8.ofNat n] := by
  rw [writeNat, if_pos h]

theorem writeNat_of_le {n : Nat} (h : 128 ≤ n) :
    writeNat n = UInt8.ofNat (n % 128 + 128) :: writeNat (n / 128) := by
  rw [writeNat, if_neg (by omega)]

theorem writeNat_length_pos (n : Nat) : 0 < (writeNat n).length := by
  rw [writeNat]
  split
  · simp
  · simp

theorem writeNat_length_le (n : Nat) : (writeNat n).length ≤ n + 1 := by
  induction n using Nat.strongRecOn with
  | ind n ih =>
    by_cases hn : n < 128
    · rw [writeNat_of_lt hn, List.length_singleton]
      omega
    · have hrest := ih (n / 128) (by omega)
      rw [writeNat_of_le (by omega), List.length_cons]
      omega

theorem toNat_ofNat_of_lt
    {n : Nat} (h : n < 256) :
    (UInt8.ofNat n).toNat = n := by
  rw [UInt8.toNat_ofNat']
  omega

theorem readNat_cons_of_le {last count n : Nat} {bs rest : List UInt8}
    (hrest : readNat last count bs = .ok (n, rest)) (m : Nat) (hm : m < 128) :
    readNat last (count + 1) (UInt8.ofNat (m + 128) :: bs) =
      .ok (m + 128 * n, rest) := by
  have hbyte : (UInt8.ofNat (m + 128)).toNat = m + 128 :=
    toNat_ofNat_of_lt (by omega)
  rw [readNat, hbyte, if_neg (by omega), hrest]
  change Except.ok (m + 128 - 128 + 128 * n, rest) = _
  rw [Nat.add_sub_cancel]

theorem readNat_cons_error
    {last count : Nat} {bs : List UInt8} {e : DecodeError}
    (hrest : readNat last count bs = .error e) (m : Nat) (hm : m < 128) :
    readNat last (count + 1) (UInt8.ofNat (m + 128) :: bs) = .error e := by
  have hbyte : (UInt8.ofNat (m + 128)).toNat = m + 128 :=
    toNat_ofNat_of_lt (by omega)
  rw [readNat, hbyte, if_neg (by omega), hrest]
  rfl

/-- A number is read back if it fits into the bytes allowed. -/
theorem readNat_writeNat
    {last : Nat} (hlast : last < 128) (count n : Nat) (rest : List UInt8) :
    readNat last (count + 1) (writeNat n ++ rest) =
      if n < (last + 1) * 128 ^ count then .ok (n, rest)
      else .error .unendingNumber := by
  induction count generalizing n with
  | zero =>
    rw [pow_zero, Nat.mul_one]
    by_cases hn : n < 128
    · have hbyte : (UInt8.ofNat n).toNat = n := toNat_ofNat_of_lt (by omega)
      rw [writeNat_of_lt hn, List.singleton_append, readNat, hbyte, if_pos hn]
      by_cases hfits : n < last + 1
      · rw [if_pos hfits, if_neg (by omega)]
      · rw [if_neg hfits, if_pos (by omega)]
    · rw [writeNat_of_le (by omega), List.cons_append,
        readNat_cons_error rfl _ (Nat.mod_lt n (by decide)), if_neg (by omega)]
  | succ count ih =>
    have hpow : (last + 1) * 128 ^ (count + 1) =
        (last + 1) * 128 ^ count * 128 := by ring
    have hpos : 0 < (last + 1) * 128 ^ count :=
      Nat.mul_pos (Nat.succ_pos last) (Nat.pow_pos (by decide))
    rw [hpow]
    by_cases hn : n < 128
    · have hbyte : (UInt8.ofNat n).toNat = n := toNat_ofNat_of_lt (by omega)
      rw [writeNat_of_lt hn, List.singleton_append, readNat, hbyte, if_pos hn,
        if_neg (by omega), if_pos (by omega)]
    · have hmod : n % 128 < 128 := Nat.mod_lt n (by decide)
      rw [writeNat_of_le (by omega), List.cons_append]
      by_cases hfits : n / 128 < (last + 1) * 128 ^ count
      · have hrest := ih (n / 128)
        rw [if_pos hfits] at hrest
        rw [readNat_cons_of_le hrest _ hmod, Nat.mod_add_div,
          if_pos ((Nat.div_lt_iff_lt_mul (by decide)).mp hfits)]
      · have hrest := ih (n / 128)
        rw [if_neg hfits] at hrest
        rw [readNat_cons_error hrest _ hmod,
          if_neg fun h => hfits ((Nat.div_lt_iff_lt_mul (by decide)).mpr h)]

theorem readNat64_writeNat (n : Nat) (rest : List UInt8) :
    readNat64 (writeNat n ++ rest) =
      if n < 2 ^ 64 then .ok (n, rest) else .error .unendingNumber :=
  readNat_writeNat (by decide) 9 n rest

theorem readNat64_writeNat_of_lt
    {n : Nat} (h : n < 2 ^ 64) (rest : List UInt8) :
    readNat64 (writeNat n ++ rest) = .ok (n, rest) := by
  rw [readNat64_writeNat, if_pos h]

theorem readNat32_writeNat_of_lt
    {n : Nat} (h : n < 2 ^ 32) (rest : List UInt8) :
    readNat32 (writeNat n ++ rest) = .ok (n, rest) := by
  have hbound : n < (15 + 1) * 128 ^ 4 := h
  have hread := readNat_writeNat (show 15 < 128 by decide) 4 n rest
  rwa [if_pos hbound] at hread

theorem readBytes_append (bs rest : List UInt8) :
    readBytes bs.length (bs ++ rest) = .ok (bs, rest) := by
  simp [readBytes, List.splitAt_eq]

/-! ## Laws -/

namespace Format

variable {α β : Type}

/-- The format reads back a value before further bytes. -/
def Returns (f : Format α) (v : α) (rest : List UInt8) : Prop :=
  f.read (f.write v ++ rest) = .ok (v, rest)

structure Lawful (f : Format α) : Prop where
  positive (v : α) : 0 < (f.write v).length
  faithful (v : α) (rest : List UInt8) :
    f.Returns v rest ∨ ∃ e, f.read (f.write v ++ rest) = .error e
  complete (v : α) (rest : List UInt8) :
    (f.write v).length < 2 ^ 64 → f.Returns v rest

theorem word_lawful : word.Lawful := by
  have hreturns (w : UInt64) (rest : List UInt8) : word.Returns w rest := by
    have hread := readNat64_writeNat_of_lt w.toNat_lt rest
    change (readNat64 (writeNat w.toNat ++ rest) >>= _) = _
    rw [hread]
    change Except.ok (UInt64.ofNat w.toNat, rest) = _
    rw [UInt64.ofNat_toNat]
  exact ⟨fun w => writeNat_length_pos w.toNat,
    fun w rest => Or.inl (hreturns w rest), fun w rest _ => hreturns w rest⟩

theorem length_bytes
    (s : String) :
    (Text.bytes s).length = s.utf8ByteSize := rfl

theorem ofBytes?_bytes
    (s : String) :
    Text.ofBytes? (Text.bytes s) = some s := by
  have hbytes : (⟨(Text.bytes s).toArray⟩ : ByteArray) = s.toByteArray := rfl
  rw [Text.ofBytes?, hbytes, String.fromUTF8?, dif_pos s.isValidUTF8]
  rfl

theorem text_read (s : String) (rest : List UInt8) :
    text.read (text.write s ++ rest) =
      if s.utf8ByteSize < 2 ^ 64 then .ok (s, rest)
      else .error .unendingNumber := by
  simp only [text, List.append_assoc]
  rw [readNat64_writeNat]
  split
  · change (readBytes s.utf8ByteSize (Text.bytes s ++ rest) >>= _) = _
    rw [← length_bytes, readBytes_append]
    simp only [bind, Except.bind, ofBytes?_bytes]
    rfl
  · rfl

theorem text_returns
    {s : String} (h : s.utf8ByteSize < 2 ^ 64) (rest : List UInt8) :
    text.Returns s rest := by
  rw [Returns, text_read, if_pos h]

theorem text_lawful : text.Lawful where
  positive s := by
    change 0 < (writeNat s.utf8ByteSize ++ Text.bytes s).length
    have hpos := writeNat_length_pos s.utf8ByteSize
    rw [List.length_append]
    omega
  faithful s rest := by
    unfold Returns
    rw [text_read]
    split
    · exact Or.inl rfl
    · exact Or.inr ⟨_, rfl⟩
  complete s rest h := by
    change (writeNat s.utf8ByteSize ++ Text.bytes s).length < 2 ^ 64 at h
    rw [List.length_append, length_bytes] at h
    exact text_returns (by omega) rest

theorem bytes_returns
    {bs : List UInt8} (h : bs.length < 2 ^ 64) (rest : List UInt8) :
    bytes.Returns bs rest := by
  unfold Returns
  simp only [bytes, List.append_assoc]
  rw [readNat64_writeNat_of_lt h]
  exact readBytes_append bs rest

theorem pair_returns
    {f : Format α} {g : Format β} {v : α × β} {rest : List UInt8}
    (hf : f.Returns v.1 (g.write v.2 ++ rest)) (hg : g.Returns v.2 rest) :
    (f.pair g).Returns v rest := by
  unfold Returns at *
  simp only [pair, List.append_assoc]
  rw [hf]
  change (g.read (g.write v.2 ++ rest) >>= _) = _
  rw [hg]
  rfl

theorem pair_lawful
    {f : Format α} {g : Format β} (hf : f.Lawful) (hg : g.Lawful) :
    (f.pair g).Lawful where
  positive v := by
    have hpos := hf.positive v.1
    simp only [pair, List.length_append]
    omega
  faithful v rest := by
    rcases hf.faithful v.1 (g.write v.2 ++ rest) with hfirst | ⟨e, he⟩
    · rcases hg.faithful v.2 rest with hsecond | ⟨e, he⟩
      · exact Or.inl (pair_returns hfirst hsecond)
      · right
        refine ⟨e, ?_⟩
        unfold Returns at hfirst
        simp only [pair, List.append_assoc]
        rw [hfirst]
        change (g.read (g.write v.2 ++ rest) >>= _) = _
        rw [he]
        rfl
    · right
      refine ⟨e, ?_⟩
      simp only [pair, List.append_assoc]
      rw [he]
      rfl
  complete v rest h := by
    simp only [pair, List.length_append] at h
    exact pair_returns (hf.complete v.1 _ (by omega))
      (hg.complete v.2 rest (by omega))

theorem readMany_ok {f : Format α} {values : List α} {rest : List UInt8}
    (hitems : ∀ v ∈ values, ∀ rest, f.Returns v rest) (latest : List α) :
    readMany f.read latest values.length (values.flatMap f.write ++ rest) =
      .ok (latest.reverse ++ values, rest) := by
  induction values generalizing latest with
  | nil => simp [readMany]
  | cons v values ih =>
    have hv : f.Returns v (values.flatMap f.write ++ rest) :=
      hitems v List.mem_cons_self _
    have hrest :=
      ih (fun w hw => hitems w (List.mem_cons_of_mem v hw)) (v :: latest)
    rw [List.flatMap_cons, List.append_assoc, List.length_cons, readMany, hv]
    change readMany f.read (v :: latest) values.length
      (values.flatMap f.write ++ rest) = _
    rw [hrest, List.reverse_cons, List.append_assoc, List.singleton_append]

theorem readMany_faithful
    {f : Format α} (hf : f.Lawful) (values : List α) (rest : List UInt8)
    (latest : List α) :
    readMany f.read latest values.length (values.flatMap f.write ++ rest) =
        .ok (latest.reverse ++ values, rest) ∨
      ∃ e, readMany f.read latest values.length
        (values.flatMap f.write ++ rest) = .error e := by
  induction values generalizing latest with
  | nil => simp [readMany]
  | cons v values ih =>
    rw [List.flatMap_cons, List.append_assoc, List.length_cons, readMany]
    rcases hf.faithful v (values.flatMap f.write ++ rest) with hv | ⟨e, he⟩
    · rw [hv]
      have hrest := ih (v :: latest)
      rw [List.reverse_cons, List.append_assoc, List.singleton_append] at hrest
      exact hrest
    · rw [he]
      exact Or.inr ⟨e, rfl⟩

theorem length_le_flatMap {f : Format α} (hf : f.Lawful) (values : List α) :
    values.length ≤ (values.flatMap f.write).length := by
  induction values with
  | nil => simp
  | cons v values ih =>
    have hpos := hf.positive v
    rw [List.flatMap_cons, List.length_append, List.length_cons]
    omega

theorem length_write_le
    {f : Format α} {values : List α} {v : α} (hv : v ∈ values) :
    (f.write v).length ≤ (values.flatMap f.write).length :=
  ((List.sublist_flatten_of_mem (List.mem_map_of_mem hv)).length_le).trans
    (by rw [List.flatMap_def])

theorem list_returns
    {f : Format α} {values : List α} (hcount : values.length < 2 ^ 64)
    (hitems : ∀ v ∈ values, ∀ rest, f.Returns v rest) (rest : List UInt8) :
    (list f).Returns values rest := by
  unfold Returns
  simp only [list, List.append_assoc]
  rw [readNat64_writeNat_of_lt hcount]
  exact readMany_ok hitems []

theorem list_lawful {f : Format α} (hf : f.Lawful) : (list f).Lawful where
  positive values := by
    have hpos := writeNat_length_pos values.length
    simp only [list, List.length_append]
    omega
  faithful values rest := by
    unfold Returns
    simp only [list, List.append_assoc]
    rw [readNat64_writeNat]
    split
    · exact readMany_faithful hf values rest []
    · exact Or.inr ⟨_, rfl⟩
  complete values rest h := by
    simp only [list, List.length_append] at h
    have hcount := length_le_flatMap hf values
    refine list_returns (by omega) (fun v hv rest => ?_) rest
    have hle := length_write_le (f := f) hv
    exact hf.complete v rest (by omega)

theorem map_read
    (f : Format α) (make : α → β) (parts : β → α) (v : β) (rest : List UInt8) :
    (f.map make parts).read ((f.map make parts).write v ++ rest) =
      (f.read (f.write (parts v) ++ rest)).map fun r => (make r.1, r.2) := by
  change (f.read (f.write (parts v) ++ rest) >>= _) = _
  cases f.read (f.write (parts v) ++ rest) with
  | ok r => rfl
  | error e => rfl

theorem map_returns
    {f : Format α} {make : α → β} {parts : β → α} {v : β} {rest : List UInt8}
    (hmake : make (parts v) = v) (hv : f.Returns (parts v) rest) :
    (f.map make parts).Returns v rest := by
  rw [Returns, map_read, hv, Except.map, hmake]

theorem map_lawful {f : Format α} (hf : f.Lawful) {make : α → β} {parts : β → α}
    (hmake : ∀ v, make (parts v) = v) : (f.map make parts).Lawful := by
  refine ⟨fun v => hf.positive (parts v), fun v rest => ?_, fun v rest h => ?_⟩
  · rcases hf.faithful (parts v) rest with hv | ⟨e, he⟩
    · exact Or.inl (map_returns (hmake v) hv)
    · right
      rw [map_read, he]
      exact ⟨e, rfl⟩
  · exact map_returns (hmake v) (hf.complete (parts v) rest h)

theorem option_returns_none
    (f : Format α) (rest : List UInt8) :
    (option f).Returns none rest := by
  unfold Returns
  simp only [option]
  rw [readNat32_writeNat_of_lt (by decide)]
  rfl

theorem option_read_some (f : Format α) (v : α) (rest : List UInt8) :
    (option f).read ((option f).write (some v) ++ rest) =
      (f.read (f.write v ++ rest)).map fun r => (some r.1, r.2) := by
  simp only [option, List.append_assoc]
  rw [readNat32_writeNat_of_lt (by decide)]
  change (f.read (f.write v ++ rest) >>= _) = _
  cases f.read (f.write v ++ rest) with
  | ok r => rfl
  | error e => rfl

theorem option_lawful {f : Format α} (hf : f.Lawful) : (option f).Lawful where
  positive v := by
    cases v with
    | none => exact writeNat_length_pos 0
    | some v =>
      have hpos := writeNat_length_pos 1
      simp only [option, List.length_append]
      omega
  faithful v rest := by
    cases v with
    | none => exact Or.inl (option_returns_none f rest)
    | some v =>
      rw [Returns, option_read_some]
      rcases hf.faithful v rest with hv | ⟨e, he⟩
      · rw [hv]
        exact Or.inl rfl
      · rw [he]
        exact Or.inr ⟨e, rfl⟩
  complete v rest h := by
    cases v with
    | none => exact option_returns_none f rest
    | some v =>
      simp only [option, List.length_append] at h
      have hv := hf.complete v rest (by omega)
      rw [Returns, option_read_some, hv]
      rfl

/-! ## Entities -/

theorem names_ofList_toList
    (s : NameSet) :
    Std.ExtTreeSet.ofList s.toList = s := by
  apply Std.ExtTreeSet.ext_mem
  intro x
  simp [Std.ExtTreeSet.mem_ofList]

theorem names_lawful : names.Lawful :=
  map_lawful (list_lawful text_lawful) names_ofList_toList

theorem attributes_lawful : attributes.Lawful :=
  map_lawful (list_lawful (pair_lawful text_lawful text_lawful)) ofList_toList

theorem endpoints_lawful : endpoints.Lawful :=
  map_lawful (pair_lawful text_lawful text_lawful) fun _ => rfl

theorem entity_lawful : entity.Lawful := by
  refine map_lawful ?_ fun _ => rfl
  refine pair_lawful text_lawful
    (pair_lawful (option_lawful endpoints_lawful) ?_)
  refine pair_lawful text_lawful
    (pair_lawful names_lawful (pair_lawful attributes_lawful ?_))
  exact pair_lawful text_lawful (pair_lawful word_lawful names_lawful)

end Format

end LinkGraph.Binary
