import LinkGraph.Proofs.Binary.RoundTrip
import LinkGraph.Proofs.Results

/-!
# Reading bytes that are cut short

A reader is steady when a value it has found at the front of some bytes is found
there whatever follows them.  What a lawful format has written, cut short
anywhere, is then refused: a value found in the part would be found in the whole
as well, with bytes left over that the whole does not have.
-/

namespace LinkGraph.Binary

variable {α β : Type}

/-- What is read does not depend on the bytes after it. -/
def Steady (read : Reader α) : Prop :=
  ∀ (bs rest : List UInt8) (v : α), read bs = .ok (v, rest) →
    ∀ more, read (bs ++ more) = .ok (v, rest ++ more)

namespace Steady

theorem pure (v : α) : Steady fun bs => .ok (v, bs) := by
  intro bs rest w h more
  cases h
  rfl

/-- One steady reader after another. -/
theorem bind {read : Reader α} {follow : α → Reader β} (hread : Steady read)
    (hfollow : ∀ a, Steady (follow a)) :
    Steady (fun bs => do
      let (a, rest) ← read bs
      follow a rest) := by
  intro bs rest v h more
  obtain ⟨⟨a, between⟩, hfirst, hsecond⟩ := bind_eq_ok h
  dsimp only
  rw [hread bs between a hfirst more]
  exact hfollow a between rest v hsecond more

end Steady

/-! ## Numbers and sequences -/

theorem readNat_steady (last count : Nat) : Steady (readNat last count) := by
  induction count with
  | zero =>
    intro bs rest n h
    cases h
  | succ count ih =>
    intro bs rest n h more
    cases bs with
    | nil => cases h
    | cons b bs =>
      rw [List.cons_append]
      rw [readNat] at h ⊢
      split
      · next hlast =>
        rw [if_pos hlast] at h
        split
        · next hlarge =>
          rw [if_pos hlarge] at h
          cases h
        · next hsmall =>
          rw [if_neg hsmall] at h
          cases h
          rfl
      · next hmore =>
        rw [if_neg hmore] at h
        exact (ih.bind fun m => Steady.pure (b.toNat - 128 + 128 * m)) bs
          rest n h more

theorem readBytes_steady (count : Nat) : Steady (readBytes count) := by
  intro bs rest front h more
  simp only [readBytes, List.splitAt_eq] at h ⊢
  split at h
  · next hlength =>
    cases h
    have hcount : count ≤ bs.length := by
      rw [List.length_take] at hlength
      omega
    rw [List.take_append_of_le_length hcount,
      List.drop_append_of_le_length hcount, if_pos hlength]
  · cases h

theorem readMany_steady
    {read : Reader α} (hread : Steady read) (count : Nat) (latest : List α) :
    Steady (readMany read latest count) := by
  induction count generalizing latest with
  | zero => exact Steady.pure latest.reverse
  | succ count ih => exact hread.bind fun v => ih (v :: latest)

/-! ## Formats -/

namespace Format

variable {f : Format α} {g : Format β}

theorem word_steady : Steady word.read :=
  (readNat_steady 1 10).bind fun n => Steady.pure (UInt64.ofNat n)

theorem text_steady : Steady text.read := by
  intro bs rest s h more
  obtain ⟨⟨length, afterLength⟩, hlength, h⟩ := bind_eq_ok h
  obtain ⟨⟨content, afterContent⟩, hcontent, h⟩ := bind_eq_ok h
  have hlength' : readNat64 (bs ++ more) = .ok (length, afterLength ++ more) :=
    readNat_steady 1 10 _ _ _ hlength more
  have hcontent' := readBytes_steady length _ _ _ hcontent more
  change (readNat64 (bs ++ more) >>= _) = _
  rw [hlength']
  change (readBytes length (afterLength ++ more) >>= _) = _
  rw [hcontent']
  cases hs : Text.ofBytes? content with
  | some s' =>
    simp only [hs] at h
    cases h
    simp only [bind, Except.bind, hs]
    rfl
  | none =>
    simp only [hs] at h
    cases h

theorem pair_steady
    (hf : Steady f.read) (hg : Steady g.read) :
    Steady (f.pair g).read :=
  hf.bind fun a => hg.bind fun b => Steady.pure (a, b)

theorem list_steady (hf : Steady f.read) : Steady (list f).read :=
  (readNat_steady 1 10).bind fun count => readMany_steady hf count []

theorem map_steady (hf : Steady f.read) (make : α → β) (parts : β → α) :
    Steady (f.map make parts).read :=
  hf.bind fun v => Steady.pure (make v)

theorem option_steady (hf : Steady f.read) : Steady (option f).read := by
  intro bs rest v? h more
  obtain ⟨⟨variant, afterVariant⟩, hvariant, h⟩ := bind_eq_ok h
  have hvariant' :
      readNat32 (bs ++ more) = .ok (variant, afterVariant ++ more) :=
    readNat_steady 15 5 _ _ _ hvariant more
  change (readNat32 (bs ++ more) >>= _) = _
  rw [hvariant']
  rcases variant with _ | _ | variant
  · cases h
    rfl
  · exact (hf.bind fun v => Steady.pure (some v)) afterVariant rest v? h more
  · cases h

theorem names_steady : Steady names.read :=
  map_steady (list_steady text_steady) _ _

theorem attributes_steady : Steady attributes.read :=
  map_steady (list_steady (pair_steady text_steady text_steady)) _ _

theorem endpoints_steady : Steady endpoints.read :=
  map_steady (pair_steady text_steady text_steady) _ _

theorem entity_steady : Steady entity.read := by
  refine map_steady ?_ _ _
  refine pair_steady text_steady
    (pair_steady (option_steady endpoints_steady) ?_)
  refine pair_steady text_steady
    (pair_steady names_steady (pair_steady attributes_steady ?_))
  exact pair_steady text_steady (pair_steady word_steady names_steady)

/-- What was written is refused when its end is missing. -/
theorem Lawful.refuses_cut
    (hf : f.Lawful) (hsteady : Steady f.read) {v : α} {bs : List UInt8}
    (hcut : bs <+: f.write v) (hne : bs ≠ f.write v) :
    ∃ e, f.read bs = .error e := by
  obtain ⟨missing, hwhole⟩ := hcut
  cases hread : f.read bs with
  | error e => exact ⟨e, rfl⟩
  | ok r =>
    obtain ⟨w, rest⟩ := r
    have hfound : f.read (f.write v ++ []) = .ok (w, rest ++ missing) := by
      rw [List.append_nil, ← hwhole]
      exact hsteady bs rest w hread missing
    rcases hf.faithful v [] with hv | ⟨e, he⟩
    · have hrest : rest ++ missing = [] :=
        congrArg Prod.snd (Except.ok.inj (hfound.symm.trans hv))
      obtain rfl : missing = [] := (List.append_eq_nil_iff.mp hrest).2
      rw [List.append_nil] at hwhole
      exact absurd hwhole hne
    · rw [he] at hfound
      cases hfound

end Format

end LinkGraph.Binary
