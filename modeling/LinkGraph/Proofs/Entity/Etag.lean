import LinkGraph.Entity.Etag
import LinkGraph.Proofs.Binary.Separable

/-!
# What entity tags tell

The numbers of the hexadecimal digits stand in a tag without anything between
them, two places wide for a decimal digit or one of the letters a to c, three
for the letters d to f.  Only the wider ones start with a one, so that a tag is
cut into them in one way and shows every byte of the digest.  Entities with one
tag can therefore differ only in bytes of which the digest is the same.
-/

namespace LinkGraph

namespace Digest

/-- Different bytes with one digest. -/
def Collide (bs bs' : List UInt8) : Prop :=
  bs ≠ bs' ∧ blake3 bs = blake3 bs'

theorem length_blake3 (bs : List UInt8) : (blake3 bs).length = 32 := by
  have hwords (ws : List UInt32) :
      (ws.flatMap wordBytes).length = 4 * ws.length := by
    induction ws with
    | nil => rfl
    | cons w ws ih =>
      rw [List.flatMap_cons, List.length_append, ih, List.length_cons]
      change 4 + 4 * ws.length = 4 * (ws.length + 1)
      omega
  rw [blake3, hwords, Vector.length_toList]

end Digest

namespace Entity

/-- The decimal number of a hexadecimal digit. -/
def digitCode (n : Fin 16) : List Char :=
  (toString (Text.hexDigit n).toNat).toList

/-- The decimal numbers of the two digits of a byte. -/
def byteCode (b : UInt8) : List Char :=
  (Text.hexByte b).flatMap fun c => (toString c.toNat).toList

/-- The halves of a byte, the high one first. -/
def halves (b : UInt8) : Fin 16 × Fin 16 :=
  (⟨b.toNat / 16, by have := b.toNat_lt; omega⟩,
    ⟨b.toNat % 16, Nat.mod_lt _ (by decide)⟩)

theorem halves_injective : Function.Injective halves := by
  intro b b' h
  obtain ⟨hhigh, hlow⟩ := Prod.mk.inj h
  have hdiv : b.toNat / 16 = b'.toNat / 16 := Fin.mk.inj hhigh
  have hmod : b.toNat % 16 = b'.toNat % 16 := Fin.mk.inj hlow
  apply UInt8.toNat_inj.mp
  omega

theorem digitCode_separable : Separable digitCode :=
  Separable.of_prefix (by decide +kernel)

theorem byteCode_eq (b : UInt8) :
    byteCode b = digitCode (halves b).1 ++ digitCode (halves b).2 := by
  simp [byteCode, Text.hexByte, digitCode, halves]

theorem byteCode_separable : Separable byteCode := by
  have hcode :
      byteCode = fun b => digitCode (halves b).1 ++ digitCode (halves b).2 :=
    funext byteCode_eq
  rw [hcode]
  exact (digitCode_separable.append digitCode_separable).comp halves_injective

theorem two_le_length_digitCode : ∀ n, 2 ≤ (digitCode n).length := by
  decide +kernel

theorem toList_characterCodes (s : String) :
    (characterCodes s).toList = s.toList.flatMap fun c =>
      (toString c.toNat).toList := by
  have hfold (cs : List Char) (text : String) :
      (cs.foldl (fun text c => text ++ toString c.toNat) text).toList =
        text.toList ++ cs.flatMap fun c => (toString c.toNat).toList := by
    induction cs generalizing text with
    | nil => simp
    | cons c cs ih =>
      rw [List.foldl_cons, ih, String.toList_append, List.flatMap_cons,
        List.append_assoc]
  rw [characterCodes, hfold]
  rfl

theorem toList_etag (e : Entity) :
    e.etag.toList = (Digest.blake3 (Binary.Format.entity.write e)).flatMap
      byteCode := by
  rw [etag, toList_characterCodes, Text.hex, String.toList_ofList,
    List.flatMap_assoc]
  rfl

theorem etag_eq_iff (e e' : Entity) :
    e.etag = e'.etag ↔
      Digest.blake3 (Binary.Format.entity.write e) =
        Digest.blake3 (Binary.Format.entity.write e') := by
  constructor
  · intro h
    have hcodes := congrArg String.toList h
    rw [toList_etag, toList_etag] at hcodes
    have hlength := (Digest.length_blake3 (Binary.Format.entity.write e)).trans
      (Digest.length_blake3 (Binary.Format.entity.write e')).symm
    exact (byteCode_separable.flatMap hlength (congrArg (· ++ []) hcodes)).1
  · intro h
    rw [etag, etag, h]

theorem etag_ne_fallbackEtag (e : Entity) : e.etag ≠ fallbackEtag := by
  intro h
  have hlength := Digest.length_blake3 (Binary.Format.entity.write e)
  have hcodes := congrArg String.toList h
  rw [toList_etag] at hcodes
  cases hdigest : Digest.blake3 (Binary.Format.entity.write e) with
  | nil =>
    rw [hdigest] at hlength
    cases hlength
  | cons b bs =>
    have hwide := two_le_length_digitCode (halves b).1
    have hcount := congrArg List.length hcodes
    rw [hdigest, List.flatMap_cons, byteCode_eq, List.length_append,
      List.length_append] at hcount
    change _ = 1 at hcount
    omega

/-- Two entities have one tag exactly when their bytes have one digest; their
bytes are the same only if the entities are.  So the tag tells entities apart
unless the digest collides on their bytes, and it is never the one reported
without a digest. -/
theorem etag_tells_apart (e e' : Entity) :
    (e.etag = e'.etag ↔
        Digest.blake3 (Binary.Format.entity.write e) =
          Digest.blake3 (Binary.Format.entity.write e')) ∧
      (Binary.Format.entity.write e = Binary.Format.entity.write e' ↔ e = e') ∧
      (e.etag = e'.etag ↔ e = e' ∨
        Digest.Collide (Binary.Format.entity.write e)
          (Binary.Format.entity.write e')) ∧
      e.etag ≠ fallbackEtag := by
  have hbytes :
      Binary.Format.entity.write e = Binary.Format.entity.write e' ↔ e = e' :=
    Binary.Format.entity_separable.injective.eq_iff
  refine ⟨etag_eq_iff e e', hbytes, ?_, etag_ne_fallbackEtag e⟩
  rw [etag_eq_iff]
  constructor
  · intro hdigest
    by_cases he : e = e'
    · exact Or.inl he
    · exact Or.inr ⟨fun h => he (hbytes.mp h), hdigest⟩
  · rintro (rfl | ⟨-, hdigest⟩)
    · rfl
    · exact hdigest

end Entity

end LinkGraph
