import LinkGraph.Proofs.Decimal.Numeral
import LinkGraph.Proofs.Text.Lossy
import LinkGraph.Proofs.Wire.Decoding
import LinkGraph.Proofs.Wire.Tagged

/-!
# What is stored for a tagged value

The text that is stored for a tagged value tells nothing of the tag.  An integer
is stored as its numeral, whichever integer type it was sent as, and a text is
stored as itself, whether it was sent as a text or as its bytes.
-/

namespace LinkGraph

def WireType.integers : List WireType :=
  [int16, uint16, int32, uint32, int64, uint64, handle]

/-- The text is a numeral that JSON reads as the integer. -/
def Json.Spells (text : String) (n : Int) : Prop :=
  ∃ x, Decimal.Numeral.ofText? text = some x ∧ numberOf? x = some (.integer n)

theorem Json.spells_iff
    {text : String} {n : Int} (h : -2 ^ 63 ≤ n ∧ n < 2 ^ 64) :
    Spells text n ↔ text = toString n := by
  rw [← Decimal.Numeral.ofText?_integer_iff]
  simp only [Spells, numberOf?_integer_iff]
  constructor
  · rintro ⟨x, hx, hwhole, hn, -, -, hzero⟩
    exact ⟨x, hx, hwhole, hn, hzero⟩
  · rintro ⟨x, hx, hwhole, hn, hzero⟩
    exact ⟨x, hx, hwhole, hn, h.1, h.2, hzero⟩

theorem WireType.Holds.range {type : WireType} {n : Int} (h : type.Holds n) :
    -2 ^ 63 ≤ n ∧ n < 2 ^ 64 := by
  cases type with
  | boolean | double | text | bytes => exact h.elim
  | _ =>
    obtain ⟨hlow, hhigh⟩ := h
    omega

theorem WireValue.toText?_of_toInt
    {w : WireValue} {n : Int} (h : w.toInt? = some n) :
    w.toText? = some (toString n) := by
  cases w with
  | int16 _ | uint16 _ | int32 _ | uint32 _ | int64 _ | uint64 _ | handle _ =>
    cases h
    rfl
  | boolean _ | double _ | text _ | bytes _ | unsupported _ | null => cases h

namespace TaggedValue

variable {t : TaggedValue} {type : WireType} {tag text : String} {n : Int}

/-- The text is what is stored for a tagged value, under whatever key it is
sent. -/
structure Stores (t : TaggedValue) (text : String) : Prop where
  decode (key : String) : t.toWire.decode key = .ok text
  decoded (wire : WireAttributes) (key : String) :
    wire[key]? = some t.toWire → wire.decoded[key]? = some text

theorem stores_of_toText
    (h : t.toWire.toText? = some text) :
    t.Stores text where
  decode _ := WireValue.decode_eq_ok_iff.mpr h
  decoded wire key hkey := by rw [getElem?_decoded, hkey, Option.bind_some, h]

theorem stores_of_converts
    {w : WireValue} (hnames : type.Names t.tag) (hw : Converts type t.value w)
    (htext : w.toText? = some text) :
    t.Stores text := by
  apply stores_of_toText
  rw [toWire_eq hnames hw, htext]

theorem stores_integer (hnames : type.Names tag) (hn : type.Holds n) :
    Stores ⟨tag, .number (.integer n)⟩ (toString n) := by
  obtain ⟨w, htype, hint⟩ := WireType.holds_iff.mp hn
  exact stores_of_converts hnames (.integer htype hint)
    (WireValue.toText?_of_toInt hint)

/-- An integer beyond the range of its type is refused by the tag it came
with. -/
theorem decode_beyond
    (hinteger : type ∈ WireType.integers) (hnames : type.Names tag)
    (hn : ¬type.Holds n) (key : String) :
    (⟨tag, .number (.integer n)⟩ : TaggedValue).toWire.decode key =
      .error (.unsupportedAttributeType key tag) := by
  rcases toWire_cases ⟨tag, .number (.integer n)⟩ with
    ⟨hnull, -⟩ | ⟨type', hnames', hw⟩ | ⟨-, hw, -⟩
  · cases hnull
  · obtain rfl := hnames'.unique hnames
    generalize toWire _ = w at hw
    cases hw with
    | integer htype hint =>
      exact absurd (WireType.holds_iff.mpr ⟨_, htype, hint⟩) hn
    | rounded _ => simp [WireType.integers] at hinteger
  · rw [hw]
    rfl

theorem stores_bytes (hnames : WireType.bytes.Names tag) (bs : List UInt8) :
    Stores ⟨tag, .string (Text.base64 bs)⟩ (Text.lossy bs) :=
  stores_of_converts hnames (.bytes bs) rfl

/-- What is stored does not depend on the type it was sent as.  An integer that
a type has a value for is stored as the one numeral that is read as this
integer, a text and its bytes are stored as the text, and bytes of any kind as a
text whose own bytes are stored the same. -/
theorem stores_alike (n : Int) (s : String) (bs : List UInt8) :
    (∀ type ∈ WireType.integers, ∀ tag, type.Names tag →
      (type.Holds n → Stores ⟨tag, .number (.integer n)⟩ (toString n) ∧
        ∀ text, Json.Spells text n ↔ text = toString n) ∧
      (¬type.Holds n →
        ∀ key, (⟨tag, .number (.integer n)⟩ : TaggedValue).toWire.decode key =
          .error (.unsupportedAttributeType key tag))) ∧
    (∀ tag, WireType.text.Names tag → Stores ⟨tag, .string s⟩ s) ∧
    ∀ tag, WireType.bytes.Names tag →
      Stores ⟨tag, .string (Text.base64 (Text.bytes s))⟩ s ∧
      Stores ⟨tag, .string (Text.base64 bs)⟩ (Text.lossy bs) ∧
      Stores ⟨tag, .string (Text.base64 (Text.bytes (Text.lossy bs)))⟩
        (Text.lossy bs) := by
  have hreread (s : String) (tag : String) (hnames : WireType.bytes.Names tag) :
      Stores ⟨tag, .string (Text.base64 (Text.bytes s))⟩ s := by
    have hstores := stores_bytes hnames (Text.bytes s)
    rwa [Text.lossy_bytes] at hstores
  refine ⟨fun type hinteger tag hnames => ⟨fun hn => ?_, fun hn => ?_⟩,
    fun tag hnames => ?_, fun tag hnames =>
      ⟨hreread s tag hnames, stores_bytes hnames bs, hreread _ tag hnames⟩⟩
  · exact ⟨stores_integer hnames hn, fun text => Json.spells_iff hn.range⟩
  · exact decode_beyond hinteger hnames hn
  · exact stores_of_converts hnames (.text s) rfl

/-- The least integer of 16 bits, a text with a character of four bytes, and
bytes of which one is no text. -/
theorem stores_alike_leastInteger :
    Stores ⟨"n", .number (.integer (-32768))⟩ "-32768" ∧
      Stores ⟨"int64", .number (.integer (-32768))⟩ "-32768" ∧
      Stores ⟨"s", .string "é𝄞"⟩ "é𝄞" ∧ Stores ⟨"ay", .string "w6nwnYSe"⟩ "é𝄞" ∧
      Stores ⟨"bytes", .string "YYA="⟩ "a\uFFFD" := by
  obtain ⟨hinteger, htext, hbytes⟩ := stores_alike (-32768) "é𝄞" [0x61, 0x80]
  obtain ⟨hshort, -⟩ := hinteger .int16 (by decide) "n" (.inl rfl)
  obtain ⟨hlong, -⟩ := hinteger .int64 (by decide) "int64" (.inr rfl)
  refine ⟨(hshort ⟨by decide, by decide⟩).1, (hlong ⟨by decide, by decide⟩).1,
    htext "s" (.inl rfl), ?_, ?_⟩
  · have hsame : Text.base64 (Text.bytes "é𝄞") = "w6nwnYSe" := by decide +kernel
    exact hsame ▸ (hbytes "ay" (.inl rfl)).1
  · have hsame : Text.base64 [0x61, 0x80] = "YYA=" := by decide
    have hread : Text.lossy [0x61, 0x80] = "a\uFFFD" := by decide
    exact hsame ▸ hread ▸ (hbytes "bytes" (.inr rfl)).2.1

end TaggedValue

end LinkGraph
