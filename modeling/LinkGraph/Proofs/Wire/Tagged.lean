import LinkGraph.Proofs.Text.Base64
import LinkGraph.Proofs.Wire.Reading

/-!
# Tagged values lose nothing

What a JSON value is as a value of a type is one relation with a case for each
shape of value.  The conversion decides it: it finds the value that is related,
if there is one, and nothing else.  That no value is cut short, wrapped around
or spelled in two ways can be read off the cases; only an integer that is given
for a double is rounded.
-/

namespace LinkGraph

/-! ## Types -/

namespace WireType

/-- The tag that may stand in place of the signature. -/
def longName : WireType → String
  | boolean => "boolean"
  | int16 => "int16"
  | uint16 => "uint16"
  | int32 => "int32"
  | uint32 => "uint32"
  | int64 => "int64"
  | uint64 => "uint64"
  | double => "double"
  | text => "string"
  | bytes => "bytes"
  | handle => "fd"

/-- The tag names the type, in short or at length. -/
def Names (type : WireType) (tag : String) : Prop :=
  tag = type.signature ∨ tag = type.longName

/-- The integers that an integer type has values for. -/
def Holds (n : Int) : WireType → Prop
  | int16 => -2 ^ 15 ≤ n ∧ n < 2 ^ 15
  | uint16 => 0 ≤ n ∧ n < 2 ^ 16
  | int32 => -2 ^ 31 ≤ n ∧ n < 2 ^ 31
  | uint32 | handle => 0 ≤ n ∧ n < 2 ^ 32
  | int64 => -2 ^ 63 ≤ n ∧ n < 2 ^ 63
  | uint64 => 0 ≤ n ∧ n < 2 ^ 64
  | boolean | double | text | bytes => False

/-- The JSON values that a type has values for. -/
def Accepts (value : Json) : WireType → Prop
  | boolean => ∃ b, value = .bool b
  | double => ∃ x, value = .number x
  | text => ∃ s, value = .string s
  | bytes => ∃ bs, value = .string (Text.base64 bs)
  | type => ∃ n, value = .number (.integer n) ∧ type.Holds n

theorem ofTag?_eq_some_iff {tag : String} {type : WireType} :
    ofTag? tag = some type ↔ type.Names tag := by
  constructor
  · intro h
    unfold ofTag? at h
    split at h
    any_goals
      cases h
      first
      | exact Or.inl rfl
      | exact Or.inr rfl
    cases h
  · rintro (rfl | rfl)
    · cases type <;> rfl
    · cases type <;> rfl

theorem Names.unique {type type' : WireType} {tag : String} (h : type.Names tag)
    (h' : type'.Names tag) : type = type' :=
  Option.some.inj ((ofTag?_eq_some_iff.mpr h).symm.trans
    (ofTag?_eq_some_iff.mpr h'))

end WireType

/-! ## Conversion -/

/-- What a JSON value is as a wire value of a type. -/
inductive Converts : WireType → Json → WireValue → Prop
  | boolean (b : Bool) : Converts .boolean (.bool b) (.boolean b)
  | integer {type : WireType} {w : WireValue} {n : Int} :
    w.type? = some type → w.toInt? = some n →
      Converts type (.number (.integer n)) w
  | rounded (n : Int) :
    Converts .double (.number (.integer n)) (.double (.ofInt n))
  | double (x : Double) : Converts .double (.number (.double x)) (.double x)
  | text (s : String) : Converts .text (.string s) (.text s)
  | bytes (bs : List UInt8) :
    Converts .bytes (.string (Text.base64 bs)) (.bytes bs)

namespace Json

variable {value : Json}

theorem integer?_eq_some_iff {fits : Int → Bool} {n : Int} :
    value.integer? fits = some n ↔ value = .number (.integer n) ∧
      fits n = true := by
  unfold integer?
  split
  · next m =>
    by_cases hm : fits m = true
    · rw [if_pos hm]
      constructor
      · rintro ⟨⟩
        exact ⟨rfl, hm⟩
      · rintro ⟨⟨⟩, -⟩
        rfl
    · rw [if_neg hm]
      constructor
      · rintro ⟨⟩
      · rintro ⟨⟨⟩, hn⟩
        exact absurd hn hm
  · next hother =>
    constructor
    · rintro ⟨⟩
    · rintro ⟨rfl, -⟩
      exact absurd rfl (hother n)

theorem signed?_eq_some_iff {bits : Nat} {n : Int} :
    value.signed? bits = some n ↔
      value = .number (.integer n) ∧ -2 ^ (bits - 1) ≤ n ∧
      n < 2 ^ (bits - 1) := by
  rw [signed?, integer?_eq_some_iff, Word.isSigned_iff]

theorem natural?_eq_some_iff {bits n : Nat} :
    value.natural? bits = some n ↔ value = .number (.integer n) ∧
      n < 2 ^ bits := by
  rw [natural?, Option.map_eq_some_iff]
  simp only [integer?_eq_some_iff, Word.isNatural_iff]
  constructor
  · rintro ⟨m, ⟨rfl, hlow, hhigh⟩, rfl⟩
    rw [Int.toNat_of_nonneg hlow]
    exact ⟨rfl, (Int.toNat_lt hlow).mpr (by exact_mod_cast hhigh)⟩
  · rintro ⟨rfl, hn⟩
    exact ⟨n, ⟨rfl, Int.natCast_nonneg n, by exact_mod_cast hn⟩,
      Int.toNat_natCast n⟩

theorem eq_string_of_text?
    {s : String} (h : value.text? = some s) :
    value = .string s := by
  unfold text? at h
  split at h
  · cases h
    rfl
  · cases h

end Json

namespace WireType

variable {type : WireType} {value : Json} {w : WireValue}

theorem converts_of_signed
    {bits : Nat} {make : Int → WireValue}
    (h : (value.signed? bits).map make = some w)
    (htype : ∀ n, (make n).type? = some type)
    (hint : ∀ n, -2 ^ (bits - 1) ≤ n → n < 2 ^ (bits - 1) →
      (make n).toInt? = some n) :
    Converts type value w := by
  obtain ⟨n, hn, rfl⟩ := Option.map_eq_some_iff.mp h
  obtain ⟨rfl, hlow, hhigh⟩ := Json.signed?_eq_some_iff.mp hn
  exact .integer (htype n) (hint n hlow hhigh)

theorem converts_of_natural
    {bits : Nat} {make : Nat → WireValue}
    (h : (value.natural? bits).map make = some w)
    (htype : ∀ n, (make n).type? = some type)
    (hint : ∀ n < 2 ^ bits, (make n).toInt? = some (n : Int)) :
    Converts type value w := by
  obtain ⟨n, hn, rfl⟩ := Option.map_eq_some_iff.mp h
  obtain ⟨rfl, hsize⟩ := Json.natural?_eq_some_iff.mp hn
  exact .integer (htype n) (hint n hsize)

/-- A value that is found is related. -/
theorem converts_of_ofJson?
    (h : type.ofJson? value = some w) :
    Converts type value w := by
  cases type with
  | boolean =>
    simp only [ofJson?] at h
    split at h
    · cases h
      exact .boolean _
    · cases h
  | int16 =>
    exact converts_of_signed h (fun _ => rfl) fun _ hlow hhigh =>
      congrArg some (Int16.toInt_ofInt_of_le hlow hhigh)
  | uint16 =>
    exact converts_of_natural h (fun _ => rfl) fun _ hsize =>
      congrArg (some ∘ Nat.cast) (UInt16.toNat_ofNat_of_lt' hsize)
  | int32 =>
    exact converts_of_signed h (fun _ => rfl) fun _ hlow hhigh =>
      congrArg some (Int32.toInt_ofInt_of_le hlow hhigh)
  | uint32 =>
    exact converts_of_natural h (fun _ => rfl) fun _ hsize =>
      congrArg (some ∘ Nat.cast) (UInt32.toNat_ofNat_of_lt' hsize)
  | int64 =>
    exact converts_of_signed h (fun _ => rfl) fun _ hlow hhigh =>
      congrArg some (Int64.toInt_ofInt_of_le hlow hhigh)
  | uint64 =>
    exact converts_of_natural h (fun _ => rfl) fun _ hsize =>
      congrArg (some ∘ Nat.cast) (UInt64.toNat_ofNat_of_lt' hsize)
  | double =>
    obtain ⟨x, hx, rfl⟩ := Option.map_eq_some_iff.mp h
    unfold Json.double? at hx
    split at hx
    · cases hx
      exact .rounded _
    · cases hx
      exact .double x
    · cases hx
  | text =>
    obtain ⟨s, hs, rfl⟩ := Option.map_eq_some_iff.mp h
    obtain rfl := Json.eq_string_of_text? hs
    exact .text s
  | bytes =>
    obtain ⟨bs, hbs, rfl⟩ := Option.map_eq_some_iff.mp h
    obtain ⟨s, hs, hread⟩ := Option.bind_eq_some_iff.mp hbs
    obtain rfl := Json.eq_string_of_text? hs
    obtain rfl := Text.ofBase64?_eq_some_iff.mp hread
    exact .bytes bs
  | handle =>
    exact converts_of_natural h (fun _ => rfl) fun _ hsize =>
      congrArg (some ∘ Nat.cast) (UInt32.toNat_ofNat_of_lt' hsize)

/-- A value that is related is found. -/
theorem ofJson?_of_converts
    (h : Converts type value w) :
    type.ofJson? value = some w := by
  cases h with
  | boolean b => rfl
  | @integer _ _ n htype hint =>
    cases w with
    | int16 k | int32 k | int64 k =>
      cases htype
      cases hint
      rw [ofJson?, Option.map_eq_some_iff]
      exact ⟨k.toInt, Json.signed?_eq_some_iff.mpr ⟨rfl, k.le_toInt,
        k.toInt_lt⟩, by simp⟩
    | uint16 k | uint32 k | uint64 k | handle k =>
      cases htype
      cases hint
      rw [ofJson?, Option.map_eq_some_iff]
      exact ⟨k.toNat, Json.natural?_eq_some_iff.mpr ⟨rfl, k.toNat_lt⟩, by simp⟩
    | boolean _ | double _ | text _ | bytes _ | unsupported _ | null =>
      cases hint
  | rounded n => rfl
  | double x => rfl
  | text s => rfl
  | bytes bs =>
    have hread : Text.ofBase64? (Text.base64 bs) = some bs :=
      Text.ofBase64?_eq_some_iff.mpr rfl
    change ((Text.ofBase64? (Text.base64 bs)).map WireValue.bytes) = _
    rw [hread]
    rfl

theorem ofJson?_eq_some_iff :
    type.ofJson? value = some w ↔ Converts type value w :=
  ⟨converts_of_ofJson?, ofJson?_of_converts⟩

theorem exists_of_natural {bits : Nat} {n : Int} (make : Nat → WireValue)
    (h : 0 ≤ n ∧ n < 2 ^ bits) (htype : ∀ m, (make m).type? = some type)
    (hint : ∀ m < 2 ^ bits, (make m).toInt? = some (m : Int)) :
    ∃ w : WireValue, w.type? = some type ∧ w.toInt? = some n := by
  obtain ⟨m, rfl⟩ := Int.eq_ofNat_of_zero_le h.1
  exact ⟨make m, htype m, hint m (by exact_mod_cast h.2)⟩

/-- An integer type has values for its integers and for no others. -/
theorem holds_iff {n : Int} :
    type.Holds n ↔
      ∃ w : WireValue, w.type? = some type ∧ w.toInt? = some n := by
  constructor
  · intro h
    cases type with
    | int16 =>
      exact ⟨.int16 (.ofInt n), rfl,
        congrArg some (Int16.toInt_ofInt_of_le h.1 h.2)⟩
    | int32 =>
      exact ⟨.int32 (.ofInt n), rfl,
        congrArg some (Int32.toInt_ofInt_of_le h.1 h.2)⟩
    | int64 =>
      exact ⟨.int64 (.ofInt n), rfl,
        congrArg some (Int64.toInt_ofInt_of_le h.1 h.2)⟩
    | uint16 =>
      exact exists_of_natural (fun m => .uint16 (.ofNat m)) h (fun _ => rfl)
        fun _ hm =>
        congrArg (some ∘ Nat.cast) (UInt16.toNat_ofNat_of_lt' hm)
    | uint32 =>
      exact exists_of_natural (fun m => .uint32 (.ofNat m)) h (fun _ => rfl)
        fun _ hm =>
        congrArg (some ∘ Nat.cast) (UInt32.toNat_ofNat_of_lt' hm)
    | uint64 =>
      exact exists_of_natural (fun m => .uint64 (.ofNat m)) h (fun _ => rfl)
        fun _ hm =>
        congrArg (some ∘ Nat.cast) (UInt64.toNat_ofNat_of_lt' hm)
    | handle =>
      exact exists_of_natural (fun m => .handle (.ofNat m)) h (fun _ => rfl)
        fun _ hm =>
        congrArg (some ∘ Nat.cast) (UInt32.toNat_ofNat_of_lt' hm)
    | boolean | double | text | bytes => exact h.elim
  · rintro ⟨w, htype, hint⟩
    cases w with
    | int16 k | int32 k | int64 k =>
      cases htype
      cases hint
      exact ⟨k.le_toInt, k.toInt_lt⟩
    | uint16 k | uint32 k | uint64 k | handle k =>
      cases htype
      cases hint
      exact ⟨Int.natCast_nonneg _, by exact_mod_cast k.toNat_lt⟩
    | boolean _ | double _ | text _ | bytes _ | unsupported _ | null =>
      cases hint

end WireType

/-- What a JSON value is as a value of a type, if it is anything, is known from
the types alone. -/
theorem accepts_iff {type : WireType} {value : Json} :
    type.Accepts value ↔ ∃ w, Converts type value w := by
  constructor
  · intro h
    cases type with
    | boolean =>
      obtain ⟨b, rfl⟩ := h
      exact ⟨_, .boolean b⟩
    | double =>
      obtain ⟨x, rfl⟩ := h
      cases x with
      | integer n => exact ⟨_, .rounded n⟩
      | double x => exact ⟨_, .double x⟩
    | text =>
      obtain ⟨s, rfl⟩ := h
      exact ⟨_, .text s⟩
    | bytes =>
      obtain ⟨bs, rfl⟩ := h
      exact ⟨_, .bytes bs⟩
    | int16 | uint16 | int32 | uint32 | int64 | uint64 | handle =>
      obtain ⟨n, rfl, hn⟩ := h
      obtain ⟨w, htype, hint⟩ := WireType.holds_iff.mp hn
      exact ⟨w, .integer htype hint⟩
  · rintro ⟨w, h⟩
    cases h with
    | boolean b => exact ⟨b, rfl⟩
    | rounded n => exact ⟨_, rfl⟩
    | double x => exact ⟨_, rfl⟩
    | text s => exact ⟨s, rfl⟩
    | bytes bs => exact ⟨bs, rfl⟩
    | @integer _ _ n htype hint =>
      have hn : type.Holds n := WireType.holds_iff.mpr ⟨w, htype, hint⟩
      cases type with
      | int16 | uint16 | int32 | uint32 | int64 | uint64 | handle =>
        exact ⟨n, rfl, hn⟩
      | boolean | double | text | bytes => exact hn.elim

namespace Converts

variable {type : WireType} {value : Json} {w : WireValue}

theorem type_eq (h : Converts type value w) : w.type? = some type := by
  cases h with
  | integer htype hint => exact htype
  | boolean _ | rounded _ | double _ | text _ | bytes _ => rfl

theorem toInt_eq
    (h : Converts type value w) {n : Int} (hn : w.toInt? = some n) :
    value = .number (.integer n) := by
  cases h with
  | integer htype hint =>
    rw [hint] at hn
    rw [Option.some.inj hn]
  | boolean _ | rounded _ | double _ | text _ | bytes _ => cases hn

end Converts

theorem WireValue.signature_of_type
    {type : WireType} {w : WireValue} (h : w.type? = some type) :
    w.signature = type.signature := by
  cases w with
  | unsupported _ | null => cases h
  | _ =>
    cases h
    rfl

theorem TaggedValue.jsonOf_of_toInt
    {w : WireValue} {n : Int} (h : w.toInt? = some n) :
    jsonOf w = .number (.integer n) := by
  cases w with
  | int16 _ | uint16 _ | int32 _ | uint32 _ | int64 _ | uint64 _ | handle _ =>
    cases h
    rfl
  | boolean _ | double _ | text _ | bytes _ | unsupported _ | null => cases h

/-- JSON can express the value: it is of a known type, and finite if it is a
double. -/
def WireValue.Expressible (w : WireValue) : Prop :=
  w.type? ≠ none ∧ ∀ x, w = .double x → x.isFinite = true

/-- The JSON value of a wire value stands for it. -/
theorem converts_jsonOf
    {type : WireType} {w : WireValue} (htype : w.type? = some type)
    (hfinite : ∀ x, w = .double x → x.isFinite = true) :
    Converts type (TaggedValue.jsonOf w) w := by
  cases hint : w.toInt? with
  | some n =>
    rw [TaggedValue.jsonOf_of_toInt hint]
    exact .integer htype hint
  | none =>
    cases w with
    | boolean b =>
      cases htype
      exact .boolean b
    | double x =>
      cases htype
      rw [TaggedValue.jsonOf, if_pos (hfinite x rfl)]
      exact .double x
    | text s =>
      cases htype
      exact .text s
    | bytes bs =>
      cases htype
      exact .bytes bs
    | unsupported _ | null => cases htype
    | int16 _ | uint16 _ | int32 _ | uint32 _ | int64 _ | uint64 _ | handle _ =>
      cases hint

namespace TaggedValue

/-- Null becomes null, a value that converts becomes what it converts to, and
any other value keeps its tag. -/
theorem toWire_cases (t : TaggedValue) :
    (t.value = .null ∧ t.toWire = .null) ∨
      (∃ type, type.Names t.tag ∧ Converts type t.value t.toWire) ∨
      (t.value ≠ .null ∧ t.toWire = .unsupported t.tag ∧
        ∀ type, type.Names t.tag → ∀ w, ¬ Converts type t.value w) := by
  by_cases hnull : t.value = .null
  · left
    refine ⟨hnull, ?_⟩
    rw [toWire, hnull]
  · right
    have hwire :
        t.toWire = ((WireType.ofTag? t.tag).bind (·.ofJson? t.value)).getD
          (.unsupported t.tag) := by
      unfold toWire
      split
      · next h => exact absurd h hnull
      · rfl
    cases hfound : (WireType.ofTag? t.tag).bind (·.ofJson? t.value) with
    | some w =>
      left
      obtain ⟨type, htype, hw⟩ := Option.bind_eq_some_iff.mp hfound
      refine ⟨type, WireType.ofTag?_eq_some_iff.mp htype, ?_⟩
      rw [hwire, hfound]
      exact WireType.ofJson?_eq_some_iff.mp hw
    | none =>
      right
      refine ⟨hnull, ?_, fun type hnames w hw => ?_⟩
      · rw [hwire, hfound]
        rfl
      · have hsome :
            (WireType.ofTag? t.tag).bind (·.ofJson? t.value) = some w :=
          Option.bind_eq_some_iff.mpr
            ⟨type, WireType.ofTag?_eq_some_iff.mpr hnames,
              WireType.ofJson?_of_converts hw⟩
        rw [hfound] at hsome
        cases hsome

theorem toWire_eq
    {t : TaggedValue} {type : WireType} {w : WireValue}
    (hnames : type.Names t.tag) (hw : Converts type t.value w) :
    t.toWire = w := by
  rcases t.toWire_cases with ⟨hnull, -⟩ | ⟨type', hnames', hw'⟩ | ⟨-, -, hnone⟩
  · rw [hnull] at hw
    cases hw
  · obtain rfl := hnames'.unique hnames
    have hsame := (WireType.ofJson?_of_converts hw').symm.trans
      (WireType.ofJson?_of_converts hw)
    exact Option.some.inj hsame
  · exact absurd hw (hnone type hnames w)

theorem toWire_ofWire
    {w : WireValue} (h : w.Expressible) :
    (ofWire w).toWire = w := by
  obtain ⟨hknown, hfinite⟩ := h
  obtain ⟨type, htype⟩ := Option.ne_none_iff_exists'.mp hknown
  exact toWire_eq (Or.inl (WireValue.signature_of_type htype))
    (converts_jsonOf htype hfinite)

/-- How a tagged value is converted and what comes back. -/
structure Faithful (t : TaggedValue) : Prop where
  null_iff : t.toWire = .null ↔ t.value = .null
  /-- What does not become a value of a known type keeps its own tag. -/
  tag_of_unsupported (tag : String) : t.toWire = .unsupported tag → tag = t.tag
  /-- The tag names the type, and the value is one that the type accepts. -/
  type_iff (type : WireType) :
    t.toWire.type? = some type ↔ type.Names t.tag ∧ type.Accepts t.value
  signature_eq (type : WireType) :
    t.toWire.type? = some type → t.toWire.signature = type.signature
  /-- An integer is the one given, and each in the range of the type is
  accepted. -/
  integer_iff (n : Int) :
    t.toWire.toInt? = some n ↔
      t.value = .number (.integer n) ∧
        ∃ type : WireType, type.Names t.tag ∧ type.Holds n
  /-- Anything but an integer given for a double comes back as it was given. -/
  returned (type : WireType) :
    t.toWire.type? = some type →
      (type = .double → ∀ n, t.value ≠ .number (.integer n)) →
      ofWire t.toWire = ⟨type.signature, t.value⟩
  /-- An integer given for a double comes back as the nearest double. -/
  rounded (n : Int) :
    t.toWire.type? = some .double → t.value = .number (.integer n) →
      ∃ x : Double, x.IsNearest n 1 ∧ x.isNegative = decide (n < 0) ∧
        ofWire t.toWire = ⟨WireType.double.signature, .number (.double x)⟩

theorem converts_of_type
    {t : TaggedValue} {type : WireType} (h : t.toWire.type? = some type) :
    type.Names t.tag ∧ Converts type t.value t.toWire := by
  rcases t.toWire_cases with
    ⟨-, hnull⟩ | ⟨type', hnames, hw⟩ | ⟨-, hunsupported, -⟩
  · rw [hnull] at h
    cases h
  · obtain rfl : type' = type := Option.some.inj (hw.type_eq.symm.trans h)
    exact ⟨hnames, hw⟩
  · rw [hunsupported] at h
    cases h

/-- The wire value of a known type comes back as the JSON value it was converted
from, unless that was an integer for a double. -/
theorem jsonOf_of_converts
    {type : WireType} {value : Json} {w : WireValue}
    (hregular : ∀ n, value = .number n → n.Regular) (hw : Converts type value w)
    (hexact : type = .double → ∀ n, value ≠ .number (.integer n)) :
    jsonOf w = value := by
  cases hw with
  | boolean b => rfl
  | integer htype hint => exact jsonOf_of_toInt hint
  | rounded n => exact absurd rfl (hexact rfl n)
  | double x => exact if_pos (hregular _ rfl)
  | text s => rfl
  | bytes bs => rfl

theorem faithful {t : TaggedValue} (h : t.Regular) : t.Faithful where
  null_iff := by
    rcases t.toWire_cases with
      ⟨hvalue, hwire⟩ | ⟨type, -, hw⟩ | ⟨hvalue, hwire, -⟩
    · exact iff_of_true hwire hvalue
    · apply iff_of_false
      · intro hwire
        have htype := hw.type_eq
        rw [hwire] at htype
        cases htype
      · intro hvalue
        rw [hvalue] at hw
        cases hw
    · apply iff_of_false _ hvalue
      rw [hwire]
      exact WireValue.noConfusion
  tag_of_unsupported tag htag := by
    rcases t.toWire_cases with ⟨-, hwire⟩ | ⟨type, -, hw⟩ | ⟨-, hwire, -⟩
    · rw [htag] at hwire
      cases hwire
    · have htype := hw.type_eq
      rw [htag] at htype
      cases htype
    · rw [htag] at hwire
      exact WireValue.unsupported.inj hwire
  type_iff type := by
    rw [accepts_iff]
    constructor
    · intro htype
      obtain ⟨hnames, hw⟩ := converts_of_type htype
      exact ⟨hnames, t.toWire, hw⟩
    · rintro ⟨hnames, w, hw⟩
      rw [toWire_eq hnames hw]
      exact hw.type_eq
  signature_eq type htype := WireValue.signature_of_type htype
  integer_iff n := by
    constructor
    · intro hn
      cases htype : t.toWire.type? with
      | none =>
        cases hwire : t.toWire <;> rw [hwire] at htype hn <;> cases hn <;>
          cases htype
      | some type =>
        obtain ⟨hnames, hw⟩ := converts_of_type htype
        exact ⟨hw.toInt_eq hn, type, hnames,
          WireType.holds_iff.mpr ⟨t.toWire, htype, hn⟩⟩
    · rintro ⟨hvalue, type, hnames, hn⟩
      obtain ⟨w, htype, hint⟩ := WireType.holds_iff.mp hn
      have hw : Converts type t.value w := by
        rw [hvalue]
        exact .integer htype hint
      rw [toWire_eq hnames hw]
      exact hint
  returned type htype hexact := by
    obtain ⟨-, hw⟩ := converts_of_type htype
    rw [ofWire, WireValue.signature_of_type htype,
      jsonOf_of_converts h hw hexact]
  rounded n htype hvalue := by
    obtain ⟨-, hw⟩ := converts_of_type htype
    obtain ⟨hlow, hhigh⟩ := h _ hvalue
    obtain ⟨hnearest, hsign⟩ := Double.isNearest_ofInt (n := n) (by omega)
    refine ⟨.ofInt n, hnearest, hsign, ?_⟩
    rw [hvalue] at hw
    rw [ofWire, WireValue.signature_of_type htype]
    generalize t.toWire = w at hw htype
    cases hw with
    | integer _ hint =>
      cases w <;> cases htype
      cases hint
    | rounded _ => rw [jsonOf, if_pos hnearest.finite]

/-- What JSON can express comes back the same from its tagged value.  A tagged
value is converted without loss whatever its number is, and a text gives it no
other number: an integer is written with digits alone, fits 64 bits and is not
minus zero.  Bytes are read from one text only. -/
theorem converts_both_ways (w : WireValue) (t : TaggedValue) :
    (w.Expressible → (ofWire w).toWire = w) ∧ (t.Regular → t.Faithful) ∧
      (∀ text, Json.read reader text = .ok t → t.Regular) ∧
      (∀ x n, Json.numberOf? x = some (.integer n) ↔
        x.isWhole = true ∧ x.toInt = n ∧
        -2 ^ 63 ≤ n ∧ n < 2 ^ 64 ∧ ¬(x.negative = true ∧ n = 0)) ∧
      ∀ s bs, Text.ofBase64? s = some bs ↔ s = Text.base64 bs := by
  refine ⟨toWire_ofWire, faithful, fun text => regular_of_read, ?_, ?_⟩
  · intro x n
    exact Json.numberOf?_integer_iff
  · intro s bs
    exact Text.ofBase64?_eq_some_iff

theorem converts_both_ways_greatestHandle :
    let w : WireValue := .int64 Int64.minValue
    let text := "\x7b\"type\":\"fd\",\"value\":4294967295\x7d"
    let t : TaggedValue := ⟨"fd", .number (.integer 4294967295)⟩
    w.Expressible ∧ (ofWire w).toWire = w ∧ Json.read reader text = .ok t ∧
      t.Faithful ∧
      t.toWire = .handle 4294967295 := by
  intro w text t
  have hw : w.Expressible := ⟨by decide, fun x hx => WireValue.noConfusion hx⟩
  have htokens : Json.tokens text = [.openObject, .string (some "type"), .colon,
      .string (some "fd"), .comma, .string (some "value"), .colon,
      .number (some (.integer 4294967295)), .closeObject] := by
    decide +kernel
  have hread : Json.read reader text = .ok t := by
    rw [Json.read, Json.readTokens, htokens]
    rfl
  have hwire : t.toWire = .handle 4294967295 := by decide
  obtain ⟨hreturn, hfaithful, hregular, -⟩ := converts_both_ways w t
  exact ⟨hw, hreturn hw, hread, hfaithful (hregular text hread), hwire⟩

end TaggedValue

end LinkGraph
