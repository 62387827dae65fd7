import LinkGraph.Proofs.Json.Numbers
import LinkGraph.Proofs.Results
import LinkGraph.Wire.Tagged

/-!
# Reading tagged values

A tagged value is a record of two fields, which are read from an object or from
an array.  If the second is a number, it is one that JSON texts give.
-/

namespace LinkGraph.TaggedValue

open Json (Fields Reader Row Slots Tree)

/-- If the value is a number, it is one that JSON texts give. -/
def Regular (t : TaggedValue) : Prop :=
  ∀ n, t.value = .number n → n.Regular

def fields : Fields [String, Json] :=
  .cons ⟨"type", Reader.text, none⟩ <|
  .cons ⟨"value", Reader.any, some .null⟩ .nil

/-- The value is not read yet, or is regular if it is a number. -/
def RegularSlots (slots : Slots [String, Json]) : Prop :=
  ∀ n, slots.2.1 = some (.number n) → n.Regular

variable {depth : Nat} {row : Row [String, Json]}
  {slots slots' : Slots [String, Json]}

theorem fill_regular
    {key : String} {tree : Tree} (htree : tree.Regular)
    (hslots : RegularSlots slots)
    (h : fields.fill depth key tree slots = .ok (some slots')) :
    RegularSlots slots' := by
  obtain ⟨tag?, value?, ⟨⟩⟩ := slots
  simp only [fields, Fields.fill] at h
  split at h
  · split at h
    · cases h
    · obtain ⟨tag, -, hfilled⟩ := map_eq_ok.mp h
      obtain rfl := Option.some.inj hfilled
      exact hslots
  · split at h
    · split at h
      · cases h
      · obtain ⟨filled?, hfilled, hslots'⟩ := map_eq_ok.mp h
        obtain ⟨value, hvalue, rfl⟩ := map_eq_ok.mp hfilled
        obtain rfl := Option.some.inj hslots'
        intro n hn
        apply Reader.any_regular htree
        rw [hvalue, Option.some.inj hn]
    · cases h

theorem fillAll_regular
    {members : List (Option String × Tree)}
    (hmembers : ∀ member ∈ members, member.2.Regular)
    (hslots : RegularSlots slots)
    (h : fields.fillAll depth slots members = .ok slots') :
    RegularSlots slots' := by
  induction members generalizing slots with
  | nil =>
    obtain rfl := Except.ok.inj h
    exact hslots
  | cons member rest ih =>
    obtain ⟨htree, hrest⟩ := List.forall_mem_cons.mp hmembers
    rw [Fields.fillAll] at h
    obtain ⟨key, -, h⟩ := bind_eq_ok h
    obtain ⟨filled?, hfill, h⟩ := bind_eq_ok h
    cases filled? with
    | some filled => exact ih hrest (fill_regular htree hslots hfill) h
    | none =>
      dsimp only at h
      split at h
      · exact ih hrest hslots h
      · cases h

theorem finish_regular
    (hslots : RegularSlots slots) (h : fields.finish slots = .ok row)
    (n : JsonNumber) (hn : row.2.1 = .number n) :
    n.Regular := by
  obtain ⟨tag?, value?, ⟨⟩⟩ := slots
  cases tag? with
  | none => cases h
  | some tag =>
    cases value? with
    | none =>
      obtain rfl := Except.ok.inj h
      cases hn
    | some value =>
      obtain rfl := Except.ok.inj h
      exact hslots n (congrArg some hn)

theorem positional_regular
    {items : List Tree} (hitems : ∀ item ∈ items, item.Regular)
    (h : fields.positional depth items = .ok row) (n : JsonNumber)
    (hn : row.2.1 = .number n) :
    n.Regular := by
  cases items with
  | nil => cases h
  | cons first items =>
    obtain ⟨-, hitems⟩ := List.forall_mem_cons.mp hitems
    obtain ⟨tag, -, h⟩ := bind_eq_ok h
    obtain ⟨rest, hrest, rfl⟩ := map_eq_ok.mp h
    cases items with
    | nil =>
      obtain rfl := Except.ok.inj hrest
      cases hn
    | cons second items =>
      obtain ⟨hsecond, -⟩ := List.forall_mem_cons.mp hitems
      obtain ⟨value, hvalue, hend⟩ := bind_eq_ok hrest
      obtain ⟨end', -, rfl⟩ := map_eq_ok.mp hend
      exact Reader.any_regular hsecond (hvalue.trans (congrArg Except.ok hn))

theorem row_regular
    {tree : Tree} (htree : tree.Regular) (h : fields.row depth tree = .ok row)
    (n : JsonNumber) (hn : row.2.1 = .number n) :
    n.Regular := by
  cases htree with
  | object members hmembers =>
    cases depth with
    | zero => cases h
    | succ depth =>
      obtain ⟨slots, hfill, hfinish⟩ := bind_eq_ok h
      have hempty : RegularSlots fields.empty := by
        intro n hn
        cases hn
      exact finish_regular (fillAll_regular hmembers hempty hfill) hfinish n hn
  | array items hitems =>
    cases depth with
    | zero => cases h
    | succ depth => exact positional_regular hitems h n hn
  | null | bool _ | number _ _ | string _ | broken => cases h

/-- A tagged value that is read holds no number but a regular one. -/
theorem regular_of_read
    {text : String} {t : TaggedValue} (h : Json.read reader text = .ok t) :
    t.Regular := by
  obtain ⟨value, hvalue, h⟩ := bind_eq_ok h
  obtain ⟨row, hrow, rfl⟩ := map_eq_ok.mp hvalue
  split at h
  · cases h
  · obtain rfl := Except.ok.inj h
    exact row_regular (Json.document_regular _) hrow

end LinkGraph.TaggedValue
