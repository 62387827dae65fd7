import LinkGraph.Proofs.Results
import LinkGraph.Proofs.Store.Ordered
import LinkGraph.Snapshot
import Mathlib.Algebra.GroupWithZero.Nat
import Mathlib.Algebra.Order.BigOperators.Group.List

/-!
# What is read is backed by bytes

Counts and lengths stand in front of what they announce, and whoever wrote the
bytes can put any number there.  A reader that succeeds has consumed as many
bytes as each number that it met announces, and what it returns weighs no more
than the bytes it has consumed: every text counts with its bytes and every field
with one byte more.  A number that is not backed by the bytes after it makes the
reader fail, at whatever depth it is met.
-/

namespace LinkGraph

/-- The bytes that texts take together. -/
def textSize (texts : List String) : Nat :=
  (texts.map String.utf8ByteSize).sum

theorem textSize_append (texts texts' : List String) :
    textSize (texts ++ texts') = textSize texts + textSize texts' := by
  rw [textSize, List.map_append, List.sum_append, textSize, textSize]

theorem textSize_flatMap {α : Type} (texts : α → List String) (vs : List α) :
    textSize (vs.flatMap texts) = (vs.map fun v => textSize (texts v)).sum := by
  induction vs with
  | nil => rfl
  | cons v vs ih =>
    rw [List.flatMap_cons, textSize_append, ih, List.map_cons, List.sum_cons]

def Entity.texts (e : Entity) : List String :=
  [e.id, e.kind, e.owner] ++
    (e.endpoints.toList.flatMap fun p => [p.source, p.target]) ++
    e.mixins.toList ++ (e.attributes.toList.flatMap fun a => [a.1, a.2]) ++
      e.linkedFrom.toList

namespace Binary

variable {α β : Type}

/-! ## Where numbers are met -/

/-- Where a reader meets a count or a length: the bytes that it starts with, the
number, and the bytes after the number. -/
abbrev Meets := List UInt8 → Nat → List UInt8 → Prop

namespace Meets

def nowhere : Meets := fun _ _ _ => False

/-- At the front. -/
def front : Meets := fun bs n after => readNat64 bs = .ok (n, after)

/-- In the first of two values, or in the second one, after the first has been
read. -/
def pair (first : Reader α) (meets meets' : Meets) : Meets := fun bs n after =>
  meets bs n after ∨ ∃ v rest, first bs = .ok (v, rest) ∧ meets' rest n after

/-- In one of a number of values in a row. -/
def row (item : Reader α) (meets : Meets) : Nat → Meets
  | 0 => nowhere
  | count + 1 => pair item meets (row item meets count)

/-- As the count of values, or in one of them. -/
def list (item : Reader α) (meets : Meets) : Meets := fun bs n after =>
  front bs n after ∨
    ∃ count rest,
        readNat64 bs = .ok (count, rest) ∧ row item meets count rest n after

/-- In the value, if there is one. -/
def option (meets : Meets) : Meets := fun bs n after =>
  ∃ rest, readNat32 bs = .ok (1, rest) ∧ meets rest n after

def names : Meets :=
  list Format.text.read front

def attributes : Meets :=
  list (Format.text.pair Format.text).read (pair Format.text.read front front)

def endpoints : Meets :=
  pair Format.text.read front front

/-- In the fields of an entity, one after the other. -/
def entity : Meets :=
  pair Format.text.read front <|
  pair (Format.option .endpoints).read (option endpoints) <|
  pair Format.text.read front <|
  pair Format.names.read names <|
  pair Format.attributes.read attributes <|
  pair Format.text.read front <|
  pair Format.word.read nowhere names

def payload : Meets :=
  list Format.entity.read entity

end Meets

/-! ## Numbers and sequences -/

/-- What is read weighs no more than the bytes consumed, and each number met on
the way announces no more than the bytes consumed after it. -/
structure Backed
    (read : Reader α) (weight : α → Nat) (meets : Meets) : Prop where
  paid {bs rest : List UInt8} {v : α} :
    read bs = .ok (v, rest) → weight v + rest.length ≤ bs.length
  announced {bs rest after : List UInt8} {v : α} {n : Nat} :
    read bs = .ok (v, rest) → meets bs n after → n + rest.length ≤ after.length

theorem length_of_readNat
    {last count n : Nat} {bs rest : List UInt8}
    (h : readNat last count bs = .ok (n, rest)) :
    1 + rest.length ≤ bs.length := by
  induction count generalizing bs n with
  | zero => cases h
  | succ count ih =>
    rcases bs with _ | ⟨b, bs⟩
    · cases h
    · rw [readNat] at h
      rw [List.length_cons]
      split at h
      · split at h
        · cases h
        · cases h
          omega
      · obtain ⟨⟨m, between⟩, hmore, heq⟩ := bind_eq_ok h
        obtain ⟨-, rfl⟩ := Prod.mk.inj (Except.ok.inj heq)
        have hle := ih hmore
        omega

theorem readBytes_eq_ok
    {count : Nat} {bs front rest : List UInt8}
    (h : readBytes count bs = .ok (front, rest)) :
    bs = front ++ rest ∧ front.length = count := by
  simp only [readBytes, List.splitAt_eq] at h
  split at h
  · next hlength =>
    obtain ⟨rfl, rfl⟩ := Prod.mk.inj (Except.ok.inj h)
    exact ⟨(List.take_append_drop count bs).symm, hlength⟩
  · cases h

theorem utf8ByteSize_of_ofBytes?
    {bs : List UInt8} {s : String} (h : Text.ofBytes? bs = some s) :
    s.utf8ByteSize = bs.length := by
  rw [Text.ofBytes?, String.fromUTF8?] at h
  split at h
  · obtain rfl := Option.some.inj h
    rfl
  · cases h

/-- As many values as are read weigh no more than the bytes that they were read
from. -/
theorem Backed.of_readMany
    {read : Reader α} {weight : α → Nat} {meets : Meets}
    (h : Backed read weight meets) {count : Nat} {bs rest : List UInt8}
    {latest vs : List α}
    (hread : readMany read latest count bs = .ok (vs, rest)) :
    ∃ ws, vs = latest.reverse ++ ws ∧ ws.length = count ∧
      (ws.map weight).sum + rest.length ≤ bs.length ∧
      ∀ n after, Meets.row read meets count bs n after →
        n + rest.length ≤ after.length := by
  induction count generalizing latest bs with
  | zero =>
    obtain ⟨rfl, rfl⟩ := Prod.mk.inj (Except.ok.inj hread)
    refine ⟨[], (List.append_nil _).symm, rfl, ?_,
      fun n after hmeets => hmeets.elim⟩
    rw [List.map_nil, List.sum_nil, Nat.zero_add]
  | succ count ih =>
    obtain ⟨⟨v, between⟩, hfirst, hrest⟩ := bind_eq_ok hread
    obtain ⟨ws, rfl, hlength, hpaid, hannounced⟩ := ih hrest
    have hpaid' := h.paid hfirst
    refine ⟨v :: ws, ?_, ?_, ?_, fun n after hmeets => ?_⟩
    · rw [List.reverse_cons, List.append_assoc, List.singleton_append]
    · rw [List.length_cons, hlength]
    · rw [List.map_cons, List.sum_cons]
      omega
    · rcases hmeets with hmeets | ⟨v', between', hfirst', hmeets⟩
      · have hleft := h.announced hfirst hmeets
        omega
      · rw [hfirst] at hfirst'
        obtain ⟨rfl, rfl⟩ := Prod.mk.inj (Except.ok.inj hfirst')
        exact hannounced n after hmeets

/-! ## Formats -/

namespace Format

variable {f : Format α} {g : Format β} {weight : α → Nat} {weight' : β → Nat}
  {meets meets' : Meets}

theorem word_backed : Backed word.read (fun _ => 1) .nowhere where
  paid {bs rest v} h := by
    obtain ⟨⟨n, rest'⟩, hnumber, h⟩ := bind_eq_ok h
    obtain ⟨-, rfl⟩ := Prod.mk.inj (Except.ok.inj h)
    exact length_of_readNat hnumber
  announced _ hmeets := hmeets.elim

/-- What reading a text consumes is its length and its bytes. -/
theorem text_read_eq_ok
    {bs rest : List UInt8} {s : String} (h : text.read bs = .ok (s, rest)) :
    ∃ after, readNat64 bs = .ok (s.utf8ByteSize, after) ∧
      s.utf8ByteSize + rest.length = after.length := by
  obtain ⟨⟨length, after⟩, hlength, hread⟩ := bind_eq_ok h
  obtain ⟨⟨content, rest'⟩, hcontent, hmatch⟩ := bind_eq_ok hread
  obtain ⟨rfl, rfl⟩ := readBytes_eq_ok hcontent
  dsimp only at hmatch
  split at hmatch
  · next hs =>
    obtain ⟨rfl, rfl⟩ := Prod.mk.inj (Except.ok.inj hmatch)
    have hsize := utf8ByteSize_of_ofBytes? hs
    refine ⟨_, by rw [hsize]; exact hlength, ?_⟩
    rw [hsize, List.length_append]
  · cases hmatch

theorem text_backed :
    Backed text.read (fun s => 1 + s.utf8ByteSize) .front where
  paid {bs rest s} h := by
    obtain ⟨after, hnumber, hsize⟩ := text_read_eq_ok h
    have hle := length_of_readNat hnumber
    omega
  announced {bs rest after s n} h hmeets := by
    obtain ⟨after', hnumber, hsize⟩ := text_read_eq_ok h
    obtain ⟨rfl, rfl⟩ := Prod.mk.inj (Except.ok.inj (hmeets.symm.trans hnumber))
    exact hsize.le

theorem pair_read_eq_ok {bs rest : List UInt8} {v : α × β}
    (h : (f.pair g).read bs = .ok (v, rest)) :
    ∃ between, f.read bs = .ok (v.1, between) ∧
      g.read between = .ok (v.2, rest) := by
  obtain ⟨⟨a, between⟩, hfirst, h⟩ := bind_eq_ok h
  obtain ⟨⟨b, rest'⟩, hsecond, h⟩ := bind_eq_ok h
  obtain ⟨rfl, rfl⟩ := Prod.mk.inj (Except.ok.inj h)
  exact ⟨between, hfirst, hsecond⟩

theorem pair_backed
    (hf : Backed f.read weight meets) (hg : Backed g.read weight' meets') :
    Backed (f.pair g).read (fun v => weight v.1 + weight' v.2)
      (.pair f.read meets meets') where
  paid {bs rest v} h := by
    obtain ⟨between, hfirst, hsecond⟩ := pair_read_eq_ok h
    have hpaid := hf.paid hfirst
    have hpaid' := hg.paid hsecond
    omega
  announced {bs rest after v n} h hmeets := by
    obtain ⟨between, hfirst, hsecond⟩ := pair_read_eq_ok h
    rcases hmeets with hmeets | ⟨a, between', hfirst', hmeets⟩
    · have hleft := hf.announced hfirst hmeets
      have hpaid := hg.paid hsecond
      omega
    · obtain ⟨rfl, rfl⟩ :=
        Prod.mk.inj (Except.ok.inj (hfirst'.symm.trans hfirst))
      exact hg.announced hsecond hmeets

theorem list_read_eq_ok {bs rest : List UInt8} {vs : List α}
    (h : (list f).read bs = .ok (vs, rest)) :
    ∃ count after, readNat64 bs = .ok (count, after) ∧
      readMany f.read [] count after = .ok (vs, rest) := by
  obtain ⟨⟨count, after⟩, hcount, h⟩ := bind_eq_ok h
  exact ⟨count, after, hcount, h⟩

/-- A count is backed as every value that it counts takes a byte at least. -/
theorem list_backed
    (hf : Backed f.read weight meets) (hpos : ∀ v, 1 ≤ weight v) :
    Backed (list f).read (fun vs => 1 + (vs.map weight).sum)
      (.list f.read meets) where
  paid {bs rest vs} h := by
    obtain ⟨count, after, hcount, h⟩ := list_read_eq_ok h
    obtain ⟨ws, rfl, -, hpaid, -⟩ := hf.of_readMany h
    have hle := length_of_readNat hcount
    omega
  announced {bs rest after vs n} h hmeets := by
    obtain ⟨count, after', hcount, h⟩ := list_read_eq_ok h
    obtain ⟨ws, -, hlength, hpaid, hannounced⟩ := hf.of_readMany h
    rcases hmeets with hfront | ⟨count', after'', hcount', hrow⟩
    · obtain ⟨rfl, rfl⟩ :=
        Prod.mk.inj (Except.ok.inj (hfront.symm.trans hcount))
      have hle : (ws.map weight).length ≤ (ws.map weight).sum := by
        apply List.length_le_sum_of_one_le
        intro i hi
        obtain ⟨v, -, rfl⟩ := List.mem_map.mp hi
        exact hpos v
      rw [List.length_map, hlength] at hle
      omega
    · obtain ⟨rfl, rfl⟩ :=
        Prod.mk.inj (Except.ok.inj (hcount'.symm.trans hcount))
      exact hannounced n after hrow

theorem map_read_eq_ok
    {make : α → β} {parts : β → α} {bs rest : List UInt8} {v : β}
    (h : (f.map make parts).read bs = .ok (v, rest)) :
    ∃ w, f.read bs = .ok (w, rest) ∧ make w = v := by
  obtain ⟨⟨w, rest'⟩, hread, h⟩ := bind_eq_ok h
  obtain ⟨rfl, rfl⟩ := Prod.mk.inj (Except.ok.inj h)
  exact ⟨w, hread, rfl⟩

theorem map_backed
    (hf : Backed f.read weight meets) {make : α → β} {parts : β → α}
    (hmake : ∀ v, weight' (make v) ≤ weight v) :
    Backed (f.map make parts).read weight' meets where
  paid {bs rest v} h := by
    obtain ⟨w, hread, rfl⟩ := map_read_eq_ok h
    exact (Nat.add_le_add_right (hmake w) _).trans (hf.paid hread)
  announced {bs rest after v n} h hmeets := by
    obtain ⟨w, hread, -⟩ := map_read_eq_ok h
    exact hf.announced hread hmeets

theorem option_read_eq_ok {bs rest : List UInt8} {v? : Option α}
    (h : (option f).read bs = .ok (v?, rest)) :
    (readNat32 bs = .ok (0, rest) ∧ v? = none) ∨
      ∃ v after, readNat32 bs = .ok (1, after) ∧ f.read after = .ok (v, rest) ∧
        v? = some v := by
  obtain ⟨⟨variant, after⟩, hvariant, h⟩ := bind_eq_ok h
  rcases variant with _ | _ | variant
  · obtain ⟨rfl, rfl⟩ := Prod.mk.inj (Except.ok.inj h)
    exact .inl ⟨hvariant, rfl⟩
  · obtain ⟨⟨v, rest'⟩, hvalue, h⟩ := bind_eq_ok h
    obtain ⟨rfl, rfl⟩ := Prod.mk.inj (Except.ok.inj h)
    exact .inr ⟨v, after, hvariant, hvalue, rfl⟩
  · cases h

theorem option_backed (hf : Backed f.read weight meets) :
    Backed (option f).read (fun v? => 1 + (v?.toList.map weight).sum)
      (.option meets) where
  paid {bs rest v?} h := by
    rcases option_read_eq_ok h with
      ⟨hvariant, rfl⟩ | ⟨v, after, hvariant, hvalue, rfl⟩
    · exact length_of_readNat hvariant
    · have hle := length_of_readNat hvariant
      have hpaid := hf.paid hvalue
      rw [Option.toList_some, List.map_singleton, List.sum_singleton]
      omega
  announced {bs rest after v? n} h hmeets := by
    obtain ⟨after', hvariant', hmeets⟩ := hmeets
    rcases option_read_eq_ok h with
      ⟨hvariant, -⟩ | ⟨v, after'', hvariant, hvalue, -⟩
    · cases hvariant'.symm.trans hvariant
    · obtain ⟨-, rfl⟩ :=
        Prod.mk.inj (Except.ok.inj (hvariant'.symm.trans hvariant))
      exact hf.announced hvalue hmeets

/-! ## Entities -/

/-- Sets and maps keep some of what was listed for them, and nothing of it
twice. -/
theorem sum_le_of_subset
    {l l' : List α} (weight : α → Nat) (hnodup : l.Nodup) (hsubset : l ⊆ l') :
    (l.map weight).sum ≤ (l'.map weight).sum := by
  obtain ⟨kept, hperm, hsublist⟩ := List.subperm_of_subset hnodup hsubset
  rw [← (hperm.map weight).sum_eq]
  exact (hsublist.map weight).sum_le_sum fun _ _ => Nat.zero_le _

theorem textSize_ofList_le (texts : List String) :
    textSize (Std.ExtTreeSet.ofList texts : NameSet).toList ≤
      textSize texts := by
  apply sum_le_of_subset
  · exact (sorted_names _).imp ne_of_lt
  · intro s hs
    rwa [Std.ExtTreeSet.mem_toList, Std.ExtTreeSet.mem_ofList,
      List.contains_iff_mem] at hs

theorem mem_of_getElem?_ofList
    {rows : List (String × String)} {key value : String}
    (h : (Std.ExtTreeMap.ofList rows : Attributes)[key]? = some value) :
    (key, value) ∈ rows := by
  rw [Std.ExtTreeMap.ofList_eq_insertMany_empty,
    Std.ExtTreeMap.getElem?_insertMany_list, Std.ExtTreeMap.getElem?_empty,
    Option.or_none, List.findSomeRev?_eq_findSome?_reverse] at h
  obtain ⟨⟨key', value'⟩, hrow, hfound⟩ := List.exists_of_findSome?_eq_some h
  obtain ⟨hkey, hvalue⟩ := Option.ite_none_right_eq_some.mp hfound
  obtain rfl := Std.LawfulEqCmp.eq_of_compare hkey
  obtain rfl := Option.some.inj hvalue
  exact List.mem_reverse.mp hrow

theorem toList_ofList_subset (rows : List (String × String)) :
    (Std.ExtTreeMap.ofList rows : Attributes).toList ⊆ rows := by
  rintro ⟨key, value⟩ hrow
  exact mem_of_getElem?_ofList
    (Std.ExtTreeMap.mem_toList_iff_getElem?_eq_some.mp hrow)

theorem nodup_toList (a : Attributes) : a.toList.Nodup := by
  apply List.Nodup.of_map Prod.fst
  rw [Std.ExtTreeMap.map_fst_toList_eq_keys]
  exact (sorted_keys a).imp ne_of_lt

theorem names_backed :
    Backed names.read (fun s => 1 + textSize s.toList) .names := by
  refine map_backed (list_backed text_backed fun s => Nat.le_add_right 1 _)
    fun texts => ?_
  have hmerged := textSize_ofList_le texts
  have hfields : textSize texts ≤ (texts.map fun s => 1 + s.utf8ByteSize).sum :=
    List.sum_le_sum fun s _ => Nat.le_add_left _ 1
  omega

theorem attributes_backed : Backed attributes.read
    (fun a => 1 + textSize (a.toList.flatMap fun row => [row.1, row.2]))
      .attributes := by
  refine map_backed (list_backed (pair_backed text_backed text_backed)
    fun row => ?_) fun rows => ?_
  · omega
  · rw [textSize_flatMap]
    have hmerged := sum_le_of_subset (fun row => textSize [row.1, row.2])
      (nodup_toList (Std.ExtTreeMap.ofList rows)) (toList_ofList_subset rows)
    have hfields :
        (rows.map fun row => textSize [row.1, row.2]).sum ≤ (rows.map fun row =>
          1 + row.1.utf8ByteSize + (1 + row.2.utf8ByteSize)).sum := by
      refine List.sum_le_sum fun row _ => ?_
      simp only [textSize, List.map_cons, List.map_nil, List.sum_cons,
        List.sum_nil]
      omega
    omega

theorem endpoints_backed :
    Backed endpoints.read (fun p => textSize [p.source, p.target])
      .endpoints := by
  refine map_backed (pair_backed text_backed text_backed) fun v => ?_
  simp only [textSize, List.map_cons, List.map_nil, List.sum_cons, List.sum_nil]
  omega

/-- Each of the eight fields of an entity takes a byte besides its texts. -/
theorem entity_backed :
    Backed entity.read (fun e => 8 + textSize e.texts) .entity := by
  have hfields := pair_backed text_backed <|
    pair_backed (option_backed endpoints_backed) <| pair_backed text_backed <|
    pair_backed names_backed <| pair_backed attributes_backed <|
    pair_backed text_backed <| pair_backed word_backed names_backed
  refine map_backed hfields fun v => ?_
  obtain ⟨id, endpoints, kind, mixins, attributes, owner, serial, linkedFrom⟩ := v
  simp only [Entity.texts, textSize_append, textSize_flatMap]
  simp only [textSize, List.map_cons, List.map_nil, List.sum_cons, List.sum_nil]
  omega

end Format

end Binary

/-! ## Snapshots -/

namespace Snapshot

open Binary (Meets Backed Format)

theorem Header.ofBytes_cases (bs : List UInt8) :
    (5 ≤ bs.length ∧ ∃ header, ofBytes bs = .ok header) ∨
      ∃ message, ofBytes bs = .error (.deserialization message) := by
  match bs with
  | [] | [_] | [_, _] | [_, _, _] | [_, _, _, _] => exact .inr ⟨_, rfl⟩
  | _ :: _ :: _ :: _ :: _ :: _ =>
    refine .inl ⟨?_, _, rfl⟩
    simp only [List.length_cons]
    omega

theorem Header.validate_cases (header : Header) :
    header.validate = .ok () ∨
      ∃ message, header.validate = .error (.deserialization message) := by
  rw [validate]
  split
  · exact .inr ⟨_, rfl⟩
  · split
    · exact .inr ⟨_, rfl⟩
    · exact .inl rfl

/-- A snapshot is refused with a message, or read as the entities after the five
bytes of its header. -/
theorem read_cases (bs : List UInt8) :
    (∃ es rest, read bs = .ok es ∧ 5 ≤ bs.length ∧
      payload.read (bs.drop 5) = .ok (es, rest)) ∨
      ∃ message, read bs = .error (.deserialization message) := by
  generalize hread : read bs = result
  rw [read, checkSize] at hread
  split at hread
  · exact .inr ⟨_, hread.symm⟩
  rcases Header.ofBytes_cases bs with
    ⟨hlength, header, hheader⟩ | ⟨message, hheader⟩
  · rw [hheader] at hread
    change (header.validate >>= _) = _ at hread
    rcases header.validate_cases with hvalid | ⟨message, hvalid⟩
    · rw [hvalid] at hread
      cases hpayload : payload.read (bs.drop 5) with
      | ok r =>
        rw [hpayload] at hread
        exact .inl ⟨r.1, r.2, hread.symm, hlength, rfl⟩
      | error e =>
        rw [hpayload] at hread
        exact .inr ⟨_, hread.symm⟩
    · rw [hvalid] at hread
      exact .inr ⟨message, hread.symm⟩
  · rw [hheader] at hread
    exact .inr ⟨message, hread.symm⟩

theorem weight_entities
    (es : List Entity) :
    (es.map fun e => 8 + textSize e.texts).sum =
    8 * es.length + textSize (es.flatMap Entity.texts) := by
  rw [textSize_flatMap]
  induction es with
  | nil => rfl
  | cons e es ih =>
    rw [List.map_cons, List.sum_cons, ih, List.map_cons, List.sum_cons,
      List.length_cons]
    omega

/-- The entities that are read take eight bytes each, and their texts the bytes
of the texts, besides the six bytes of the header and the count.  Wherever a
count or a length is met that announces more than the bytes after it, the
snapshot is refused. -/
theorem read_backed (bs : List UInt8) :
    (∀ es, read bs = .ok es →
      8 * es.length + textSize (es.flatMap Entity.texts) + 6 ≤ bs.length) ∧
      ∀ n after, Meets.payload (bs.drop 5) n after → after.length < n →
        ∃ message, read bs = .error (.deserialization message) := by
  have hbacked := Format.list_backed Format.entity_backed fun e => by omega
  rcases read_cases bs with
    ⟨es, rest, hread, hlength, hpayload⟩ | ⟨message, hread⟩
  · have hpaid := hbacked.paid hpayload
    rw [weight_entities, List.length_drop] at hpaid
    refine ⟨fun es' hread' => ?_, fun n after hmeets hshort => ?_⟩
    · obtain rfl := Except.ok.inj (hread.symm.trans hread')
      omega
    · have hannounced := hbacked.announced hpayload hmeets
      omega
  · refine ⟨fun es hread' => ?_, fun _ _ _ _ => ⟨message, hread⟩⟩
    cases hread.symm.trans hread'

/-- A mixin that is listed twice, an attribute that is given twice, and a count
of two bytes where one would do.  In the second snapshot the only mixin of the
only entity announces as many bytes as a length can. -/
theorem read_backed_listedTwice :
    let bs := magicBytes ++ [1, 0x81, 0, 2, 0xC3, 0xA9, 0, 1, 0x6B, 2, 1, 0x6D,
      1, 0x6D, 2, 1, 0x78,
      1, 0x31, 1, 0x78, 0, 0, 1, 0]
    let e : Entity := {
      id := "é", kind := "k", mixins := .ofList ["m"],
        attributes := .ofList [("x", "")] }
    let hostile := magicBytes ++ [1, 1, 1, 0x61, 0, 1, 0x6B, 1] ++
      List.replicate 9 0xFF ++ [1, 0x6D]
    read bs = .ok [e] ∧
      8 * [e].length + textSize ([e].flatMap Entity.texts) + 6 ≤ bs.length ∧
      Meets.payload (hostile.drop 5) (2 ^ 64 - 1) [0x6D] ∧
      ∃ message, read hostile = .error (.deserialization message) := by
  intro bs e hostile
  have hread : read bs = .ok [e] := by decide +kernel
  have hlength :
      Binary.readNat64 (hostile.drop 12) = .ok (2 ^ 64 - 1, [0x6D]) := by
    decide +kernel
  have hmixin : Meets.names (hostile.drop 11) (2 ^ 64 - 1) [0x6D] :=
    .inr ⟨1, hostile.drop 12, by decide +kernel, .inl hlength⟩
  have hentity : Meets.entity (hostile.drop 6) (2 ^ 64 - 1) [0x6D] :=
    .inr ⟨"a", hostile.drop
      8, by decide +kernel, .inr ⟨none, hostile.drop 9, by decide +kernel,
      .inr ⟨"k", hostile.drop 11, by decide +kernel, .inl hmixin⟩⟩⟩
  have hmeets : Meets.payload (hostile.drop 5) (2 ^ 64 - 1) [0x6D] :=
    .inr ⟨1, hostile.drop 6, by decide +kernel, .inl hentity⟩
  exact ⟨hread, (read_backed bs).1 [e] hread, hmeets,
    (read_backed hostile).2 (2 ^ 64 - 1) [0x6D] hmeets (by decide)⟩

end Snapshot

end LinkGraph
