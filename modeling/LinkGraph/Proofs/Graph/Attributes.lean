import LinkGraph.Graph.Lookup
import LinkGraph.Proofs.Graph.Lifetime
import LinkGraph.Proofs.Wire.Decoding

/-!
# The latest texts

What is stored for an attribute is the text of the latest value that has been
supplied for it since the entity was last saved, values without a text not
counting.
-/

namespace LinkGraph

section Wire

variable {k : String}

/-- The text of the latest value with one that is supplied for a key. -/
def latestText (k : String) (supplied : List WireAttributes) : Option String :=
  supplied.reverse.findSome? fun wire => wire[k]?.bind WireValue.toText?

theorem latestText_singleton (wire : WireAttributes) :
    latestText k [wire] = wire[k]?.bind WireValue.toText? := by
  simp [latestText]

theorem latestText_concat
    (supplied : List WireAttributes) (wire : WireAttributes) :
    latestText k (supplied ++ [wire]) =
      (wire[k]?.bind WireValue.toText?).or (latestText k supplied) := by
  rw [latestText, List.reverse_concat, List.findSome?_cons]
  cases wire[k]?.bind WireValue.toText? with
  | none => rfl
  | some text => rfl

end Wire

namespace Entity

theorem attributes_associated (mixin : Category) (e : Entity) :
    (e.associated mixin).attributes = e.attributes := by
  unfold associated
  rw [apply_ite Entity.attributes]
  exact ite_self e.attributes

theorem attributes_dissociated (mixin : Category) (e : Entity) :
    (e.dissociated mixin).attributes = e.attributes := by
  unfold dissociated
  rw [apply_ite Entity.attributes]
  exact ite_self e.attributes

theorem kind_notMem_draft (d : Draft) (endpoints : Option Endpoints) :
    d.kind ∉ (d.entity endpoints).mixins := by
  simp [Draft.entity]

end Entity

/-- The attributes that an operation supplies for an entity without saving
it. -/
def Operation.supplied (x : EntityId) : Operation → Option WireAttributes
  | .update id attributes => if id = x then some attributes else none
  | _ => none

/-- What loads for an entity: its texts as text values, and its mixins in order,
each of them once and none of them the kind. -/
structure LoadedEntity.Shows (content : LoadedEntity) (e : Entity) : Prop where
  id : content.id = e.id
  kind : content.kind = e.kind
  attributes (k : String) : content.attributes[k]? = e.attributes[k]?.map .text
  mixin (m : Category) : m ∈ content.mixins ↔ m ∈ e.mixins
  sorted : content.mixins.Pairwise (· < ·)
  kind_notMem : e.kind ∉ content.mixins

theorem Entity.content_shows
    {e : Entity} (hkind : e.kind ∉ e.mixins) :
    e.content.Shows e where
  id := rfl
  kind := rfl
  attributes := getElem?_encode e.attributes
  mixin _ := Std.ExtTreeSet.mem_toList
  sorted := sorted_names e.mixins
  kind_notMem := hkind ∘ Std.ExtTreeSet.mem_toList.mp

namespace Graph

variable {σ : Type} [EntityStore σ] {g : Graph σ} {op : Operation}
  {x : EntityId} {e e' : Entity} {supplied : List WireAttributes}

/-- The entity keeps the latest texts of what has been supplied, and its kind is
not a mixin. -/
structure Keeps (supplied : List WireAttributes) (e : Entity) : Prop where
  attributes (k : String) : e.attributes[k]? = latestText k supplied
  kind_notMem : e.kind ∉ e.mixins

theorem keeps_of_saved {d : Draft} {endpoints : Option Endpoints}
    (hbare : e.bare = d.entity endpoints) : Keeps [d.attributes] e := by
  constructor
  · intro k
    have hattributes : e.bare.attributes = d.attributes.decoded :=
      congrArg Entity.attributes hbare
    change e.bare.attributes[k]? = _
    rw [hattributes, getElem?_decoded, latestText_singleton]
  · change e.bare.kind ∉ e.bare.mixins
    rw [hbare]
    exact Entity.kind_notMem_draft d endpoints

/-- Only an update of the entity changes what is stored for a key, and only to a
text it supplies. -/
theorem attributes_amend
    (g : Graph σ) (hid : e.id = x) (op : Operation) (k : String) :
    (op.amend g e).attributes[k]? = ((op.supplied x).bind fun wire =>
      wire[k]?.bind WireValue.toText?).or e.attributes[k]? := by
  subst hid
  cases op with
  | update id attributes =>
    by_cases h : id = e.id
    · have hunion : (e.attributes ∪ attributes.decoded)[k]? =
          attributes.decoded[k]?.or e.attributes[k]? :=
        Std.ExtTreeMap.getElem?_union
      rw [getElem?_decoded] at hunion
      simp only [Operation.amend, Operation.supplied, h, if_true,
        Option.bind_some]
      exact hunion
    · simp [Operation.amend, Operation.supplied, h]
  | saveMixin mixin ids | updateMixin mixin ids =>
    rw [Operation.amend, apply_ite Entity.attributes,
      Entity.attributes_associated, ite_self]
    rfl
  | delete name =>
    rw [Operation.amend, apply_ite Entity.attributes,
      Entity.attributes_dissociated, ite_self]
    rfl
  | _ => rfl

theorem kind_notMem_amend
    (g : Graph σ) (h : e.kind ∉ e.mixins) (op : Operation) :
    (op.amend g e).kind ∉ (op.amend g e).mixins := by
  refine op.amend_induction (P := fun p => p.kind ∉ p.mixins) g h
    (fun _ => h) ?_ ?_
  · intro mixin hkind _
    change e.kind ∉ e.mixins.insert mixin
    simp [h, Ne.symm hkind]
  · intro mixin _
    change e.kind ∉ e.mixins.erase mixin
    simp [h]

theorem Keeps.amended (h : Keeps supplied e) (hid : e.id = x)
    (hbare : e'.bare = (op.amend g e).bare) :
    Keeps (supplied ++ [op].filterMap (·.supplied x)) e' := by
  constructor
  · intro k
    have hattributes : e'.bare.attributes = (op.amend g e).bare.attributes :=
      congrArg Entity.attributes hbare
    change e'.bare.attributes[k]? = _
    rw [hattributes]
    change (op.amend g e).attributes[k]? = _
    rw [attributes_amend g hid, h.attributes k]
    cases hsupplied : op.supplied x with
    | none => simp [hsupplied]
    | some wire => simp [hsupplied, latestText_concat]
  · change e'.bare.kind ∉ e'.bare.mixins
    rw [hbare]
    exact kind_notMem_amend g h.kind_notMem op

theorem load_of_stores (he : g.Stores x e) : g.load x = .ok e.content := by
  have hget : g.get? x = .ok (some e) := he
  rw [load, hget]
  rfl

theorem update_run_vacant (hx : g.Vacant x) (wire : WireAttributes) :
    update x wire g = (.ok wire, g) := by
  have hfetch : fetch x g = (.ok none, g) := congrArg (·, g) hx
  rw [update, bind_run_ok hfetch]
  rfl

variable [FaithfulStore σ] {v : Graph VolatileStore} {ops : List Operation}

/-- An update of a stored entity answers with what it has accepted, unless the
store fails. -/
theorem Mirrors.update_answer (h : Mirrors g v) {wire : WireAttributes}
    (hop : g.Unfailing [.update x wire]) (he : g.Stores x e) :
    (update x wire g).1 = .ok wire.decoded.encode := by
  have hanswer : (update x wire v).1 = .ok wire.decoded.encode := by
    rw [update_run, (stores_iff h.agrees).mp he]
  rcases update_simulates x wire g v h.related with
    ⟨hsame, -⟩ | ⟨error, hfails, hrefusal⟩
  · exact hsame.trans hanswer
  · have hperform : ((Operation.update x wire).perform g).1 = .error error := by
      rw [Operation.perform, forget_run, hfails]
      rfl
    have hrefused := hop.2.1 error hperform
    simp [hrefusal] at hrefused

/-- In a run on which no call on the store fails, an entity has for each
attribute the latest text supplied since it was saved last.  It loads with these
texts, an update answers with the part of its attributes that has texts, and an
update of what is not stored does nothing. -/
theorem attributes_after (hg : g.Fresh) (hlocal : ∀ op ∈ ops, op.isLocal)
    (hops : g.Unfailing ops) :
    (∀ x e, (g.after ops).Stores x e →
      (∃ before d endpoints rest, LastSave g x ops before d endpoints rest ∧
        ∀ k : String, e.attributes[k]? =
          latestText k (d.attributes :: rest.filterMap (·.supplied x))) ∧
      (∃ content, (g.after ops).load x = .ok content ∧ content.Shows e) ∧
      ∀ wire, (g.after ops).Unfailing [.update x wire] →
        ∃ accepted, (update x wire (g.after ops)).1 = .ok accepted ∧
          ∀ k : String, accepted[k]? =
            (wire[k]?.bind WireValue.toText?).map WireValue.text) ∧
    ∀ x wire, (g.after ops).Vacant x →
      update x wire (g.after ops) = (.ok wire, g.after ops) := by
  have h := (hg.mirrors hops.start).after hops
  refine ⟨fun x e he => ?_, fun x wire hx => update_run_vacant hx wire⟩
  obtain ⟨before, d, endpoints, rest, hlast, -⟩ :=
    exists_lastSave hg hlocal hops he
  have hkeeps : Keeps (d.attributes :: rest.filterMap (·.supplied x)) e := by
    rw [hlast.split] at he
    refine hlast.induction hg hlocal hops (P := fun part p =>
      Keeps (d.attributes :: part.filterMap (·.supplied x)) p) ?_ ?_
        List.prefix_rfl he
    · intro p hbare
      exact keeps_of_saved hbare
    · intro part op p p' _ hid hbare hkeeps
      rw [List.filterMap_append, ← List.cons_append]
      exact hkeeps.amended hid hbare
  have hshows := Entity.content_shows hkeeps.kind_notMem
  refine ⟨⟨before, d, endpoints, rest, hlast, hkeeps.attributes⟩,
    ⟨e.content, load_of_stores he, hshows⟩, ?_⟩
  intro wire hop
  refine ⟨wire.decoded.encode, h.update_answer hop he, fun k => ?_⟩
  rw [getElem?_encode, getElem?_decoded]

/-- A resource that is saved again, rewritten for a link and a mixin, and
updated with values of which some have no text. -/
def partlyUpdated : List Operation :=
  [.saveResource
      { id := "a", kind := "k",
        attributes := .ofList [("y", WireValue.text "old")] },
    .saveResource
      { id := "a", kind := "k",
        attributes := .ofList [("x", WireValue.text "1")] },
    .update "a" (.ofList [("x", WireValue.null),
      ("z", WireValue.boolean false)]),
    .saveLink { id := "l", kind := "k" } ⟨"a", "a"⟩, .saveMixin "m" ["a"],
    .update "a" (.ofList [("x", WireValue.unsupported "o"),
      ("z", WireValue.boolean true)])]

theorem attributes_after_partlyUpdated : ∃ before d endpoints rest,
    LastSave { store := ({} : VolatileStore) } "a" partlyUpdated before d
        endpoints rest ∧
      latestText "x" (d.attributes :: rest.filterMap (·.supplied "a")) =
        some "1" ∧
      latestText "y" (d.attributes :: rest.filterMap (·.supplied "a")) = none ∧
      latestText "z" (d.attributes :: rest.filterMap (·.supplied "a")) =
        some "true" := by
  have hfresh : Fresh { store := ({} : VolatileStore) } :=
    ⟨⟨rfl, VolatileStore.keyed_empty⟩, rfl⟩
  have hlocal : ∀ op ∈ partlyUpdated, op.isLocal := by decide
  have hops := unfailing_volatile (g := { store := {} })
    VolatileStore.keyed_empty partlyUpdated
  have hentity : (Graph.after { store := ({} : VolatileStore) }
      partlyUpdated).store.entities["a"]?.map Entity.attributes =
        some (.ofList [("x", "1"), ("z", "true")]) := by
    decide +kernel
  obtain ⟨e, he, hattributes⟩ := Option.map_eq_some_iff.mp hentity
  obtain ⟨⟨before, d, endpoints, rest, hlast, hlatest⟩, -⟩ :=
    (attributes_after hfresh hlocal hops).1 "a" e (congrArg Except.ok he)
  rw [hattributes] at hlatest
  refine ⟨before, d, endpoints, rest, hlast, ?_, ?_, ?_⟩
  · rw [← hlatest]
    decide
  · rw [← hlatest]
    decide
  · rw [← hlatest]
    decide

end Graph

end LinkGraph
