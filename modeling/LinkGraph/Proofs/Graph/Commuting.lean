import LinkGraph.Proofs.Graph.Amending
import LinkGraph.Proofs.Graph.Matching

/-!
# Writing different entities in either order

Saving an entity rewrites the sources it has had and gets, so that operations on
different entities write to common ones.  What each of them changes is
nevertheless its own: the entity under one id, apart from its back-references,
and where this id is among the back-references of others.  Operations on
different ids therefore lead to the same graph in either order.
-/

namespace LinkGraph

/-- What belongs to one id: the entity under it, apart from its back-references,
and the ids of the entities among whose back-references it is. -/
structure Share where
  entity : Option Entity
  HangsOn : EntityId → Prop

namespace Share

theorem ext_of_iff {p q : Share} (hentity : p.entity = q.entity)
    (hhangs : ∀ z, p.HangsOn z ↔ q.HangsOn z) : p = q := by
  cases p
  cases q
  exact Share.mk.injEq .. |>.mpr ⟨hentity, funext fun z => propext (hhangs z)⟩

/-- The share of an id once an entity has been saved under it.  Its old source
loses it, unless it was a link from itself. -/
def saved (e : Entity) (p : Share) : Share where
  entity := some e
  HangsOn z := e.source? = some z ∨
    (p.HangsOn z ∧ ¬(z ≠ e.id ∧ p.entity.bind Entity.source? = some z))

/-- The share of an id after a change of its entity that leaves its source
alone. -/
def amended (change : Entity → Entity) (p : Share) : Share where
  entity := p.entity.map change
  HangsOn := p.HangsOn

end Share

namespace Operation

/-- The operation writes the entity under one id: it saves it, updates it or
associates a mixin with no other. -/
def Targets (x : EntityId) : Operation → Prop
  | saveResource d | saveLink d _ => d.id = x
  | update id _ => id = x
  | saveMixin _ ids | updateMixin _ ids => ∀ id ∈ ids, id = x
  | delete _ | restore _ => False

/-- What an operation makes of the share of the id it targets. -/
def revise (x : EntityId) : Operation → Share → Share
  | saveResource d => .saved (d.entity none)
  | saveLink d ends => .saved (d.entity (some ends))
  | update _ attributes => .amended (·.updated attributes.decoded)
  | saveMixin mixin ids | updateMixin mixin ids =>
    .amended fun e => if x ∈ ids then e.associated mixin else e
  | delete _ | restore _ => id

end Operation

namespace VolatileStore

variable {s t a b : VolatileStore} {x y : EntityId}
  {change change' : Share → Share}

/-- What a store has of one id. -/
def share (s : VolatileStore) (x : EntityId) : Share where
  entity := s.entities[x]?.map Entity.bare
  HangsOn := s.Hangs x

/-- From one store to another the share of one id is changed in some way, and
nothing else. -/
structure Touches
    (x : EntityId) (change : Share → Share) (s t : VolatileStore) : Prop where
  own : t.share x = change (s.share x)
  others (y : EntityId) : y ≠ x → t.share y = s.share y

/-- Shares determine the store. -/
theorem Indexed.eq_of_share_eq (hs : s.Indexed) (ht : t.Indexed)
    (h : ∀ x, s.share x = t.share x) : s = t := by
  refine hs.eq_of_entities_eq ht (entities_eq_of_views ?_ ?_)
  · exact fun x => congrArg Share.entity (h x)
  · exact fun l x => iff_of_eq (congrFun (congrArg Share.HangsOn (h l)) x)

/-- Changes of the shares of different ids commute. -/
theorem Touches.commute
    {ab ba : VolatileStore} (hne : x ≠ y) (hsa : Touches x change s a)
    (hab : Touches y change' a ab) (hsb : Touches y change' s b)
    (hba : Touches x change b ba) (z : EntityId) :
    ab.share z = ba.share z := by
  -- Each share is changed by one of the two at most, from what it is in `s`.
  by_cases hx : z = x
  · subst hx
    rw [hab.others z hne, hsa.own, hba.own, hsb.others z hne]
  · by_cases hy : z = y
    · subst hy
      rw [hab.own, hsa.others z hx, hba.others z hx, hsb.own]
    · rw [hab.others z hy, hsa.others z hx, hba.others z hx, hsb.others z hy]

end VolatileStore

namespace Graph

open VolatileStore (Touches Indexed)

variable {g : Graph VolatileStore} {x : EntityId} {op : Operation}

theorem saved_touches
    (hs : g.store.Keyed) {d : Draft} {endpoints : Option Endpoints}
    (hsource : ∀ y, (d.entity endpoints).source? = some y →
      y ∈ g.store.entities) :
    Touches d.id (.saved (d.entity endpoints)) g.store
      (g.saved (d.entity endpoints)).store := by
  have hid : (d.entity endpoints).id = d.id := rfl
  have hhangs (l z : EntityId) :
      (g.saved (d.entity endpoints)).store.Hangs l z ↔ _ :=
    VolatileStore.hangs_saved hs rfl hsource
  constructor
  · refine Share.ext_of_iff
      ((bare_saved hs d endpoints d.id).trans (if_pos rfl)) fun z => ?_
    change (g.saved (d.entity endpoints)).store.Hangs d.id z ↔ _
    rw [hhangs, VolatileStore.sourceOf_eq_bind]
    simp only [hid, true_and]
    rfl
  · intro y hy
    refine Share.ext_of_iff ((bare_saved hs d endpoints y).trans (if_neg hy))
      fun z => ?_
    change (g.saved (d.entity endpoints)).store.Hangs y z ↔ _
    rw [hhangs]
    simp only [hid, hy, false_and, false_or, not_false_eq_true, and_true]
    rfl

/-- A change of entities that leaves their anchors alone touches at most the
entity it is about. -/
theorem amended_touches
    {s t : VolatileStore} {change : Entity → Entity}
    (hanchors : ∀ z : EntityId, t.entities[z]?.map Entity.anchors =
      s.entities[z]?.map Entity.anchors)
    (hown : t.entities[x]?.map Entity.bare =
      (s.entities[x]?.map Entity.bare).map change)
    (hothers : ∀ y ≠ x, t.entities[y]?.map Entity.bare =
      s.entities[y]?.map Entity.bare) :
    Touches x (.amended change) s t where
  own :=
    Share.ext_of_iff hown fun _ => VolatileStore.hangs_iff_of_anchors hanchors
  others y hy := Share.ext_of_iff (hothers y hy) fun _ =>
    VolatileStore.hangs_iff_of_anchors hanchors

theorem update_touches (hs : g.store.Keyed) (attributes : WireAttributes) :
    Touches x (.amended (·.updated attributes.decoded)) g.store
      ((Operation.update x attributes).perform g).2.store := by
  have hbare := bare_perform_update hs x attributes
  refine amended_touches ?_ ?_ ?_
  · intro z
    rw [Operation.perform, forget_run, update_run]
    cases he : g.store.entities[x]? with
    | none => rfl
    | some e =>
      have hid : (e.updated attributes.decoded).id = e.id := rfl
      exact VolatileStore.map_entities_place Entity.anchors hs he hid rfl z
  · rw [hbare, Option.map_map]
    refine Option.map_congr fun e he => ?_
    rw [Operation.amend, if_pos (hs x e he).symm]
    rfl
  · intro y hy
    rw [hbare]
    refine Option.map_congr fun e he => ?_
    have hid : x ≠ e.id := by rw [hs y e he]; exact Ne.symm hy
    rw [Operation.amend, if_neg hid]

theorem saveMixin_touches
    (hs : g.store.Keyed) (mixin : Category) {ids : List EntityId}
    (hids : ∀ id ∈ ids, id = x) :
    Touches x
      (.amended fun e => if x ∈ ids then e.associated mixin else e)
      g.store (saveMixin mixin ids g).2.store := by
  have hbare := bare_saveMixin hs mixin ids
  refine amended_touches ?_ ?_ ?_
  · obtain ⟨g', hrun, -, hsteps⟩ := saveMixin_retags mixin ids g hs
    rw [hrun]
    exact (VolatileStore.anchors_retagged hs hsteps).2
  · rw [hbare, Option.map_map]
    refine Option.map_congr fun e he => ?_
    rw [hs x e he, apply_ite Entity.bare, Entity.bare_associated]
    rfl
  · intro y hy
    rw [hbare]
    refine Option.map_congr fun e he => ?_
    have hid : e.id ∉ ids :=
      fun hmem => hy ((hs y e he).symm.trans (hids e.id hmem))
    rw [if_neg hid]

/-- A successful operation with one target changes the share of this id, and
nothing else. -/
theorem perform_touches (hs : g.store.Keyed) (hx : op.Targets x)
    (hok : (op.perform g).1 = .ok ()) :
    Touches x (op.revise x) g.store (op.perform g).2.store := by
  have hsaved (d : Draft) (endpoints : Option Endpoints)
      (hok : ((Operation.save d endpoints).perform g).1 = .ok ()) :
      Touches d.id (.saved (d.entity endpoints)) g.store
        ((Operation.save d endpoints).perform g).2.store := by
    rcases perform_save hs d endpoints with ⟨hrun, hsource⟩ | ⟨e, hrun⟩
    · rw [hrun]
      exact saved_touches hs hsource
    · simp [hrun] at hok
  cases op with
  | saveResource d =>
    obtain rfl : d.id = x := hx
    exact hsaved d none hok
  | saveLink d ends =>
    obtain rfl : d.id = x := hx
    exact hsaved d (some ends) hok
  | update id attributes =>
    obtain rfl : id = x := hx
    exact update_touches hs attributes
  | saveMixin mixin ids => exact saveMixin_touches hs mixin hx
  | updateMixin mixin ids => exact saveMixin_touches hs mixin hx
  | delete name => exact hx.elim
  | restore es => exact hx.elim

section Faithful

variable {σ : Type} [EntityStore σ] [FaithfulStore σ] {g : Graph σ}
  {v : Graph VolatileStore} {A B : Operation} {y : EntityId}
  {ops : List Operation}

/-- Every operation of a run is taken and succeeds. -/
def Succeeding {σ : Type} [EntityStore σ] : Graph σ → List Operation → Prop
  | _, [] => True
  | g, op :: ops => (op.perform g).1 = .ok () ∧ Succeeding (op.perform g).2 ops

theorem Mirrors.touches
    (h : Mirrors g v) (hop : g.Unfailing [op]) (hx : op.Targets x)
    (hok : (op.perform g).1 = .ok ()) :
    Touches x (op.revise x) v.store (op.perform v).2.store :=
  perform_touches h.indexed.keyed hx ((h.perform hop).1.symm.trans hok)

theorem Mirrors.commute
    (h : Mirrors g v) (hA : A.Targets x) (hB : B.Targets y) (hne : x ≠ y)
    (hab : g.Unfailing [A, B]) (hba : g.Unfailing [B, A])
    (hokAB : g.Succeeding [A, B]) (hokBA : g.Succeeding [B, A]) :
    Matches (g.after [A, B]) (g.after [B, A]) := by
  have hwholeAB : [A] ++ [B] <+: [A, B] := List.prefix_rfl
  have hwholeBA : [B] ++ [A] <+: [B, A] := List.prefix_rfl
  obtain ⟨hfirstA, hthenB⟩ := hab.concat hwholeAB
  obtain ⟨hfirstB, hthenA⟩ := hba.concat hwholeBA
  have hmirrorsA := (h.perform hfirstA).2
  have hmirrorsB := (h.perform hfirstB).2
  have hmirrorsAB := (hmirrorsA.perform hthenB).2
  have hmirrorsBA := (hmirrorsB.perform hthenA).2
  have hshares := Touches.commute hne (h.touches hfirstA hA hokAB.1)
    (hmirrorsA.touches hthenB hB hokAB.2.1) (h.touches hfirstB hB hokBA.1)
    (hmirrorsB.touches hthenA hA hokBA.2.1)
  have hstores := hmirrorsAB.indexed.eq_of_share_eq hmirrorsBA.indexed hshares
  exact matches_of_agrees hmirrorsAB.agrees (hstores ▸ hmirrorsBA.agrees)

/-- After any run on which no call on the store fails, two operations that each
save, update or tag one entity, not both the same, lead to the same graph in
either order, if they succeed in both. -/
theorem commute_after
    (hg : g.Fresh) (hA : A.Targets x) (hB : B.Targets y) (hne : x ≠ y)
    (hab : g.Unfailing (ops ++ [A, B])) (hba : g.Unfailing (ops ++ [B, A]))
    (hokAB : (g.after ops).Succeeding [A, B])
    (hokBA : (g.after ops).Succeeding [B, A]) :
    Matches (g.after (ops ++ [A, B])) (g.after (ops ++ [B, A])) := by
  obtain ⟨hops, hab⟩ := unfailing_append.mp hab
  have hba := (unfailing_append.mp hba).2
  have h := (hg.mirrors hops.start).after hops
  rw [after_append, after_append]
  exact h.commute hA hB hne hab hba hokAB hokBA

end Faithful

/-- Two links from the same resource. -/
def siblingLinks : List Operation :=
  [.saveResource { id := "a", kind := "k" },
    .saveLink { id := "l", kind := "k" } ⟨"a", "a"⟩,
    .saveLink { id := "m", kind := "k" } ⟨"a", "a"⟩]

/-- The links are saved again, each as a link from the other. -/
theorem commute_after_siblingLinks :
    Matches
      (Graph.after { store := ({} : VolatileStore) }
        (siblingLinks ++ [.saveLink { id := "l", kind := "k" } ⟨"m", "a"⟩,
          .saveLink { id := "m", kind := "k" } ⟨"l", "a"⟩]))
      (Graph.after { store := ({} : VolatileStore) }
        (siblingLinks ++ [.saveLink { id := "m", kind := "k" } ⟨"l", "a"⟩,
          .saveLink { id := "l", kind := "k" } ⟨"m", "a"⟩])) := by
  have hfresh : Fresh { store := ({} : VolatileStore) } :=
    ⟨⟨rfl, VolatileStore.keyed_empty⟩, rfl⟩
  have hne : ("l" : EntityId) ≠ "m" := by decide
  have hops (ops : List Operation) :
      Unfailing { store := ({} : VolatileStore) } ops :=
    unfailing_volatile VolatileStore.keyed_empty ops
  refine commute_after hfresh rfl rfl hne (hops _) (hops _) ⟨?_, ?_,
    trivial⟩ ⟨?_, ?_, trivial⟩
  · decide +kernel
  · decide +kernel
  · decide +kernel
  · decide +kernel

end Graph

end LinkGraph
