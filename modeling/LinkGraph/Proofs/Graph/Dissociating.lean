import LinkGraph.Proofs.Graph.Attempts
import LinkGraph.Proofs.Graph.Listing
import LinkGraph.Proofs.Graph.Matching
import LinkGraph.Proofs.Graph.Serials

/-!
# Dissociating a mixin

Deleting a name under which no entity is stored takes it from the mixins of all
entities that carry it.  The bucket of the name is shared by these and by the
entities of that kind, which stay in it: an entity may even be both, since it is
restored as it was given.
-/

namespace LinkGraph

namespace Entity

variable {e : Entity} {mixin c : Category}

theorem mem_categories_dissociated :
    c ∈ (e.dissociated mixin).categories ↔
      c ∈ e.categories ∧ (c ≠ mixin ∨ c = e.kind) := by
  unfold dissociated
  split
  · exact VolatileStore.mem_categories_losing
  · next hlacks =>
    rw [iff_self_and]
    intro hc
    rcases mem_categories.mp hc with rfl | hmixin
    · exact Or.inr rfl
    · refine Or.inl ?_
      rintro rfl
      exact hlacks hmixin

theorem notMem_dissociated
    (mixin : Category) (e : Entity) :
    mixin ∉ (e.dissociated mixin).mixins := by
  unfold dissociated
  split
  · simp [losing, bump]
  · next hlacks => exact hlacks

end Entity

namespace VolatileStore

variable {s t : VolatileStore} {mixin c : Category} {x : EntityId}

/-- A mixin has been taken from all entities, and the index is exact before and
after. -/
structure Dissociated (mixin : Category) (s t : VolatileStore) : Prop where
  before : s.Indexed
  after : t.Indexed
  entities (x : EntityId) :
    t.entities[x]? = s.entities[x]?.map (.dissociated mixin)

namespace Dissociated

theorem bucket_of_ne
    (h : Dissociated mixin s t) (hc : c ≠ mixin) :
    t.bucket c = s.bucket c := by
  apply Std.ExtTreeSet.ext_mem
  intro x
  simp only [h.after.member, h.before.member, Carries, h.entities,
    Option.map_eq_some_iff, exists_exists_and_eq_and,
    Entity.mem_categories_dissociated]
  simp [hc]

theorem mem_bucket_self (h : Dissociated mixin s t) :
    x ∈ t.bucket mixin ↔ ∃ e, t.entities[x]? = some e ∧ e.kind = mixin := by
  rw [h.after.member]
  refine exists_congr fun p => and_congr_right fun hp => ?_
  rw [h.entities] at hp
  obtain ⟨e, -, rfl⟩ := Option.map_eq_some_iff.mp hp
  rw [Entity.mem_categories, eq_comm]
  simp only [Entity.notMem_dissociated, or_false]

/-- Taking a mixin from entities of which none carries it changes nothing. -/
theorem eq_self
    (h : Dissociated mixin s t)
    (hlack : ∀ (x : EntityId) (e : Entity), s.entities[x]? = some e →
      mixin ∉ e.mixins) :
    t = s := by
  refine h.after.eq_of_entities_eq h.before
    (Std.ExtTreeMap.ext_getElem? fun x => ?_)
  rw [h.entities]
  exact Graph.map_eq_self fun e he => if_neg (hlack x e he)

end Dissociated

end VolatileStore

namespace Graph

open FaithfulStore (Holds)
open SettlingStore (Steady)
open VolatileStore (Indexed Dissociated)

theorem delete_dissociated
    {v : Graph VolatileStore} {mixin : Category} (hv : v.store.Indexed)
    (hname : v.store.entities[mixin]? = none) :
    Dissociated mixin v.store ((Operation.delete mixin).perform v).2.store where
  before := hv
  after := hv.perform _
  entities := entities_delete_unstored hv hname

/-- A name under which no entity is stored is always deleted, be it a mixin or
not. -/
theorem delete_ok
    {v : Graph VolatileStore} (hv : v.store.Keyed) (name : String) :
    ((Operation.delete name).perform v).1 = .ok () := by
  obtain ⟨g', hrun, -⟩ := delete_run_move hv name
  change (delete name v).1 = _
  rw [hrun]

/-- Without anybody who carries the mixin, nobody is told of its end. -/
theorem delete_journal
    {v : Graph VolatileStore} {mixin : Category} (hv : v.store.Indexed)
    (hname : v.store.entities[mixin]? = none)
    (hlack : ∀ (x : EntityId) (e : Entity), v.store.entities[x]? = some e →
      mixin ∉ e.mixins)
    (hjournal : v.journal = []) :
    ((Operation.delete mixin).perform v).2.journal = [] := by
  obtain ⟨es, hcalls, -, hmem⟩ := delete_unstored_calls hv hname
  obtain rfl : es = [] := by
    refine List.eq_nil_iff_forall_not_mem.mpr fun e he => ?_
    obtain ⟨hstored, hmixin⟩ := (hmem e).mp he
    exact hlack e.id e hstored hmixin
  have htranscript := hcalls.transcript
  rw [transcript, transcript, hjournal] at htranscript
  exact List.map_eq_nil_iff.mp htranscript

section Faithful

variable {σ : Type} [EntityStore σ]

/-- From `g` to `g'` a mixin has been taken from exactly the entities that
carried it, with their serials counted on, and nothing else has become of any
entity.  The bucket of its name has been left to the entities of that kind, and
all other buckets are as before. -/
structure Dissociates (mixin : Category) (g g' : Graph σ) : Prop where
  carried {x : EntityId} {e : Entity} :
    g.Stores x e → mixin ∈ e.mixins → ∃ serial,
    g'.Stores x { e with mixins := e.mixins.erase mixin, serial } ∧
      serial.toNat = min (e.serial.toNat + 1) Entity.maxSerial
  lacked {x : EntityId} {e : Entity} :
    g.Stores x e → mixin ∉ e.mixins → g'.Stores x e
  vacant {x : EntityId} : g.Vacant x → g'.Vacant x
  own : ∃ ids, EntityStore.members g'.store mixin = .ok ids ∧
    EntityStore.hasCategory g'.store mixin = .ok (ids ≠ []) ∧
    ∀ x, x ∈ ids ↔ ∃ e, g'.Stores x e ∧ e.kind = mixin
  others {c : Category} : c ≠ mixin →
    EntityStore.members g'.store c = EntityStore.members g.store c ∧
      EntityStore.hasCategory g'.store c = EntityStore.hasCategory g.store c

variable [FaithfulStore σ] {g g' : Graph σ} {mixin : Category}

omit [FaithfulStore σ] in
theorem Dissociates.of_dissociated
    {s t : VolatileStore} (h : Dissociated mixin s t) (hg : Agrees g.store s)
    (hg' : Agrees g'.store t) :
    Dissociates mixin g g' where
  carried {x e} he hmixin := by
    have he := (stores_iff hg).mp he
    refine ⟨e.bump.serial, ?_, e.toNat_serial_bump⟩
    rw [stores_iff hg', h.entities, he, Option.map_some, Entity.dissociated,
      if_pos hmixin]
    rfl
  lacked {x e} he hmixin := by
    have he := (stores_iff hg).mp he
    rw [stores_iff hg', h.entities, he, Option.map_some, Entity.dissociated,
      if_neg hmixin]
  vacant {x} hx := by
    rw [vacant_iff_of_agrees hg] at hx
    rw [vacant_iff_of_agrees hg', h.entities, hx, Option.map_none]
  own := by
    refine ⟨_, hg'.members mixin, ?_, fun x => ?_⟩
    · rw [hg'.hasCategory, Except.ok.injEq, Bool.eq_iff_iff, decide_eq_true_iff]
      exact h.after.pruned.mem_index
    · simp only [Std.ExtTreeSet.mem_toList, h.mem_bucket_self, stores_iff hg']
  others {c} hc := by
    have hbucket := h.bucket_of_ne hc
    constructor
    · rw [hg'.members, hg.members, hbucket]
    · rw [hg'.hasCategory, hg.hasCategory, Except.ok.injEq, Bool.eq_iff_iff]
      refine h.after.pruned.mem_index.trans
        (Iff.trans ?_ h.before.pruned.mem_index.symm)
      rw [hbucket]

/-- Nothing that a graph shows has changed, and no handler has been told of
anything. -/
structure Unmoved (g g' : Graph σ) : Prop where
  shown : Matches g' g
  journal : g'.journal = g.journal

/-- What deleting a name does that no entity has, in terms of the content. -/
theorem delete_upon
    {m : VolatileStore} (hm : Holds g.store m) (hindexed : m.Indexed)
    (hvacant : g.Vacant mixin) (hop : g.Unfailing [.delete mixin]) :
    ∃ g' t, (Operation.delete mixin).perform g = (.ok (), g') ∧
      Holds g'.store t ∧
      Agrees g'.store t ∧ Dissociated mixin m t ∧
      ((∀ (x : EntityId) (e : Entity), m.entities[x]? = some e → mixin ∉ e.mixins) →
        g'.journal = g.journal) := by
  have hname : m.entities[mixin]? = none :=
    (vacant_iff_of_agrees (hop.start.agrees hm) mixin).mp hvacant
  obtain ⟨hanswer, hmimics⟩ := perform_upon hm hop.2.1
  rw [delete_ok (v := g.upon m) hindexed.keyed] at hanswer
  refine ⟨_, _, Prod.ext hanswer rfl,
    hmimics.store, hop.2.2.agrees hmimics.store,
    delete_dissociated (v := g.upon m) hindexed hname, fun hlack => ?_⟩
  obtain ⟨entries, hjournal, hsame⟩ := hmimics.journal
  rw [delete_journal (v := g.upon m) hindexed hname hlack rfl] at hsame
  cases hsame
  rw [hjournal, List.append_nil]

variable [SettlingStore σ]

/-- After any attempts at operations, deleting a name that no entity has
dissociates the mixin of that name, and does nothing if there is none.  Doing so
again does nothing either. -/
theorem dissociates_attempted
    (hg : g.Fresh) (hsteady : Steady g.store) (attempts : List (Attempt σ))
    (hvacant : (g.attempted attempts).Vacant mixin)
    (hop : (g.attempted attempts).Unfailing [.delete mixin]) :
    ∃ g',
      (Operation.delete mixin).perform (g.attempted attempts) = (.ok (), g') ∧
      Dissociates mixin (g.attempted attempts) g' ∧
      ((∀ x e, (g.attempted attempts).Stores x e → mixin ∉ e.mixins) →
        Unmoved (g.attempted attempts) g') ∧
      (g'.Unfailing [.delete mixin] →
        ∃ g'', (Operation.delete mixin).perform g' = (.ok (), g'') ∧
          Unmoved g' g'') := by
  have hsettled : Settled Indexed g.store :=
    ⟨hsteady, {}, hg.store, VolatileStore.indexed_empty⟩
  obtain ⟨-, m, hm, hindexed⟩ :=
    hsettled.attempted (fun op _ h => h.perform op) attempts
  generalize g.attempted attempts = before at *
  have hagrees : Agrees before.store m := hop.start.agrees hm
  obtain ⟨g', t, hrun, ht, hagrees', hdissociated, hsilent⟩ :=
    delete_upon hm hindexed hvacant hop
  have hdissociates : Dissociates mixin before g' :=
    .of_dissociated hdissociated hagrees hagrees'
  refine ⟨g', hrun, hdissociates, fun hlack => ?_, fun hagain => ?_⟩
  · have hlack : ∀ (x : EntityId) (e : Entity), m.entities[x]? = some e →
        mixin ∉ e.mixins :=
      fun x e he => hlack x e ((stores_iff hagrees).mpr he)
    obtain rfl := hdissociated.eq_self hlack
    exact ⟨matches_of_agrees hagrees' hagrees, hsilent hlack⟩
  · have hlack : ∀ (x : EntityId) (e : Entity), t.entities[x]? = some e →
        mixin ∉ e.mixins := by
      intro x p hp
      rw [hdissociated.entities] at hp
      obtain ⟨e, -, rfl⟩ := Option.map_eq_some_iff.mp hp
      exact e.notMem_dissociated mixin
    obtain ⟨g'', u, hrun', -, hagrees'', hdissociated', hsilent'⟩ :=
      delete_upon ht hdissociated.after (hdissociates.vacant hvacant) hagain
    obtain rfl := hdissociated'.eq_self hlack
    exact ⟨g'', hrun', matches_of_agrees hagrees'' hagrees', hsilent' hlack⟩

/-- An entity that lists its own kind among its mixins, and one that carries the
same mixin and has been counted on as often as there are serials. -/
def listingOwnKind : List (Attempt VolatileStore) :=
  [{ op := .restore [{ id := "a", kind := "m", mixins := .ofList ["m", "n"] },
      { id := "b", kind := "k", mixins := .ofList ["m"],
        serial := 0xFFFFFFFFFFFFFFFF }] }]

/-- Both lose the mixin, the serial of the second stays, and only the first is
still in the bucket. -/
theorem dissociates_attempted_listingOwnKind :
    ∃ g' e ids,
      (Operation.delete "m").perform
        (attempted { store := {} } listingOwnKind) = (.ok (), g') ∧
      g'.Stores "b" e ∧ "m" ∉ e.mixins ∧ e.serial.toNat = Entity.maxSerial ∧
      EntityStore.members g'.store "m" = .ok ids ∧ "a" ∈ ids ∧ "b" ∉ ids := by
  have hfresh : Fresh { store := ({} : VolatileStore) } :=
    ⟨⟨rfl, VolatileStore.keyed_empty⟩, rfl⟩
  have hempty : Settled Indexed ({} : VolatileStore) :=
    ⟨trivial, {}, hfresh.store, VolatileStore.indexed_empty⟩
  have hkeyed : (attempted { store := ({} : VolatileStore) }
      listingOwnKind).store.Keyed := by
    obtain ⟨-, m, ⟨hstore, hm⟩, -⟩ :=
      Settled.attempted (g := { store := ({} : VolatileStore) }) hempty
        (fun op _ h => h.perform op) listingOwnKind
    rw [hstore]
    exact hm
  have hvacant :
      (attempted { store := ({} : VolatileStore) } listingOwnKind).Vacant
        "m" := by
    decide +kernel
  have ha : (attempted { store := ({} : VolatileStore) } listingOwnKind).Stores
      "a" { id := "a", kind := "m", mixins := .ofList ["m", "n"] } := by
    refine congrArg Except.ok ?_
    decide +kernel
  have hb : (attempted { store := ({} : VolatileStore) } listingOwnKind).Stores
      "b" { id := "b", kind := "k", mixins := .ofList ["m"],
            serial := 0xFFFFFFFFFFFFFFFF } := by
    refine congrArg Except.ok ?_
    decide +kernel
  obtain ⟨g', hrun, hdissociates, -, -⟩ :=
    dissociates_attempted hfresh trivial listingOwnKind hvacant
      (unfailing_volatile hkeyed _)
  obtain ⟨serialA, ha', -⟩ := hdissociates.carried ha (by decide +kernel)
  obtain ⟨serial, hb', hserial⟩ := hdissociates.carried hb (by decide +kernel)
  obtain ⟨ids, hids, -, hmem⟩ := hdissociates.own
  refine ⟨g', _, ids, hrun,
    hb', by simp, hserial, hids, (hmem "a").mpr ⟨_, ha', rfl⟩, fun hin => ?_⟩
  obtain ⟨e, he, hkind⟩ := (hmem "b").mp hin
  obtain rfl := Option.some.inj (Except.ok.inj (he.symm.trans hb'))
  have hne : ("k" : Category) ≠ "m" := by decide
  exact hne hkind

end Faithful

end Graph

end LinkGraph
