import LinkGraph.Proofs.Graph.BackReferences

/-!
# What a deletion removes

A cascade follows back-references and never looks at the sources of links.  As
long as the entities know the links that start at them, it removes an entity
with exactly the links that depend on it, and leaves everything else alone.
-/

namespace LinkGraph

namespace VolatileStore

variable {s t : VolatileStore} {V : NameSet} {x y : EntityId}

/-- `y` is `x`, or a stored link that starts at something depending on `x`. -/
def Depends (s : VolatileStore) (x y : EntityId) : Prop :=
  Relation.ReflTransGen (fun y l => s.sourceOf l = some y) x y

/-- A back-reference that an entity has to itself leads the walk nowhere new. -/
theorem depends_of_reaches
    (hsound : ∀ {l x}, s.Hangs l x → l = x ∨ s.sourceOf l = some x)
    (hreach : s.Reaches x y) :
    s.Depends x y := by
  induction hreach with
  | refl => exact .refl
  | @step y l e _ he hl ih =>
    rcases hsound ⟨e, he, hl⟩ with rfl | hsource
    · exact ih
    · exact ih.tail hsource

theorem reaches_iff_depends
    (h : s.Anchored) :
    s.Reaches x y ↔ s.Depends x y := by
  constructor
  · exact depends_of_reaches h.sound
  · intro hdepends
    induction hdepends with
    | refl => exact .refl
    | tail _ hsource ih =>
      obtain ⟨e, he, hl⟩ := h.complete hsource
      exact ih.step he hl

/-- Of what depends on `x`, only `x` itself can start at something that does
not. -/
theorem eq_of_starts_outside
    (hV : ∀ y, y ∈ V ↔ s.Depends x y) (hy : y ∉ V) {l : EntityId} (hl : l ∈ V)
    (hsource : s.sourceOf l = some y) :
    l = x := by
  rcases Relation.ReflTransGen.cases_tail ((hV l).mp hl) with hlx | ⟨z, hz, hlz⟩
  · exact hlx
  · obtain rfl : y = z := Option.some.inj (hsource.symm.trans hlz)
    exact absurd ((hV y).mpr hz) hy

theorem bereft_of_not_depends (hV : ∀ y, y ∈ V ↔ s.Depends x y) (hy : y ∉ V)
    (hsource : s.sourceOf x ≠ some y) : s.bereft V y = id := by
  funext e
  apply bereft_eq_self
  rintro l - ⟨hl, hly⟩
  obtain rfl := eq_of_starts_outside hV hy hl hly
  exact hsource hly

theorem bereft_of_source (hV : ∀ y, y ∈ V ↔ s.Depends x y) (hy : y ∉ V)
    (hsource : s.sourceOf x = some y) : s.bereft V y = (·.unlinked x) := by
  funext e
  apply bereft_eq_relinked
  intro l
  change l ∈ (e.unlinked x).linkedFrom ↔ _
  rw [Entity.mem_unlinked]
  refine and_congr_right fun _ => not_congr ⟨?_, ?_⟩
  · rintro rfl
    exact ⟨(hV l).mpr .refl, hsource⟩
  · rintro ⟨hl, hly⟩
    exact eq_of_starts_outside hV hy hl hly

end VolatileStore

namespace Graph

open FaithfulStore (Holds)

variable {σ : Type} [EntityStore σ] {s : σ} {registry : HookRegistry}
  {validates : Bool} {ops : List Operation} {x y : EntityId} {e : Entity}

/-- `y` is in the least set that contains `x` and every stored link that starts
in the set. -/
def DependsOn (g : Graph σ) (x y : EntityId) : Prop :=
  Relation.ReflTransGen (fun y l => g.StartsAt l y) x y

/-- From `g` to `g'` exactly the ids depending on `x` are removed.  The source
of `x`, if it stays, loses `x` from its back-references and nothing else;
whatever else stays is as it was. -/
structure Removes (x : EntityId) (g g' : Graph σ) : Prop where
  removed {y : EntityId} :
    g.DependsOn x y → EntityStore.get g'.store y = .ok none
  detached {y : EntityId} {e : Entity} :
    ¬g.DependsOn x y → g.StartsAt x y → g.Stores y e →
    x ∈ e.linkedFrom ∧ g'.Stores y { e with linkedFrom := e.linkedFrom.erase x }
  kept {y : EntityId} : ¬g.DependsOn x y → ¬g.StartsAt x y →
    EntityStore.get g'.store y = EntityStore.get g.store y

theorem dependsOn_iff {g : Graph σ} {m : VolatileStore} (h : Agrees g.store m) :
    g.DependsOn x y ↔ m.Depends x y := by
  have hstep :
      (fun y l => g.StartsAt l y) = fun y l => m.sourceOf l = some y := by
    funext y l
    exact propext (startsAt_iff h)
  rw [DependsOn, hstep, VolatileStore.Depends]

/-- A purge of what depends on `x` is the deletion of `x`, if `x` hangs on its
source. -/
theorem removes_of_purged
    {g g' : Graph σ} {m m' : VolatileStore} {V : NameSet}
    (hg : Agrees g.store m) (hg' : Agrees g'.store m')
    (hpurged : VolatileStore.Purged V m m') (hV : ∀ y, y ∈ V ↔ m.Depends x y)
    (hhangs : ∀ y, m.sourceOf x = some y → y ∈ m.entities → m.Hangs x y) :
    Removes x g g' := by
  have hget' (y : EntityId) : EntityStore.get g'.store y =
      .ok (if y ∈ V then none else m.entities[y]?.map (m.bereft V y)) := by
    rw [hg'.get, hpurged y]
  constructor
  · intro y hy
    rw [hget', if_pos ((hV y).mpr ((dependsOn_iff hg).mp hy))]
  · intro y e hy hstart he
    have hyV : y ∉ V := fun h => hy ((dependsOn_iff hg).mpr ((hV y).mp h))
    have hsource := (startsAt_iff hg).mp hstart
    have hstored := (stores_iff hg).mp he
    obtain ⟨p, hp, hx⟩ := hhangs y hsource ((mem_entities_iff hg).mpr ⟨e, he⟩)
    obtain rfl : e = p := Option.some.inj (hstored.symm.trans hp)
    refine ⟨hx, ?_⟩
    rw [Stores, hget', if_neg hyV,
      VolatileStore.bereft_of_source hV hyV hsource, hstored]
    rfl
  · intro y hy hstart
    have hyV : y ∉ V := fun h => hy ((dependsOn_iff hg).mpr ((hV y).mp h))
    have hsource : m.sourceOf x ≠ some y :=
      fun h => hstart ((startsAt_iff hg).mpr h)
    rw [hget', if_neg hyV,
      VolatileStore.bereft_of_not_depends hV hyV hsource, hg.get]
    simp

theorem removes_of_walk
    {g g' : Graph σ} {v v' : Graph VolatileStore} {V : NameSet}
    (hg : Agrees g.store v.store) (hg' : Agrees g'.store v'.store)
    (hv : v.store.Anchored) (hwalk : Walk [x] ∅ v V v') :
    Removes x g g' := by
  refine removes_of_purged hg hg' (VolatileStore.purged_of_walk hwalk hv.keyed)
    (fun y => ?_) fun y hy _ => hv.complete hy
  rw [hwalk.visited_iff hv.keyed, ← VolatileStore.reaches_iff_depends hv]
  simp

variable [FaithfulStore σ]

/-- After local operations on an empty graph whose store does not fail, every
stored link starts at a stored entity, and deleting a stored entity removes it
with what depends on it. -/
theorem delete_removes_after (hs : Holds s {}) (hlocal : ∀ op ∈ ops, op.isLocal)
    (hops : Unfailing { store := s, registry, validates } ops) :
    (∀ l y, (Graph.after { store := s, registry, validates } ops).StartsAt l y →
      ∃ p, (Graph.after { store := s, registry, validates } ops).Stores y p) ∧
    ∀ x e, (Graph.after { store := s, registry, validates } ops).Stores x e →
      Unfailing (Graph.after { store := s, registry, validates } ops)
        [.delete x] →
      (delete x (Graph.after { store := s, registry, validates } ops)).1 = .ok () ∧
      Removes x (Graph.after { store := s, registry, validates } ops)
        (delete x (Graph.after { store := s, registry, validates } ops)).2 := by
  have hrel := after_related hs hops
  have hreads := after_agrees hs hops
  have hanchored := anchored_after (g := { store := {}, registry, validates })
    VolatileStore.anchored_empty hlocal
  constructor
  · intro l y hstart
    have hhangs := hanchored.complete ((startsAt_iff hreads).mp hstart)
    exact (mem_entities_iff hreads).mp hhangs.stored
  · intro x e he hdelete
    obtain ⟨V, v', hrun, hwalk⟩ :=
      delete_run_stored hanchored.keyed ((stores_iff hreads).mp he)
    obtain ⟨hresult, hrel'⟩ := hrel.perform (.delete x) hdelete.2.1
    have hrun' : Operation.perform (.delete x)
        (Graph.after { store := ({} : VolatileStore), registry, validates }
          ops) = (.ok (), v') := hrun
    rw [hrun'] at hresult hrel'
    exact ⟨hresult, removes_of_walk hreads (hdelete.2.2.agrees hrel'.store)
      hanchored hwalk⟩

/-- A resource, a link from it, and a link from that link. -/
def linkFromLink : List Operation :=
  [.saveResource { id := "a", kind := "k" },
    .saveLink { id := "l", kind := "k" } ⟨"a", "a"⟩,
    .saveLink { id := "m", kind := "k" } ⟨"l", "a"⟩]

theorem delete_removes_after_linkFromLink :
    Removes "l" (Graph.after { store := ({} : VolatileStore) } linkFromLink)
        (delete "l" (.after { store := {} } linkFromLink)).2 ∧
      Graph.DependsOn (.after { store := ({} : VolatileStore) } linkFromLink)
        "l" "m" := by
  have hstart : FaithfulStore.Holds ({} : VolatileStore) {} :=
    ⟨rfl, VolatileStore.keyed_empty⟩
  have hlocal : ∀ op ∈ linkFromLink, op.isLocal := by decide
  have hops := unfailing_volatile (g := { store := {} })
    VolatileStore.keyed_empty (linkFromLink ++ [.delete "l"])
  have hstored :
      Graph.Stores (.after { store := ({} : VolatileStore) } linkFromLink) "l"
        { id := "l", kind := "k", endpoints := some ⟨"a", "a"⟩,
          linkedFrom := .ofList ["m"] } := by
    refine congrArg Except.ok ?_
    decide
  have hlink :
      Graph.Stores (.after { store := ({} : VolatileStore) } linkFromLink) "m"
        { id := "m", kind := "k", endpoints := some ⟨"l", "a"⟩ } := by
    refine congrArg Except.ok ?_
    decide
  obtain ⟨hops, hdelete⟩ := unfailing_append.mp hops
  have hremoves :=
    (delete_removes_after hstart hlocal hops).2 "l" _ hstored hdelete
  exact ⟨hremoves.2, .single ⟨_, hlink, rfl⟩⟩

end Graph

end LinkGraph
