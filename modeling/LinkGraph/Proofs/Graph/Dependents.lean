import LinkGraph.Proofs.Graph.Attempts
import LinkGraph.Proofs.Graph.BackReferences
import LinkGraph.Proofs.Graph.Reporting
import LinkGraph.Proofs.Graph.Unfolding

/-!
# Dependents before what they depend on

A cascade may start on any content: back-references may lead in circles or to
ids that are not stored, and need not belong to links.  It visits what hangs on
the deleted id, each entity once, and an entity comes after those of its
back-references that do not lead back to it.
-/

namespace LinkGraph.Graph

open FaithfulStore (Holds)

/-! ## The order of visits -/

theorem sublist_of_mem_of_mem
    {names names' : List String} {z y : String} (hz : z ∈ names)
    (hy : y ∈ names') :
    [z, y].Sublist (names ++ names') := by
  have hpair : ([z] ++ [y]).Sublist (names ++ names') :=
    (List.singleton_sublist.mpr hz).append (List.singleton_sublist.mpr hy)
  exact hpair

theorem idxOf_lt_of_sublist
    {names : List String} (hnodup : names.Nodup) {z y : String}
    (h : [z, y].Sublist names) :
    names.idxOf z < names.idxOf y := by
  have hsplit : ([z] ++ [y]).Sublist names := h
  obtain ⟨first, second, rfl, hz, hy⟩ := List.append_sublist_iff.mp hsplit
  rw [List.singleton_sublist] at hz hy
  have hnot : y ∉ first :=
    fun hy' => List.disjoint_of_nodup_append hnodup hy' hy
  rw [List.idxOf_append_of_mem hz, List.idxOf_append_of_notMem hnot]
  exact Nat.lt_add_right _ (List.idxOf_lt_length_of_mem hz)

/-- What hangs on a kept entity and is kept still hangs on it. -/
theorem hangs_of_purged
    {s t : VolatileStore} {R : NameSet} {y z : EntityId} {p : Entity}
    (h : VolatileStore.Purged R s t) (hy : y ∉ R) (hzR : z ∉ R)
    (hp : s.entities[y]? = some p) (hz : z ∈ p.linkedFrom)
    (hstored : z ∈ s.entities) :
    ∃ p', t.entities[y]? = some p' ∧ z ∈ p'.linkedFrom ∧ z ∈ t.entities := by
  refine ⟨s.bereft R y p, ?_,
    VolatileStore.mem_bereft.mpr ⟨hz, fun hleft => hzR hleft.1⟩, ?_⟩
  · rw [h y, if_neg hy, hp]
    rfl
  · rw [Std.ExtTreeMap.mem_iff_isSome_getElem?] at hstored ⊢
    rw [h z, if_neg hzR]
    simpa using hstored

section Faithful

variable {σ : Type} [EntityStore σ] [FaithfulStore σ] {ids : List EntityId}
  {V W : NameSet} {g g' : Graph σ} {v : Graph VolatileStore}
  {visits : List (σ × Entity)} {x y z : EntityId} {p : Entity}

def visited {σ : Type} (visits : List (σ × Entity)) : List EntityId :=
  visits.map fun visit => visit.2.id

/-- The recursion visits what it newly reaches and finds stored. -/
theorem Unfolds.mem_visited
    (h : Unfolds ids V g visits W g') (hrel : Related g v) :
    y ∈ visited visits ↔ y ∈ v.store.entities ∧ y ∈ W ∧ y ∉ V := by
  obtain ⟨v', hwalk, -, hvisits⟩ := h.walk hrel
  have hpurged := hwalk.purged hrel.keyed y
  have hmem := hvisits.clears.mem y
  rw [List.map_map] at hmem
  refine hmem.trans (and_congr_right fun hy => ?_)
  rw [Std.ExtTreeMap.mem_iff_isSome_getElem?] at hy ⊢
  rw [hpurged, ← Std.ExtTreeSet.mem_diff_iff]
  by_cases hnew : y ∈ W \ V
  · simp [hnew]
  · simp [hnew, hy]

/-- What is among the back-references of an entity is visited before it, unless
it leads back to it. -/
theorem Unfolds.order
    (h : Unfolds ids V g visits W g') (hrel : Related g v)
    (hy : y ∈ visited visits) (hp : v.store.entities[y]? = some p)
    (hz : z ∈ p.linkedFrom) (hstored : z ∈ v.store.entities) (hzV : z ∉ V)
    (hnot : ¬v.store.Reaches z y) :
    [z, y].Sublist (visited visits) := by
  induction h generalizing v y z p with
  | done => cases hy
  | seen _ _ ih => exact ih hrel hy hp hz hstored hzV hnot
  | @absent id _ _ _ _ _ _ _ hvacant _ ih =>
    refine ih hrel hy hp hz hstored ?_ hnot
    have hzid : id ≠ z := by
      rintro rfl
      simp [Std.ExtTreeMap.mem_iff_isSome_getElem?, hrel.absent hvacant]
        at hstored
    simp [hzV, hzid]
  | vanished hid he hdeps hvacant _ _ _ =>
    obtain ⟨v₁, hwalk, hrel₁, -⟩ := hdeps.walk hrel
    obtain ⟨e₁, he₁⟩ :=
      hwalk.stored_of_visited hrel.keyed (by simp) (hrel.stored he)
    rw [hrel₁.absent hvacant] at he₁
    cases he₁
  | @removed id ids V V₁ W g g₁ g₂ g' e e₁ inner rest hid he hdeps he₁ herase
    hrest ihdeps ih =>
    obtain ⟨v₁, hwalk, hrel₁, -⟩ := hdeps.walk hrel
    obtain ⟨rfl, hrel₂⟩ := hrel₁.erase he₁ herase
    have hentity := hrel.stored he
    have hinner {a : EntityId} := hdeps.mem_visited hrel (y := a)
    -- What the walk has got to when it removes the entity, it has visited among
    -- the dependents.
    have hearlier (hzV₁ : z ∈ V₁) (hzid : e₁.id ≠ z) : z ∈ visited inner :=
      hinner.mpr ⟨hstored, hzV₁, by simp [hzV, hzid]⟩
    have hsplit : visited (inner ++ (g₁.store, e₁) :: rest) =
        visited inner ++ e₁.id :: visited rest := by simp [visited]
    rw [hsplit] at hy ⊢
    rcases List.mem_append.mp hy with hy | hy
    · -- Both are among the dependents: `z` is not the entity itself, which leads
      -- to `y`.
      obtain ⟨-, hyV₁, hyV⟩ := hinner.mp hy
      obtain ⟨a, ha, hreach⟩ := hwalk.reaches hrel.keyed hyV₁ hyV
      have hreach : v.store.Reaches e₁.id y :=
        (VolatileStore.Reaches.refl.step hentity
          (Std.ExtTreeSet.mem_toList.mp ha)).trans hreach
      have hzid : e₁.id ≠ z := fun heq => hnot (heq ▸ hreach)
      exact (ihdeps hrel hy hp hz hstored (by simp [hzV, hzid]) hnot).trans
        (List.sublist_append_left _ _)
    rcases List.mem_cons.mp hy with rfl | hyrest
    · -- The entity itself comes after all that hangs on it.
      obtain rfl := Option.some.inj (hp.symm.trans hentity)
      have hzV₁ : z ∈ V₁ := hwalk.visits z (Std.ExtTreeSet.mem_toList.mpr hz)
      have hzid : e₁.id ≠ z := by
        rintro rfl
        exact hnot .refl
      exact sublist_of_mem_of_mem (hearlier hzV₁ hzid) hy
    · obtain ⟨-, -, hyV₁⟩ := (hrest.mem_visited hrel₂).mp hyrest
      by_cases hzV₁ : z ∈ V₁
      · by_cases hzid : e₁.id = z
        · subst hzid
          exact ((List.singleton_sublist.mpr hyrest).cons_cons e₁.id).trans
            (List.sublist_append_right _ _)
        · exact sublist_of_mem_of_mem (hearlier hzV₁ hzid) hy
      · -- Neither has been removed yet, so that nothing has changed between
        -- the two.
        have hfirst := Walk.purged_removing hid hwalk hrel₁.keyed
          (hrel₁.stored he₁) (hwalk.purged hrel.keyed)
        have hnew {a : EntityId} (ha : a ∉ V₁) : a ∉ V₁ \ V := fun hmem =>
          ha (Std.ExtTreeSet.mem_diff_iff.mp hmem).1
        obtain ⟨p₂, hp₂, hz₂, hstored₂⟩ :=
          hangs_of_purged hfirst (hnew hyV₁) (hnew hzV₁) hp hz hstored
        have hlater := ih hrel₂ hyrest hp₂ hz₂ hstored₂ hzV₁ fun hback =>
          hnot (hback.of_purged hfirst)
        exact (hlater.trans (List.sublist_cons_self _ _)).trans
          (List.sublist_append_right _ _)

end Faithful

/-! ## Deleting -/

section Deleting

variable {σ : Type} [EntityStore σ]

/-- From `x` one gets to `y` along the back-references of stored entities. -/
def LeadsTo (g : Graph σ) : EntityId → EntityId → Prop :=
  Relation.ReflTransGen fun y z => ∃ e, g.Stores y e ∧ z ∈ e.linkedFrom

theorem leadsTo_iff
    {g : Graph σ} {m : VolatileStore} (h : Agrees g.store m) {x y : EntityId} :
    g.LeadsTo x y ↔ m.Reaches x y := by
  constructor
  · intro hleads
    induction hleads with
    | refl => exact .refl
    | tail _ hstep ih =>
      obtain ⟨e, he, hz⟩ := hstep
      exact ih.step ((stores_iff h).mp he) hz
  · intro hreach
    induction hreach with
    | refl => exact .refl
    | step _ he hz ih => exact ih.tail ⟨_, (stores_iff h).mpr he, hz⟩

/-- From `g` to `g'` a cascade has come to its end that started at `x`, with
visits to the entities it has removed.  What leads where is what did in `g`. -/
structure Cascades
    (x : EntityId) (g g' : Graph σ) (visits : List (σ × Entity)) : Prop where
  /-- The recursion has ended. -/
  recurses : ∃ W, Recurses x g visits W g'
  /-- What `x` leads to has been removed. -/
  removed {y : EntityId} : g.LeadsTo x y → g'.Vacant y
  /-- What it does not lead to has been kept, but for back-references to removed
  links. -/
  kept {y : EntityId} {e : Entity} : g.Stores y e → ¬g.LeadsTo x y → ∃ links,
    g'.Stores y { e with linkedFrom := links } ∧
      ∀ l, l ∈ links ↔ l ∈ e.linkedFrom ∧ ¬(g.LeadsTo x l ∧ g.StartsAt l y)
  /-- Nothing else is stored. -/
  vacant {y : EntityId} : g.Vacant y → g'.Vacant y
  /-- The visits are the calls of handlers at a deletion, and no handler has
  been called otherwise. -/
  journal : g'.journal = g.journal ++ g.visitReports visits
  /-- Each entity has been visited once. -/
  once : (visited visits).Nodup
  /-- The visits are to what has been removed. -/
  mem (y : EntityId) : y ∈ visited visits ↔ (∃ e, g.Stores y e) ∧ g.LeadsTo x y
  /-- An entity has been stored when it was visited, under the kind it had
  before. -/
  found {s : σ} {e : Entity} : (s, e) ∈ visits →
    EntityStore.get s e.id = .ok (some e) ∧
    ∃ p, g.Stores e.id p ∧ p.kind = e.kind
  /-- It has been gone from the store for all later visits. -/
  gone : visits.Pairwise fun earlier later =>
    ∀ e, EntityStore.get later.1 earlier.2.id ≠ .ok (some e)
  /-- An entity has been visited after what is among its back-references, but
  for what leads back. -/
  order {y z : EntityId} {p : Entity} :
    g.Stores y p → g.LeadsTo x y → z ∈ p.linkedFrom →
    (∃ q, g.Stores z q) → ¬g.LeadsTo z y →
    (visited visits).idxOf z < (visited visits).idxOf y

/-- Without circles, an entity has been visited after everything that it leads
to. -/
theorem Cascades.order_of_acyclic
    {x : EntityId} {g g' : Graph σ} {visits : List (σ × Entity)}
    (h : Cascades x g g' visits)
    (hacyclic : ∀ y z, g.LeadsTo y z → g.LeadsTo z y → y = z) {y z : EntityId}
    (hy : g.LeadsTo x y) (hyz : g.LeadsTo y z) (hne : y ≠ z)
    (hz : ∃ q, g.Stores z q) :
    (visited visits).idxOf z < (visited visits).idxOf y := by
  induction hyz with
  | refl => exact absurd rfl hne
  | @tail w z hyw hstep ih =>
    have hwz : g.LeadsTo w z := .single hstep
    obtain ⟨p, hp, hmem⟩ := hstep
    by_cases hzw : w = z
    · subst hzw
      exact ih hne hz
    · have hlast : (visited visits).idxOf z < (visited visits).idxOf w :=
        h.order hp (hy.trans hyw) hmem hz fun hback =>
          hzw (hacyclic w z hwz hback)
      by_cases hyw' : y = w
      · rwa [hyw']
      · exact hlast.trans (ih hyw' ⟨p, hp⟩)

theorem Cascades.recalling
    {x : EntityId} {g g' : Graph σ} {visits : List (σ × Entity)}
    (h : Cascades x g g' visits) (past : Journal σ) :
    Cascades x (g.recalling past) (g'.recalling past) visits where
  recurses := by
    obtain ⟨W, hrecurses⟩ := h.recurses
    exact ⟨W, hrecurses.recalling past⟩
  removed := h.removed
  kept := h.kept
  vacant := h.vacant
  journal := by
    obtain ⟨W, hrecurses⟩ := h.recurses
    exact (hrecurses.recalling past).reports
  once := h.once
  mem := h.mem
  found := h.found
  gone := h.gone
  order := h.order

variable [FaithfulStore σ] {g g' : Graph σ} {v : Graph VolatileStore}
  {m : VolatileStore} {W : NameSet} {visits : List (σ × Entity)} {x : EntityId}
  {e : Entity}

/-- A recursion that ends is a cascade that has come to its end. -/
theorem Recurses.cascades
    (h : Recurses x g visits W g') (hrel : Related g v)
    (hreads : Agrees g.store v.store) (hreadable : Readable g'.store) :
    Cascades x g g' visits := by
  obtain ⟨g₁, g₂, v', hrel₁, hunfolds, hwalk, hrel', hvisits⟩ := h.unfolds hrel
  have hreads' := hreadable.agrees hrel'.store
  have hpurged : VolatileStore.Purged W v.store v'.store :=
    VolatileStore.purged_of_walk hwalk hrel.keyed
  have hreached (y : EntityId) : y ∈ W ↔ g.LeadsTo x y := by
    rw [hwalk.visited_iff hrel.keyed, leadsTo_iff hreads]
    simp
  have hmem (y : EntityId) :
      y ∈ visited visits ↔ (∃ e, g.Stores y e) ∧ g.LeadsTo x y := by
    rw [hunfolds.mem_visited hrel₁, hreached, ← mem_entities_iff hreads]
    simp
  have honce : (visited visits).Nodup := by
    have honce := hvisits.clears.once
    rwa [List.map_map] at honce
  constructor
  case recurses => exact ⟨W, h⟩
  case removed =>
    intro y hy
    rw [vacant_iff_of_agrees hreads', hpurged y, if_pos ((hreached y).mpr hy)]
  case kept =>
    intro y p hp hy
    have hstored := (stores_iff hreads).mp hp
    refine ⟨(v.store.bereft W y p).linkedFrom, ?_, fun l => ?_⟩
    · rw [stores_iff hreads', hpurged y,
        if_neg (mt (hreached y).mp hy), hstored]
      rfl
    · rw [VolatileStore.mem_bereft, hreached, startsAt_iff hreads]
  case vacant =>
    intro y hy
    rw [vacant_iff_of_agrees hreads] at hy
    rw [vacant_iff_of_agrees hreads', hpurged y, hy, Option.map_none, ite_self]
  case journal => exact h.reports
  case once => exact honce
  case mem => exact hmem
  case found =>
    intro s e hvisit
    obtain ⟨p, hp, hkind⟩ := hvisits.clears.kind (List.mem_map_of_mem hvisit)
    exact ⟨hvisits.found hvisit, p, (stores_iff hreads).mpr hp, hkind⟩
  case gone => exact hvisits.gone
  case order =>
    intro y z p hp hy hz hstored hback
    have hvisited : y ∈ visited visits := (hmem y).mpr ⟨⟨p, hp⟩, hy⟩
    exact idxOf_lt_of_sublist honce (hunfolds.order hrel₁ hvisited
      ((stores_iff hreads).mp hp) hz ((mem_entities_iff hreads).mpr hstored)
      (by simp) (mt (leadsTo_iff hreads).mpr hback))

/-- Whatever entities a store has under their own ids, with whatever
back-references and buckets, and whatever has happened before: if no call on the
store fails, the cascade from a stored id comes to its end and removes and
visits what it should, dependents first. -/
theorem delete_cascades
    (hm : Holds g.store m) (he : g.Stores x e) (hop : g.Unfailing [.delete x]) :
    ∃ g' visits, delete x g = (.ok (), g') ∧ Cascades x g g' visits ∧
      ((∀ y z, g.LeadsTo y z → g.LeadsTo z y → y = z) →
        ∀ y z, g.LeadsTo x y → g.LeadsTo y z → y ≠ z →
          (∃ q, g.Stores z q) →
          (visited visits).idxOf z < (visited visits).idxOf y) := by
  have hrel : Related (journaling g []) (g.upon m) := ⟨hm, rfl, rfl, .nil⟩
  have hpast : (journaling g []).recalling g.journal = g := by
    simp [Graph.recalling, journaling]
  have hdelete : Appends (fun _ => True) (delete x : GraphM σ Unit) :=
    (Composed.delete trivial trivial : Composed _ (fun _ => False) _).appends
  have hok : Unbroken (delete x (journaling g [])).1 := by
    obtain ⟨r, store, entries, hrun, -⟩ := hdelete g
    have hself : (Operation.delete x).perform g = _ := hrun g.journal
    have hunbroken := hop.2.1
    rw [hself] at hunbroken
    rw [hrun]
    exact hunbroken
  obtain ⟨visits, W, g', hrun, hrecurses⟩ :=
    delete_recurses hrel (hop.start.agrees hm) he hok
  have hrun' := hdelete.recalling hrun g.journal
  rw [hpast] at hrun'
  have hreadable : Readable (delete x g).2.store := hop.2.2
  rw [hrun'] at hreadable
  have hcascades :=
    (hrecurses.cascades hrel (hop.start.agrees hm) hreadable).recalling
      g.journal
  rw [hpast] at hcascades
  exact ⟨_, visits, hrun', hcascades,
    fun hacyclic y z => hcascades.order_of_acyclic hacyclic⟩

end Deleting

/-- `a` and `b` hang on each other; `a` also on itself and on an id that is not
stored, and `c`, which is no link, on `b`. -/
def circle : VolatileStore :=
  ((VolatileStore.place {}
    { id := "a", kind := "k", linkedFrom := .ofList ["a", "b", "x"] }).place
      { id := "b", kind := "k", linkedFrom := .ofList ["a", "c"] }).place
        { id := "c", kind := "k" }

/-- Deleting `a` removes all of them, `c` before `b`. -/
theorem delete_cascades_circle :
    ∃ (g' : Graph VolatileStore) (visits : List (VolatileStore × Entity)),
    delete "a" { store := circle } = (.ok (), g') ∧ g'.Vacant "a" ∧
      g'.Vacant "b" ∧ g'.Vacant "c" ∧
      (visited visits).Nodup ∧
      (visited visits).idxOf "c" < (visited visits).idxOf "b" := by
  have hkeyed : circle.Keyed :=
    ((VolatileStore.keyed_empty.place _).place _).place _
  have ha : ({ store := circle } : Graph VolatileStore).Stores "a"
      { id := "a", kind := "k", linkedFrom := .ofList ["a", "b", "x"] } :=
    congrArg Except.ok (by decide +kernel)
  have hb : ({ store := circle } : Graph VolatileStore).Stores "b"
      { id := "b", kind := "k", linkedFrom := .ofList ["a", "c"] } :=
    congrArg Except.ok (by decide +kernel)
  have hc : ({ store := circle } : Graph VolatileStore).Stores "c"
      { id := "c", kind := "k" } :=
    congrArg Except.ok (by decide +kernel)
  have hholds : Holds circle circle := ⟨rfl, hkeyed⟩
  obtain ⟨g', visits, hrun, hcascades, -⟩ :=
    delete_cascades (g := { store := circle }) hholds ha
      (unfailing_volatile hkeyed _)
  have hab : ({ store := circle } : Graph VolatileStore).LeadsTo "a" "b" :=
    .single ⟨_, ha, by simp⟩
  have hac : ({ store := circle } : Graph VolatileStore).LeadsTo "a" "c" :=
    hab.tail ⟨_, hb, by simp⟩
  have hcb : ¬({ store := circle } : Graph VolatileStore).LeadsTo "c" "b" := by
    intro hleads
    rcases Relation.ReflTransGen.cases_head hleads with
      heq | ⟨l, ⟨p, hp, hl⟩, -⟩
    · exact absurd heq (by decide)
    · obtain rfl := Option.some.inj (Except.ok.inj (hc.symm.trans hp))
      simp at hl
  exact ⟨g', visits, hrun, hcascades.removed .refl, hcascades.removed hab,
    hcascades.removed hac, hcascades.once,
    hcascades.order hb hab (by simp) ⟨_, hc⟩ hcb⟩

end LinkGraph.Graph
