import LinkGraph.Proofs.Graph.Telling
import LinkGraph.Proofs.Graph.Journal

/-!
# Unfolding a cascade

The recursion of a cascade without a bound on its depth, as a relation on graphs
over any store that keeps the calls of handlers.  On a faithful store the
function follows it as long as no call on the store fails, and goes the way of
the walk on a volatile store.  A finite derivation is what it means that the
recursion ends.
-/

namespace LinkGraph.Graph

open FaithfulStore (Holds)

section Relation

variable {σ : Type} [EntityStore σ]

/-- The recursion over a list of ids, from visited ids and a graph to visited
ids and a graph.  It keeps the entities of which handlers have been told, each
with the store at that moment. -/
inductive Unfolds :
    List EntityId → NameSet → Graph σ → List (σ × Entity) → NameSet →
      Graph σ → Prop
  | done {V : NameSet} {g : Graph σ} : Unfolds [] V g [] V g
  | seen {id : EntityId} {ids : List EntityId} {V W : NameSet} {g g' : Graph σ}
      {visits : List (σ × Entity)} :
      id ∈ V → Unfolds ids V g visits W g' → Unfolds (id :: ids) V g visits W g'
  | absent {id : EntityId} {ids : List EntityId} {V W : NameSet}
    {g g' : Graph σ}
      {visits : List (σ × Entity)} :
      id ∉ V → g.Vacant id → Unfolds ids (V.insert id) g visits W g' →
      Unfolds (id :: ids) V g visits W g'
  | vanished {id : EntityId} {ids : List EntityId} {V V₁ W : NameSet}
    {g g₁ g' : Graph σ} {e : Entity}
      {inner rest : List (σ × Entity)} :
      id ∉ V → g.Stores id e →
      Unfolds e.linkedFrom.toList (V.insert id) g inner V₁ g₁ →
      g₁.Vacant id → Unfolds ids V₁ g₁ rest W g' →
      Unfolds (id :: ids) V g (inner ++ rest) W g'
  | removed {id : EntityId} {ids : List EntityId} {V V₁ W : NameSet}
    {g g₁ g₂ g' : Graph σ}
      {e e₁ : Entity} {inner rest : List (σ × Entity)} :
      id ∉ V → g.Stores id e →
      Unfolds e.linkedFrom.toList (V.insert id) g inner V₁ g₁ →
      g₁.Stores id e₁ → erase id e₁ g₁ = (.ok (), g₂) →
      Unfolds ids V₁ g₂ rest W g' →
      Unfolds (id :: ids) V g (inner ++ (g₁.store, e₁) :: rest) W g'

theorem Unfolds.append
    {ids ids' : List EntityId} {V V₁ W : NameSet} {g g₁ g' : Graph σ}
    {visits visits' : List (σ × Entity)} (h : Unfolds ids V g visits V₁ g₁)
    (h' : Unfolds ids' V₁ g₁ visits' W g') :
    Unfolds (ids ++ ids') V g (visits ++ visits') W g' := by
  induction h with
  | done => exact h'
  | seen hid _ ih => exact .seen hid (ih h')
  | absent hid hvacant _ ih => exact .absent hid hvacant (ih h')
  | vanished hid he hdeps hvacant _ _ ih =>
    rw [List.append_assoc]
    exact .vanished hid he hdeps hvacant (ih h')
  | removed hid he hdeps he₁ herase _ _ ih =>
    rw [List.append_assoc, List.cons_append]
    exact .removed hid he hdeps he₁ herase (ih h')

/-- What is composed without calls of handlers leaves the journal alone. -/
theorem Composed.silent
    {α : Type} {p : GraphM σ α}
    (h : Composed (fun _ => False) (fun _ => False) p) {g g' : Graph σ}
    {r : Except StoreError α} (hrun : p g = (r, g')) :
    g'.registry = g.registry ∧ g'.journal = g.journal := by
  obtain ⟨r', store, entries, hruns, hentries⟩ := h.appends g
  obtain rfl := List.eq_nil_iff_forall_not_mem.mpr hentries
  have hself := hruns g.journal
  rw [List.append_nil] at hself
  obtain rfl := congrArg Prod.snd (hself.symm.trans hrun)
  exact ⟨rfl, rfl⟩

/-- Removing an entity calls its handler and no other. -/
theorem erase_reports {id : EntityId} {e : Entity} {g g' : Graph σ}
    (h : erase id e g = (.ok (), g')) :
    g'.registry = g.registry ∧
      g'.journal = g.journal ++ g.reports .deleting e := by
  have hleave : Composed (fun _ => False) (fun _ => False)
      (leaveIndex id e : GraphM σ Unit) :=
    .forM (fun c => .indexRemove c id) e.categories
  have hremove : Composed (fun _ => False) (fun _ => False)
      (do let _ ← change (EntityStore.remove id) : GraphM σ Unit) :=
    (Composed.remove id).bind fun _ => .pure ()
  rw [erase, bind_run_ok (notify_run g .deleting e)] at h
  refine Composed.silent (hleave.bind fun _ => ?_) h
  cases e.source? with
  | none => exact hremove
  | some source => exact (Composed.detach source id).bind fun _ => hremove

/-- What a journal keeps of visits. -/
def visitReports (g : Graph σ) (visits : List (σ × Entity)) : Journal σ :=
  visits.flatMap fun visit => reports { g with store := visit.1 }
    .deleting visit.2

omit [EntityStore σ] in
theorem visitReports_congr
    {g g' : Graph σ} (h : g'.registry = g.registry)
    (visits : List (σ × Entity)) :
    g'.visitReports visits = g.visitReports visits := by
  unfold visitReports reports
  rw [h]

theorem Unfolds.reports {ids : List EntityId} {V W : NameSet} {g g' : Graph σ}
    {visits : List (σ × Entity)} (h : Unfolds ids V g visits W g') :
    g'.registry = g.registry ∧
      g'.journal = g.journal ++ g.visitReports visits := by
  induction h with
  | done => simp [visitReports]
  | seen _ _ ih => exact ih
  | absent _ _ _ ih => exact ih
  | @vanished _ _ _ _ _ g _ _ _ inner rest _ _ _ _ _ ihdeps ih =>
    obtain ⟨hregistry₁, hjournal₁⟩ := ihdeps
    obtain ⟨hregistry, hjournal⟩ := ih
    refine ⟨hregistry.trans hregistry₁, ?_⟩
    have hsplit : g.visitReports (inner ++ rest) =
        g.visitReports inner ++ g.visitReports rest :=
      List.flatMap_append
    rw [hjournal, hjournal₁, visitReports_congr hregistry₁, hsplit,
      List.append_assoc]
  | @removed _ _ _ _ _ g g₁ g₂ _ _ e₁ inner rest _ _ _ _ herase _ ihdeps ih =>
    obtain ⟨hregistry₁, hjournal₁⟩ := ihdeps
    obtain ⟨hregistry₂, hjournal₂⟩ := erase_reports herase
    obtain ⟨hregistry, hjournal⟩ := ih
    have hregistry₂ := hregistry₂.trans hregistry₁
    refine ⟨hregistry.trans hregistry₂, ?_⟩
    have hcall : g.visitReports [(g₁.store, e₁)] = g₁.reports .deleting e₁ := by
      rw [← visitReports_congr hregistry₁, visitReports, List.flatMap_singleton]
    have hsplit : g.visitReports (inner ++ (g₁.store, e₁) :: rest) =
        g.visitReports inner ++
          (g.visitReports [(g₁.store, e₁)] ++ g.visitReports rest) := by
      rw [← List.singleton_append, visitReports, List.flatMap_append,
        List.flatMap_append]
      rfl
    rw [hjournal, hjournal₂, hjournal₁, visitReports_congr hregistry₂, hsplit,
      hcall, List.append_assoc, List.append_assoc]

/-- The graph if something else had happened before as well. -/
def recalling (g : Graph σ) (past : Journal σ) : Graph σ :=
  journaling g (past ++ g.journal)

omit [EntityStore σ] in
theorem Appends.recalling
    {α : Type} {points : HookPoint → Prop} {p : GraphM σ α}
    (h : Appends points p) {g g' : Graph σ} {r : Except StoreError α}
    (hrun : p g = (r, g')) (past : Journal σ) :
    p (g.recalling past) = (r, g'.recalling past) := by
  obtain ⟨r', store, entries, hruns, -⟩ := h g
  have hself := hruns g.journal
  obtain ⟨rfl, rfl⟩ := Prod.mk.inj (hself.symm.trans hrun)
  refine (hruns (past ++ g.journal)).trans ?_
  simp [Graph.recalling, journaling]

theorem Unfolds.recalling
    {ids : List EntityId} {V W : NameSet} {g g' : Graph σ}
    {visits : List (σ × Entity)} (h : Unfolds ids V g visits W g')
    (past : Journal σ) :
    Unfolds ids V (g.recalling past) visits W (g'.recalling past) := by
  induction h with
  | done => exact .done
  | seen hid _ ih => exact .seen hid ih
  | absent hid hvacant _ ih => exact .absent hid hvacant ih
  | vanished hid he _ hvacant _ ihdeps ih =>
    exact .vanished hid he ihdeps hvacant ih
  | @removed id _ _ _ _ g g₁ _ _ e e₁ _ _ hid he _ he₁ herase _ ihdeps ih =>
    have hfound : (g.recalling past).Stores id e := he
    have hfound₁ : (g₁.recalling past).Stores id e₁ := he₁
    have happends : Appends (fun _ => True) (erase id e₁ : GraphM σ Unit) :=
      (Composed.erase trivial id e₁ : Composed _ (fun _ => False) _).appends
    have hstep := Unfolds.removed hid hfound ihdeps hfound₁
      (happends.recalling herase past) ih
    exact hstep

/-- The recursion starts at an id, with nothing visited, and ends, all in one
batch. -/
def Recurses
    (x : EntityId) (g : Graph σ) (visits : List (σ × Entity)) (W : NameSet)
    (g' : Graph σ) : Prop :=
  ∃ g₁ g₂, change EntityStore.begin g = (.ok (), g₁) ∧
    Unfolds [x] ∅ g₁ visits W g₂ ∧
    change EntityStore.commit g₂ = (.ok (), g')

theorem Recurses.reports
    {x : EntityId} {g g' : Graph σ} {visits : List (σ × Entity)} {W : NameSet}
    (h : Recurses x g visits W g') :
    g'.journal = g.journal ++ g.visitReports visits := by
  obtain ⟨g₁, g₂, hbegin, hunfolds, hcommit⟩ := h
  obtain ⟨-, hjournal⟩ := hunfolds.reports
  obtain rfl := congrArg Prod.snd hbegin
  obtain rfl := congrArg Prod.snd hcommit
  exact hjournal

theorem Recurses.recalling
    {x : EntityId} {g g' : Graph σ} {visits : List (σ × Entity)} {W : NameSet}
    (h : Recurses x g visits W g') (past : Journal σ) :
    Recurses x (g.recalling past) visits W (g'.recalling past) := by
  obtain ⟨g₁, g₂, hbegin, hunfolds, hcommit⟩ := h
  have hchange (op : StoreM σ Unit) : Appends (fun _ => True) (change op) :=
    change_appends op
  exact ⟨_, _, (hchange _).recalling hbegin past, hunfolds.recalling past,
    (hchange _).recalling hcommit past⟩

end Relation

section Faithful

variable {σ : Type} [EntityStore σ] {ids : List EntityId} {V W : NameSet}
  {g g' : Graph σ} {v : Graph VolatileStore} {visits : List (σ × Entity)}
  {id x : EntityId} {e : Entity}

/-- The visits are made to what has been removed from `v` to `v'`, to each while
it is found in the store and after those removed before it are found no more. -/
structure Farewells
    (v v' : Graph VolatileStore) (visits : List (σ × Entity)) : Prop where
  clears : Clears v v' (visits.map Prod.snd)
  found {s : σ} {e : Entity} :
    (s, e) ∈ visits → EntityStore.get s e.id = .ok (some e)
  stored {s : σ} {x : EntityId} {e p : Entity} : (s, e) ∈ visits →
    EntityStore.get s x = .ok (some p) → x ∈ v.store.entities
  gone : visits.Pairwise fun earlier later =>
    ∀ p, EntityStore.get later.1 earlier.2.id ≠ .ok (some p)

namespace Farewells

variable {v' v'' : Graph VolatileStore} {visits' : List (σ × Entity)}

theorem refl
    (v : Graph VolatileStore) :
    Farewells v v ([] : List (σ × Entity)) where
  clears := .refl v
  found := nofun
  stored := nofun
  gone := .nil

theorem trans (h : Farewells v v' visits) (h' : Farewells v' v'' visits') :
    Farewells v v'' (visits ++ visits') where
  clears := by
    rw [List.map_append]
    exact h.clears.trans h'.clears
  found hmem := (List.mem_append.mp hmem).elim h.found h'.found
  stored hmem hget :=
    (List.mem_append.mp hmem).elim (fun hmem => h.stored hmem hget)
    fun hmem => h.clears.stored (h'.stored hmem hget)
  gone := by
    refine List.pairwise_append.mpr ⟨h.gone, h'.gone,
      fun earlier hmem later hmem' p hget => ?_⟩
    have hcleared : earlier.2.id ∈ (visits.map Prod.snd).map Entity.id :=
      List.mem_map_of_mem (List.mem_map_of_mem hmem)
    exact ((h.clears.mem _).mp hcleared).2 (h'.stored hmem' hget)

end Farewells

variable [FaithfulStore σ]

theorem Related.stored
    (h : Related g v) (he : g.Stores x e) :
    v.store.entities[x]? = some e :=
  Except.ok.inj ((FaithfulStore.get h.store x).eq_of_ok he)

theorem Related.absent
    (h : Related g v) (hx : g.Vacant x) :
    v.store.entities[x]? = none :=
  Except.ok.inj ((FaithfulStore.get h.store x).eq_of_ok hx)

theorem Related.erase
    (h : Related g v) (he : g.Stores id e)
    (hrun : Graph.erase id e g = (.ok (), g')) :
    e.id = id ∧ Related g' (v.removing e) := by
  have hid := h.keyed id e (h.stored he)
  refine ⟨hid, ?_⟩
  subst hid
  have hfollows := erase_simulates e.id e g v h
  rw [hrun, erase_run h.keyed] at hfollows
  rcases hfollows with ⟨-, hrelated⟩ | ⟨error, herror, -⟩
  · exact hrelated
  · cases herror

theorem Related.farewell
    (h : Related g v) (he : g.Stores id e) (hid : e.id = id) :
    Farewells v (v.removing e) [(g.store, e)] where
  clears := .removing (hid ▸ h.stored he)
  found hmem := by
    cases List.mem_singleton.mp hmem
    rw [hid]
    exact he
  stored hmem hget := by
    cases List.mem_singleton.mp hmem
    exact VolatileStore.mem_of_getElem? (h.stored hget)
  gone := List.pairwise_singleton _ _

/-- The recursion goes the way of the walk on a volatile store, and visits what
it removes. -/
theorem Unfolds.walk (h : Unfolds ids V g visits W g') (hrel : Related g v) :
    ∃ v', Walk ids V v W v' ∧ Related g' v' ∧ Farewells v v' visits := by
  induction h generalizing v with
  | done => exact ⟨v, .done, hrel, .refl v⟩
  | seen hid _ ih =>
    obtain ⟨v', hwalk, hrel', hvisits⟩ := ih hrel
    exact ⟨v', .seen hid hwalk, hrel', hvisits⟩
  | absent hid hvacant _ ih =>
    obtain ⟨v', hwalk, hrel', hvisits⟩ := ih hrel
    exact ⟨v', .absent hid (hrel.absent hvacant) hwalk, hrel', hvisits⟩
  | vanished hid he _ hvacant _ ihdeps _ =>
    -- The entity is being removed already, so that nothing that depends on it
    -- takes it away.
    obtain ⟨v₁, hdeps, hrel₁, -⟩ := ihdeps hrel
    obtain ⟨e₁, he₁⟩ :=
      hdeps.stored_of_visited hrel.keyed (by simp) (hrel.stored he)
    rw [hrel₁.absent hvacant] at he₁
    cases he₁
  | removed hid he _ he₁ herase _ ihdeps ih =>
    obtain ⟨v₁, hdeps, hrel₁, hvisits₁⟩ := ihdeps hrel
    obtain ⟨rfl, hrel₂⟩ := hrel₁.erase he₁ herase
    obtain ⟨v', hwalk, hrel', hvisits⟩ := ih hrel₂
    exact ⟨v', .removed hid (hrel.stored he) hdeps (hrel₁.stored he₁) hwalk,
      hrel', hvisits₁.trans ((hrel₁.farewell he₁ rfl).trans hvisits)⟩

/-! ## The function follows the recursion -/

/-- No call on the store has failed. -/
def Unbroken {α : Type} (r : Except StoreError α) : Prop :=
  ∀ e, r = .error e → e.isRefusal

omit [EntityStore σ] [FaithfulStore σ] in
theorem Unbroken.of_bind {α β : Type} {p : GraphM σ α} {f : α → GraphM σ β}
    (h : Unbroken ((p >>= f) g).1) : Unbroken (p g).1 := by
  intro e he
  refine h e ?_
  rw [bind_run_error (Prod.ext he rfl)]

/-- If no call fails in what begins with an operation that succeeds on a
volatile store, then it begins with the same success. -/
theorem Simulates.step
    {α β : Type} {p : GraphM σ α} {q : GraphM VolatileStore α}
    {v' : Graph VolatileStore} {a : α} {f : α → GraphM σ β} (h : Simulates p q)
    (hrel : Related g v) (hq : q v = (.ok a, v'))
    (hp : Unbroken ((p >>= f) g).1) :
    ∃ g', p g = (.ok a, g') ∧ Related g' v' ∧ Unbroken (f a g').1 := by
  have hfollows := h g v hrel
  rw [hq] at hfollows
  rcases hfollows with ⟨hr, hrel'⟩ | ⟨e, he, hrefusal⟩
  · have hrun : p g = (.ok a, (p g).2) := Prod.ext hr rfl
    rw [bind_run_ok hrun] at hp
    exact ⟨_, hrun, hrel', hp⟩
  · have := hp.of_bind e he
    simp [hrefusal] at this

theorem fetch_step
    {β : Type} {f : Option Entity → GraphM σ β} (hrel : Related g v)
    (id : EntityId) (hp : Unbroken ((fetch id >>= f) g).1) :
    fetch id g = (.ok v.store.entities[id]?, g) := by
  obtain ⟨g', hrun, -⟩ := (fetch_simulates id).step hrel (fetch_run v id) hp
  obtain rfl : g = g' := congrArg Prod.snd hrun
  exact hrun

theorem foldlM_cascade_unfolds
    {depth : Nat}
    (hcascade : ∀ id V (g : Graph σ) v, Related g v →
      unvisited v.store V < depth → Unbroken (cascade depth id V g).1 →
      ∃ visits W g',
        cascade depth id V g = (.ok W, g') ∧ Unfolds [id] V g visits W g')
    (ids : List EntityId) (hrel : Related g v)
    (hdepth : unvisited v.store V < depth)
    (hok : Unbroken (ids.foldlM (fun V id => cascade depth id V) V g).1) :
    ∃ visits W g',
      ids.foldlM (fun V id => cascade depth id V) V g = (.ok W, g') ∧
      Unfolds ids V g visits W g' := by
  induction ids generalizing V g v with
  | nil => exact ⟨[], V, g, rfl, .done⟩
  | cons id ids ih =>
    rw [List.foldlM_cons] at hok ⊢
    obtain ⟨visits, V₁, g₁, hrun, hfirst⟩ :=
      hcascade id V g v hrel hdepth hok.of_bind
    obtain ⟨v₁, hwalk, hrel₁, -⟩ := hfirst.walk hrel
    rw [bind_run_ok hrun] at hok ⊢
    obtain ⟨visits', W, g', hrest, hrest'⟩ :=
      ih hrel₁ (lt_of_le_of_lt (hwalk.unvisited_le hrel.keyed) hdepth) hok
    exact ⟨visits ++ visits', W, g', hrest, hfirst.append hrest'⟩

/-- A cascade whose depth exceeds the number of unvisited stored ids follows the
recursion to its end. -/
theorem cascade_unfolds
    {depth : Nat} (id : EntityId) (V : NameSet) (g : Graph σ)
    (v : Graph VolatileStore) (hrel : Related g v)
    (hdepth : unvisited v.store V < depth)
    (hok : Unbroken (cascade depth id V g).1) :
    ∃ visits W g',
      cascade depth id V g = (.ok W, g') ∧ Unfolds [id] V g visits W g' := by
  induction depth generalizing id V g v with
  | zero => exact absurd hdepth (Nat.not_lt_zero _)
  | succ depth ih =>
    rw [cascade] at hok ⊢
    by_cases hid : id ∈ V
    · rw [if_pos hid]
      exact ⟨[], V, g, rfl, .seen hid .done⟩
    · rw [if_neg hid] at hok ⊢
      have hfetch := fetch_step hrel id hok
      have hget : EntityStore.get g.store id = .ok v.store.entities[id]? :=
        congrArg Prod.fst hfetch
      rw [bind_run_ok hfetch] at hok ⊢
      cases he : v.store.entities[id]? with
      | none =>
        exact ⟨[], V.insert id, g, rfl,
          .absent hid (hget.trans (by rw [he])) .done⟩
      | some e =>
        rw [he] at hok hget
        have hless := unvisited_insert_lt hid he
        obtain ⟨inner, V₁, g₁, hrun, hdeps⟩ :=
          foldlM_cascade_unfolds ih e.linkedFrom.toList hrel
            (show unvisited v.store (V.insert id) < depth by omega) hok.of_bind
        obtain ⟨v₁, hwalk, hrel₁, -⟩ := hdeps.walk hrel
        obtain ⟨e₁, he₁⟩ := hwalk.stored_of_visited hrel.keyed (by simp) he
        obtain rfl : e₁.id = id := hrel₁.keyed id e₁ he₁
        simp only at hok ⊢
        rw [bind_run_ok hrun] at hok ⊢
        have hfetch₁ := fetch_step hrel₁ e₁.id hok
        have hget₁ :
            EntityStore.get g₁.store e₁.id = .ok v₁.store.entities[e₁.id]? :=
          congrArg Prod.fst hfetch₁
        rw [he₁] at hfetch₁ hget₁
        rw [bind_run_ok hfetch₁] at hok ⊢
        obtain ⟨g₂, herase, -, -⟩ :=
          (erase_simulates e₁.id e₁).step hrel₁ (erase_run hrel₁.keyed e₁) hok
        refine ⟨inner ++ [(g₁.store, e₁)], V₁, g₂, ?_,
          .removed hid hget hdeps hget₁ herase .done⟩
        simp only
        rw [bind_run_ok herase]
        rfl

omit [EntityStore σ] [FaithfulStore σ] in
theorem Unbroken.of_tryCatch
    {α : Type} {p : GraphM σ α} {handler : StoreError → GraphM σ α}
    (hhandler : ∀ e g, (handler e g).1 = .error e)
    (h : Unbroken ((tryCatch p handler : GraphM σ α) g).1) :
    Unbroken (p g).1 := by
  intro e he
  refine h e ?_
  rw [tryCatch_run_error (Prod.ext he rfl)]
  exact hhandler e _

/-- A successful operation leaves related graphs behind if the volatile one
succeeds. -/
theorem Simulates.related
    {α : Type} {p : GraphM σ α} {q : GraphM VolatileStore α}
    {v' : Graph VolatileStore} {a b : α} (h : Simulates p q)
    (hrel : Related g v) (hp : p g = (.ok a, g')) (hq : q v = (.ok b, v')) :
    Related g' v' := by
  have hfollows := h g v hrel
  rw [hp, hq] at hfollows
  rcases hfollows with ⟨-, hrel'⟩ | ⟨e, he, -⟩
  · exact hrel'
  · cases he

theorem begin_simulates :
    Simulates (change EntityStore.begin : GraphM σ Unit)
      (change EntityStore.begin) :=
  .change fun _ _ => FaithfulStore.begin

theorem commit_simulates :
    Simulates (change EntityStore.commit : GraphM σ Unit)
      (change EntityStore.commit) :=
  .change fun _ _ => FaithfulStore.commit

theorem Recurses.unfolds (h : Recurses x g visits W g') (hrel : Related g v) :
    ∃ g₁ g₂ v', Related g₁ v ∧ Unfolds [x] ∅ g₁ visits W g₂ ∧
      Walk [x] ∅ v W v' ∧ Related g' v' ∧
      Farewells v v' visits := by
  obtain ⟨g₁, g₂, hbegin, hunfolds, hcommit⟩ := h
  have hrel₁ := begin_simulates.related hrel hbegin (begin_run v)
  obtain ⟨v', hwalk, hrel₂, hvisits⟩ := hunfolds.walk hrel₁
  exact ⟨g₁, g₂, v', hrel₁, hunfolds, hwalk,
    commit_simulates.related hrel₂ hcommit (commit_run v'), hvisits⟩

/-- Deleting a stored entity is what the recursion from its id does. -/
theorem delete_recurses
    (hrel : Related g v) (hreads : Agrees g.store v.store) (he : g.Stores x e)
    (hok : Unbroken (delete x g).1) :
    ∃ visits W g', delete x g = (.ok (), g') ∧ Recurses x g visits W g' := by
  have hcontains : query (EntityStore.contains · x) g = (.ok true, g) := by
    rw [query, hreads.contains, Std.ExtTreeMap.contains_eq_isSome_getElem?,
      hrel.stored he]
    rfl
  have hget : (get : GraphM σ (Graph σ)) g = (.ok g, g) := rfl
  have hdepth : unvisited v.store ∅ < chainBound g := by
    have hle := unvisited_empty_le v.store
    have hextent : v.store.entities.size ≤ EntityStore.extent g.store :=
      FaithfulStore.extent hrel.store
    change _ < 2 * EntityStore.extent g.store + 1
    omega
  rw [delete, bind_run_ok hcontains] at hok ⊢
  simp only [if_true] at hok ⊢
  rw [bind_run_ok hget] at hok ⊢
  have hbatch := hok.of_bind
  obtain ⟨g₁, hbegin, hrel₁, hrest⟩ :=
    begin_simulates.step hrel (begin_run v) hbatch
  obtain ⟨visits, W, g₂, hrun, hunfolds⟩ := cascade_unfolds x ∅ g₁ v hrel₁
    hdepth (hrest.of_bind.of_tryCatch fun _ _ => rfl)
  obtain ⟨v₂, -, hrel₂, -⟩ := hunfolds.walk hrel₁
  rw [bind_run_ok (tryCatch_run_ok hrun)] at hrest
  obtain ⟨g', hcommit, -, -⟩ :=
    commit_simulates.step hrel₂ (commit_run v₂) hrest
  have hbatched : batched (cascade (chainBound g) x ∅) g = (.ok W, g') := by
    rw [batched, bind_run_ok hbegin, bind_run_ok (tryCatch_run_ok hrun),
      bind_run_ok hcommit, pure_run]
  refine ⟨visits, W, g', ?_, g₁, g₂, hbegin, hunfolds, hcommit⟩
  rw [bind_run_ok hbatched]
  rfl

end Faithful

end LinkGraph.Graph
