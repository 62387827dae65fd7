import LinkGraph.Proofs.Graph.Commuting
import LinkGraph.Proofs.Graph.Reporting

/-!
# Saving a link

A link is saved over whatever was stored under its id, which may have been a
link from the same source, from another one or from itself, and its endpoints
may be its own id.  What becomes of each entity is told here id by id: the link
itself, the source it had, the source it gets, and all others.
-/

namespace LinkGraph

theorem Entity.linked_unlinked (e : Entity) (link : EntityId) :
    (e.unlinked link).linked link = e.linked link := by
  have hset :
      (e.linkedFrom.erase link).insert link = e.linkedFrom.insert link := by
    apply Std.ExtTreeSet.ext_mem
    intro x
    simp only [Std.ExtTreeSet.mem_insert, Std.ExtTreeSet.mem_erase,
      Std.compare_eq_iff_eq, ne_eq]
    by_cases hx : link = x
    · simp [hx]
    · simp [hx]
  exact congrArg e.relinked hset

/-- Saving the same entity again makes nothing else of the share of its id. -/
theorem Share.saved_saved
    (e : Entity) (p : Share) :
    (p.saved e).saved e = p.saved e := by
  refine Share.ext_of_iff rfl fun z => ?_
  simp only [Share.saved, Option.bind_some]
  tauto

namespace Graph

open FaithfulStore (Holds)
open VolatileStore (Keyed Indexed Anchored)

section Refusing

variable {σ : Type} [EntityStore σ]

/-- Why a link is refused: kinds are validated and its kind has no handler, or
else its source is not stored, or else its target. -/
def linkRefusal?
    (g : Graph σ) (d : Draft) (ends : Endpoints) : Option StoreError :=
  if g.validates ∧ ¬g.registry.isRegistered d.kind then
    some (.unknownCategory d.kind)
  else if g.Vacant ends.source then some (.danglingReference d.id ends.source)
  else if g.Vacant ends.target then some (.danglingReference d.id ends.target)
  else none

omit [EntityStore σ] in
theorem admits_iff {g : Graph σ} {kind : Category} :
    g.admits kind = true ↔ ¬(g.validates ∧ ¬g.registry.isRegistered kind) := by
  unfold admits
  cases g.validates with
  | false => simp
  | true => simp

theorem checkEndpoint_run_of_agrees
    {g : Graph σ} {m : VolatileStore} (h : Agrees g.store m)
    (link endpoint : EntityId) :
    checkEndpoint link endpoint g =
      if g.Vacant endpoint then (.error (.danglingReference link endpoint), g)
      else (.ok (), g) := by
  have hquery : query (EntityStore.contains · endpoint) g =
      (.ok (m.entities.contains endpoint), g) := by
    rw [query, h.contains]
  rw [checkEndpoint, bind_run_ok hquery,
    Std.ExtTreeMap.contains_eq_isSome_getElem?]
  simp only [vacant_iff_of_agrees h]
  cases m.entities[endpoint]? with
  | none => rfl
  | some e => rfl

/-- A refused link leaves the whole graph alone. -/
theorem saveLink_refused
    {g : Graph σ} {m : VolatileStore} (h : Agrees g.store m) {d : Draft}
    {ends : Endpoints} {error : StoreError}
    (hrefusal : g.linkRefusal? d ends = some error) :
    saveLink d ends g = (.error error, g) := by
  have hcheck := checkCategory_run g d.kind
  have hsource := checkEndpoint_run_of_agrees h d.id ends.source
  have htarget := checkEndpoint_run_of_agrees h d.id ends.target
  unfold linkRefusal? at hrefusal
  unfold saveLink
  by_cases hkind : g.validates ∧ ¬g.registry.isRegistered d.kind
  · rw [if_pos hkind] at hrefusal
    rw [if_neg fun hadmits => admits_iff.mp hadmits hkind] at hcheck
    obtain rfl := Option.some.inj hrefusal
    exact bind_run_error hcheck
  · rw [if_neg hkind] at hrefusal
    rw [if_pos (admits_iff.mpr hkind)] at hcheck
    rw [bind_run_ok hcheck]
    by_cases hvacant : g.Vacant ends.source
    · rw [if_pos hvacant] at hrefusal hsource
      obtain rfl := Option.some.inj hrefusal
      exact bind_run_error hsource
    · rw [if_neg hvacant] at hrefusal hsource
      rw [bind_run_ok hsource]
      by_cases hvacant' : g.Vacant ends.target
      · rw [if_pos hvacant'] at hrefusal htarget
        obtain rfl := Option.some.inj hrefusal
        exact bind_run_error htarget
      · rw [if_neg hvacant'] at hrefusal
        cases hrefusal

theorem linkRefusal?_eq_none {g : Graph σ} {d : Draft} {ends : Endpoints} :
    g.linkRefusal? d ends = none ↔
      g.admits d.kind ∧ ¬g.Vacant ends.source ∧ ¬g.Vacant ends.target := by
  rw [admits_iff, linkRefusal?]
  split
  · next hkind => simp [hkind]
  · next hkind =>
    split
    · next hsource => simp [hsource]
    · next hsource =>
      simp only [ite_eq_right_iff, reduceCtorEq, imp_false, hkind, hsource,
        not_false_eq_true, true_and]

end Refusing

/-! ## On a volatile store -/

section Volatile

variable {g : Graph VolatileStore} {d : Draft} {ends : Endpoints}
  {endpoints : Option Endpoints} {c : Category} {x : EntityId}

theorem not_vacant_iff : ¬g.Vacant x ↔ x ∈ g.store.entities := by
  rw [vacant_iff, Std.ExtTreeMap.mem_iff_isSome_getElem?,
    Option.isSome_iff_ne_none]

theorem saveLink_taken
    (hs : Keyed g.store) (htaken : g.linkRefusal? d ends = none) :
    saveLink d ends g = (.ok d.id, g.saved (d.entity (some ends))) := by
  obtain ⟨hadmits, hsource, htarget⟩ := linkRefusal?_eq_none.mp htaken
  rw [not_vacant_iff] at hsource htarget
  have hmissing : g.missingEndpoint? ends = none := by
    simp [missingEndpoint?, hsource, htarget]
  rw [saveLink_run hs, if_pos hadmits, hmissing]

/-- Next to the saved id only the source that it had loses the id, and only the
source that it gets has it from then on. -/
theorem entities_saved_of_ne (hs : Keyed g.store) (hx : x ≠ d.id) :
    (g.saved (d.entity endpoints)).store.entities[x]? =
      if (d.entity endpoints).source? = some x then
  g.store.entities[x]?.map (·.linked d.id)
      else if g.store.sourceOf d.id = some x then
  g.store.entities[x]?.map (·.unlinked d.id)
      else g.store.entities[x]? := by
  have hid : (d.entity endpoints).id = d.id := rfl
  rw [saved, store_notified, VolatileStore.entities_attached,
    VolatileStore.entities_replaced hs, hid, if_neg hx]
  by_cases hold : g.store.sourceOf d.id = some x
  · simp only [hold, if_true, Option.map_map]
    congr 2
    funext e
    exact e.linked_unlinked d.id
  · simp only [hold, if_false]

theorem mem_bucket_saved (hs : Indexed g.store) :
    x ∈ (g.saved (d.entity endpoints)).store.bucket c ↔
      if x = d.id then c ∈ (d.entity endpoints).categories
      else x ∈ g.store.bucket c := by
  have hid : (d.entity endpoints).id = d.id := rfl
  have hbucket : (g.saved (d.entity endpoints)).store.bucket c =
      (g.store.replaced (d.entity endpoints)).bucket c := by
    rw [saved, store_notified, VolatileStore.bucket,
      VolatileStore.index_attached, VolatileStore.bucket]
  rw [hbucket, (hs.replaced _).member,
    VolatileStore.carries_replaced hs.keyed, hid]
  split
  · exact Iff.rfl
  · exact (hs.member c x).symm

theorem indexed_saved
    (hs : Indexed g.store) (e : Entity) :
    Indexed (g.saved e).store :=
  (hs.replaced e).attached e

theorem mem_saved
    (hs : Keyed g.store) (hx : x ∈ g.store.entities) (e : Entity) :
    x ∈ (g.saved e).store.entities := by
  rw [saved, store_notified, VolatileStore.mem_attached,
    VolatileStore.mem_replaced hs]
  exact Or.inr hx

/-- Saving the same link again is not refused either, and changes nothing of the
store. -/
theorem saved_again
    (hs : Indexed g.store) (htaken : g.linkRefusal? d ends = none) :
    (g.saved (d.entity (some ends))).linkRefusal? d ends = none ∧
      ((g.saved (d.entity (some ends))).saved (d.entity (some ends))).store =
        (g.saved (d.entity (some ends))).store := by
  obtain ⟨hadmits, hsource, htarget⟩ := linkRefusal?_eq_none.mp htaken
  rw [not_vacant_iff] at hsource htarget
  have hstored {v : Graph VolatileStore} (hv : ends.source ∈ v.store.entities)
      (y : EntityId) (hy : (d.entity (some ends)).source? = some y) :
      y ∈ v.store.entities := by
    obtain rfl : ends.source = y := Option.some.inj hy
    exact hv
  have hs' := indexed_saved hs (d.entity (some ends))
  have hsource' := mem_saved hs.keyed hsource (d.entity (some ends))
  constructor
  · refine linkRefusal?_eq_none.mpr ⟨hadmits, ?_, ?_⟩
    · exact not_vacant_iff.mpr hsource'
    · exact not_vacant_iff.mpr (mem_saved hs.keyed htarget _)
  · have hfirst := saved_touches hs.keyed (hstored hsource)
    have hsecond := saved_touches hs'.keyed (hstored hsource')
    refine (indexed_saved hs' (d.entity (some ends))).eq_of_share_eq hs'
      fun x => ?_
    by_cases hx : x = d.id
    · subst hx
      rw [hsecond.own, hfirst.own, Share.saved_saved]
    · exact hsecond.others x hx

end Volatile

/-! ## On faithful stores -/

section Faithful

variable {σ : Type} [EntityStore σ]

/-- The entity is a new link as a draft says.  It has the back-references that
are carried on, and its own id if it is its own source. -/
structure IsLink
    (d : Draft) (ends : Endpoints) (carried : EntityId → Prop) (e : Entity) :
    Prop where
  id : e.id = d.id
  endpoints : e.endpoints = some ends
  kind : e.kind = d.kind
  owner : e.owner = d.owner
  serial : e.serial = 1
  attributes : e.attributes = d.attributes.decoded
  mixin (c : Category) : c ∈ e.mixins ↔ c ∈ d.mixins ∧ c ≠ d.kind
  link (l : EntityId) :
    l ∈ e.linkedFrom ↔ (l = d.id ∧ ends.source = d.id) ∨ carried l

/-- From `g` to `g'` a link has been saved, and its handler has been told once.
The entities under other ids are as before, but that its id has gone from the
back-references of the source that it had to those of the source that it has;
the buckets are as before for all ids but its own. -/
structure LinkSaved (d : Draft) (ends : Endpoints) (g g' : Graph σ) : Prop where
  saved : ∃ e, g'.Stores d.id e ∧
    IsLink d ends (fun l => ∃ p, g.Stores d.id p ∧ l ∈ p.linkedFrom) e
  oldSource {y : EntityId} : g.StartsAt d.id y → y ≠ d.id → y ≠ ends.source →
    ∃ e, g.Stores y e ∧ d.id ∈ e.linkedFrom ∧
      g'.Stores y { e with linkedFrom := e.linkedFrom.erase d.id }
  newSource : ends.source ≠ d.id → ∃ e, g.Stores ends.source e ∧
    g'.Stores ends.source { e with linkedFrom := e.linkedFrom.insert d.id }
  others {y : EntityId} : y ≠ d.id → y ≠ ends.source → ¬g.StartsAt d.id y →
    EntityStore.get g'.store y = EntityStore.get g.store y
  buckets (c : Category) : ∃ ids ids', EntityStore.members g.store c = .ok ids ∧
    EntityStore.members g'.store c = .ok ids' ∧
    (d.id ∈ ids' ↔ c = d.kind ∨ c ∈ d.mixins) ∧
    ∀ x, x ≠ d.id → (x ∈ ids' ↔ x ∈ ids)
  told : ∃ p, Calls g g' [(.created, p)] ∧ p.id = d.id ∧ p.kind = d.kind

theorem isLink_of_saved
    {v : Graph VolatileStore} (hs : Keyed v.store) {d : Draft}
    {ends : Endpoints} (hsource : ends.source ∈ v.store.entities) :
    ∃ e, (v.saved (d.entity (some ends))).store.entities[d.id]? = some e ∧
      IsLink d ends (v.store.Hangs · d.id) e := by
  have hbare := bare_saved hs d (some ends) d.id
  rw [if_pos rfl, Option.map_eq_some_iff] at hbare
  obtain ⟨e, he, hbare⟩ := hbare
  have hview {α : Type} (view : Entity → α) :
      view e.bare = view (d.entity (some ends)) :=
    congrArg view hbare
  refine ⟨e, he, hview Entity.id, hview Entity.endpoints, hview Entity.kind,
    hview Entity.owner, hview Entity.serial, hview Entity.attributes,
    fun c => ?_, fun l => ?_⟩
  · have hmixins : e.mixins = (d.entity (some ends)).mixins :=
      hview Entity.mixins
    rw [hmixins]
    simp [Draft.entity]
  · have hhangs : l ∈ e.linkedFrom ↔
        (v.saved (d.entity (some ends))).store.Hangs l d.id := by
      simp [VolatileStore.Hangs, he]
    have hstored : ∀ y, (d.entity (some ends)).source? = some y →
        y ∈ v.store.entities := by
      rintro y hy
      obtain rfl : ends.source = y := Option.some.inj hy
      exact hsource
    rw [hhangs, saved, store_notified, VolatileStore.hangs_saved hs rfl hstored]
    simp [Draft.entity, Entity.source?]

theorem LinkSaved.of_saved
    {g g' : Graph σ} {v : Graph VolatileStore} {d : Draft} {ends : Endpoints}
    (hindexed : Indexed v.store) (hanchored : Anchored v.store)
    (hg : Agrees g.store v.store)
    (hg' : Agrees g'.store (v.saved (d.entity (some ends))).store)
    (hsource : ends.source ∈ v.store.entities)
    (htold : ∃ p, Calls g g' [(.created, p)] ∧ p.id = d.id ∧ p.kind = d.kind) :
    LinkSaved d ends g g' where
  saved := by
    obtain ⟨e, he, hlink⟩ := isLink_of_saved hanchored.keyed hsource
    refine ⟨e, (stores_iff hg').mpr he, ?_⟩
    simp only [stores_iff hg]
    exact hlink
  oldSource {y} hold hid hnew := by
    rw [startsAt_iff hg] at hold
    obtain ⟨e, he, hmem⟩ := hanchored.complete hold
    refine ⟨e, (stores_iff hg).mpr he, hmem, (stores_iff hg').mpr ?_⟩
    have hother : (d.entity (some ends)).source? ≠ some y :=
      fun h => hnew (Option.some.inj h).symm
    rw [entities_saved_of_ne hanchored.keyed hid, if_neg hother,
      if_pos hold, he]
    rfl
  newSource hid := by
    obtain ⟨e, he⟩ := Option.isSome_iff_exists.mp
      (Std.ExtTreeMap.mem_iff_isSome_getElem?.mp hsource)
    refine ⟨e, (stores_iff hg).mpr he, (stores_iff hg').mpr ?_⟩
    have hself : (d.entity (some ends)).source? = some ends.source := rfl
    rw [entities_saved_of_ne hanchored.keyed hid, if_pos hself, he]
    rfl
  others {y} hid hnew hold := by
    have hother : (d.entity (some ends)).source? ≠ some y :=
      fun h => hnew (Option.some.inj h).symm
    rw [startsAt_iff hg] at hold
    rw [hg'.get, hg.get, entities_saved_of_ne hanchored.keyed hid,
      if_neg hother, if_neg hold]
  buckets c := by
    refine ⟨_, _, hg.members c, hg'.members c, ?_, fun x hx => ?_⟩
    · rw [Std.ExtTreeSet.mem_toList, mem_bucket_saved hindexed, if_pos rfl,
        Entity.mem_categories]
      by_cases hc : c = d.kind
      · simp [Draft.entity, hc]
      · simp [Draft.entity, hc]
    · rw [Std.ExtTreeSet.mem_toList, Std.ExtTreeSet.mem_toList,
        mem_bucket_saved hindexed, if_neg hx]
  told := htold

variable [FaithfulStore σ] {g g' : Graph σ} {v : Graph VolatileStore}
  {d : Draft} {ends : Endpoints} {ops : List Operation}

theorem Mirrors.linkRefusal?_eq
    (h : Mirrors g v) (d : Draft) (ends : Endpoints) :
    g.linkRefusal? d ends = v.linkRefusal? d ends := by
  simp only [linkRefusal?, h.vacant_iff, h.related.registry,
    h.related.validates]

/-- A link that is not refused is saved, and its handler is told. -/
theorem Mirrors.saveLink_taken
    (h : Mirrors g v) (hop : g.Unfailing [.saveLink d ends])
    (htaken : g.linkRefusal? d ends = none) :
    ∃ g', saveLink d ends g = (.ok d.id, g') ∧
      Mirrors g' (v.saved (d.entity (some ends))) ∧
      ∃ p, Calls g g' [(.created, p)] ∧ p.id = d.id ∧ p.kind = d.kind := by
  have hrun := Graph.saveLink_taken h.indexed.keyed
    ((h.linkRefusal?_eq d ends).symm.trans htaken)
  have hperform : (Operation.saveLink d ends).perform g =
      ((saveLink d ends g).1.map fun _ => (), (saveLink d ends g).2) := by
    rw [Operation.perform, forget_run]
  have hreadable :
      Readable ((Operation.saveLink d ends).perform g).2.store := hop.2.2
  rw [hperform] at hreadable
  rcases saveLink_simulates d ends g v h.related with
    ⟨hanswer, hrelated⟩ | ⟨e, he, hrefusal⟩
  · rw [hrun] at hanswer hrelated
    have hcalls : Calls v (v.saved (d.entity (some ends)))
        [(.created, v.store.merged (d.entity (some ends)))] :=
      .notified v _ _ (by simp)
    exact ⟨_, Prod.ext hanswer rfl, ⟨hrelated, indexed_saved h.indexed _,
      hreadable⟩, _, h.related.calls hrelated hcalls,
      VolatileStore.merged_id _ _, VolatileStore.merged_kind _ _⟩
  · have hfails : ((Operation.saveLink d ends).perform g).1 = .error e := by
      rw [hperform, he]
      rfl
    have := hop.2.1 e hfails
    simp [hrefusal] at this

/-- After any run on which no call on the store fails, a link is refused, which
changes nothing, or saved; and saving it again changes nothing that a graph
shows. -/
theorem saveLink_after (hg : g.Fresh) (hlocal : ∀ op ∈ ops, op.isLocal)
    (hops : g.Unfailing (ops ++ [.saveLink d ends])) :
    (∀ error, (g.after ops).linkRefusal? d ends = some error →
      saveLink d ends (g.after ops) = (.error error, g.after ops)) ∧
    ((g.after ops).linkRefusal? d ends = none →
      ∃ g', saveLink d ends (g.after ops) = (.ok d.id, g') ∧
        LinkSaved d ends (g.after ops) g' ∧
        (g'.Unfailing [.saveLink d ends] →
          ∃ g'', saveLink d ends g' = (.ok d.id, g'') ∧ Matches g'' g')) := by
  obtain ⟨hbefore, hop⟩ := unfailing_append.mp hops
  have h := (hg.mirrors hbefore.start).after hbefore
  have hanchored : Anchored (g.emptied.after ops).store :=
    anchored_after (g := g.emptied) VolatileStore.anchored_empty hlocal
  generalize g.after ops = before at *
  generalize g.emptied.after ops = v at *
  refine ⟨fun error hrefusal => saveLink_refused h.agrees hrefusal,
    fun htaken => ?_⟩
  obtain ⟨g', hrun, h', htold⟩ := h.saveLink_taken hop htaken
  have htaken' := (h.linkRefusal?_eq d ends).symm.trans htaken
  obtain ⟨-, hsource, -⟩ := linkRefusal?_eq_none.mp htaken'
  refine ⟨g', hrun, .of_saved h.indexed hanchored h.agrees h'.agrees
    (not_vacant_iff.mp hsource) htold, fun hagain => ?_⟩
  obtain ⟨htakenAgain, hsame⟩ := saved_again h.indexed htaken'
  obtain ⟨g'', hrun', h'', -⟩ :=
    h'.saveLink_taken hagain ((h'.linkRefusal?_eq d ends).trans htakenAgain)
  exact ⟨g'', hrun', matches_of_agrees h''.agrees (hsame ▸ h'.agrees)⟩

end Faithful

/-- A link to itself, which has to be a resource first so that its target is
stored, and a second link that starts at it. -/
def linkedLink : List Operation :=
  [.saveResource { id := "a", kind := "k" },
    .saveLink { id := "l", kind := "k" } ⟨"a", "l"⟩,
    .saveResource { id := "l", kind := "k" },
    .saveLink { id := "l", kind := "k" } ⟨"a", "l"⟩,
    .saveLink { id := "m", kind := "k" } ⟨"l", "a"⟩]

/-- The link is saved again as a link from the second one: it leaves its old
source, is known to its new one, and keeps the second link. -/
theorem saveLink_after_linkedLink :
    ∃ g' e, saveLink { id := "l", kind := "k" } ⟨"m", "a"⟩
        (.after { store := ({} : VolatileStore) } linkedLink) = (.ok "l", g') ∧
      g'.Stores "l" e ∧ e.endpoints = some ⟨"m", "a"⟩ ∧ "m" ∈ e.linkedFrom ∧
      (∃ a, g'.Stores "a" a ∧ "l" ∉ a.linkedFrom) ∧
      ∃ m, g'.Stores "m" m ∧ "l" ∈ m.linkedFrom := by
  have hfresh : Fresh { store := ({} : VolatileStore) } :=
    ⟨⟨rfl, VolatileStore.keyed_empty⟩, rfl⟩
  have hlocal : ∀ op ∈ linkedLink, op.isLocal := by decide
  have hops :=
    unfailing_volatile (g := { store := {} }) VolatileStore.keyed_empty
      (linkedLink ++ [.saveLink { id := "l", kind := "k" } ⟨"m", "a"⟩])
  have htaken :
      linkRefusal? (.after { store := ({} : VolatileStore) } linkedLink)
        { id := "l", kind := "k" } ⟨"m", "a"⟩ = none := by decide +kernel
  have hl : Graph.Stores (.after { store := ({} : VolatileStore) } linkedLink)
      "l" { id := "l", kind := "k", endpoints := some ⟨"a", "l"⟩,
            linkedFrom := .ofList ["m"] } := by
    refine congrArg Except.ok ?_
    decide +kernel
  obtain ⟨g', hrun, hsaved, -⟩ := (saveLink_after hfresh hlocal hops).2 htaken
  obtain ⟨e, he, hlink⟩ := hsaved.saved
  obtain ⟨a, -, -, ha⟩ := hsaved.oldSource ⟨_, hl, rfl⟩ (by decide) (by decide)
  obtain ⟨m, -, hm⟩ := hsaved.newSource (by decide)
  refine ⟨g', e, hrun, he, hlink.endpoints,
    (hlink.link "m").mpr (Or.inr ⟨_, hl, by decide⟩), ⟨_, ha, ?_⟩, _, hm, ?_⟩
  · simp
  · simp

end Graph

end LinkGraph
