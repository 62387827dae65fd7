import LinkGraph.Proofs.Graph.Attempts
import LinkGraph.Proofs.Graph.Dissociating
import LinkGraph.Proofs.Graph.Listing
import LinkGraph.Proofs.Graph.Matching
import LinkGraph.Proofs.Graph.Serials

/-!
# Associating a mixin

A mixin is associated with the listed entities one after the other, and each of
them is read and written anew, so that one that is listed twice is found to
carry the mixin the second time.  What a list does is therefore a matter of
which ids are in it, and a list can be cut in two anywhere.
-/

namespace LinkGraph

namespace Entity

variable {e : Entity} {mixin c : Category}

theorem mem_categories_associated :
    c ∈ (e.associated mixin).categories ↔ c = mixin ∨ c ∈ e.categories := by
  unfold associated
  split
  · exact VolatileStore.mem_categories_gaining
  · next hcarries =>
    rw [not_and_or, not_not, not_not] at hcarries
    have hmixin : mixin ∈ e.categories :=
      mem_categories.mpr (hcarries.imp_left Eq.symm)
    refine ⟨Or.inr, ?_⟩
    rintro (rfl | hc)
    · exact hmixin
    · exact hc

end Entity

namespace VolatileStore

variable {s t t' : VolatileStore} {mixin c : Category}
  {ids ids' : List EntityId} {x : EntityId}

/-- A mixin has been associated with the entities of a list, and the index is
exact before and after. -/
structure Associated
    (mixin : Category) (ids : List EntityId) (s t : VolatileStore) : Prop where
  before : s.Indexed
  after : t.Indexed
  entities (x : EntityId) : t.entities[x]? =
    if x ∈ ids then s.entities[x]?.map (.associated mixin) else s.entities[x]?

namespace Associated

theorem carries_iff (h : Associated mixin ids s t) :
    t.Carries x c ↔ s.Carries x c ∨ (c = mixin ∧ x ∈ ids ∧ x ∈ s.entities) := by
  unfold Carries
  rw [h.entities, Std.ExtTreeMap.mem_iff_isSome_getElem?]
  cases s.entities[x]? with
  | none => simp
  | some e =>
    by_cases hx : x ∈ ids
    · simp [hx, Entity.mem_categories_associated, or_comm]
    · simp [hx]

theorem bucket_of_ne
    (h : Associated mixin ids s t) (hc : c ≠ mixin) :
    t.bucket c = s.bucket c := by
  apply Std.ExtTreeSet.ext_mem
  intro x
  rw [h.after.member, h.before.member, h.carries_iff]
  simp [hc]

theorem mem_bucket_self (h : Associated mixin ids s t) :
    x ∈ t.bucket mixin ↔ x ∈ s.bucket mixin ∨ (x ∈ ids ∧ x ∈ s.entities) := by
  rw [h.after.member, h.before.member, h.carries_iff]
  simp

/-- Only which ids are listed matters. -/
theorem unique (h : Associated mixin ids s t) (h' : Associated mixin ids' s t')
    (hids : ∀ x, x ∈ ids' ↔ x ∈ ids) : t' = t := by
  refine h'.after.eq_of_entities_eq h.after
    (Std.ExtTreeMap.ext_getElem? fun x => ?_)
  simp only [h'.entities, h.entities, hids]

/-- Associating a mixin with entities of which none can take it changes
nothing. -/
theorem eq_self
    (h : Associated mixin ids s t)
    (hsettled : ∀ x ∈ ids, ∀ e, s.entities[x]? = some e →
      ¬(e.kind ≠ mixin ∧ mixin ∉ e.mixins)) :
    t = s := by
  refine h.after.eq_of_entities_eq h.before
    (Std.ExtTreeMap.ext_getElem? fun x => ?_)
  rw [h.entities]
  split
  · next hx => exact Graph.map_eq_self fun e he => if_neg (hsettled x hx e he)
  · rfl

/-- Whom the mixin has been associated with carries it, or is of that kind. -/
theorem settled {e : Entity} (h : Associated mixin ids s t) (hx : x ∈ ids)
    (he : t.entities[x]? = some e) : ¬(e.kind ≠ mixin ∧ mixin ∉ e.mixins) := by
  rw [h.entities, if_pos hx] at he
  obtain ⟨p, -, rfl⟩ := Option.map_eq_some_iff.mp he
  have hmem : mixin ∈ (p.associated mixin).categories :=
    Entity.mem_categories_associated.mpr (Or.inl rfl)
  rintro ⟨hkind, hmixin⟩
  rcases Entity.mem_categories.mp hmem with hself | hcarries
  · exact hkind hself.symm
  · exact hmixin hcarries

end Associated

end VolatileStore

/-! ## Scripts -/

section Scripts

variable {σ : Type} [EntityStore σ]

/-- What shows of a request: its answer, and the graph after it. -/
def GraphRequest.outcome (g : Graph σ) (request : GraphRequest) :
    Σ α : Type, Except StoreError α × Graph σ :=
  ⟨request.Answer, request.perform g⟩

/-- What shows of requests made one after the other. -/
def Graph.outcomes :
    Graph σ → List GraphRequest →
      List (Σ α : Type, Except StoreError α × Graph σ)
  | _, [] => []
  | g, request :: script =>
    request.outcome g :: outcomes (request.perform g).2 script

/-- The same request, but that a mixin may be associated again instead of being
associated. -/
inductive GraphRequest.Retitled : GraphRequest → GraphRequest → Prop
  | same (request : GraphRequest) : Retitled request request
  | again (mixin : Category) (ids : List EntityId) :
      Retitled (.operate (.saveMixin mixin ids))
        (.operate (.updateMixin mixin ids))

theorem Graph.outcomes_retitled {script script' : List GraphRequest}
    (h : List.Forall₂ GraphRequest.Retitled script script') (g : Graph σ) :
    g.outcomes script = g.outcomes script' := by
  induction h generalizing g with
  | nil => rfl
  | cons hrequest _ ih =>
    cases hrequest with
    | same => exact congrArg (List.cons _) (ih _)
    | again => exact congrArg (List.cons _) (ih _)

end Scripts

namespace Graph

open FaithfulStore (Holds)
open VolatileStore (Keyed Indexed Associated)

/-! ## On a volatile store -/

section Volatile

variable {v : Graph VolatileStore} {mixin : Category} {ids a b : List EntityId}

/-- On a volatile store a batch makes no difference. -/
theorem saveMixin_run
    (hs : Keyed v.store) (mixin : Category) (ids : List EntityId) :
    saveMixin mixin ids v = ids.forM (associate mixin) v := by
  obtain ⟨v', hrun, -⟩ := Retags.forM (associate_retags mixin) ids v hs
  rw [saveMixin, batched_run_ok hrun, hrun]

theorem saveMixin_ok
    (hs : Keyed v.store) (mixin : Category) (ids : List EntityId) :
    (saveMixin mixin ids v).1 = .ok () := by
  obtain ⟨v', hrun, -⟩ := saveMixin_retags mixin ids v hs
  rw [hrun]

theorem saveMixin_associated
    (hs : Indexed v.store) (mixin : Category) (ids : List EntityId) :
    Associated mixin ids v.store (saveMixin mixin ids v).2.store where
  before := hs
  after := hs.perform (.saveMixin mixin ids)
  entities := entities_saveMixin hs.keyed mixin ids

/-- A list of ids can be cut in two: the second part finds what the first has
left. -/
theorem saveMixin_append
    (hs : Keyed v.store) (mixin : Category) (a b : List EntityId) :
    saveMixin mixin (a ++ b) v = saveMixin mixin b (saveMixin mixin a v).2 := by
  obtain ⟨v', hrun, hs', -⟩ := Retags.forM (associate_retags mixin) a v hs
  rw [saveMixin_run hs, saveMixin_run hs, hrun, saveMixin_run hs']
  change forM (a ++ b) (associate mixin) v = _
  rw [List.forM_append]
  exact bind_run_ok hrun

/-- Without anybody who can take the mixin, nobody is told of it. -/
theorem saveMixin_journal
    (hs : Keyed v.store)
    (hsettled : ∀ x ∈ ids, ∀ e, v.store.entities[x]? = some e →
      ¬(e.kind ≠ mixin ∧ mixin ∉ e.mixins))
    (hjournal : v.journal = []) :
    (saveMixin mixin ids v).2.journal = [] := by
  obtain ⟨es, hcalls, -, hmem⟩ := saveMixin_calls hs mixin ids
  obtain rfl : es = [] := by
    refine List.eq_nil_iff_forall_not_mem.mpr fun e he => ?_
    obtain ⟨hid, hstored, hlacks⟩ := (hmem e).mp he
    exact hsettled e.id hid e hstored hlacks
  have htranscript := hcalls.transcript
  rw [transcript, transcript, hjournal] at htranscript
  exact List.map_eq_nil_iff.mp htranscript

end Volatile

/-! ## On faithful stores -/

section Faithful

variable {σ : Type} [EntityStore σ]

/-- From `g` to `g'` a mixin has been associated with exactly the listed
entities that were neither of that kind nor carried it, with their serials
counted on, and nothing else has become of any entity.  These have been added to
the bucket of its name, and all other buckets are as before. -/
structure Associates
    (mixin : Category) (ids : List EntityId) (g g' : Graph σ) : Prop where
  gained {x : EntityId} {e : Entity} :
    g.Stores x e → x ∈ ids → e.kind ≠ mixin → mixin ∉ e.mixins →
    ∃ serial, g'.Stores x { e with mixins := e.mixins.insert mixin, serial } ∧
      serial.toNat = min (e.serial.toNat + 1) Entity.maxSerial
  kept {x : EntityId} {e : Entity} : g.Stores x e →
    (x ∈ ids → e.kind = mixin ∨ mixin ∈ e.mixins) → g'.Stores x e
  vacant {x : EntityId} : g.Vacant x → g'.Vacant x
  own : ∃ members members', EntityStore.members g.store mixin = .ok members ∧
    EntityStore.members g'.store mixin = .ok members' ∧
    EntityStore.hasCategory g'.store mixin = .ok (members' ≠ []) ∧
    ∀ x, x ∈ members' ↔ x ∈ members ∨
      (x ∈ ids ∧ ∃ e, g.Stores x e ∧ e.kind ≠ mixin ∧ mixin ∉ e.mixins)
  others {c : Category} : c ≠ mixin →
    EntityStore.members g'.store c = EntityStore.members g.store c ∧
      EntityStore.hasCategory g'.store c = EntityStore.hasCategory g.store c

theorem Associates.of_associated
    {g g' : Graph σ} {s t : VolatileStore} {mixin : Category}
    {ids : List EntityId} (h : Associated mixin ids s t) (hg : Agrees g.store s)
    (hg' : Agrees g'.store t) :
    Associates mixin ids g g' where
  gained {x e} he hx hkind hmixin := by
    have he := (stores_iff hg).mp he
    refine ⟨e.bump.serial, ?_, e.toNat_serial_bump⟩
    rw [stores_iff hg', h.entities, if_pos hx, he, Option.map_some,
      Entity.associated, if_pos ⟨hkind, hmixin⟩]
    rfl
  kept {x e} he hsettled := by
    have he := (stores_iff hg).mp he
    rw [stores_iff hg', h.entities, he]
    split
    · next hx =>
      have hsame : e.associated mixin = e :=
        if_neg fun hlacks => (hsettled hx).elim hlacks.1 hlacks.2
      rw [Option.map_some, hsame]
    · rfl
  vacant {x} hx := by
    rw [vacant_iff_of_agrees hg] at hx
    rw [vacant_iff_of_agrees hg', h.entities, hx, Option.map_none, ite_self]
  own := by
    refine ⟨_, _, hg.members mixin, hg'.members mixin, ?_, fun x => ?_⟩
    · rw [hg'.hasCategory, Except.ok.injEq, Bool.eq_iff_iff, decide_eq_true_iff]
      exact h.after.pruned.mem_index
    · rw [Std.ExtTreeSet.mem_toList, Std.ExtTreeSet.mem_toList,
        h.mem_bucket_self]
      simp only [stores_iff hg]
      constructor
      · rintro (hmember | ⟨hx, hstored⟩)
        · exact Or.inl hmember
        · -- Whoever is of that kind or carries the mixin is a member already.
          obtain ⟨e, he⟩ :=
            Option.isSome_iff_exists.mp
              (Std.ExtTreeMap.mem_iff_isSome_getElem?.mp hstored)
          by_cases hlacks : e.kind ≠ mixin ∧ mixin ∉ e.mixins
          · exact Or.inr ⟨hx, e, he, hlacks⟩
          · rw [not_and_or, not_not, not_not] at hlacks
            exact Or.inl ((h.before.member mixin x).mpr
              ⟨e, he, Entity.mem_categories.mpr (hlacks.imp_left Eq.symm)⟩)
      · rintro (hmember | ⟨hx, e, he, -⟩)
        · exact Or.inl hmember
        · exact Or.inr ⟨hx, VolatileStore.mem_of_getElem? he⟩
  others {c} hc := by
    have hbucket := h.bucket_of_ne hc
    constructor
    · rw [hg'.members, hg.members, hbucket]
    · rw [hg'.hasCategory, hg.hasCategory, Except.ok.injEq, Bool.eq_iff_iff]
      refine h.after.pruned.mem_index.trans
        (Iff.trans ?_ h.before.pruned.mem_index.symm)
      rw [hbucket]

variable [FaithfulStore σ] {g : Graph σ} {v : Graph VolatileStore}
  {mixin : Category} {ids : List EntityId} {ops : List Operation}

theorem Mirrors.saveMixin_done
    (h : Mirrors g v) (hop : g.Unfailing [.saveMixin mixin ids]) :
    ∃ g', saveMixin mixin ids g = (.ok (), g') ∧
      Mirrors g' (saveMixin mixin ids v).2 := by
  obtain ⟨hanswer, hmirrors⟩ := h.perform hop
  exact ⟨_, Prod.ext (hanswer.trans (saveMixin_ok h.indexed.keyed mixin ids))
    rfl, hmirrors⟩

/-- Where nobody listed can take the mixin, nothing happens. -/
theorem Mirrors.saveMixin_settled
    (h : Mirrors g v) (hop : g.Unfailing [.saveMixin mixin ids])
    (hsettled : ∀ x ∈ ids, ∀ e, v.store.entities[x]? = some e →
      ¬(e.kind ≠ mixin ∧ mixin ∉ e.mixins)) :
    ∃ g', saveMixin mixin ids g = (.ok (), g') ∧ Unmoved g g' := by
  obtain ⟨g', hrun, h'⟩ := h.saveMixin_done hop
  have hsame := (saveMixin_associated h.indexed mixin ids).eq_self hsettled
  obtain ⟨-, hmimics⟩ := perform_upon h.related.store hop.2.1
  obtain ⟨entries, hjournal, hentries⟩ := hmimics.journal
  have hsilent :
      ((Operation.saveMixin mixin ids).perform
        (g.upon v.store)).2.journal = [] :=
    saveMixin_journal (v := g.upon v.store) h.indexed.keyed hsettled rfl
  rw [hsilent, List.forall₂_nil_right_iff] at hentries
  subst hentries
  have hperform : ((Operation.saveMixin mixin ids).perform g).2 = g' :=
    congrArg Prod.snd hrun
  rw [hperform, List.append_nil] at hjournal
  exact ⟨g', hrun, matches_of_agrees (hsame ▸ h'.agrees) h.agrees, hjournal⟩

/-- After any run on which no call on the store fails, a mixin is associated
with whoever is listed and can take it.  Order and repetitions in the list do
not matter, a list may be cut in two, and doing so again does nothing.  In no
script does it matter whether a mixin is associated or associated again. -/
theorem associates_after
    (hg : g.Fresh) (hops : g.Unfailing (ops ++ [.saveMixin mixin ids])) :
    ∃ g', saveMixin mixin ids (g.after ops) = (.ok (), g') ∧
      Associates mixin ids (g.after ops) g' ∧
      (∀ ids', (∀ x, x ∈ ids' ↔ x ∈ ids) →
        (g.after ops).Unfailing [.saveMixin mixin ids'] →
        ∃ g'', saveMixin mixin ids' (g.after ops) = (.ok (), g'') ∧
          Matches g'' g') ∧
      (∀ a b, ids = a ++ b →
        (g.after ops).Unfailing [.saveMixin mixin a, .saveMixin mixin b] →
        ∃ g₁ g₂, saveMixin mixin a (g.after ops) = (.ok (), g₁) ∧
          saveMixin mixin b g₁ = (.ok (), g₂) ∧ Matches g₂ g' ∧
          g₂.transcript = g'.transcript) ∧
      (g'.Unfailing [.saveMixin mixin ids] →
        ∃ g'', saveMixin mixin ids g' = (.ok (), g'') ∧ Unmoved g' g'') ∧
      ∀ (start : Graph σ) (script script' : List GraphRequest),
        List.Forall₂ GraphRequest.Retitled script script' →
        start.outcomes script = start.outcomes script' := by
  obtain ⟨hbefore, hop⟩ := unfailing_append.mp hops
  have h := (hg.mirrors hbefore.start).after hbefore
  generalize g.after ops = before at *
  generalize g.emptied.after ops = v at *
  obtain ⟨g', hrun, h'⟩ := h.saveMixin_done hop
  have hassociated := saveMixin_associated h.indexed mixin ids
  refine ⟨g', hrun, .of_associated hassociated h.agrees h'.agrees, ?_,
    ?_, ?_, ?_⟩
  · intro ids' hids hop'
    obtain ⟨g'', hrun', h''⟩ := h.saveMixin_done hop'
    have hsame :=
      hassociated.unique (saveMixin_associated h.indexed mixin ids') hids
    exact ⟨g'', hrun', matches_of_agrees (hsame ▸ h''.agrees) h'.agrees⟩
  · rintro a b rfl hparts
    change before.Unfailing ([.saveMixin mixin a] ++ [.saveMixin mixin b])
      at hparts
    obtain ⟨hfirst, hsecond⟩ := unfailing_append.mp hparts
    obtain ⟨g₁, hrun₁, h₁⟩ := h.saveMixin_done hfirst
    have hstate : before.after [.saveMixin mixin a] = g₁ :=
      congrArg Prod.snd hrun₁
    rw [hstate] at hsecond
    obtain ⟨g₂, hrun₂, h₂⟩ := h₁.saveMixin_done hsecond
    rw [← saveMixin_append h.indexed.keyed] at h₂
    refine ⟨g₁, g₂, hrun₁, hrun₂, matches_of_agrees h₂.agrees h'.agrees, ?_⟩
    rw [h₂.related.transcript_eq, h'.related.transcript_eq]
  · exact fun hagain => h'.saveMixin_settled hagain fun x hx e he =>
      hassociated.settled hx he
  · exact fun start script script' hscript => outcomes_retitled hscript start

end Faithful

/-- An entity that has been counted on as often as there are serials, one whose
kind is the mixin, and one that carries it. -/
def taggable : List Operation :=
  [.restore [{ id := "a", kind := "k", serial := 0xFFFFFFFFFFFFFFFF },
    { id := "b", kind := "m" },
    { id := "c", kind := "k", mixins := .ofList ["m"] }]]

/-- Only the first gains the mixin and keeps its serial, though it is listed
twice and another id is not stored; so it does if the list is given in another
order and cut in two. -/
theorem associates_after_listedTwice :
    ∃ g' e g'' g₂, saveMixin "m" ["a", "z", "b", "a", "c"]
        (.after { store := ({} : VolatileStore) } taggable) = (.ok (), g') ∧
      g'.Stores "a" e ∧ "m" ∈ e.mixins ∧ e.serial.toNat = Entity.maxSerial ∧
      saveMixin "m" ["c", "b", "z", "a"]
        (.after { store := ({} : VolatileStore) } taggable) = (.ok (), g'') ∧
      Matches g'' g' ∧
      (∃ g₁, saveMixin "m" ["a", "z"]
          (.after { store := ({} : VolatileStore) } taggable) = (.ok (), g₁) ∧
        saveMixin "m" ["b", "a", "c"] g₁ = (.ok (), g₂)) ∧
      g₂.transcript = g'.transcript := by
  have hsame (x : EntityId) :
      x ∈ ["c", "b", "z", "a"] ↔ x ∈ ["a", "z", "b", "a", "c"] := by
    simp only [List.mem_cons, List.not_mem_nil, or_false]
    tauto
  have hfresh : Fresh { store := ({} : VolatileStore) } :=
    ⟨⟨rfl, VolatileStore.keyed_empty⟩, rfl⟩
  have hops (ops : List Operation) :
      Unfailing { store := ({} : VolatileStore) } (taggable ++ ops) :=
    unfailing_volatile VolatileStore.keyed_empty _
  have hthen (ops : List Operation) :
      Unfailing (.after { store := ({} : VolatileStore) } taggable) ops :=
    (unfailing_append.mp (hops ops)).2
  have ha : Graph.Stores (.after { store := ({} : VolatileStore) } taggable) "a"
      { id := "a", kind := "k", serial := 0xFFFFFFFFFFFFFFFF } := by
    refine congrArg Except.ok ?_
    decide +kernel
  obtain ⟨g', hrun, hassociates, horder, hcut, -, -⟩ :=
    associates_after hfresh (hops [.saveMixin "m" ["a", "z", "b", "a", "c"]])
  obtain ⟨serial, ha', hserial⟩ :=
    hassociates.gained ha (by decide) (by decide) (by decide)
  obtain ⟨g'', hrun', hmatches⟩ := horder ["c", "b", "z", "a"] hsame (hthen _)
  obtain ⟨g₁, g₂, hrun₁, hrun₂, -, htranscript⟩ :=
    hcut ["a", "z"] ["b", "a", "c"] rfl (hthen _)
  refine ⟨g', _, g'', g₂, hrun, ha', ?_, hserial, hrun', hmatches,
    ⟨g₁, hrun₁, hrun₂⟩, htranscript⟩
  simp

end Graph

end LinkGraph
