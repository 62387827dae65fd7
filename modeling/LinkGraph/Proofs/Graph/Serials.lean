import LinkGraph.Proofs.Graph.Lifetime

/-!
# Serials

Several operations rewrite an entity, and only some of them count its serial on.
Since its last save a stored entity has kept its variant, its kind and its
owner, and its serial tells how many operations have changed its attributes or
its mixins, up to the greatest serial there is.
-/

namespace LinkGraph

def Entity.maxSerial : Nat := 2 ^ 64 - 1

section Counting

variable {σ : Type} [EntityStore σ]

/-- The entity stored under an id, none if it cannot be read. -/
def Graph.found? (g : Graph σ) (x : EntityId) : Option Entity :=
  (g.get? x).toOption.join

/-- The operation changes the entity stored under an id without saving it: an
update of it, a mixin that it is listed for and lacks, or the deletion of a name
that is a mixin of it and no entity. -/
def Operation.advances (g : Graph σ) (x : EntityId) : Operation → Bool
  | .update id _ => id = x
  | .saveMixin mixin ids | .updateMixin mixin ids =>
    x ∈ ids && (g.found? x).any fun e => e.kind ≠ mixin && mixin ∉ e.mixins
  | .delete name => g.Vacant name && (g.found? x).any (name ∈ ·.mixins)
  | _ => false

/-- How many of the operations of a run change the entity stored under an id
without saving it. -/
def Graph.advances (g : Graph σ) (x : EntityId) : List Operation → Nat
  | [] => 0
  | op :: ops => (op.advances g x).toNat + Graph.advances (op.perform g).2 x ops

end Counting

namespace Entity

/-- What only a save decides: whether it is a link and between what, the kind
and the owner. -/
def identity (e : Entity) : Option Endpoints × Category × String :=
  (e.endpoints, e.kind, e.owner)

theorem toNat_serial_le (e : Entity) : e.serial.toNat ≤ maxSerial := by
  have hlt := e.serial.toNat_lt
  unfold maxSerial
  omega

theorem serial_of_bare
    {e e' : Entity} (h : e.bare = e'.bare) :
    e.serial = e'.serial := by
  have hserial : e.bare.serial = e'.bare.serial := congrArg Entity.serial h
  exact hserial

theorem toNat_serial_bump (e : Entity) :
    e.bump.serial.toNat = min (e.serial.toNat + 1) maxSerial := by
  have hle := e.serial.toNat_lt
  have hmax : (0xFFFFFFFFFFFFFFFF : UInt64).toNat = maxSerial := rfl
  unfold bump
  by_cases h : e.serial = 0xFFFFFFFFFFFFFFFF
  · simp [h, maxSerial]
  · have hne : e.serial.toNat ≠ maxSerial :=
      fun heq => h (UInt64.toNat_inj.mp (heq.trans hmax.symm))
    have hmaxSerial : maxSerial = 2 ^ 64 - 1 := rfl
    have hsum : (e.serial + 1).toNat = e.serial.toNat + 1 := by
      rw [UInt64.toNat_add]
      exact Nat.mod_eq_of_lt (by simp; omega)
    simp only [h, if_false, hsum]
    omega

end Entity

namespace Graph

variable {σ : Type} [EntityStore σ] {g : Graph σ} {op : Operation}
  {x : EntityId} {e e' : Entity}

theorem found?_of_stores (he : g.Stores x e) : g.found? x = some e := by
  have hget : g.get? x = .ok (some e) := he
  rw [found?, hget]
  rfl

theorem advances_concat
    (g : Graph σ) (x : EntityId) (ops : List Operation) (op : Operation) :
    g.advances x (ops ++ [op]) =
      g.advances x ops + (op.advances (g.after ops) x).toNat := by
  induction ops generalizing g with
  | nil => simp [advances]
  | cons op' ops ih =>
    simp only [List.cons_append, advances, after_cons, ih, Nat.add_assoc]

theorem identity_amend (g : Graph σ) (e : Entity) (op : Operation) :
    (op.amend g e).identity = e.identity :=
  op.amend_induction (P := fun p => p.identity = e.identity) g rfl
    (fun _ => rfl) (fun _ _ _ => rfl)
    fun _ _ => rfl

/-- The serial is counted on exactly when the entity is changed. -/
theorem serial_amend (he : g.Stores x e) (hid : e.id = x) (op : Operation) :
    (op.amend g e).serial =
      if op.advances g x then e.bump.serial else e.serial := by
  have hfound := found?_of_stores he
  subst hid
  cases op with
  | update id attributes =>
    by_cases h : id = e.id
    · simp [Operation.amend, Operation.advances, h, Entity.updated, Entity.bump]
    · simp [Operation.amend, Operation.advances, h]
  | saveMixin mixin ids | updateMixin mixin ids =>
    by_cases h : e.id ∈ ids
    · by_cases hlacks : e.kind ≠ mixin ∧ mixin ∉ e.mixins
      · simp [Operation.amend, Operation.advances, h, hfound, hlacks,
          Entity.associated, Entity.gaining, Entity.bump]
      · simp [Operation.amend, Operation.advances, h, hfound, hlacks,
          Entity.associated]
    · simp [Operation.amend, Operation.advances, h]
  | delete name =>
    by_cases hvacant : g.Vacant name
    · by_cases hcarries : name ∈ e.mixins
      · simp [Operation.amend, Operation.advances, hvacant, hfound, hcarries,
          Entity.dissociated, Entity.losing, Entity.bump]
      · simp [Operation.amend, Operation.advances, hvacant, hfound, hcarries,
          Entity.dissociated]
    · simp [Operation.amend, Operation.advances, hvacant]
  | _ => rfl

theorem toNat_serial_amend
    (he : g.Stores x e) (hid : e.id = x) (op : Operation) :
    (op.amend g e).serial.toNat =
      min (e.serial.toNat + (op.advances g x).toNat) Entity.maxSerial := by
  rw [serial_amend he hid]
  cases op.advances g x with
  | true => exact e.toNat_serial_bump
  | false => exact (Nat.min_eq_left e.toNat_serial_le).symm

/-- The entity is what a draft says but for its attributes, mixins and
back-references, and its serial has been counted on a number of times. -/
structure Accounted
    (d : Draft) (endpoints : Option Endpoints) (count : Nat) (e : Entity) :
    Prop where
  endpoints : e.endpoints = endpoints
  kind : e.kind = d.kind
  owner : e.owner = d.owner
  serial : e.serial.toNat = min (1 + count) Entity.maxSerial

theorem accounted_iff {d : Draft} {endpoints : Option Endpoints} {count : Nat} :
    Accounted d endpoints count e ↔ e.identity = (d.entity endpoints).identity ∧
      e.serial.toNat = min (1 + count) Entity.maxSerial := by
  constructor
  · rintro ⟨rfl, hkind, howner, hserial⟩
    exact ⟨by simp [Entity.identity, Draft.entity, hkind, howner], hserial⟩
  · rintro ⟨hidentity, hserial⟩
    simp only [Entity.identity, Draft.entity, Prod.mk.injEq] at hidentity
    exact ⟨hidentity.1, hidentity.2.1, hidentity.2.2, hserial⟩

theorem accounted_of_saved {d : Draft} {endpoints : Option Endpoints}
    (hbare : e.bare = d.entity endpoints) : Accounted d endpoints 0 e := by
  have hidentity : e.bare.identity = (d.entity endpoints).identity :=
    congrArg Entity.identity hbare
  have hserial : e.bare.serial = 1 := congrArg Entity.serial hbare
  refine accounted_iff.mpr ⟨hidentity, ?_⟩
  change e.bare.serial.toNat = 1
  rw [hserial]
  rfl

theorem Accounted.amended
    {d : Draft} {endpoints : Option Endpoints} {count : Nat}
    (h : Accounted d endpoints count e) (he : g.Stores x e) (hid : e.id = x)
    (hbare : e'.bare = (op.amend g e).bare) :
    Accounted d endpoints (count + (op.advances g x).toNat) e' := by
  obtain ⟨hidentity, hserial⟩ := accounted_iff.mp h
  have hidentity' : e'.identity = e.identity :=
    (congrArg Entity.identity hbare).trans (identity_amend g e op)
  refine accounted_iff.mpr ⟨hidentity'.trans hidentity, ?_⟩
  rw [Entity.serial_of_bare hbare, toNat_serial_amend he hid, hserial]
  omega

variable [FaithfulStore σ] {ops : List Operation}

/-- In a run on which no call on the store fails, an entity has at any time
since its last save the variant, the kind and the owner that it was saved with,
and its serial is one and the number of operations since that have changed it.
From one save to the next it never decreases, and no other operation moves
it. -/
theorem serial_after
    (hg : g.Fresh) (hlocal : ∀ op ∈ ops, op.isLocal) (hops : g.Unfailing ops) :
    (∀ x e, (g.after ops).Stores x e → ∃ before d endpoints rest,
      LastSave g x ops before d endpoints rest ∧ ∀ part, part <+: rest →
        ∃ p, (g.after (before ++ .save d endpoints :: part)).Stores x p ∧
          Accounted d endpoints
            ((g.after (before ++ [.save d endpoints])).advances x part) p) ∧
    ∀ part op x p p', part ++ [op] <+: ops → ¬op.Saves (g.after part) x →
      (g.after part).Stores x p → (g.after (part ++ [op])).Stores x p' →
      p.serial ≤ p'.serial ∧
      (op.advances (g.after part) x = false → p'.serial = p.serial) := by
  have h := hg.mirrors hops.start
  constructor
  · intro x e he
    obtain ⟨before, d, endpoints, rest, hlast, hstays⟩ :=
      exists_lastSave hg hlocal hops he
    refine ⟨before, d, endpoints, rest, hlast, fun part hpart => ?_⟩
    obtain ⟨p, hp⟩ := hstays part hpart
    refine ⟨p, hp, ?_⟩
    refine hlast.induction hg hlocal hops (P := fun part p => Accounted d
      endpoints ((g.after (before ++ [.save d endpoints])).advances x part) p)
      ?_ ?_ hpart hp
    · intro p hbare
      exact accounted_of_saved hbare
    · intro part op p p' hp hid hbare haccounted
      have hstate : (g.after (before ++ [.save d endpoints])).after part =
          g.after (before ++ .save d endpoints :: part) := by
        rw [← after_append, List.append_assoc]
        rfl
      rw [advances_concat, hstate]
      exact haccounted.amended hp hid hbare
  · intro part op x p p' hpart hsaves hp hp'
    obtain ⟨hbefore, hop⟩ := hops.concat hpart
    have hmirrors := h.after hbefore
    rw [after_concat] at hp'
    have hmem : op ∈ ops := hpart.subset (by simp)
    obtain ⟨q, hq, hbare⟩ := hmirrors.amended hop (hlocal op hmem) hsaves hp'
    obtain rfl : p = q := Option.some.inj (Except.ok.inj (hp.symm.trans hq))
    have hid := hmirrors.id_eq hp
    have hserial' : p'.serial = (op.amend (g.after part) p).serial :=
      Entity.serial_of_bare hbare
    constructor
    · rw [UInt64.le_iff_toNat_le, hserial', toNat_serial_amend hp hid]
      exact le_min (Nat.le_add_right _ _) (p.toNat_serial_le)
    · intro hsame
      rw [hserial', serial_amend hp hid, hsame]
      rfl

/-- A resource that gets a link, a mixin and an update without content, and
loses the first two. -/
def rewrittenOften : List Operation :=
  [.saveResource { id := "a", kind := "k" },
    .saveLink { id := "l", kind := "k" } ⟨"a", "a"⟩,
    .saveMixin "m" ["a", "a"], .update "a" (.ofList [("x", WireValue.null)]),
    .saveResource { id := "l", kind := "k" }, .delete "m"]

theorem serial_after_rewrittenOften : ∃ before d endpoints rest,
    LastSave { store := ({} : VolatileStore) } "a" rewrittenOften before d
        endpoints rest ∧
      Accounted d endpoints
        (advances (.after { store := ({} : VolatileStore) }
          (before ++ [.save d endpoints])) "a" rest)
        { id := "a", kind := "k", serial := 4 } := by
  have hfresh : Fresh { store := ({} : VolatileStore) } :=
    ⟨⟨rfl, VolatileStore.keyed_empty⟩, rfl⟩
  have hlocal : ∀ op ∈ rewrittenOften, op.isLocal := by decide
  have hops := unfailing_volatile (g := { store := {} })
    VolatileStore.keyed_empty rewrittenOften
  have hstored :
      Graph.Stores (.after { store := ({} : VolatileStore) } rewrittenOften) "a"
        { id := "a", kind := "k", serial := 4 } := by
    refine congrArg Except.ok ?_
    decide +kernel
  obtain ⟨before, d, endpoints, rest, hlast, hsince⟩ :=
    (serial_after hfresh hlocal hops).1 "a" _ hstored
  obtain ⟨p, hp, haccounted⟩ := hsince rest List.prefix_rfl
  rw [← hlast.split] at hp
  obtain rfl := Option.some.inj (Except.ok.inj (hp.symm.trans hstored))
  exact ⟨before, d, endpoints, rest, hlast, haccounted⟩

end Graph

end LinkGraph
