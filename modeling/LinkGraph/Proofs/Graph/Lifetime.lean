import LinkGraph.Proofs.Graph.Amending

/-!
# The life of an entity since its last save

A stored entity has been saved at some point of the run, and since the last time
it has only been amended.  What holds of it right after that save and is kept by
every amendment holds of it for as long as it stays stored.
-/

namespace LinkGraph.Graph

section Runs

variable {σ : Type} [EntityStore σ]

/-- The last time an entity has been saved under `x` in a run: as what, after
which operations, and before which. -/
structure LastSave
    (g : Graph σ) (x : EntityId) (ops before : List Operation) (d : Draft)
    (endpoints : Option Endpoints) (rest : List Operation) : Prop where
  split : ops = before ++ .save d endpoints :: rest
  id : d.id = x
  accepted : ((Operation.save d endpoints).perform (g.after before)).1 = .ok ()
  last {part : List Operation} {op : Operation} : part ++ [op] <+: rest →
    ¬op.Saves (g.after (before ++ .save d endpoints :: part)) x

end Runs

variable {σ : Type} [EntityStore σ] [FaithfulStore σ] {g : Graph σ}
  {x : EntityId} {e : Entity} {ops before rest part : List Operation}
  {d : Draft} {endpoints : Option Endpoints}

/-- What a fresh graph stores after a run has been saved in it, and not been
gone since the last time. -/
theorem exists_lastSave
    (hg : g.Fresh) (hlocal : ∀ op ∈ ops, op.isLocal) (hops : g.Unfailing ops)
    (he : (g.after ops).Stores x e) :
    ∃ before d endpoints rest, LastSave g x ops before d endpoints rest ∧
      ∀ part, part <+: rest →
        ∃ p, (g.after (before ++ .save d endpoints :: part)).Stores x p := by
  have h := hg.mirrors hops.start
  -- On the end of the run: either its last operation is the save, or it has
  -- amended the entity, which was then stored before it.
  induction ops using List.reverseRecOn generalizing e with
  | nil =>
    have hnone := (stores_iff h.agrees).mp he
    simp [emptied] at hnone
  | append_singleton ops op ih =>
    obtain ⟨hbefore, hop⟩ := unfailing_append.mp hops
    by_cases hsaves : op.Saves (g.after ops) x
    · obtain ⟨d, endpoints, rfl, hid, haccepted⟩ := hsaves
      refine ⟨ops, d, endpoints, [], ⟨rfl, hid, haccepted, by simp⟩,
        fun part hpart => ⟨e, ?_⟩⟩
      rw [List.prefix_nil.mp hpart]
      exact he
    · rw [after_concat] at he
      obtain ⟨p, hp, -⟩ :=
        (h.after hbefore).amended hop (hlocal op (by simp)) hsaves he
      have hlocal' : ∀ op ∈ ops, op.isLocal :=
        fun op' hmem => hlocal op' (by simp [hmem])
      obtain ⟨before, d, endpoints, rest, hlast, hstays⟩ :=
        ih hlocal' hbefore hp
      obtain rfl := hlast.split
      refine ⟨before, d, endpoints, rest ++ [op],
        ⟨by simp, hlast.id, hlast.accepted, ?_⟩, ?_⟩
      · intro part op' hpart
        rcases List.prefix_concat_iff.mp hpart with heq | hpart
        · obtain ⟨rfl, hsame⟩ := List.append_inj' heq rfl
          obtain rfl := List.singleton_injective hsame
          exact hsaves
        · exact hlast.last hpart
      · intro part hpart
        rcases List.prefix_concat_iff.mp hpart with rfl | hpart
        · refine ⟨e, ?_⟩
          rw [← List.cons_append, ← List.append_assoc, after_concat]
          exact he
        · exact hstays part hpart

/-- What holds of an entity that has just been saved, and of what every
amendment makes of an entity it holds of, holds of a stored entity at any time
since its last save. -/
theorem LastSave.induction
    (hlast : LastSave g x ops before d endpoints rest) (hg : g.Fresh)
    (hlocal : ∀ op ∈ ops, op.isLocal) (hops : g.Unfailing ops)
    {P : List Operation → Entity → Prop}
    (hsaved : ∀ e, e.bare = d.entity endpoints → P [] e)
    (hamended : ∀ part op e e',
      (g.after (before ++ .save d endpoints :: part)).Stores x e → e.id = x →
      e'.bare =
        (op.amend (g.after (before ++ .save d endpoints :: part)) e).bare →
      P part e → P (part ++ [op]) e')
    (hpart : part <+: rest)
    (he : (g.after (before ++ .save d endpoints :: part)).Stores x e) :
    P part e := by
  have h := hg.mirrors hops.start
  obtain rfl := hlast.split
  induction part using List.reverseRecOn generalizing e with
  | nil =>
    have hinitial : before ++ [.save d endpoints] <+:
        before ++ .save d endpoints :: rest := by simp
    obtain ⟨hbefore, hop⟩ := hops.concat hinitial
    obtain ⟨p, hp, hbare⟩ := (h.after hbefore).saved hop hlast.accepted
    rw [after_concat, ← hlast.id] at he
    -- Nothing is known of `e` but that it is stored, which the saved entity is
    -- as well.
    obtain rfl : p = e := Option.some.inj (Except.ok.inj (hp.symm.trans he))
    exact hsaved p hbare
  | append_singleton part op ih =>
    have hinitial : (before ++ .save d endpoints :: part) ++ [op] <+:
        before ++ .save d endpoints :: rest := by simpa using hpart
    obtain ⟨hbefore, hop⟩ := hops.concat hinitial
    have hmem : op ∈ before ++ .save d endpoints :: rest :=
      hinitial.subset (by simp)
    rw [← List.cons_append, ← List.append_assoc, after_concat] at he
    obtain ⟨p, hp, hbare⟩ :=
      (h.after hbefore).amended hop (hlocal op hmem) (hlast.last hpart) he
    have hid := (h.after hbefore).id_eq hp
    exact hamended part op p e hp hid hbare
      (ih ((List.prefix_append part [op]).trans hpart) hp)

end LinkGraph.Graph
