import LinkGraph.Store.Volatile

/-!
# The content of a volatile store

The writes of a graph as functions on a volatile store, and what each of them
does to the entity found under an id and to the members of a bucket.  Later
files argue about stores only through these two views.
-/

namespace LinkGraph

namespace Entity

/-- The entity with other back-references. -/
def relinked (e : Entity) (links : NameSet) : Entity :=
  { e with linkedFrom := links }

/-- The entity with one more back-reference. -/
def linked (e : Entity) (link : EntityId) : Entity :=
  e.relinked (e.linkedFrom.insert link)

/-- The entity without a back-reference. -/
def unlinked (e : Entity) (link : EntityId) : Entity :=
  e.relinked (e.linkedFrom.erase link)

/-- The entity with the back-references of another version as well. -/
def inheriting (e previous : Entity) : Entity :=
  e.relinked (e.linkedFrom ∪ previous.linkedFrom)

theorem mem_linked {e : Entity} {link l : EntityId} :
    l ∈ (e.linked link).linkedFrom ↔ l = link ∨ l ∈ e.linkedFrom := by
  change l ∈ e.linkedFrom.insert link ↔ _
  rw [Std.ExtTreeSet.mem_insert, Std.compare_eq_iff_eq, eq_comm]

theorem mem_unlinked {e : Entity} {link l : EntityId} :
    l ∈ (e.unlinked link).linkedFrom ↔ l ∈ e.linkedFrom ∧ l ≠ link := by
  change l ∈ e.linkedFrom.erase link ↔ _
  rw [Std.ExtTreeSet.mem_erase, ne_eq, Std.compare_eq_iff_eq, and_comm, eq_comm]

theorem linked_of_mem {e : Entity} {link : EntityId} (h : link ∈ e.linkedFrom) :
    e.linked link = e := by
  have hset : e.linkedFrom.insert link = e.linkedFrom := by
    apply Std.ExtTreeSet.ext_mem
    intro x
    simp only [Std.ExtTreeSet.mem_insert, Std.compare_eq_iff_eq]
    constructor
    · rintro (rfl | hx)
      · exact h
      · exact hx
    · exact Or.inr
  exact congrArg e.relinked hset

theorem unlinked_of_notMem
    {e : Entity} {link : EntityId} (h : link ∉ e.linkedFrom) :
    e.unlinked link = e := by
  have hset : e.linkedFrom.erase link = e.linkedFrom := by
    apply Std.ExtTreeSet.ext_mem
    intro x
    simp only [Std.ExtTreeSet.mem_erase, Std.compare_eq_iff_eq, ne_eq]
    constructor
    · exact And.right
    · intro hx
      refine ⟨?_, hx⟩
      rintro rfl
      exact h hx
  exact congrArg e.relinked hset

theorem mem_categories {e : Entity} {c : Category} :
    c ∈ e.categories ↔ c = e.kind ∨ c ∈ e.mixins := by
  simp [categories]

end Entity

namespace VolatileStore

variable {s : VolatileStore} {c c' : Category} {id x : EntityId} {e : Entity}

/-- Every entity is stored under its own id. -/
def Keyed (s : VolatileStore) : Prop :=
  ∀ (id : EntityId) (e : Entity), s.entities[id]? = some e → e.id = id

/-- No bucket is empty. -/
def Pruned (s : VolatileStore) : Prop :=
  ∀ c : Category, s.index[c]? ≠ some ∅

/-- The source of the link stored under an id. -/
def sourceOf (s : VolatileStore) (id : EntityId) : Option EntityId :=
  s.entities[id]?.bind Entity.source?

/-- Adds an id to buckets. -/
def enter
    (s : VolatileStore) (id : EntityId) (categories : List Category) :
    VolatileStore :=
  categories.foldl (fun s c => s.setBucket c ((s.bucket c).insert id)) s

/-- Takes an id from buckets. -/
def leave
    (s : VolatileStore) (id : EntityId) (categories : List Category) :
    VolatileStore :=
  categories.foldl (fun s c => s.setBucket c ((s.bucket c).erase id)) s

def place (s : VolatileStore) (e : Entity) : VolatileStore :=
  { s with entities := s.entities.insert e.id e }

def discard (s : VolatileStore) (id : EntityId) : VolatileStore :=
  { s with entities := s.entities.erase id }

/-- Changes the entity stored under an id. -/
def revise
    (s : VolatileStore) (id : EntityId) (change : Entity → Entity) :
    VolatileStore :=
  { s with entities := s.entities.modify id change }

/-- Takes a link from the back-references of its source; other entities have
none. -/
def release (s : VolatileStore) (e : Entity) : VolatileStore :=
  match e.source? with
  | some source => s.revise source (·.unlinked e.id)
  | none => s

/-- Adds a link to the back-references of its source; other entities have
none. -/
def attached (s : VolatileStore) (e : Entity) : VolatileStore :=
  match e.source? with
  | some source => s.revise source (·.linked e.id)
  | none => s

theorem ext_content {t : VolatileStore}
    (hentities : ∀ id : EntityId, s.entities[id]? = t.entities[id]?)
    (hindex : ∀ c : Category, s.index[c]? = t.index[c]?) : s = t := by
  cases s
  cases t
  exact VolatileStore.mk.injEq .. |>.mpr
    ⟨Std.ExtTreeMap.ext_getElem? hentities, Std.ExtTreeMap.ext_getElem? hindex⟩

/-! ## Buckets -/

theorem index_setBucket (b : NameSet) :
    (s.setBucket c b).index[c']? =
      if c' = c then (if b.isEmpty then none else some b)
      else s.index[c']? := by
  by_cases hb : b.isEmpty = true
  · by_cases hc : c' = c
    · simp [setBucket, hb, hc]
    · simp [setBucket, hb, hc, Std.ExtTreeMap.getElem?_erase, Ne.symm hc]
  · by_cases hc : c' = c
    · simp [setBucket, hb, hc]
    · simp [setBucket, hb, hc, Std.ExtTreeMap.getElem?_insert, Ne.symm hc]

theorem bucket_eq
    (s : VolatileStore) (c : Category) :
    s.bucket c = (s.index[c]?).getD ∅ := by
  rw [bucket, Std.ExtTreeMap.getD_eq_getD_getElem?]

theorem toList_bucket (s : VolatileStore) (c : Category) :
    (s.index[c]?.map fun b => b.toList).getD [] = (s.bucket c).toList := by
  rw [bucket_eq]
  cases s.index[c]? with
  | none => simp
  | some b => rfl

@[simp] theorem bucket_setBucket (b : NameSet) :
    (s.setBucket c b).bucket c' = if c' = c then b else s.bucket c' := by
  rw [bucket_eq, bucket_eq, index_setBucket]
  by_cases hc : c' = c
  · by_cases hb : b.isEmpty = true
    · simp [hc, Std.ExtTreeSet.isEmpty_iff.mp hb]
    · simp [hc, hb]
  · simp [hc]

theorem Pruned.setBucket
    (h : s.Pruned) (b : NameSet) :
    (s.setBucket c b).Pruned := by
  intro c'
  rw [index_setBucket]
  by_cases hc : c' = c
  · by_cases hb : b.isEmpty = true
    · simp [hc, hb]
    · have hne : b ≠ ∅ := fun h => hb (Std.ExtTreeSet.isEmpty_iff.mpr h)
      simp [hc, hb, hne]
  · simpa [hc] using h c'

theorem Pruned.setBucket_bucket (h : s.Pruned) (c : Category) :
    s.setBucket c (s.bucket c) = s := by
  apply ext_content
  · intro x
    rfl
  · intro c'
    rw [index_setBucket]
    by_cases hc : c' = c
    · subst hc
      rw [if_pos rfl, bucket_eq]
      cases hb : s.index[c']? with
      | none => simp
      | some b =>
        have hne : b ≠ ∅ := fun hempty => h c' (hempty ▸ hb)
        simp [hne]
    · simp [hc]

@[simp] theorem entities_enter (categories : List Category) :
    (s.enter id categories).entities = s.entities := by
  induction categories generalizing s with
  | nil => rfl
  | cons c cs ih =>
    rw [enter, List.foldl_cons]
    exact ih (s := s.setBucket c ((s.bucket c).insert id))

@[simp] theorem entities_leave (categories : List Category) :
    (s.leave id categories).entities = s.entities := by
  induction categories generalizing s with
  | nil => rfl
  | cons c cs ih =>
    rw [leave, List.foldl_cons]
    exact ih (s := s.setBucket c ((s.bucket c).erase id))

theorem mem_bucket_enter (categories : List Category) :
    x ∈ (s.enter id categories).bucket c ↔
      x ∈ s.bucket c ∨ (x = id ∧ c ∈ categories) := by
  induction categories generalizing s with
  | nil => simp [enter]
  | cons c' cs ih =>
    have hstep := ih (s := s.setBucket c' ((s.bucket c').insert id))
    change x ∈ ((s.setBucket c' ((s.bucket c').insert id)).enter id cs).bucket c ↔ _
    rw [hstep, bucket_setBucket]
    by_cases hc : c = c'
    · subst hc
      simp only [if_true, Std.ExtTreeSet.mem_insert, Std.compare_eq_iff_eq,
        List.mem_cons, true_or, and_true]
      constructor
      · rintro ((rfl | hx) | ⟨rfl, -⟩)
        · exact Or.inr rfl
        · exact Or.inl hx
        · exact Or.inr rfl
      · rintro (hx | rfl)
        · exact Or.inl (Or.inr hx)
        · exact Or.inl (Or.inl rfl)
    · simp [hc]

theorem mem_bucket_leave (categories : List Category) :
    x ∈ (s.leave id categories).bucket c ↔
      x ∈ s.bucket c ∧ ¬(x = id ∧ c ∈ categories) := by
  induction categories generalizing s with
  | nil => simp [leave]
  | cons c' cs ih =>
    have hstep := ih (s := s.setBucket c' ((s.bucket c').erase id))
    change x ∈ ((s.setBucket c' ((s.bucket c').erase id)).leave id cs).bucket c ↔ _
    rw [hstep, bucket_setBucket]
    by_cases hc : c = c'
    · subst hc
      simp only [if_true, Std.ExtTreeSet.mem_erase, Std.compare_eq_iff_eq,
        ne_eq, List.mem_cons, true_or, and_true]
      constructor
      · rintro ⟨⟨hne, hx⟩, -⟩
        exact ⟨hx, Ne.symm hne⟩
      · rintro ⟨hx, hne⟩
        exact ⟨⟨Ne.symm hne, hx⟩, fun h => hne h.1⟩
    · simp [hc]

theorem Pruned.enter (h : s.Pruned) (categories : List Category) :
    (s.enter id categories).Pruned := by
  induction categories generalizing s with
  | nil => exact h
  | cons c cs ih => exact ih (h.setBucket _)

theorem Pruned.leave (h : s.Pruned) (categories : List Category) :
    (s.leave id categories).Pruned := by
  induction categories generalizing s with
  | nil => exact h
  | cons c cs ih => exact ih (h.setBucket _)

/-! ## Entities -/

theorem entities_place :
    (s.place e).entities[x]? = if x = e.id then some e else s.entities[x]? := by
  by_cases hx : x = e.id
  · simp [place, hx]
  · simp [place, Std.ExtTreeMap.getElem?_insert, hx, Ne.symm hx]

/-- A view that a new version shares with the entity it is put in the place of
does not change. -/
theorem map_entities_place
    {α : Type} (view : Entity → α) (hs : s.Keyed) {e' : Entity}
    (he : s.entities[id]? = some e) (hid : e'.id = e.id)
    (hview : view e' = view e) (x : EntityId) :
    (s.place e').entities[x]?.map view = s.entities[x]?.map view := by
  obtain rfl : e.id = id := hs id e he
  rw [entities_place, hid]
  by_cases hx : x = e.id
  · subst hx
    simp [he, hview]
  · simp [hx]

theorem entities_discard :
    (s.discard id).entities[x]? = if x = id then none else s.entities[x]? := by
  by_cases hx : x = id
  · simp [discard, hx]
  · simp [discard, Std.ExtTreeMap.getElem?_erase, hx, Ne.symm hx]

theorem entities_revise (change : Entity → Entity) :
    (s.revise id change).entities[x]? =
      if x = id then s.entities[x]?.map change else s.entities[x]? := by
  by_cases hx : x = id
  · simp [revise, hx]
  · simp [revise, hx, Std.ExtTreeMap.getElem?_modify, Ne.symm hx]

theorem entities_release :
    (s.release e).entities[x]? =
      if e.source? = some x then s.entities[x]?.map (·.unlinked e.id)
      else s.entities[x]? := by
  cases hsource : e.source? with
  | none => simp [release, hsource]
  | some source =>
    simp only [release, hsource, entities_revise, Option.some.injEq]
    by_cases hx : x = source
    · simp [hx]
    · simp [hx, Ne.symm hx]

theorem entities_attached :
    (s.attached e).entities[x]? =
      if e.source? = some x then s.entities[x]?.map (·.linked e.id)
      else s.entities[x]? := by
  cases hsource : e.source? with
  | none => simp [attached, hsource]
  | some source =>
    simp only [attached, hsource, entities_revise, Option.some.injEq]
    by_cases hx : x = source
    · simp [hx]
    · simp [hx, Ne.symm hx]

/-- Only the id and the source of an entity matter for attaching it. -/
theorem attached_congr
    {e' : Entity} (hid : e.id = e'.id) (hsource : e.source? = e'.source?) :
    s.attached e = s.attached e' := by
  unfold attached
  rw [hid, hsource]

@[simp] theorem index_place : (s.place e).index = s.index := rfl

@[simp] theorem index_discard : (s.discard id).index = s.index := rfl

@[simp] theorem index_release : (s.release e).index = s.index := by
  unfold release
  split
  · rfl
  · rfl

@[simp] theorem index_attached : (s.attached e).index = s.index := by
  unfold attached
  split
  · rfl
  · rfl

/-- A revision of the stored entity is the entity put in its place. -/
theorem place_eq_revise (hs : s.Keyed) (change : Entity → Entity)
    (he : s.entities[id]? = some e) (hid : (change e).id = e.id) :
    s.place (change e) = s.revise id change := by
  apply ext_content
  · intro x
    rw [entities_place, entities_revise, hid, hs id e he]
    by_cases hx : x = id
    · simp [hx, he]
    · simp [hx]
  · intro c
    rfl

theorem revise_of_none {change : Entity → Entity} (h : s.entities[id]? = none) :
    s.revise id change = s := by
  apply ext_content
  · intro x
    rw [entities_revise]
    by_cases hx : x = id
    · simp [hx, h]
    · simp [hx]
  · intro c
    rfl

theorem revise_of_eq {change : Entity → Entity} (he : s.entities[id]? = some e)
    (h : change e = e) : s.revise id change = s := by
  apply ext_content
  · intro x
    rw [entities_revise]
    by_cases hx : x = id
    · simp [hx, he, h]
    · simp [hx]
  · intro c
    rfl

theorem discard_eq_self (h : s.entities[id]? = none) : s.discard id = s := by
  apply ext_content
  · intro x
    rw [entities_discard]
    by_cases hx : x = id
    · simp [hx, h]
    · simp [hx]
  · intro c
    rfl

/-! ## Entities stay under their own ids -/

theorem keyed_empty : Keyed {} := by
  intro id e he
  simp at he

theorem Keyed.place (h : s.Keyed) (e : Entity) : (s.place e).Keyed := by
  intro id p hp
  rw [entities_place] at hp
  split at hp
  · next hid =>
    obtain rfl : e = p := by simpa using hp
    exact hid.symm
  · exact h id p hp

theorem Keyed.discard (h : s.Keyed) (id : EntityId) : (s.discard id).Keyed := by
  intro id' p hp
  rw [entities_discard] at hp
  split at hp
  · simp at hp
  · exact h id' p hp

theorem Keyed.of_entities_eq {t : VolatileStore} (h : s.Keyed)
    (hentities : t.entities = s.entities) : t.Keyed := by
  intro id e he
  rw [hentities] at he
  exact h id e he

theorem Keyed.revise
    (h : s.Keyed) {change : Entity → Entity} (hid : ∀ e, (change e).id = e.id) :
    (s.revise id change).Keyed := by
  intro x p hp
  rw [entities_revise] at hp
  split at hp
  · obtain ⟨e, he, rfl⟩ := Option.map_eq_some_iff.mp hp
    rw [hid]
    exact h x e he
  · exact h x p hp

theorem Keyed.release (h : s.Keyed) (e : Entity) : (s.release e).Keyed := by
  unfold VolatileStore.release
  split
  · exact h.revise fun _ => rfl
  · exact h

theorem Keyed.attached (h : s.Keyed) (e : Entity) : (s.attached e).Keyed := by
  unfold VolatileStore.attached
  split
  · exact h.revise fun _ => rfl
  · exact h

end VolatileStore

end LinkGraph
