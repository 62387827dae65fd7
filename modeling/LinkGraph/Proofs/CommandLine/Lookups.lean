import LinkGraph.Proofs.CommandLine.Saving
import LinkGraph.Proofs.Files.Apart

/-!
# Looking files up

What a command finds out about its files before it opens a session.  It depends
on the path alone, and on what is there: in two trees that differ only where the
path does not come by, it is the same.
-/

namespace LinkGraph.CommandLine

open FileTree (Apart)

variable {α β : Type} {t t' : FileTree} {keys : List String} {path : String}
  {P : α → Prop} {Q : β → Prop}

/-- The operation gives the same answer on both trees and changes neither.  What
it answers with is something of which `P` holds. -/
def Alike (P : α → Prop) (op : StoreM FileTree α) (t t' : FileTree) : Prop :=
  ∃ r, op t = (r, t) ∧ op t' = (r, t') ∧ ∀ a, r = .ok a → P a

namespace Alike

variable {op : StoreM FileTree α} {f : α → StoreM FileTree β}

theorem bind (hop : Alike P op t t') (hf : ∀ a, P a → Alike Q (f a) t t') :
    Alike Q (op >>= f) t t' := by
  obtain ⟨r, hleft, hright, hr⟩ := hop
  cases r with
  | error e =>
    exact ⟨.error e, bind_run_error hleft, bind_run_error hright,
      fun _ h => by cases h⟩
  | ok a =>
    obtain ⟨r, hleft', hright', hr'⟩ := hf a (hr a rfl)
    exact ⟨r, (bind_run_ok hleft).trans hleft',
      (bind_run_ok hright).trans hright', hr'⟩

theorem pure {a : α} (ha : P a) : Alike P (pure a) t t' :=
  ⟨.ok a, rfl, rfl, fun _ h => Except.ok.inj h ▸ ha⟩

theorem throw (e : StoreError) : Alike P (throw e) t t' :=
  ⟨.error e, rfl, rfl, fun _ h => by cases h⟩

theorem attempt
    {op : StateM FileTree (Except FileError α)} {r : Except FileError α}
    (describe : String → String) (hleft : op t = (r, t))
    (hright : op t' = (r, t')) (hr : ∀ a, r = .ok a → P a) :
    Alike P (attempt describe op) t t' := by
  cases r with
  | error e =>
    refine ⟨.error (.io (describe e.message)), ?_, ?_, fun _ h => by cases h⟩
    · rw [attempt_run, hleft]
      rfl
    · rw [attempt_run, hright]
      rfl
  | ok a =>
    refine ⟨.ok a, attempt_run_ok hleft, attempt_run_ok hright, fun _ h => ?_⟩
    exact hr _ (congrArg Except.ok (Except.ok.inj h))

/-- The absolute path avoids what the path avoids. -/
theorem canonical
    (h : Apart keys t t') (hworking : t.Sound t.working)
    (havoids : t.Avoids keys path) (describe : String → String) :
    Alike (t.Avoids keys)
      (CommandLine.attempt describe (FileAccess.canonical path)) t t' := by
  have hright : (FileAccess.canonical path : StateM FileTree _) t' =
      (t.canonical path, t') :=
    congrArg (·, t') (h.canonical_eq havoids).symm
  exact .attempt describe rfl hright fun _ hplace =>
    h.avoids_canonical hworking havoids hplace

theorem kindOf (h : Apart keys t t') (havoids : t.Avoids keys path) :
    Alike (fun _ => True) (kindOf path) t t' := by
  refine ⟨.ok (t.kind? path), kindOf_run t path, ?_, fun _ _ => trivial⟩
  rw [kindOf_run, h.kind?_eq havoids]

theorem regularFile
    (h : Apart keys t t') (hworking : t.Sound t.working)
    (havoids : t.Avoids keys path) :
    Alike (t.Avoids keys) (regularFile path) t t' := by
  refine .bind (.canonical h hworking havoids _) fun place hplace => ?_
  refine .bind (.kindOf h hplace) fun kind _ => ?_
  cases kind with
  | none => exact .throw _
  | some kind =>
    cases kind with
    | regular => exact .pure hplace
    | directory => exact .throw _

theorem readSnapshot (h : Apart keys t t') (hworking : t.Sound t.working)
    (havoids : t.Avoids keys path) :
    Alike (fun content => content.size ≤ Snapshot.maxSize) (readSnapshot path)
      t t' := by
  refine .bind (.regularFile h hworking havoids) fun place hplace => ?_
  have hright :
      (FileAccess.read place : StateM FileTree _) t' = (t.read place, t') :=
    congrArg (·, t') (h.read_eq hplace).symm
  refine .bind (.attempt (P := fun _ => True) _ rfl hright fun _ _ => trivial)
    fun content _ => ?_
  by_cases hsize : content.size ≤ Snapshot.maxSize
  · have hcheck : Snapshot.checkSize "File" content.size = .ok () :=
      if_neg (Nat.not_lt.mpr hsize)
    simp only [hcheck]
    exact .pure hsize
  · have hcheck : ∃ e, Snapshot.checkSize "File" content.size = .error e :=
      ⟨_, if_pos (Nat.not_le.mp hsize)⟩
    obtain ⟨e, hcheck⟩ := hcheck
    simp only [hcheck]
    exact .throw _

theorem outputFile (h : Apart keys t t') (hworking : t.Sound t.working)
    (havoids : t.Avoids keys (Path.directory path)) :
    Alike (fun _ => True) (outputFile path) t t' := by
  refine .bind (.canonical h hworking havoids _) fun place hplace => ?_
  refine .bind (.kindOf h hplace) fun kind _ => ?_
  cases kind with
  | none => exact .throw _
  | some kind =>
    cases kind with
    | regular => exact .throw _
    | directory =>
      cases hname : Path.fileName? path with
      | none => exact .throw _
      | some name => exact .pure trivial

end Alike

end LinkGraph.CommandLine
