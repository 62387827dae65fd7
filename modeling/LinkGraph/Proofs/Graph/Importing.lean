import LinkGraph.Proofs.Binary.Truncation
import LinkGraph.Proofs.Graph.Exporting
import LinkGraph.Proofs.Results
import LinkGraph.Session

/-!
# Importing what has been cut short

A snapshot from which bytes are missing at the end is refused wherever it was
cut, within the header, a number, a character or between two entities, and
nothing is imported.  Bytes that follow a snapshot are ignored, but count
towards the size that is read at most.
-/

namespace LinkGraph

namespace Snapshot

theorem read_of_long {bs : List UInt8} (h : maxSize < bs.length) :
    read bs = .error (.deserialization
      s!"Data size {bs.length} bytes exceeds maximum allowed {maxSize} bytes") := by
  rw [read, checkSize, if_pos h]
  rfl

theorem Header.ofBytes_of_short {bs : List UInt8} (h : bs.length < 5) :
    ofBytes bs = .error (.deserialization "Header too short") := by
  match bs with
  | [] | [_] | [_, _] | [_, _, _] | [_, _, _, _] => rfl
  | _ :: _ :: _ :: _ :: _ :: _ =>
    simp only [List.length_cons] at h
    omega

theorem read_of_short {bs : List UInt8} (h : bs.length < 5) :
    read bs = .error (.deserialization "Header too short") := by
  have hsize : bs.length ≤ maxSize := h.le.trans (by decide)
  rw [read, checkSize_of_le "Data" hsize, Header.ofBytes_of_short h]
  rfl

/-- A snapshot is refused when its end is missing. -/
theorem refuses_cut
    {es : List Entity} {bs : List UInt8} (hcut : bs <+: write es)
    (hne : bs ≠ write es) :
    ∃ message, read bs = .error (.deserialization message) := by
  by_cases hlong : maxSize < bs.length
  · exact ⟨_, read_of_long hlong⟩
  by_cases hshort : bs.length < 5
  · exact ⟨_, read_of_short hshort⟩
  have hheader : Header.current.toBytes <+: bs := by
    apply List.prefix_of_prefix_length_le
      (List.prefix_append _ (payload.write es)) hcut
    exact Nat.not_lt.mp hshort
  obtain ⟨front, rfl⟩ := hheader
  have hfront : front <+: payload.write es :=
    (List.prefix_append_right_inj _).mp hcut
  have hmissing : front ≠ payload.write es := by
    intro heq
    exact hne (by rw [heq, write])
  obtain ⟨e, he⟩ := payload_lawful.refuses_cut
    (Binary.Format.list_steady Binary.Format.entity_steady) hfront hmissing
  rw [read_header_append (Nat.not_lt.mp hlong), he]
  exact ⟨_, rfl⟩

variable {σ τ : Type} [EntityStore σ] [EntityStore τ]

theorem importing_run_error
    {bs : List UInt8} {e : StoreError} (hread : read bs = .error e)
    (s : Session σ) :
    Session.run (Graph.importBytes bs) s = (.error e, s) := by
  change ((Graph.importBytes bs s.graph).1,
    { s with graph := (Graph.importBytes bs s.graph).2 }) = _
  rw [Graph.importBytes_run_error hread]

theorem write_of_exportBytes
    {g : Graph τ} {bytes : List UInt8} (h : g.exportBytes = .ok bytes) :
    ∃ es, bytes = write es := by
  obtain ⟨es, -, hbytes⟩ := map_eq_ok.mp h
  exact ⟨es, hbytes.symm⟩

/-- The entities of a snapshot are read back whatever follows it, as long as the
size allows it.  A part of it that lacks the end is refused, and so is a part of
any export, which leaves the importing session, its graph and its cursors, as it
was. -/
theorem reads_whole_only (es : List Entity) :
    (∀ tail, read (write es ++ tail) =
      if (write es ++ tail).length ≤ maxSize then .ok es
      else .error (.deserialization
        s!"Data size {(write es ++ tail).length} bytes exceeds maximum allowed {maxSize} bytes")) ∧
      (∀ bs, bs <+: write es → bs ≠ write es →
        ∃ message, read bs = .error (.deserialization message)) ∧
      ∀ (g : Graph τ) (bytes bs : List UInt8) (s : Session σ),
        g.exportBytes = .ok bytes → bs <+: bytes → bs ≠ bytes →
          ∃ message, Session.run (Graph.importBytes bs) s =
            (.error (.deserialization message), s) := by
  refine ⟨fun tail => ?_, fun bs hcut hne => refuses_cut hcut hne, ?_⟩
  · by_cases hsize : (write es ++ tail).length ≤ maxSize
    · rw [if_pos hsize]
      exact read_write_append hsize
    · rw [if_neg hsize]
      exact read_of_long (Nat.not_le.mp hsize)
  · intro g bytes bs s hexport hcut hne
    obtain ⟨es', rfl⟩ := write_of_exportBytes hexport
    obtain ⟨message, hread⟩ := refuses_cut hcut hne
    exact ⟨message, importing_run_error hread s⟩

theorem reads_whole_only_insideLetter :
    let e : Entity := { id := "é", kind := "k", linkedFrom := .ofList ["l"] }
    let g : Graph VolatileStore :=
      { store := { entities := .ofList [("é", e)] } }
    let s : Session VolatileStore := { graph := g, backend := .volatile }
    let bytes := write [e]
    read (bytes ++ [7]) = .ok [e] ∧ g.exportBytes = .ok bytes ∧
      bytes.take 8 <+: bytes ∧
      bytes.take 8 ≠ bytes ∧ ∃ message,
        Session.run (Graph.importBytes (bytes.take 8)) s =
          (.error (.deserialization message), s) := by
  intro e g s bytes
  have hsize : (bytes ++ [7]).length ≤ maxSize := by decide +kernel
  have hexport : g.exportBytes = .ok bytes := by decide +kernel
  have hcut : bytes.take 8 <+: bytes := List.take_prefix 8 bytes
  have hne : bytes.take 8 ≠ bytes := by decide +kernel
  obtain ⟨hwhole, -, hpart⟩ :=
    @reads_whole_only VolatileStore VolatileStore _ _ [e]
  exact ⟨(hwhole [7]).trans (if_pos hsize), hexport, hcut, hne,
    hpart g bytes _ s hexport hcut hne⟩

end Snapshot

end LinkGraph
