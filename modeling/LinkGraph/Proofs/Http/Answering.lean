import LinkGraph.Proofs.Http.Refusing
import LinkGraph.Proofs.Text.Lossy

/-!
# What a client is told

A body that is text is read as that text; other bytes are refused where their
text is wanted.  A request that is not served is answered with a bare status, or
with a body that names the failure.
-/

namespace LinkGraph

/-! ## Bodies that are text -/

theorem Json.readBytes_bytes
    {α : Type} (reader : Json.Reader α) (text : String) :
    Json.readBytes reader (Text.bytes text) = Json.read reader text := by
  rw [Json.readBytes, Text.scalars_bytes]
  rfl

/-- A string holds no bytes that are no characters, but one that is skipped
may. -/
example :
    let bs := Text.bytes "\x7b\"a\":\"" ++ [0xC3, 0x28] ++ Text.bytes "\"\x7d"
    Json.readBytes Json.Reader.any bs matches .error .malformed ∧
      (Json.readBytes (Json.Fields.nil.record fun _ => ()) bs).isOk := by
  decide +kernel

namespace Http

theorem readBody_bytes (reader : Json.Reader Call) {r : Request} {text : String}
    (hbody : r.body = Text.bytes text) :
    readBody reader r =
      if !(r.contentType.any isJsonType) then .error 415
      else if maxBodySize < text.utf8ByteSize then .error 413
      else
        match Json.read reader text with
        | .ok call => .ok call
        | .error .malformed => .error 400
        | .error .misfit => .error 422 := by
  rw [readBody, hbody, Json.readBytes_bytes]
  rfl

/-! ## Answers that name a failure -/

namespace Call

theorem member?_error_body (success : Bool) (members : List (String × Json))
    (error : Option String) :
    (body success members error).member? "error" = some (.ofText? error) := by
  simp [body, Json.member?]

/-- The outcome is found under its name if no other member has it. -/
theorem member?_success_body (success : Bool) {members : List (String × Json)}
    (error : Option String) (hmembers : ∀ m ∈ members, m.1 ≠ "success") :
    (body success members error).member? "success" = some (.bool success) := by
  have hnone : members.reverse.find? (fun m => m.1 = "success") = none := by
    rw [List.find?_eq_none]
    intro m hm
    simpa using hmembers m (List.mem_reverse.mp hm)
  simp [body, Json.member?, hnone]

end Call

/-- The answer says that the call has failed, and names the failure. -/
def TellsFailure (answer : Json) : Prop :=
  answer.member? "success" = some (.bool false) ∧
    ∃ message, answer.member? "error" = some (.string message)

theorem Call.failureBody_tellsFailure (call : Call) (message : String) :
    TellsFailure (call.failureBody message) := by
  refine ⟨?_, message, Call.member?_error_body false _ (some message)⟩
  apply Call.member?_success_body
  cases call <;> simp [savedMembers, updatedMembers, executedMembers,
    foundMembers, loadedMembers, LoadedEntity.empty, listedMembers, itemMembers]

/-- Whatever body comes with another status than 200, it names the failure. -/
theorem serve_tellsFailure
    {σ : Type} [EntityStore σ] (schema : Option String) {r : Request}
    {s : Session σ} {answer : Json}
    (hanswer : (serve schema r s).1.body = some answer)
    (hstatus : (serve schema r s).1.status ≠ 200) :
    TellsFailure answer := by
  cases hresolve : resolve r with
  | error status =>
    rw [serve, hresolve] at hanswer
    cases hanswer
  | ok call =>
    rw [serve_of_resolve schema hresolve] at hanswer hstatus
    by_cases hhead : r.method = "HEAD"
    · rw [if_pos hhead] at hanswer
      cases hanswer
    rw [if_neg hhead] at hanswer hstatus
    obtain ⟨message, -, hrun⟩ | ⟨-, ⟨json, -, hrun⟩ | ⟨e, -, hrun⟩⟩ :=
      respond_cases schema call s
    · rw [hrun] at hanswer
      obtain rfl := Option.some.inj hanswer
      exact call.failureBody_tellsFailure message
    · rw [hrun] at hstatus
      exact absurd rfl hstatus
    · rw [hrun] at hanswer
      obtain rfl := Option.some.inj hanswer
      exact call.failureBody_tellsFailure (describe e)

end Http

end LinkGraph
