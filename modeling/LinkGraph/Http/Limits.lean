/-!
# Limits on requests

Identifiers are not empty and not too long, and a request does not name too many
attributes or entities.  A refusal is the message for the client.
-/

namespace LinkGraph.Http

/-- The greatest length of an identifier in UTF-8 bytes. -/
def maxIdentifierSize : Nat := 1024

def maxAttributes : Nat := 4096

/-- The greatest number of entities that a mixin is associated with in a
request. -/
def maxMixinTargets : Nat := 10000

/-- The greatest size of a request body in bytes. -/
def maxBodySize : Nat := 2 * 1024 * 1024

/-- Refuses empty and oversized identifiers. -/
def checkIdentifier (field value : String) : Except String Unit :=
  if value.isEmpty then .error s!"{field} must not be empty"
  else if maxIdentifierSize < value.utf8ByteSize then
    .error
      s!"{field} length {value.utf8ByteSize} exceeds maximum {maxIdentifierSize} bytes"
  else .ok ()

/-- Refuses the first identifier of a list that is empty or oversized. -/
def checkIdentifiers
    (field : String) (values : List String) : Except String Unit :=
  values.forM (checkIdentifier field)

def checkAttributeCount (count : Nat) : Except String Unit :=
  if maxAttributes < count then
    .error s!"{count} attributes exceed maximum {maxAttributes}"
  else .ok ()

def checkTargetCount (count : Nat) : Except String Unit :=
  if maxMixinTargets < count then
    .error s!"{count} entity ids exceed maximum {maxMixinTargets}"
  else .ok ()

end LinkGraph.Http
