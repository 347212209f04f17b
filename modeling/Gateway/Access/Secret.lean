import Gateway.Failure
import Gateway.Http.Field
/-!
# The shared secret

If a secret is configured, a request must present it in its authorization field. The first field of
that name counts, and its value must be exactly the word for the scheme, a blank and the secret. An
empty secret is none.
-/

namespace Gateway.Access

/-- The check for the shared secret: the field value that passes, if one is needed. -/
structure Secret where
  expected : Option Bytes
deriving DecidableEq, Repr

namespace Secret

/-- The field value that presents a secret. -/
def presentation (secret : String) : Bytes := Utf8.ofString ("Bearer " ++ secret)

/-- The check for a configured secret. -/
def ofConfig (secret : Option String) : Secret :=
  ⟨(secret.filter (· != "")).map presentation⟩

/-- Whether a secret is needed at all. -/
def isEnabled (s : Secret) : Bool := s.expected.isSome

/-- The value that a request presents; without the field it is empty. -/
def presented (fs : Http.Fields) : Bytes := (Http.Fields.first? "authorization" fs).getD []

/-- Whether a request with the given fields passes. -/
def admits (s : Secret) (fs : Http.Fields) : Bool :=
  match s.expected with
  | none => true
  | some e => presented fs == e

/-- Refuses a request that does not pass. -/
def check (s : Secret) (fs : Http.Fields) : Except Failure Unit :=
  if s.admits fs then .ok () else .error .invalidSecret

end Secret

end Gateway.Access
