import Gateway.Failure
import Gateway.Http.Field
/-!
# Responses

A response has a status, fields and a body. Some are fixed: the one that reports health, the one
that answers a question about options, and the one that reports a failure by its public message.
-/

namespace Gateway.Http

/-- A response. -/
structure Response where
  status : Status
  fields : Fields
  body : Bytes
deriving DecidableEq, Repr

namespace Response

/-- The bytes of a numeral. -/
def numeral (n : Nat) : Bytes := Utf8.encode (Text.decimal n)

/-- A response without a body. -/
def bare (status : Status) : Response := ⟨status, [], []⟩

/-- A response with a text as its body. -/
def plain (status : Status) (text : String) : Response :=
  let body := Utf8.ofString text
  ⟨status,
    [("content-type", Utf8.ofString "text/plain; charset=utf-8"),
      ("content-length", numeral body.length)],
    body⟩

/-- The response that reports a failure. -/
def ofFailure (f : Failure) : Response := plain f.status f.publicMessage

/-- The answer to a question about options. -/
def options : Response := bare .ok

/-- The text that reports health. -/
def healthText : String := "image-gateway is running"

/-- The response that reports health. -/
def health : Response := plain .ok healthText

end Response

end Gateway.Http
