import Gateway.Http.Field
/-!
# Request methods

The gateway tells apart the method that asks for an image, the one that asks for the options of a
resource, and all others.
-/

namespace Gateway.Http

/-- The method of a request. -/
inductive Method where
  | get
  | options
  /-- Any other token. -/
  | other (name : String)
deriving DecidableEq, Repr

/-- The method that a token names; letter case matters. -/
def Method.ofToken? (s : String) : Option Method :=
  if s = "GET" then some .get
  else if s = "OPTIONS" then some .options
  else if isToken s.toList then some (.other s)
  else none

end Gateway.Http
