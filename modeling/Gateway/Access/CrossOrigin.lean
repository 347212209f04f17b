import Gateway.Event
import Gateway.Http.Field
/-!
# Access from other origins

If an origin is configured, every response names it and the methods it may use. An origin that is no
legal field value is reported once and then ignored; an empty one is none.
-/

namespace Gateway.Access

/-- The permission for another origin: the field value that names it, if there is one. -/
structure CrossOrigin where
  origin : Option Bytes
deriving DecidableEq, Repr

namespace CrossOrigin

/-- The methods that another origin may use. -/
def allowedMethods : Bytes := Utf8.ofString "GET, OPTIONS"

/-- The permission for a configured origin. -/
def ofConfig (origin : Option String) : CrossOrigin :=
  ⟨((origin.filter (· != "")).map Utf8.ofString).filter Http.isValue⟩

/-- What is reported about a configured origin. -/
def reports (origin : Option String) : List Event :=
  match origin with
  | some o => if o != "" && !Http.isValue (Utf8.ofString o) then [.log (.originIgnored o)] else []
  | none => []

/-- The complaint about an origin that is no legal field value. -/
def illegalValue : String := "failed to parse header value"

/-- Whether there is a permission at all. -/
def isEnabled (c : CrossOrigin) : Bool := c.origin.isSome

/-- The fields of a response with the permission put in. -/
def apply (c : CrossOrigin) (fs : Http.Fields) : Http.Fields :=
  match c.origin with
  | none => fs
  | some o =>
    Http.Fields.replace "access-control-allow-methods" allowedMethods
      (Http.Fields.replace "access-control-allow-origin" o fs)

end CrossOrigin

end Gateway.Access
