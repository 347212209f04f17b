import Gateway.Digest.Sha256
import Gateway.Image.Transform
import Gateway.Http.Field
/-!
# Validators

The validator of a response is a quoted digest of what the response depends on: the transformation,
by its compact JSON text, followed by the bytes of the source image. Any digest will do; the usual
one is SHA-256. A client that holds a copy sends the validators of its copies back; if one of them
is the current one, the copy is still good.
-/

namespace Gateway.Validator

/-- The bytes that are digested. -/
def input (source : Bytes) (t : Image.Transform) : Bytes := Utf8.ofString t.json ++ source

/-- The validator of a source image under a transformation. -/
def calculate (source : Bytes) (t : Image.Transform) (digest : Bytes → Bytes := Sha256.digest) :
    List Char :=
  ['"'] ++ Text.hexBytes (digest (input source t)) ++ ['"']

/-- Whether one item of a client's list covers a validator: an asterisk, or the validator itself,
perhaps marked as weak. -/
def coveredBy (tag : List Char) (item : List Char) : Bool :=
  item == ['*'] || (Text.afterStart ['W', '/'] item).getD item == tag

/-- Whether a character is blank to the reader of a list. -/
def isBlank (c : Char) : Bool := c = ' ' || c = '\t'

/-- The items of the lists that a client sends. A value with anything but visible ASCII is skipped.
-/
def items (fs : Http.Fields) : List (List Char) :=
  ((Http.Fields.values "if-none-match" fs).filterMap Http.visible?).flatMap fun v =>
    (Text.split ',' v).map (Text.trimBy isBlank)

/-- Whether the fields of a request cover a validator. -/
def covers (fs : Http.Fields) (tag : List Char) : Bool := (items fs).any (coveredBy tag)

end Gateway.Validator
