import Gateway.BufferPool
import Gateway.Config.Basic
import Gateway.Disposition
import Gateway.Gzip
import Gateway.Http.Date
import Gateway.Http.Response
import Gateway.Image.Transform
/-!
# Encoding responses

A processed image becomes a response: it says until when it may be kept, what it is and under which
name it may be stored, and carries its validator if there is one. If compression is on and the
client mentions it, the body is compressed in a buffer from the pool.

A field that cannot be written turns the response into a failure, and an expiry that no date can
express does so first of all.
-/

namespace Gateway

/-- How images are encoded. -/
structure Encoder where
  ttlSecs : Nat
  /-- The effort of compression; zero turns it off. -/
  gzipLevel : Nat
deriving DecidableEq, Repr

namespace Encoder

/-- The number of buffers that are kept. -/
def pooledBuffers : Nat := 64

/-- The encoder of a configuration. -/
def ofConfig (c : Config.Response) : Encoder := ⟨c.ttlSecs, c.gzipLevel⟩

/-- The pool that an encoder starts with. -/
def freshPool : BufferPool := .new pooledBuffers

/-- Whether bodies may be compressed. -/
def compresses (e : Encoder) : Bool := 0 < e.gzipLevel

/-- Whether a client mentions the compression in any readable value. -/
def acceptsGzip (fs : Http.Fields) : Bool :=
  ((Http.Fields.values "accept-encoding" fs).filterMap Http.visible?).any
    (Text.occursIn ['g', 'z', 'i', 'p'])

/-- The fault of a text that is no legal field value. -/
def illegalValue : Fault := .foreign "failed to parse header value"

/-- The bytes of a text that must be a legal field value. -/
def fieldValue (s : List Char) : Except Failure Bytes :=
  let bs := Utf8.encode s
  if Http.isValue bs then .ok bs else .error (.unexpected illegalValue)

/-- The fault of an expiry that no date can express. -/
def expiryFault (e : Encoder) : Fault :=
  .foreign ("cache lifetime of " ++ (Duration.ofSecs e.ttlSecs).text ++
    " runs past the last representable HTTP date")

/-- The date until which an image encoded now may be kept. -/
def expires (e : Encoder) (now : Nat) : Except Failure Bytes :=
  if now + e.ttlSecs ≤ Http.Date.last then fieldValue (Http.Date.text (now + e.ttlSecs)).toList
  else .error (.unexpected e.expiryFault)

/-- How long an image may be kept, in words for caches. -/
def cacheControl (e : Encoder) : List Char :=
  "max-age=".toList ++ Text.decimal e.ttlSecs ++ ", public".toList

/-- The field with the validator, if there is one. -/
def validatorField : Option (List Char) → Except Failure Http.Fields
  | some tag => (fieldValue tag).map fun v => [("etag", v)]
  | none => .ok []

/-- The fields that describe an image, apart from its body. -/
def describe (e : Encoder) (now : Nat) (t : Image.Transform) (source : String)
    (tag : Option (List Char)) : Except Failure Http.Fields := do
  let expires ← e.expires now
  let cacheControl ← fieldValue e.cacheControl
  let disposition ← fieldValue (Disposition.value source t.format)
  let validator ← validatorField tag
  return [("expires", expires), ("cache-control", cacheControl),
    ("content-type", Utf8.ofString t.format.mediaType),
    ("content-disposition", disposition)] ++ validator

/-- The field that tells a compressed body. -/
def encodingField : Http.Fields := [("content-encoding", Utf8.ofString "gzip")]

/-- Compresses data in a buffer from the pool. -/
def compressIn (pool : BufferPool) (level : Nat) (data : Bytes)
    (gzip : Nat → Bytes → Bytes := Gzip.compress) : Bytes × BufferPool :=
  let (buffer, pool) := pool.take
  let buffer := buffer.append (gzip level data)
  (buffer.data, pool.giveBack buffer)

/-- The body for a client, with its fields apart from the length. -/
def encodeBody (e : Encoder) (pool : BufferPool) (request : Http.Fields) (data : Bytes)
    (gzip : Nat → Bytes → Bytes := Gzip.compress) : (Http.Fields × Bytes) × BufferPool :=
  if e.compresses && acceptsGzip request then
    let (body, pool) := compressIn pool e.gzipLevel data gzip
    ((encodingField, body), pool)
  else (([], data), pool)

/-- The response with a processed image, for a client that sent the given fields. Any other
compression can take the place of the one of this library. -/
def image (e : Encoder) (pool : BufferPool) (now : Nat) (request : Http.Fields)
    (t : Image.Transform) (source : String) (tag : Option (List Char)) (data : Bytes)
    (gzip : Nat → Bytes → Bytes := Gzip.compress) : Except Failure Http.Response × BufferPool :=
  match e.describe now t source tag with
  | .error f => (.error f, pool)
  | .ok fields =>
    let ((encoding, body), pool) := e.encodeBody pool request data gzip
    let length := [("content-length", Http.Response.numeral body.length)]
    (.ok ⟨.ok, fields ++ encoding ++ length, body⟩, pool)

/-- The response that tells a client that its copy is still good. -/
def notModified (tag : List Char) : Http.Response :=
  match fieldValue tag with
  | .ok v => { Http.Response.bare .notModified with fields := [("etag", v)] }
  | .error _ => .bare .notModified

end Encoder

end Gateway
