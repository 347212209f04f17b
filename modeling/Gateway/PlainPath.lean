import Gateway.Failure
import Gateway.Http.Target
import Gateway.Image.Transform
import Gateway.Url.Basic
/-!
# Plain paths

The simplest grammar of requests: the path holds the reference of the source image as it is, and
after it, perhaps, an `@` and the spelling of a format. Without that spelling, the extension of the
source names the format. Only sources of the web are accepted.
-/

namespace Gateway

/-- What a request asks for: a transformation of a source. -/
structure Parsed where
  transform : Image.Transform
  sourceUrl : String
deriving DecidableEq, Repr

namespace PlainPath

/-- What every plain path starts with. -/
def mark : List Char := "/plain/".toList

/-- Cuts the spelling of a format off the end, if there is one. -/
def cutFormat (s : List Char) : List Char × Option Image.Format :=
  match Text.cutLast '@' s with
  | some (source, spelling) =>
    match Image.Format.ofSpelling? spelling with
    | some f => (source, some f)
    | none => (s, none)
  | none => (s, none)

/-- The format that the extension of a source names. -/
def extensionFormat? (url : Url) : Option Image.Format :=
  (url.lastSegment?.bind (Text.cutLast '.')).bind fun p => Image.Format.ofSpelling? p.2

/-- Whether a source is fetched over the web. -/
def isWeb (url : Url) : Bool := url.scheme = "http".toList || url.scheme = "https".toList

/-- What the part after the mark asks for. -/
def parseSource (raw : List Char) (urls : Url.Reader := Url.reader) : Except Failure Parsed :=
  let (source, explicit) := cutFormat raw
  match urls.parse source with
  | .error e =>
    .error (.parse ("Invalid source URL " ++ Text.quoted (String.ofList source) ++ ": " ++ e.text))
  | .ok url =>
    if isWeb url then
      let format := (explicit.orElse fun _ => extensionFormat? url).getD .jpeg
      .ok ⟨{ Image.Transform.standard with format }, String.ofList source⟩
    else .error (.parse ("Unsupported source scheme: " ++ String.ofList url.scheme))

/-- What a request for a target asks for. -/
def parse (target : Http.Target) (urls : Url.Reader := Url.reader) : Except Failure Parsed :=
  let path := target.pathAndQuery?.getD ""
  match Text.afterStart mark path.toList with
  | some raw => parseSource raw urls
  | none => .error (.parse ("Invalid path: " ++ path))

end PlainPath

end Gateway
