import Gateway.Url.Basic
import Gateway.Image.Format
/-!
# Download names

A response suggests a name under which the image may be stored: the last segment of the source's
path without its extension, followed by the extension of the format served. The name stands between
double quotes, where a quote and a backslash are preceded by a backslash; controls are left out.
Without a last segment the name is a fixed one.
-/

namespace Gateway.Disposition

/-- The name of an image whose source has none. -/
def fallbackName : List Char := ['i', 'm', 'a', 'g', 'e']

/-- Whether a character is a control. -/
def isControl (c : Char) : Bool := c.toNat < 0x20 || (0x7F ≤ c.toNat && c.toNat ≤ 0x9F)

/-- A name as it stands between double quotes. -/
def quotedName (s : List Char) : List Char :=
  s.flatMap fun c =>
    if c = '"' ∨ c = '\\' then ['\\', c] else if isControl c then [] else [c]

/-- A text up to its last dot. -/
def stem (s : List Char) : List Char :=
  match Text.cutLast '.' s with
  | some (before, _) => before
  | none => s

/-- The text of a segment with its escapes undone. -/
def unescaped (segment : List Char) : List Char :=
  Utf8.decodeLossy (Url.unescape (Utf8.encode segment))

/-- The last segment of a source's path, if it is not empty. -/
def segment? (source : String) (urls : Url.Reader := Url.reader) : Option (List Char) :=
  match urls.parse source.toList with
  | .ok url => url.lastSegment?.filter fun s => !s.isEmpty
  | .error _ => none

/-- The name of a source between the quotes. -/
def name (source : String) (urls : Url.Reader := Url.reader) : List Char :=
  match segment? source urls with
  | some s => quotedName (stem (unescaped s))
  | none => fallbackName

/-- The field value that suggests a name for a source in a format. -/
def value (source : String) (format : Image.Format) (urls : Url.Reader := Url.reader) : List Char :=
  "inline; filename=\"".toList ++ name source urls ++ ['.'] ++ format.extension.toList ++ ['"']

end Gateway.Disposition
