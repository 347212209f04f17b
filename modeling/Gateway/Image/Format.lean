import Gateway.Text.Quoted
/-!
# Image formats

The formats an image can be served in. A format is spelled in three ways: by its name, by the file
extension of a download and by its media type. Readers of paths accept a name or an extension in any
letter case.
-/

namespace Gateway.Image

/-- The format of an image. -/
inductive Format where
  | jpeg
  | png
  | webp
  | gif
  | ico
deriving DecidableEq, Repr

namespace Format

/-- All formats. -/
def all : List Format := [jpeg, png, webp, gif, ico]

/-- The name of a format. -/
def name : Format → String
  | jpeg => "jpeg"
  | png => "png"
  | webp => "webp"
  | gif => "gif"
  | ico => "ico"

/-- The name with a capital, as log lines show it. -/
def label : Format → String
  | jpeg => "Jpeg"
  | png => "Png"
  | webp => "Webp"
  | gif => "Gif"
  | ico => "Ico"

/-- The media type. -/
def mediaType : Format → String
  | jpeg => "image/jpeg"
  | png => "image/png"
  | webp => "image/webp"
  | gif => "image/gif"
  | ico => "image/x-icon"

/-- The file extension. -/
def extension : Format → String
  | jpeg => "jpg"
  | png => "png"
  | webp => "webp"
  | gif => "gif"
  | ico => "ico"

/-- The format with a given name. -/
def ofName? (s : String) : Option Format := all.find? fun f => f.name == s

/-- The format that a text spells in lower case, by name or by extension. -/
def ofLower? (s : List Char) : Option Format :=
  all.find? fun f => f.name.toList == s || f.extension.toList == s

/-- The format that a text spells in any letter case. -/
def ofSpelling? (s : List Char) : Option Format := ofLower? (s.map Char.toLower)

/-- The complaint about a text that spells no format. -/
def unknownMessage (s : String) : String := "unknown image type: " ++ Text.quoted s

end Format

end Gateway.Image
