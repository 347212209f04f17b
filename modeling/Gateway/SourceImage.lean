import Gateway.Text.Digits
/-!
# Source images

A downloaded image is its bytes and, perhaps, one hook that runs when the image is given back. A
later hook takes the place of an earlier one, which then never runs.
-/

namespace Gateway

/-- A downloaded image; hooks are named by tags. -/
structure SourceImage where
  data : Bytes
  hook : Option String
deriving DecidableEq, Repr

namespace SourceImage

/-- An image without a hook. -/
def ofBytes (data : Bytes) : SourceImage := ⟨data, none⟩

/-- The image with a hook. -/
def withHook (image : SourceImage) (tag : String) : SourceImage := { image with hook := some tag }

/-- The hooks that run when the image is given back. -/
def giveBack (image : SourceImage) : List String := image.hook.toList

/-- The text of an image in messages. -/
def summary (image : SourceImage) : String :=
  "DownloadedImage \x7b len: " ++ String.ofList (Text.decimal image.data.length) ++
    ", release: " ++ (if image.hook.isSome then "true" else "false") ++ " \x7d"

/-! ### Steps -/

/-- What is done with an image. -/
inductive Step where
  /-- A hook is attached. -/
  | attach (tag : String)
  /-- The image is given back. -/
  | giveBack
deriving DecidableEq, Repr

/-- The image after a step, if it is still there, and the hooks that run in the step. Nothing more is
done with an image that has been given back. -/
def step? : Option SourceImage → Step → Option (Option SourceImage × List String)
  | some image, .attach tag => some (some (image.withHook tag), [])
  | some image, .giveBack => some (none, image.giveBack)
  | none, _ => none

end SourceImage

end Gateway
