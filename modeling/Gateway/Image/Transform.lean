import Gateway.Image.Format
import Gateway.Image.Fitting
/-!
# Transformations

What a request asks to be done with an image: how it is fitted, its size, whether it may grow, the
quality and the output format. A transformation feeds the validator of a response through its
compact JSON text, so that text is fixed: the six fields in this order and no blanks.
-/

namespace Gateway.Image

/-- A transformation of an image. A width or height of zero leaves that side free. -/
structure Transform where
  fitting : Fitting
  width : UInt32
  height : UInt32
  enlarge : Bool
  quality : UInt8
  format : Format
deriving DecidableEq, Repr

namespace Transform

/-- The transformation that only changes the encoding to JPEG. -/
def standard : Transform := ⟨.fit, 0, 0, false, 80, .jpeg⟩

/-- The word for a flag. -/
def flagText (b : Bool) : String := if b then "true" else "false"

/-- The numeral of a number. -/
def numeral (n : Nat) : String := String.ofList (Text.decimal n)

/-- The compact JSON text. -/
def json (t : Transform) : String :=
  "\x7b\"resize\":\"" ++ t.fitting.name ++
  "\",\"width\":" ++ numeral t.width.toNat ++
  ",\"height\":" ++ numeral t.height.toNat ++
  ",\"enlarge\":" ++ flagText t.enlarge ++
  ",\"quality\":" ++ numeral t.quality.toNat ++
  ",\"format\":\"" ++ t.format.name ++ "\"\x7d"

/-- The text in log lines. -/
def summary (t : Transform) : String :=
  "ProcessingOptions \x7b resize: " ++ t.fitting.label ++
  ", width: " ++ numeral t.width.toNat ++
  ", height: " ++ numeral t.height.toNat ++
  ", enlarge: " ++ flagText t.enlarge ++
  ", quality: " ++ numeral t.quality.toNat ++
  ", format: " ++ t.format.label ++ " \x7d"

end Transform

end Gateway.Image
