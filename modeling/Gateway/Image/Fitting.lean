/-!
# Fitting

How an image is brought to the size asked for.
-/

namespace Gateway.Image

/-- How an image is fitted into the target size. -/
inductive Fitting where
  | fit
  | fill
  | crop
deriving DecidableEq, Repr

namespace Fitting

/-- All ways of fitting. -/
def all : List Fitting := [fit, fill, crop]

/-- The name of a way of fitting. -/
def name : Fitting → String
  | fit => "fit"
  | fill => "fill"
  | crop => "crop"

/-- The name with a capital, as log lines show it. -/
def label : Fitting → String
  | fit => "Fit"
  | fill => "Fill"
  | crop => "Crop"

/-- The way of fitting with a given name. -/
def ofName? (s : String) : Option Fitting := all.find? fun f => f.name == s

end Fitting

end Gateway.Image
