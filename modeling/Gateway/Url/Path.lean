import Gateway.Url.Percent
/-!
# Paths

A path is a list of segments with a slash before each. A segment of two dots takes back the segment
before it and a segment of one dot stands for nothing; at the end of a path both leave an empty
segment. A drive letter is never taken back. Dots count also when they are written as escapes.
-/

namespace Gateway.Url

/-- The schemes that have rules of their own. -/
inductive SchemeKind where
  /-- The schemes of the web, which always have a host. -/
  | web
  | file
  | other
deriving DecidableEq, Repr

/-- Whether the rules for backslashes and queries of the web apply. -/
def SchemeKind.isSpecial (k : SchemeKind) : Bool := k != .other

/-- Whether a character separates segments. -/
def SchemeKind.isSeparator (k : SchemeKind) (c : Char) : Bool :=
  c = '/' || (k.isSpecial && c = '\\')

/-- Whether a character ends a path. -/
def endsPath (c : Char) : Bool := c = '?' || c = '#'

/-- The spellings of a segment of one dot. -/
def singleDots : List (List Char) := [['.'], ['%', '2', 'e']]

/-- Whether a segment stands for the directory itself. -/
def isSingleDot (s : List Char) : Bool := singleDots.contains (s.map Char.toLower)

/-- Whether a segment stands for the directory above. -/
def isDoubleDot (s : List Char) : Bool :=
  (singleDots.flatMap fun a => singleDots.map fun b => a ++ b).contains (s.map Char.toLower)

/-- Whether a text is a drive letter: a letter and a colon or bar. -/
def isDriveLetter : List Char → Bool
  | [a, b] => a.isAlpha && (b = ':' || b = '|')
  | _ => false

/-- The segments without the last one, unless it is a drive letter. -/
def takeBack (segs : List (List Char)) : List (List Char) :=
  if segs.getLast?.any isDriveLetter then segs else segs.dropLast

/-- The segments that a text between two separators contributes at a place. A drive letter at the
start of a file path is written with a colon and is a segment of its own. -/
def contributed (k : SchemeKind) (isFirst : Bool) (seg : List Char) : List (List Char) :=
  match k, isFirst, seg with
  | .file, true, [a, b] => if isDriveLetter [a, b] then [[a, ':']] else [seg]
  | .file, true, a :: ':' :: c :: r => if a.isAlpha then [[a, ':'], c :: r] else [seg]
  | _, _, _ => [seg]

/-- Adds a segment that another one follows. -/
def addInner (k : SchemeKind) (segs : List (List Char)) (seg : List Char) : List (List Char) :=
  if isDoubleDot seg then takeBack segs
  else if isSingleDot seg then segs
  else segs ++ contributed k segs.isEmpty seg

/-- Adds the last segment. -/
def addLast (k : SchemeKind) (segs : List (List Char)) (seg : List Char) : List (List Char) :=
  if isDoubleDot seg then takeBack segs ++ [[]]
  else if isSingleDot seg then segs ++ [[]]
  else segs ++ contributed k segs.isEmpty seg

/-- Adds the texts between separators, in order. -/
def addSegments (k : SchemeKind) : List (List Char) → List (List Char) → List (List Char)
  | segs, [] => segs
  | segs, [last] => addLast k segs last
  | segs, seg :: next :: more => addSegments k (addInner k segs seg) (next :: more)

/-- The texts between separators. -/
def betweenSeparators (k : SchemeKind) (s : List Char) : List (List Char) :=
  Text.split '/' (s.map fun c => if k.isSeparator c then '/' else c)

/-- Reads a path after its first slash, with some segments already there. -/
def readPath (k : SchemeKind) (segs : List (List Char)) (s : List Char) : List (List Char) :=
  addSegments k segs ((betweenSeparators k s).map (escape pathSet))

/-- The segments without empty ones at the start; the last one stays. -/
def dropEmpty : List (List Char) → List (List Char)
  | [] :: s :: r => dropEmpty (s :: r)
  | segs => segs

/-- The text of a path: a slash before each segment. -/
def pathText (segs : List (List Char)) : List Char := segs.flatMap fun s => '/' :: s

end Gateway.Url
