import BlockTheme.Text.Blank

/-!
# Paths

Paths of files: the parts between the slashes, without those that say nothing. Two slashes at the
front are kept, any other number of them counts as one.
-/
namespace BlockTheme

structure Path where
  /-- The slashes at the front: none, one or two. -/
  slashes : Nat := 0
  parts : List String
  deriving DecidableEq, Repr

namespace Path

/-- The parts of a text that say something. -/
def partsOf (s : List Char) : List String :=
  ((Text.splitAt '/' s).map String.ofList).filter fun part => part != "" && part != "."

def ofText (s : String) : Path :=
  let count := (s.toList.takeWhile (· == '/')).length
  ⟨if count = 0 then 0 else if count = 2 then 2 else 1, partsOf s.toList⟩

def isAbsolute (p : Path) : Bool := p.slashes != 0

/-- The text of a path. -/
def text (p : Path) : String :=
  -- the path without parts is a point
  if p.slashes = 0 && p.parts.isEmpty then "."
  else String.ofList (List.replicate p.slashes '/') ++ "/".intercalate p.parts

/-- A path seen from another one. -/
def join (base p : Path) : Path :=
  if p.isAbsolute then p else { base with parts := base.parts ++ p.parts }

def child (base : Path) (name : String) : Path := { base with parts := base.parts ++ [name] }

def parent (p : Path) : Path := { p with parts := p.parts.dropLast }

def name (p : Path) : String := p.parts.getLastD ""

/-- The length of a name without its suffix, which is its last point and what follows it. -/
def stemLength (name : List Char) : Nat :=
  let tail := (name.reverse.takeWhile (· != '.')).length
  let before := name.length - tail - 1
  -- a point at either end of a name begins no suffix
  if name.contains '.' && 0 < before && 0 < tail then before else name.length

/-- Why a suffix cannot be replaced. -/
inductive BadSuffix where
  | malformed
  | noName
  deriving DecidableEq, Repr

/-- Whether a text can be a suffix: nothing, or a point and more, without a slash. -/
def isSuffix (suffix : String) : Bool :=
  let s := suffix.toList
  !s.contains '/' && (s.isEmpty || (Text.startsWith (· == '.') s && s != ['.']))

def withSuffix (p : Path) (suffix : String) : Except BadSuffix Path :=
  if !isSuffix suffix then .error .malformed
  else if p.parts.isEmpty then .error .noName
  else
    let name := p.name.toList
    .ok (p.parent.child (String.ofList (name.take (stemLength name) ++ suffix.toList)))

end Path

end BlockTheme
