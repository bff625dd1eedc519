import BlockTheme.Files.Path
import BlockTheme.Text.Utf8

/-!
# Files

A file system as a value: what stands at each location, and the directory that paths are seen from.
Every operation either gives its result or the reason why it failed, with the path that it failed
for.
-/
namespace BlockTheme

/-- A place in the file system: the names on the way from the root. -/
abbrev Location := List String

/-- What stands at a location. -/
inductive Entry where
  | file (content : List UInt8)
  | directory
  deriving DecidableEq, Repr

/-- A file system. The root is always a directory. -/
structure Files where
  current : Location
  entries : List (Location × Entry)

namespace Files

/-! ## Failures -/

/-- Why the file system refuses something. -/
inductive Reason where
  | notFound
  | exists
  | notADirectory
  | isADirectory
  | nameTooLong
  deriving DecidableEq, Repr

/-- The number and the words for a reason. -/
def Reason.message : Reason → String
  | .notFound => "[Errno 2] No such file or directory"
  | .exists => "[Errno 17] File exists"
  | .notADirectory => "[Errno 20] Not a directory"
  | .isADirectory => "[Errno 21] Is a directory"
  | .nameTooLong => "[Errno 36] File name too long"

inductive Failure where
  | refused (reason : Reason) (path : Path)
  | nullCharacter
  /-- The content of a file is no text. -/
  | undecodable (fault : Text.Utf8.Fault)
  deriving DecidableEq, Repr

def Failure.message : Failure → String
  | .refused reason path => reason.message ++ ": " ++ Text.quoted path.text
  | .nullCharacter => "embedded null byte"
  | .undecodable fault => fault.message

/-! ## Looking up -/

/-- What stands at a location. -/
def at? (files : Files) (location : Location) : Option Entry :=
  if location.isEmpty then some .directory else files.entries.lookup location

def longestName : Nat := 255

/-- The location that names lead to from a directory. -/
def walk (files : Files) (location : Location) : List String → Except Reason Location
  | [] => .ok location
  | name :: rest =>
    if name = ".." then walk files location.dropLast rest
    else if longestName < name.utf8ByteSize then .error .nameTooLong
    else
      match rest, files.at? (location ++ [name]) with
      -- the last name may be missing, and all others have to be directories
      | [], _ => .ok (location ++ [name])
      | _ :: _, none => .error .notFound
      | _ :: _, some (.file _) => .error .notADirectory
      | rest, some .directory => walk files (location ++ [name]) rest

def locate (files : Files) (path : Path) : Except Failure Location :=
  if path.parts.any fun part => part.toList.contains (Char.ofNat 0) then .error .nullCharacter
  else
    match files.walk (if path.isAbsolute then [] else files.current) path.parts with
    | .ok location => .ok location
    | .error reason => .error (.refused reason path)

/-- The locations that a path leads through, whether anything stands there or not. -/
def way (files : Files) (path : Path) : List Location :=
  let step (places : List Location) (name : String) : List Location :=
    let here := places.headD []
    (if name = ".." then here.dropLast else here ++ [name]) :: places
  (path.parts.foldl step [if path.isAbsolute then [] else files.current]).reverse

def find (files : Files) (path : Path) : Except Failure (Option Entry) :=
  (files.locate path).map files.at?

/-- What stands at a path, if anything does. -/
def look (files : Files) (path : Path) : Except Failure (Option Entry) :=
  match files.find path with
  | .error (.refused .nameTooLong path) => .error (.refused .nameTooLong path)
  -- a path that leads nowhere is no failure here
  | .error _ => .ok none
  | .ok found => .ok found

def isDirectory (files : Files) (path : Path) : Except Failure Bool :=
  (files.look path).map fun found => found == some .directory

def isFile (files : Files) (path : Path) : Except Failure Bool :=
  (files.look path).map fun
    | some (.file _) => true
    | _ => false

/-! ## Reading -/

/-- Line ends of all three kinds as line feeds. -/
def unifyLines : List Char → List Char
  | [] => []
  | '\r' :: '\n' :: r => '\n' :: unifyLines r
  | c :: r => (if c = '\r' then '\n' else c) :: unifyLines r

def read (files : Files) (path : Path) : Except Failure String :=
  match files.find path with
  | .error why => .error why
  | .ok none => .error (.refused .notFound path)
  | .ok (some .directory) => .error (.refused .isADirectory path)
  | .ok (some (.file content)) =>
    match Text.Utf8.decode content with
    | .error fault => .error (.undecodable fault)
    | .ok text => .ok (String.ofList (unifyLines text))

/-- The text of a file that may be missing. -/
def read? (files : Files) (path : Path) : Except Failure (Option String) := do
  if ← files.isFile path then some <$> files.read path else return none

/-- The names in a directory, in the order of their characters. -/
def names (files : Files) (location : Location) : List String :=
  let inside := files.entries.filterMap fun (place, _) =>
    if place.dropLast = location then place.getLast? else none
  inside.mergeSort fun a b => decide (a ≤ b)

/-! ## Writing -/

def put (files : Files) (location : Location) (entry : Entry) : Files :=
  { files with
    entries := files.entries.filter (fun (place, _) => place != location) ++ [(location, entry)] }

/-- Makes one directory, whose parent has to be there. -/
def makeOne (files : Files) (path : Path) : Except Failure Files :=
  match files.locate path with
  | .error why => .error why
  | .ok location =>
    match files.at? location, files.at? location.dropLast with
    | some _, _ => .error (.refused .exists path)
    | none, some .directory => .ok (files.put location .directory)
    | none, some (.file _) => .error (.refused .notADirectory path)
    | none, none => .error (.refused .notFound path)

/-- The failure to make a directory, unless it is there already and there is no harm in it. -/
def unlessThere (files : Files) (path : Path) (why : Failure) : Option Failure :=
  match why with
  | .refused _ _ =>
    match files.isDirectory path with
    | .ok true => none
    | .ok false => some why
    | .error later => some later
  | why => some why

/-- Makes a directory and those above it, of which there are at most as many as there is `fuel` for.
-/
def makeFrom : Nat → Files → Path → Files × Option Failure
  | 0, files, path =>
    match files.makeOne path with
    | .ok made => (made, none)
    | .error why => (files, files.unlessThere path why)
  | fuel + 1, files, path =>
    match files.makeOne path with
    | .ok made => (made, none)
    | .error (.refused .notFound place) =>
      if path.parts.isEmpty then (files, some (.refused .notFound place))
      else
        match makeFrom fuel files path.parent with
        -- what was made before a failure stays
        | (above, some why) => (above, some why)
        | (above, none) =>
          match above.makeOne path with
          | .ok made => (made, none)
          | .error why => (above, above.unlessThere path why)
    | .error why => (files, files.unlessThere path why)

/-- Makes a directory and those above it, as far as they are not there already. -/
def make (files : Files) (path : Path) : Files × Option Failure :=
  makeFrom path.parts.length files path

/-- Writes bytes to a file, whose directory has to be there. -/
def writeBytes (files : Files) (path : Path) (content : List UInt8) : Except Failure Files :=
  match files.locate path with
  | .error why => .error why
  | .ok location =>
    match files.at? location, files.at? location.dropLast with
    | some .directory, _ => .error (.refused .isADirectory path)
    | _, some .directory => .ok (files.put location (.file content))
    | _, some (.file _) => .error (.refused .notADirectory path)
    | _, none => .error (.refused .notFound path)

def write (files : Files) (path : Path) (text : String) : Except Failure Files :=
  files.writeBytes path (Text.Utf8.encode text.toList)

/-- Writes bytes to a file after making its directory. -/
def saveBytes (files : Files) (path : Path) (content : List UInt8) : Files × Option Failure :=
  match files.make path.parent with
  | (files, some why) => (files, some why)
  | (files, none) =>
    match files.writeBytes path content with
    | .ok files => (files, none)
    | .error why => (files, some why)

def save (files : Files) (path : Path) (text : String) : Files × Option Failure :=
  files.saveBytes path (Text.Utf8.encode text.toList)

def saveAll (files : Files) : List (Path × String) → Files × Option Failure
  | [] => (files, none)
  | (path, text) :: rest =>
    match files.save path text with
    | (files, some why) => (files, some why)
    | (files, none) => saveAll files rest

end Files

end BlockTheme
