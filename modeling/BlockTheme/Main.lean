import BlockTheme.Command

/-!
# The program

Takes the files that a call looks at from the disk, carries the call out on them, puts what has
changed back onto the disk and prints what there is to print.
-/
namespace BlockTheme.Disk

def textOf (location : Location) : String := "/" ++ "/".intercalate location

def namesIn (location : Location) : IO (List String) := do
  let found ← ((← IO.currentDir) / textOf location).readDir
  return found.toList.map (·.fileName)

def entryAt (location : Location) : IO (Option Entry) := do
  match ← (namesIn location).toBaseIO with
  | .ok _ => return some .directory
  | .error _ =>
    match ← (IO.FS.readBinFile (textOf location)).toBaseIO with
    | .ok content => return some (.file content.toList)
    | .error _ => return none

/-- Adds what stands at a location, and so many levels below it. -/
def load : Nat → Files → Location → IO Files
  | depth, files, location => do
    match ← entryAt location, depth with
    | none, _ => return files
    | some .directory, depth + 1 =>
      (← namesIn location).foldlM (fun files name => load depth files (location ++ [name]))
        (files.put location .directory)
    | some entry, _ => return files.put location entry

/-- Adds what a path leads through and what stands at its end, with so many levels below. -/
def loadPath (files : Files) (path : Path) (depth : Nat) : IO Files := do
  let places := files.way path
  let files ← places.foldlM (load 0) files
  load depth files (places.getLastD [])

/-- Puts what has changed onto the disk, directories before what is in them. -/
def store (before after : Files) : IO Unit :=
  for (location, entry) in after.entries do
    if before.at? location != some entry then
      match entry with
      | .directory => IO.FS.createDirAll (textOf location)
      | .file content => IO.FS.writeBinFile (textOf location) ⟨content.toArray⟩

/-- Prints what a call ended with, and gives its exit code. -/
def report (milliseconds : Nat) : Command.Ending → IO UInt32
  | .returned code output => do
    let seconds := Binary64.ofRatio false milliseconds 1000
    IO.print (output.print (String.ofList (seconds.text Json.displayLayout)))
    return UInt32.ofNat code
  | .exited exit => do
    IO.print exit.output
    IO.eprint exit.errors
    return UInt32.ofNat exit.code
  | .failed why => do
    IO.eprintln why.message
    return 1

end BlockTheme.Disk

open BlockTheme in
def main (args : List String) : IO UInt32 := do
  let start ← IO.monoMsNow
  let current := (Path.ofText (← IO.currentDir).toString).parts
  let empty : Files := ⟨current, []⟩
  let files ← (Command.looksAt empty args).foldlM (fun files (path, depth) =>
    Disk.loadPath files path depth) empty
  let (session, ending) := Command.Session.run ⟨files, Settings.shipped, Packers.missing⟩ args
  Disk.store files session.files
  Disk.report ((← IO.monoMsNow) - start) ending
