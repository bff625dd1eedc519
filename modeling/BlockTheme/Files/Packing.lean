import BlockTheme.Files.Path
import BlockTheme.Text.Case

/-!
# Packed files

A table whose path ends as that of an archive or of a compressed file is packed on its way there. How
that is done is left to packages, of which one may be missing.
-/
namespace BlockTheme

/-- A way of packing a file. -/
inductive Packing where
  | tar | gzip | bzip2 | zip | xz | zstandard
  deriving DecidableEq, Repr

/-- What each way of packing makes of the content of a file; nothing if its package is missing. -/
abbrev Packers := Packing → Option (List UInt8 → List UInt8)

/-- No package at all. -/
def Packers.missing : Packers := fun _ => none

namespace Packing

/-- The ends of paths that stand for a way of packing. -/
def suffixes : List (String × Packing) :=
  [(".tar", .tar), (".tar.gz", .tar), (".tar.bz2", .tar), (".tar.xz", .tar), (".gz", .gzip),
    (".bz2", .bzip2), (".zip", .zip), (".xz", .xz), (".zst", .zstandard)]

/-- The text up to the first pair of colons, if there is one. -/
def beforeColons : List Char → List Char
  | ':' :: ':' :: _ => []
  | c :: r => c :: beforeColons r
  | [] => []

/-- How a file is packed that is written to a path; nothing if it is written as it is. -/
def ofPath? (path : Path) : Option Packing :=
  let s := Text.lower (beforeColons path.text.toList)
  (suffixes.find? fun (suffix, _) => suffix.toList.isSuffixOf s).map (·.2)

end Packing

end BlockTheme
