import BlockTheme.Command.Arguments

/-!
# Commands and their help

The three commands of the converter with their switches, and the texts that explain them.
-/
namespace BlockTheme.Command

/-- The switch that asks for help. -/
def helpSwitch : Switch := ⟨["-h", "--help"], .help⟩

/-- The arguments before the name of a command. -/
def mainGrammar : Grammar := ⟨[helpSwitch, ⟨["--log-level"], .text⟩], .rest⟩

inductive Name where
  | convert | batch | summary
  deriving DecidableEq, Repr

namespace Name

/-- The commands in the order in which they are listed. -/
def all : List Name := [.convert, .batch, .summary]

def text : Name → String
  | .convert => "convert"
  | .batch => "batch"
  | .summary => "summary"

def ofText? (word : String) : Option Name := all.find? fun name => name.text == word

def grammar : Name → Grammar
  | .convert =>
    ⟨[helpSwitch, ⟨["--html"], .text⟩, ⟨["--css"], .text⟩, ⟨["-o", "--out"], .text⟩,
      ⟨["--no-reconcile"], .none⟩], .single "ir"⟩
  | .batch =>
    ⟨[helpSwitch, ⟨["-o", "--out"], .text⟩, ⟨["--workers"], .integer⟩,
      ⟨["--summary"], .text⟩, ⟨["--no-progress"], .none⟩], .single "directory"⟩
  | .summary => ⟨[helpSwitch], .single "ir"⟩

end Name

def program : String := "blocksmith"

def mainUsage : String :=
  "usage: blocksmith [-h] [--log-level LOG_LEVEL] \x7bconvert,batch,summary\x7d ...\n"

/-- What the program does and what its arguments mean. -/
def mainHelp : String :=
  mainUsage
    ++ "\n"
    ++ "Convert page IR documents into block theme files.\n"
    ++ "\n"
    ++ "positional arguments:\n"
    ++ "  \x7bconvert,batch,summary\x7d\n"
    ++ "                        Sub-command help\n"
    ++ "    convert             Convert a single IR document.\n"
    ++ "    batch               Convert every *.json IR document in a directory.\n"
    ++ "    summary             Print the analysis summary of an IR document.\n"
    ++ "\n"
    ++ "options:\n"
    ++ "  -h, --help            show this help message and exit\n"
    ++ "  --log-level LOG_LEVEL\n"
    ++ "                        Override debug.level from settings.json.\n"

def Name.usage : Name → String
  | .convert =>
    "usage: blocksmith convert [-h] [--html HTML] [--css CSS] [-o OUT]\n"
      ++ "                          [--no-reconcile]\n"
      ++ "                          ir\n"
  | .batch =>
    "usage: blocksmith batch [-h] [-o OUT] [--workers WORKERS] [--summary SUMMARY]\n"
      ++ "                        [--no-progress]\n"
      ++ "                        directory\n"
  | .summary => "usage: blocksmith summary [-h] ir\n"

/-- What the arguments of a command mean. -/
def Name.explanation : Name → String
  | .convert =>
    "positional arguments:\n"
      ++ "  ir                 Path to the IR JSON document.\n"
      ++ "\n"
      ++ "options:\n"
      ++ "  -h, --help         show this help message and exit\n"
      ++ "  --html HTML        Original markup, used to recover class names.\n"
      ++ "  --css CSS          Extracted stylesheet (defaults to the IR's customCSS).\n"
      ++ "  -o OUT, --out OUT  Output root directory (default: ./blocksmith_output).\n"
      ++ "  --no-reconcile     Skip class name recovery.\n"
  | .batch =>
    "positional arguments:\n"
      ++ "  directory          Directory containing IR JSON files (+ optional .html/.css\n"
      ++ "                     siblings).\n"
      ++ "\n"
      ++ "options:\n"
      ++ "  -h, --help         show this help message and exit\n"
      ++ "  -o OUT, --out OUT  Output root directory.\n"
      ++ "  --workers WORKERS  Number of parallel processes.\n"
      ++ "  --summary SUMMARY  Write a CSV summary to this path.\n"
      ++ "  --no-progress      Hide the progress bar.\n"
  | .summary =>
    "positional arguments:\n"
      ++ "  ir          Path to the IR JSON document.\n"
      ++ "\n"
      ++ "options:\n"
      ++ "  -h, --help  show this help message and exit\n"

def Name.help (name : Name) : String := name.usage ++ "\n" ++ name.explanation

end BlockTheme.Command
