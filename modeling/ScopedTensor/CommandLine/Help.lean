import ScopedTensor.CommandLine.Arguments

/-! Help and version texts. -/

namespace ScopedTensor.CommandLine

def Command.about : Command → String
  | info => "Show engine name, version, devices and capabilities"
  | ops => "List registered operators"
  | smoke => "Run a create / arithmetic / backward / dump round"

def helpAbout : String := "Print this message or the help of the given subcommand(s)"

abbrev Entry := String × String

def configEntry : Entry := ("    --config <CONFIG>", "JSON engine configuration file")

def filterEntry : Entry := ("    --filter <FILTER>", "Only operators starting with this prefix")

def commonEntries : List Entry :=
  [("    --library <LIBRARY>", "Engine implementation: reference or dylib"),
    ("    --library-path <LIBRARY_PATH>", "Path of the native library for the dylib engine"),
    ("    --json", "Print machine-readable JSON instead of text")]

def versionEntry : Entry := ("-V, --version", "Print version")

def commandEntries : List Entry :=
  Command.all.map (fun c => (c.name, c.about)) ++ [("help", helpAbout)]

def padded (width : Nat) (s : String) : String :=
  s ++ String.ofList (List.replicate (width - s.length) ' ')

def columns (entries : List Entry) : String :=
  let width := entries.foldl (fun w e => max w e.1.length) 0
  String.join (entries.map fun e => "  " ++ padded width e.1 ++ "  " ++ e.2 ++ "\n")

def paragraphs (entries : List Entry) : String :=
  "\n".intercalate (entries.map fun e => "  " ++ e.1 ++ "\n          " ++ e.2 ++ "\n")

def programUsage : String := "\n\nUsage: ndbind [OPTIONS] <COMMAND>\n\nCommands:\n"

def Topic.text : Topic → String
  | program true =>
    "Loads a native tensor engine through ndbind and reports what it offers.\n\n" ++
      "The in-process reference engine is used unless a dylib engine is configured." ++
      programUsage ++ columns commandEntries ++ "\nOptions:\n" ++
      paragraphs (configEntry :: commonEntries ++
        [("-h, --help", "Print help (see a summary with '-h')"), versionEntry])
  | program false =>
    "Inspect and exercise a native tensor engine" ++ programUsage ++ columns commandEntries ++
      "\nOptions:\n" ++
      columns (configEntry :: commonEntries ++
        [("-h, --help", "Print help (see more with '--help')"), versionEntry])
  | command c =>
    c.about ++ "\n\nUsage: ndbind " ++ c.name ++ " [OPTIONS]\n\nOptions:\n" ++
      columns (configEntry :: (if c = .ops then [filterEntry] else []) ++ commonEntries ++
        [("-h, --help", "Print help")])
  | help =>
    helpAbout ++ "\n\nUsage: ndbind help [COMMAND]...\n\nArguments:\n" ++
      columns [("[COMMAND]...", "Print help for the subcommand(s)")]

def versionText : String := "ndbind 0.1.0\n"

end ScopedTensor.CommandLine
