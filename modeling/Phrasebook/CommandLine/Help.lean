import Phrasebook.CommandLine.Basic

/-!
# Help texts
-/

namespace Phrasebook

namespace CommandLine

/-- Lines of text, each with its line feed. -/
def lines (texts : List String) : String :=
  texts.foldr (fun line rest => line ++ "\n" ++ rest) ""

/-- The help about a topic. -/
def Topic.helpText : Topic → String
  | program => lines
    ["Extract user-facing sentences from script sources into a localization table",
     "",
     "Usage: langsweep [COMMAND]",
     "",
     "Commands:",
     "  run   Confirm sentences, rewrite a copy of the tree and write the catalog",
     "  scan  List sentence candidates without prompting or writing anything",
     "  init  Initialize a new .langsweeprc.json configuration file",
     "  help  Print this message or the help of the given subcommand(s)",
     "",
     "Options:",
     "  -h, --help     Print help",
     "  -V, --version  Print version"]
  | run => lines
    ["Confirm sentences, rewrite a copy of the tree and write the catalog",
     "",
     "Usage: langsweep run [OPTIONS]",
     "",
     "Options:",
     "      --path <PATH>        Folder to fetch sentences from (overrides config file)",
     "  -v, --verbose            Enable verbose output",
     "      --table <TABLE>      Table the catalog is attached to, as in <TABLE>.Lang (overrides config file)",
     "      --output <OUTPUT>    Directory receiving the rewritten copy of the tree (overrides config file)",
     "      --catalog <CATALOG>  File the catalog is written to (overrides config file)",
     "      --locale <LOCALE>    Locale key the accessor resolves against (overrides config file)",
     "      --force              Write into the output directory even if it is not empty. Every file already in it is rewritten too, not only the copied ones",
     "  -h, --help               Print help"]
  | scan => lines
    ["List sentence candidates without prompting or writing anything",
     "",
     "Usage: langsweep scan [OPTIONS]",
     "",
     "Options:",
     "      --path <PATH>  Folder to fetch sentences from (overrides config file)",
     "  -v, --verbose      Enable verbose output",
     "  -h, --help         Print help"]
  | init => lines
    ["Initialize a new .langsweeprc.json configuration file",
     "",
     "Usage: langsweep init",
     "",
     "Options:",
     "  -h, --help  Print help"]
  | help => lines
    ["Print this message or the help of the given subcommand(s)",
     "",
     "Usage: langsweep help [COMMAND]...",
     "",
     "Arguments:",
     "  [COMMAND]...  Print help for the subcommand(s)"]

/-- The name and the version of the program. -/
def versionText : String := lines ["langsweep 0.1.0"]

end CommandLine

end Phrasebook
