import Declutter.Report.Color
/-!
The help on the command. Its headings are in style on every output.
-/

set_option autoImplicit false
set_option relaxedAutoImplicit false

namespace Declutter.Help

def version : Text := "0.1.0"

/-- A heading with the lines below it. -/
def part (heading : String) (lines : List String) : List Text :=
  Style.wrap false [.bold] heading :: lines.map Text.ofString ++ [[]]

def opening : List Text :=
  [[], Style.wrap false [.cyan] "pytrim" ++ ": remove debug calls and comments from Python code",
    Style.wrap false [.dim] ("v" ++ version), []]

def usage : List Text :=
  part "USAGE"
    ["  pytrim <path> [options]           Clean a .py file or the .py files in a directory"]

def options : List Text :=
  part "OPTIONS"
    ["  -f, --functions <list>       Comma-separated call names to remove (default: print)",
      "                               Dotted names match exactly: logging.debug",
      "  -c, --remove-comments        Also remove comments (docstrings are kept)",
      "  -r, --recursive              Process subdirectories",
      "  -d, --dry-run                Print a diff instead of writing files",
      "  -n, --no-backup              Do not back up files before writing them",
      "  -e, --empty-blocks <mode>    Emptied blocks: pass (default), remove, keep",
      "  --backup-dir <dir>           Where backups go (default: the OS temp dir)",
      "  --keep-directives            Keep the shebang and encoding lines when removing comments",
      "  --verbose                    Set log level to debug",
      "  --quiet                      Only report errors",
      "  -h, --help                   Show this help",
      "  -v, --version                Print version"]

def settings : List Text :=
  part "CONFIG" ["  A .pytrim.yml next to the target supplies defaults; flags override it."]

def examples : List Text :=
  part "EXAMPLES"
    ["  pytrim app.py                                     Remove print() calls",
      "  pytrim src -r -f print,logging.debug -c           Calls and comments, whole tree",
      "  pytrim src -r --dry-run                           Preview changes as a diff",
      "  pytrim app.py -e remove                           Drop blocks that end up empty"]

def environment : List Text :=
  part "ENVIRONMENT" ["  PYTRIM_LOG_LEVEL             Log level: debug, info, warn, error, silent"]

def text : Text :=
  Text.join "\n" (opening ++ usage ++ options ++ settings ++ examples ++ environment ++ [[]])

def versionLine : Text := "pytrim v" ++ version ++ "\n"

end Declutter.Help
