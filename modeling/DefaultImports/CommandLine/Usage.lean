/-! The texts that explain the command line, for a terminal of 80 columns. -/
namespace DefaultImports.CommandLine

def program : String := "missingdefault"

def version : String := "0.1.0"

def unlines (lines : List String) : String := String.join (lines.map (· ++ "\n"))

def usageLines : List String := ["usage: missingdefault [-h] [--version] command ..."]

def helpLines : List String := usageLines ++ [
  "",
  "find default imports of modules that have no default export",
  "",
  "positional arguments:",
  "  command",
  "    check     check default imports against the exports of imported modules",
  "",
  "options:",
  "  -h, --help  show this help message and exit",
  "  --version   show program's version number and exit",
  "",
  "examples:",
  "  missingdefault check .                    # check entire project",
  "  missingdefault check src/App.tsx          # check specific file",
  "  missingdefault check --json .             # output as json",
  "  missingdefault check --severity warning . # report as warnings",
  "        "]

def checkUsageLines : List String := [
  "usage: missingdefault check [-h] [--include-ignored] [--json]",
  "                            [--output OUTPUT] [--verbose] [--absolute]",
  "                            [--severity \x7berror,warning,info\x7d] [--no-cache]",
  "                            [--debug]",
  "                            [paths ...]"]

def checkHelpLines : List String := checkUsageLines ++ [
  "",
  "positional arguments:",
  "  paths                 files or directories to check (default: current",
  "                        directory)",
  "",
  "options:",
  "  -h, --help            show this help message and exit",
  "  --include-ignored     also check files matched by .gitignore rules",
  "  --json                print a json report instead of text lines",
  "  --output OUTPUT, -o OUTPUT",
  "                        write the report to this file instead of stdout",
  "  --verbose, -v         print import counts after the issue summary",
  "  --absolute            print absolute file paths (json reports always use",
  "                        absolute paths)",
  "  --severity \x7berror,warning,info\x7d",
  "                        severity to report diagnostics with (default: from",
  "                        config, else error)",
  "  --no-cache            re-read every imported module instead of caching its",
  "                        exports for the run",
  "  --debug               log resolver, cache and scanner activity to stderr"]

end DefaultImports.CommandLine
