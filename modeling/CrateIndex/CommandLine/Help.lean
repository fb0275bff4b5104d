import CrateIndex.CommandLine.Arguments

/-!
# Help

What the program says about its options.
-/

namespace CrateIndex.CommandLine

/-- Lines, each ended by a line feed. -/
def linesOf (ls : List String) : Text := ls.flatMap fun l => Text.ofString l ++ "\n"

/-- How the program is called. -/
def usage : Text := linesOf [
  "usage: cargo-import [-h] [--json] [--index INDEX_PATTERN]",
  "                    [--merge-strategy \x7breplace,union\x7d]",
  "                    [--loglevel \x7bDEBUG,INFO,WARNING,ERROR,CRITICAL\x7d]",
  "                    [--logfile LOG_FILE]"]

/-- The answer to a call for help. -/
def helpText : Text := usage ++ linesOf [
  "",
  "Convert a local crates.io index mirror into a test registry document. Output",
  "is msgpack on stdout; --json is the only output-mode switch. The remaining",
  "options only configure input, merging and logging.",
  "",
  "options:",
  "  -h, --help            show this help message and exit",
  "  --json                Write indented JSON instead of msgpack.",
  "  --index INDEX_PATTERN",
  "                        Glob pattern matching index files (default:",
  "                        $CARGO_IMPORT_INDEX or",
  "                        ~/.cargo/registry/index/*/*/*/*)",
  "  --merge-strategy \x7breplace,union\x7d",
  "                        How packages repeated across index files are merged",
  "                        (default: replace)",
  "  --loglevel \x7bDEBUG,INFO,WARNING,ERROR,CRITICAL\x7d",
  "                        Set the logging level",
  "  --logfile LOG_FILE    Log output file"]

/-- What a call with wrong arguments gets to read. -/
def UsageError.report (e : UsageError) : Text :=
  usage ++ "cargo-import: error: " ++ e.message ++ "\n"

end CrateIndex.CommandLine
