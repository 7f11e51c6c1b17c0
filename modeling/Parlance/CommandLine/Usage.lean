import Parlance.CommandLine.Arguments

/-! What the program tells about itself. -/

namespace Parlance.CommandLine

def Topic.summary : Topic → String
  | ask => "Turn a request in plain words into a statement and execute it"
  | sql => "Execute raw SQL with positional parameters"
  | schema => "Show the schema of one table or the whole database"
  | validate => "Validate SQL without connecting to a database"
  | health => "Check that the backend answers"

def Topic.operands : Topic → String
  | ask => " <TEXT>"
  | sql | validate => " <SQL>"
  | schema | health => ""

def Switch.summary : Switch → String
  | config => "JSON configuration file (default: environment)"
  | confirm => "Confirm a destructive statement"
  | dryRun => "Print the statement and the verdict on it without executing"
  | param => "Positional parameter (repeatable); numbers, true/false and null are typed"
  | table => "Show this table only"
  | refresh => "Drop cached schema before reading"
  | help => "Print help"

def Switch.usage (s : Switch) : String :=
  (match s.letter? with
    | some c => "-" ++ c.toString ++ ", "
    | none => "    ") ++ "--" ++ s.name ++ (if s.takesValue then " <VALUE>" else "")

def Topic.usage (t : Topic) : List String :=
  ["  " ++ t.name ++ t.operands, "      " ++ t.summary] ++
    (t.switches.filter fun s => s ≠ .config && s ≠ .help).map fun s => "      " ++ s.usage ++ "  " ++ s.summary

def usage : String := "\n".intercalate (
  ["Turn plain words into SQL, check it, and run it", "", "Usage: parlance [OPTIONS] <COMMAND>", "",
    "Commands:"] ++ Topic.all.flatMap Topic.usage ++
  ["", "Options:"] ++ [Switch.config, Switch.help].map fun s => "  " ++ s.usage ++ "  " ++ s.summary)

end Parlance.CommandLine
