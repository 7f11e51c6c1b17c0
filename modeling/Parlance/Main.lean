import Parlance.CommandLine.Run
import Parlance.CommandLine.Usage
import Parlance.Json.Layout
import Std.Time.DateTime.Timestamp

/-! The program. -/

open Parlance

namespace Parlance.CommandLine

def readFile (path : String) : IO FileContents := do
  try return some (← IO.FS.readBinFile path).toList
  catch _ => return none

def readEnvironment : IO Environment := do
  let found ← Environment.keys.mapM fun k => return (k, ← IO.getEnv k)
  return fun key => (found.lookup key).join

def readDatabase (path : String) : IO (Option Sqlite.Database) := do
  try
    IO.FS.withFile path .append fun _ => return ()
    return (Sqlite.entriesOf? (← IO.FS.readFile path)).map Sqlite.replay
  catch _ => return none

def keepEntry (path : String) (e : Sqlite.Entry) : IO Unit :=
  IO.FS.withFile path .append fun h => h.putStr e.line

def secondsNow : IO Int := do
  return (← Std.Time.Timestamp.now).toSecondsSinceUnixEpoch.val

/-- Servers are out of reach from here. -/
def surroundings : Surroundings IO where
  environment := readEnvironment
  file := readFile
  database := readDatabase
  keep := keepEntry
  server _ _ := return .error "error communicating with database: network unreachable"
  now := secondsNow

def print : Ending → IO Unit
  | .answer j => IO.println j.pretty
  | .failure e => IO.eprintln (report e)
  | .usage => IO.println usage
  | .misuse => IO.eprintln usage

end Parlance.CommandLine

def main (args : List String) : IO UInt32 := do
  let ending ← CommandLine.run CommandLine.surroundings args
  CommandLine.print ending
  return ending.code.toUInt32
