import Parlance.Text.Basic

/-! The arguments of the program. A switch is named in full or by a letter, and its value is
attached to it or follows as the next argument; whatever else stands there is a word. The first
word names the command. Arguments are read in their order, and the first thing wrong with them,
or a switch that asks for help, ends the reading. -/

namespace Parlance.CommandLine

inductive Switch
  | config
  | confirm
  | dryRun
  | param
  | table
  | refresh
  | help
  deriving DecidableEq, Repr

def Switch.name : Switch → String
  | config => "config"
  | confirm => "confirm"
  | dryRun => "dry-run"
  | param => "param"
  | table => "table"
  | refresh => "refresh"
  | help => "help"

def Switch.letter? : Switch → Option Char
  | config => some 'c'
  | param => some 'p'
  | table => some 't'
  | help => some 'h'
  | confirm | dryRun | refresh => none

def Switch.takesValue : Switch → Bool
  | config | param | table => true
  | confirm | dryRun | refresh | help => false

inductive Topic
  | ask
  | sql
  | schema
  | validate
  | health
  deriving DecidableEq, Repr

def Topic.all : List Topic := [.ask, .sql, .schema, .validate, .health]

def Topic.name : Topic → String
  | ask => "ask"
  | sql => "sql"
  | schema => "schema"
  | validate => "validate"
  | health => "health"

def Topic.ofName? (s : String) : Option Topic := Topic.all.find? (·.name = s)

def Topic.switches : Topic → List Switch
  | ask => [.config, .confirm, .dryRun, .help]
  | sql => [.config, .param, .confirm, .help]
  | schema => [.config, .table, .refresh, .help]
  | validate | health => [.config, .help]

/-- How many words may follow the name of a command. -/
def Topic.words : Topic → Nat
  | ask | sql | validate => 1
  | schema | health => 0

def helpWord : String := "help"

inductive Command
  | ask (text : String) (confirm dryRun : Bool)
  | sql (sql : String) (params : List String) (confirm : Bool)
  | schema (table : Option String) (refresh : Bool)
  | validate (sql : String)
  | health
  deriving DecidableEq, Repr

structure Invocation where
  /-- The path of the configuration file. -/
  config : Option String
  command : Command
  deriving DecidableEq, Repr

inductive Stop
  | help
  | misuse
  deriving DecidableEq, Repr

inductive Argument
  | word
  /-- All that follows is words. -/
  | divider
  | named (name : List Char) (value : Option (List Char))
  | letter (c : Char) (attached : List Char)
  deriving DecidableEq, Repr

def Argument.ofChars : List Char → Argument
  | ['-', '-'] => divider
  | '-' :: '-' :: cs =>
    named (cs.takeWhile (· ≠ '=')) (match cs.dropWhile (· ≠ '=') with | [] => none | _ :: v => some v)
  | '-' :: c :: cs => letter c cs
  | _ => word

def Argument.of (a : String) : Argument := .ofChars a.toList

structure Draft where
  topic : Option Topic
  /-- The configuration named before the command. -/
  outerConfig : Option String
  given : List (Switch × String)
  words : List String
  wordsOnly : Bool
  deriving DecidableEq, Repr

namespace Draft

def start : Draft := ⟨none, none, [], [], false⟩

def switches (d : Draft) : List Switch := (d.topic.map Topic.switches).getD [.config, .help]

def value? (d : Draft) (s : Switch) : Option String := d.given.lookup s
def has (d : Draft) (s : Switch) : Bool := (d.value? s).isSome

/-- Only parameters may be given more than once, and the path of a file is never empty. -/
def give (d : Draft) (s : Switch) (value : String) : Except Stop Draft :=
  if s = .config && value = "" then .error .misuse
  else if s ≠ .param && d.has s then .error .misuse
  else .ok { d with given := d.given ++ [(s, value)] }

def addWord (d : Draft) (w : String) : Except Stop Draft :=
  match d.topic with
  | some t =>
    if d.words.length < t.words then .ok { d with words := d.words ++ [w] } else .error .misuse
  | none =>
    match if d.wordsOnly then none else Topic.ofName? w with
    | some t => .ok ⟨some t, d.value? .config, [], [], false⟩
    | none => .error .misuse

/-- A switch with the value attached to it; one that lacks its value waits for it. -/
def addSwitch (d : Draft) (s : Switch) (value : Option String) : Except Stop (Draft × Option Switch) :=
  match s.takesValue, value with
  | true, some v => (d.give s v).map (·, none)
  | true, none => .ok (d, some s)
  | false, some _ => .error .misuse
  | false, none => if s = .help then .error .help else (d.give s "").map (·, none)

/-- Switches without a value stand alone or are all that a letter is asked for. -/
def attachedValue (s : Switch) (attached : List Char) : Option String :=
  if !s.takesValue || attached = [] then none
  else some (String.ofList (if attached.head? = some '=' then attached.tail else attached))

def read (d : Draft) (a : String) : Except Stop (Draft × Option Switch) :=
  if d.wordsOnly then (d.addWord a).map (·, none)
  else match Argument.of a with
  | .word => (d.addWord a).map (·, none)
  | .divider => .ok ({ d with wordsOnly := true }, none)
  | .named name value =>
    match d.switches.find? (·.name = String.ofList name) with
    | some s => d.addSwitch s (value.map String.ofList)
    | none => .error .misuse
  | .letter c attached =>
    match d.switches.find? (·.letter? = some c) with
    | some s => d.addSwitch s (attachedValue s attached)
    | none => .error .misuse

def asksHelp (d : Draft) (a : String) : Bool := d.topic.isNone && !d.wordsOnly && a = helpWord

/-- Help is given on the program and on each of its commands. -/
def helpOn : List String → Stop
  | [] => .help
  | [t] => if (Topic.ofName? t).isSome || t = helpWord then .help else .misuse
  | _ => .misuse

/-- Reads arguments behind a switch that waits for its value, if one does. -/
def scan (d : Draft) : Option Switch → List String → Except Stop Draft
  | none, [] => .ok d
  | some _, [] => .error .misuse
  | some s, a :: rest =>
    if Argument.of a = .word then do scan (← d.give s a) none rest else .error .misuse
  | none, a :: rest =>
    if d.asksHelp a then .error (helpOn rest)
    else do
      let (d, waiting) ← d.read a
      scan d waiting rest
termination_by _ args => args.length

def config (d : Draft) : Option String := (d.value? .config).or d.outerConfig

def params (d : Draft) : List String := (d.given.filter (·.1 = .param)).map (·.2)

def command? (d : Draft) : Option Command :=
  match d.topic, d.words with
  | some .ask, [text] => some (.ask text (d.has .confirm) (d.has .dryRun))
  | some .sql, [sql] => some (.sql sql d.params (d.has .confirm))
  | some .schema, [] => some (.schema (d.value? .table) (d.has .refresh))
  | some .validate, [sql] => some (.validate sql)
  | some .health, [] => some .health
  | _, _ => none

end Draft

def Invocation.ofArguments (args : List String) : Except Stop Invocation := do
  let d ← Draft.start.scan none args
  match d.command? with
  | some c => .ok ⟨d.config, c⟩
  | none => .error .misuse

end Parlance.CommandLine
