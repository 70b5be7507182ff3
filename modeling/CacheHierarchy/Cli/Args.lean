import CacheHierarchy.Trace.Grammar

set_option autoImplicit false

/-! # The command line

The program is called as

    cache-sim run --config PATH --traces PATH... [--interactive] [-v|--verbose] [--max-cycles N]

and also answers `--help`, `--version` and `help [run]`. Reading the arguments follows the
usual conventions of option parsers:

* a long option takes its value after `=` or as the next argument, a short one (`-c`, `-t`)
  also glued to it; short flags may be grouped (`-vt a.txt`);
* `--traces` takes every following argument up to the next option;
* an argument that starts with `-` (except `-` alone) is never taken as a value;
* an option given twice is an error, except `--traces`, whose values add up;
* help is printed as soon as it is asked for, on standard output, and so is the version.

Any other mistake is refused with a message on standard error (status 2): the first
unknown argument (with the closest known one, if one is close enough), a missing or
unreadable value, or, once every argument is read, the options that are required but
missing. Called with no argument at all, the program prints its help on standard error.
-/

namespace CacheHierarchy

namespace Cli

def programName : String := "cache-sim"

def versionText : String := "cli 0.1.0\n"

/-- An option of a command. -/
structure Flag where
  short : Option Char := none
  long : String
  /-- The name of its value, if it takes one. -/
  value : Option String := none
  /-- Whether it takes one or more values. -/
  many : Bool := false
  help : String
  deriving DecidableEq, Repr, Inhabited

namespace Flag

/-- How the option is named in messages: `--config <CONFIG>`, `--traces <TRACES>...`. -/
def title (f : Flag) : String :=
  "--" ++ f.long ++ (f.value.map fun v => " <" ++ v ++ ">" ++ if f.many then "..." else "").getD ""

/-- How the option is written in the help: with its short form first, or room for one. -/
def spec (f : Flag) : String :=
  (f.short.map fun c => "-" ++ c.toString ++ ", ").getD "    " ++ f.title

end Flag

/-- The options of `run`, in the order of the help. -/
def runFlags : List Flag :=
  [{ short := some 'c', long := "config", value := some "CONFIG",
     help := "File path to the machine configuration (json)" },
   { short := some 't', long := "traces", value := some "TRACES", many := true,
     help := "File paths to the traces, one per core in configuration order" },
   { long := "interactive", help := "Enable interactive mode" },
   { short := some 'v', long := "verbose", help := "Verbose output" },
   { long := "max-cycles", value := some "MAX_CYCLES", help := "Give up after this many cycles" },
   { short := some 'h', long := "help", help := "Print help" }]

/-- The options of the program itself. -/
def mainFlags : List Flag :=
  [{ short := some 'h', long := "help", help := "Print help" },
   { short := some 'V', long := "version", help := "Print version" }]

/-- The commands, with what they do. -/
def commands : List (String × String) :=
  [("run", "replay traces through the cache hierarchy"),
   ("help", "Print this message or the help of the given subcommand(s)")]

/-- Rows of two columns: the first padded to the widest, two blanks between. -/
def table (rows : List (String × String)) : String :=
  let w := (rows.map fun r => r.1.length).foldl Nat.max 0
  String.join (rows.map fun (a, b) => "  " ++ Text.alignLeft w a ++ "  " ++ b ++ "\n")

def optionsSection (flags : List Flag) : String :=
  "Options:\n" ++ table (flags.map fun f => (f.spec, f.help))

def mainUsage : String := "Usage: " ++ programName ++ " <COMMAND>"

def runUsage : String :=
  "Usage: " ++ programName ++ " run [OPTIONS] --config <CONFIG> --traces <TRACES>..."

def mainHelp : String :=
  mainUsage ++ "\n\nCommands:\n" ++ table commands ++ "\n" ++ optionsSection mainFlags

def runHelp : String :=
  "replay traces through the cache hierarchy\n\n" ++ runUsage ++ "\n\n" ++ optionsSection runFlags

def helpHelp : String :=
  "Print this message or the help of the given subcommand(s)\n\nUsage: " ++ programName ++
    " help [COMMAND]...\n\nArguments:\n  [COMMAND]...  Print help for the subcommand(s)\n"

/-- A refusal: the message, hints, the usage if any, and where to find help. -/
def refusal (message : String) (tips : List String) (usage : Option String) : String :=
  "error: " ++ message ++
    (if tips.isEmpty then "" else "\n" ++ String.join (tips.map ("\n  tip: " ++ ·))) ++
    (usage.map ("\n\n" ++ ·)).getD "" ++ "\n\nFor more information, try \x27--help\x27.\n"

/-- The text `s` in single quotes. -/
def quoted (s : String) : String := "\x27" ++ s ++ "\x27"

/-! ## Similar names

A name that is not known is compared with the known ones by Jaro similarity; those more
than `0.7` similar are offered as hints. -/

/-- The characters of `a` that match one of `b` within the search window, and the
characters of `b` so matched, both in order. -/
def jaroMatches (a b : List Char) : List Char × List Char :=
  let window := Nat.max a.length b.length / 2 - 1
  let step := fun (st : List Char × Array Bool) (ic : Nat × Char) =>
    let (i, c) := ic
    let lo := i - window
    let hi := Nat.min b.length (i + window + 1)
    match (List.range hi).find? fun j => lo ≤ j && b[j]? == some c && !st.2.getD j false with
    | some j => (st.1 ++ [c], st.2.set! j true)
    | none => st
  let (ma, used) :=
    (a.zipIdx.map fun (c, i) => (i, c)).foldl step ([], Array.replicate b.length false)
  (ma, (b.zipIdx.filter fun (_, j) => used.getD j false).map (·.1))

/-- The Jaro similarity of two names, as a fraction (numerator, denominator). -/
def jaro (a b : List Char) : Nat × Nat :=
  if a.isEmpty && b.isEmpty then (1, 1)
  else if a.isEmpty || b.isEmpty then (0, 1)
  else
    let (ma, mb) := jaroMatches a b
    let m := ma.length
    if m = 0 then (0, 1)
    else
      let t := ((List.zip ma mb).filter fun (x, y) => x != y).length / 2
      let (la, lb) := (a.length, b.length)
      (m * lb * m + m * la * m + (m - t) * la * lb, 3 * la * lb * m)

/-- The known names more than 0.7 similar to `name`, least similar first. -/
def similar (name : String) (known : List String) : List String :=
  let scored := known.filterMap fun k =>
    let (n, d) := jaro name.toList k.toList
    if 7 * d < 10 * n then some (k, n, d) else none
  (scored.mergeSort fun (_, n₁, d₁) (_, n₂, d₂) => n₁ * d₂ ≤ n₂ * d₁).map (·.1)

/-! ## Numbers -/

/-- An unsigned 64-bit number, with the messages of a strict decimal reader. -/
def readU64 (s : String) : Except String Nat :=
  let digits := match s.toList with
    | ['+'] => ['+']
    | '+' :: rest => rest
    | cs => cs
  if s.isEmpty then .error "cannot parse integer from empty string"
  else
    digits.foldlM (fun n c =>
      if !c.isDigit then .error "invalid digit found in string"
      else
        let n := n * 10 + (c.toNat - '0'.toNat)
        if n < Nat.pow 2 64 then .ok n else .error "number too large to fit in target type") 0

/-! ## Reading the arguments

The arguments of `run` are read one at a time, as the option parser does:

* an option with its value attached (`--config=a`, `-ca`, `-c=a`) is taken at once, and so is
  a flag; an option whose values come as the next arguments is *pending* until the next
  option or the end of the line, and is only then taken and its values checked;
* `--` ends the options: every later argument is a positional one, which `run` refuses;
* taking an option given once already is an error, except for `--traces`, whose values add
  up; an empty path or a bad number is refused when its option is taken.

The usage line of an error names the options taken so far. -/

/-- What `run` is asked to do. -/
structure RunArgs where
  config : String
  traces : List String
  interactive : Bool := false
  verbose : Bool := false
  maxCycles : Option Nat := none
  deriving DecidableEq, Repr

inductive Request where
  /-- Run the traces. -/
  | run (a : RunArgs)
  /-- Print `text` on standard output and stop. -/
  | print (text : String)
  /-- Print `text` on standard error and stop with a usage error. -/
  | refuse (text : String)
  deriving DecidableEq, Repr

/-- The options of `run` read so far. -/
structure RunState where
  config : Option String := none
  traces : Option (List String) := none
  interactive : Bool := false
  verbose : Bool := false
  maxCycles : Option Nat := none
  /-- The long names of the options taken, in the order they were first taken. -/
  taken : List String := []
  /-- Whether an option has been taken: the options of `run` form a group, which is then
  taken too. -/
  grouped : Bool := false
  /-- The option whose values are the next arguments, with those read so far. -/
  pending : Option (Flag × List String) := none
  /-- Whether the next argument that is not an option is a value of the pending option. -/
  awaitingValue : Bool := false
  /-- Whether `--` was met. -/
  afterDashes : Bool := false
  deriving DecidableEq, Repr

/-- Whether an argument is an option rather than a value. -/
def isOption (arg : String) : Bool := arg.startsWith "-" && arg != "-"

def runFlag (long : String) : Flag := (runFlags.find? (·.long == long)).getD default

/-- The names of a list, each once, in the order of first appearance. -/
def firstOccurrences (names : List String) : List String :=
  names.foldl (fun acc n => if acc.contains n then acc else acc ++ [n]) []

/-- The usage line of `run` naming its required options and then the options `used`. -/
def runUsageWith (used : List String) : String :=
  "Usage: " ++ programName ++ " run" ++
    String.join ((firstOccurrences (["config", "traces"] ++ used)).map fun n => " " ++ (runFlag n).title)

/-- The options of `run` as one group, as a usage line shows it. -/
def runGroup : String :=
  "<" ++ "|".intercalate ((runFlags.filter (·.long != "help")).map (·.title)) ++ ">"

/-- The usage line of an error about a value attached to flag `f`: once an option has been
taken the group stands for all of them. -/
def attachedUsage (st : RunState) (f : Flag) : String :=
  if st.grouped then
    "Usage: " ++ programName ++ " run" ++ (if f.long == "help" then " --help" else "") ++ " " ++
      runGroup
  else runUsageWith [f.long]

def unexpectedArgument (arg : String) (tips : List String) (usage : String) : Request :=
  .refuse (refusal ("unexpected argument " ++ quoted arg ++ " found") tips (some usage))

def givenTwice (f : Flag) : Request :=
  .refuse (refusal ("the argument " ++ quoted f.title ++ " cannot be used multiple times") []
    (some runUsage))

def valueMissing (f : Flag) : Request :=
  .refuse (refusal ("a value is required for " ++ quoted f.title ++ " but none was supplied")
    [] none)

def valueUnexpected (f : Flag) (v : String) (usage : String) : Request :=
  .refuse (refusal ("unexpected value " ++ quoted v ++ " for " ++ quoted f.title ++
    " found; no more were expected") [] (some usage))

def RunState.mark (st : RunState) (long : String) : RunState :=
  { st with taken := firstOccurrences (st.taken ++ [long]), grouped := true }

/-- Take option `f` with the values `vals`: the state after, and the refusal if any. An
option refused for being given twice is dropped from those taken; one refused for its value
stays among them. -/
def RunState.take (st : RunState) (f : Flag) (vals : List String) : RunState × Option Request :=
  if f.long == "help" then (st, some (.print runHelp))
  else if f.value.isSome && vals.isEmpty then (st, some (valueMissing f))
  else if f.long != "traces" && st.taken.contains f.long then
    ({ st with taken := st.taken.erase f.long }, some (givenTwice f))
  else
    let st := st.mark f.long
    match f.long with
    | "config" =>
      let v := vals.headD ""
      ({ st with config := some v }, if v.isEmpty then some (valueMissing f) else none)
    | "traces" =>
      let good := vals.takeWhile (!·.isEmpty)
      ({ st with traces := some (st.traces.getD [] ++ good) },
        if good.length < vals.length then some (valueMissing f) else none)
    | "max-cycles" =>
      let v := vals.headD ""
      match readU64 v with
      | .ok n => ({ st with maxCycles := some n }, none)
      | .error e => (st, some (.refuse (refusal ("invalid value " ++ quoted v ++ " for " ++
          quoted f.title ++ ": " ++ e) [] none)))
    | "interactive" => ({ st with interactive := true }, none)
    | _ => ({ st with verbose := true }, none)

/-- Take the pending option, if any, with the values read for it. -/
def RunState.settle (st : RunState) : RunState × Option Request :=
  match st.pending with
  | none => (st, none)
  | some (f, vals) => { st with pending := none }.take f vals

/-- Take option `f` with the values `vals`, the pending option first. -/
def RunState.react (st : RunState) (f : Flag) (vals : List String) : Except Request RunState :=
  match st.settle with
  | (_, some r) => .error r
  | (st, none) =>
    match st.take f vals with
    | (_, some r) => .error r
    | (st, none) => .ok { st with awaitingValue := false }

/-- Make option `f` pending, its values to come as the next arguments. -/
def RunState.open (st : RunState) (f : Flag) : Except Request RunState :=
  match st.settle with
  | (_, some r) => .error r
  | (st, none) => .ok { st with pending := some (f, []), awaitingValue := true }

/-- The refusal of a long option that `run` does not know, with the closest known one as a
hint; the hint counts as taken in the usage line. -/
def unknownLong (st : RunState) (name : String) : Request :=
  let hint := (similar name (runFlags.map (·.long))).getLast?
  let used := firstOccurrences (st.taken ++ hint.toList)
  unexpectedArgument ("--" ++ name)
    (hint.map fun s => "a similar argument exists: " ++ quoted ("--" ++ s)).toList
    (if used.isEmpty then runUsage else runUsageWith used)

/-- A group of short options: the state after it, or what it asks for if it ends the
reading. A value option takes the rest of the group as its value (after `=`, if the rest
starts with one), or else the next arguments. -/
def readShorts (st : RunState) : List Char → Except Request RunState
  | [] => .ok st
  | c :: more =>
    match runFlags.find? (·.short == some c) with
    | none => .error (unexpectedArgument ("-" ++ c.toString) [] runUsage)
    | some f =>
      if f.value.isNone then do readShorts (← st.react f []) more
      else if more.isEmpty then st.open f
      else
        let v := match more with
          | '=' :: v => v
          | v => v
        st.react f [String.ofList v]

/-- The request once every argument of `run` is read: the pending option is taken, then the
required options must be there. -/
def RunState.finish (st : RunState) : Request :=
  match st.settle with
  | (_, some r) => r
  | (st, none) =>
    match st.config, st.traces with
    | some c, some t =>
      .run { config := c, traces := t, interactive := st.interactive, verbose := st.verbose,
             maxCycles := st.maxCycles }
    | _, _ =>
      let missing := (if st.config.isNone then ["config"] else []) ++
        (if st.traces.isNone then ["traces"] else [])
      .refuse (refusal ("the following required arguments were not provided:" ++
        String.join (missing.map fun n => "\n  " ++ (runFlag n).title)) []
        (some (runUsageWith (st.taken ++ missing))))

/-- Split the text after `--` at its first `=`: the name, and the attached value if any. -/
def splitLong (body : String) : String × Option String :=
  match body.splitOn "=" with
  | n :: v :: vs => (n, some ("=".intercalate (v :: vs)))
  | _ => (body, none)

/-- What the arguments of `run` ask for, from state `st`; each step reads one argument. -/
def readRun : Nat → RunState → List String → Request
  | 0, st, _ | _, st, [] => st.finish
  | fuel + 1, st, arg :: rest =>
    let next (r : Except Request RunState) : Request :=
      match r with
      | .ok st => readRun fuel st rest
      | .error r => r
    if st.afterDashes then unexpectedArgument arg [] runUsage
    else if arg == "--" then readRun fuel { st with afterDashes := true } rest
    else if arg.startsWith "--" then
      let (name, attached) := splitLong (arg.drop 2).toString
      match runFlags.find? (·.long == name) with
      | none => unknownLong st.settle.1 name
      | some f =>
        match f.value.isSome, attached with
        | true, some v => next (st.react f [v])
        | true, none => next (st.open f)
        | false, some v => valueUnexpected f v (attachedUsage st f)
        | false, none => next (st.react f [])
    else if isOption arg then next (readShorts st (arg.drop 1).toString.toList)
    else
      match st.awaitingValue, st.pending with
      | true, some (f, vals) =>
        readRun fuel { st with pending := some (f, vals ++ [arg]), awaitingValue := f.many } rest
      | _, _ => unexpectedArgument arg [] runUsage

/-- What `help` is asked to explain: each name must be a command of the one before. -/
def helpRequest : List String → Request
  | [] => .print mainHelp
  | ["run"] => .print runHelp
  | ["help"] => .print helpHelp
  | "run" :: x :: _ => .refuse (refusal ("unrecognized subcommand " ++ quoted x) [] (some runUsage))
  | "help" :: x :: _ =>
    .refuse (refusal ("unrecognized subcommand " ++ quoted x) []
      (some ("Usage: " ++ programName ++ " help [COMMAND]...")))
  | x :: _ => .refuse (refusal ("unrecognized subcommand " ++ quoted x) [] (some mainUsage))

/-- The hint for an unknown command: the similar ones, if any. -/
def commandTips (name : String) : List String :=
  match similar name (commands.map (·.1)) with
  | [] => []
  | [c] => ["a similar subcommand exists: " ++ quoted c]
  | cs => ["some similar subcommands exist: " ++ ", ".intercalate (cs.map quoted)]

/-- The usage line of the program once option `long` is taken. -/
def mainUsageWith (long : String) : String :=
  "Usage: " ++ programName ++ " --" ++ long ++ " <COMMAND>"

/-- The refusal of a long option the program does not know: the closest of its own options
as a hint, or else the closest option of `run` if `run` comes later on the line. -/
def unknownMainLong (name : String) (rest : List String) : Request :=
  match (similar name (mainFlags.map (·.long))).getLast? with
  | some s =>
    unexpectedArgument ("--" ++ name) ["a similar argument exists: " ++ quoted ("--" ++ s)]
      (mainUsageWith s)
  | none =>
    let tips := if rest.contains "run" then
        ((similar name (runFlags.map (·.long))).getLast?.map fun s =>
          quoted ("run --" ++ s) ++ " exists").toList
      else []
    unexpectedArgument ("--" ++ name) tips mainUsage

/-- The refusal of an argument where a command was expected. -/
def unknownCommand (afterDashes : Bool) (arg : String) : Request :=
  if afterDashes && (commands.map (·.1)).contains arg then
    unexpectedArgument arg
      ["subcommand " ++ quoted arg ++ " exists; to use it, remove the " ++ quoted "--" ++
        " before it"] mainUsage
  else
    .refuse (refusal ("unrecognized subcommand " ++ quoted arg) (commandTips arg) (some mainUsage))

/-- What the arguments before the command ask for; each step reads one argument. With no
command at all, the help is printed on standard error. -/
def readMain : Nat → Bool → List String → Request
  | 0, _, _ | _, _, [] => .refuse mainHelp
  | fuel + 1, afterDashes, arg :: rest =>
    if afterDashes then unknownCommand true arg
    else if arg == "run" then readRun (rest.length + 1) {} rest
    else if arg == "help" then helpRequest rest
    else if arg == "--" then readMain fuel true rest
    else if arg.startsWith "--" then
      let (name, attached) := splitLong (arg.drop 2).toString
      match (mainFlags.find? (·.long == name)), attached with
      | some f, some v => valueUnexpected f v (mainUsageWith f.long)
      | some f, none => .print (if f.long == "help" then mainHelp else versionText)
      | none, _ => unknownMainLong name rest
    else if isOption arg then
      match (arg.drop 1).toString.toList.head? with
      | some 'h' => .print mainHelp
      | some 'V' => .print versionText
      | c => unexpectedArgument ("-" ++ (c.map (·.toString)).getD "") [] mainUsage
    else unknownCommand false arg

/-- What the command line asks for. -/
def request (args : List String) : Request := readMain (args.length + 1) false args

end Cli

end CacheHierarchy
