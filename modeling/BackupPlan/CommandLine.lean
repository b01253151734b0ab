/-!
# The command line

The arguments are taken one by one, in order.  The first that is wrong ends the
reading, and so does the first that asks for help or for the version.
-/

namespace BackupPlan

/-- The formats in which a plan is printed. -/
inductive PlanFormat where
  | yaml
  | json
  deriving DecidableEq

/-- What a command line asks for. -/
inductive Request where
  | help
  | version
  | plan (config : String) (format : PlanFormat)
  | misuse
  deriving DecidableEq

namespace CommandLine

/-- The options that have been given. -/
structure Given where
  config : Option String := none
  format : Option PlanFormat := none

/-- The options that take a value. -/
inductive Opt where
  | config
  | format

/-- The format of a word. -/
def formatOf : String → Option PlanFormat
  | "yaml" => some .yaml
  | "json" => some .json
  | _ => none

/-- Takes the value of an option: no option may be given twice, and no file name
may be empty. -/
def Given.put (given : Given) (opt : Opt) (value : String) : Option Given :=
  match opt with
  | .config =>
    if given.config.isSome || value = "" then none else some { given with config := value }
  | .format =>
    if given.format.isSome then none
    else (formatOf value).map fun format => { given with format }

/-- Whether an argument may be the value of the option before it: it must not
look like an option. -/
def isValue (arg : String) : Bool :=
  match arg.toList with
  | '-' :: _ :: _ => false
  | _ => true

/-- What an argument is. -/
inductive Kind where
  | help
  | version
  | opens (opt : Opt)
  | gives (opt : Opt) (value : String)
  | finish
  | other

/-- The value that follows the letter of an option. -/
def attached (opt : Opt) : List Char → Kind
  | [] => .opens opt
  | '=' :: rest => .gives opt (String.ofList rest)
  | rest => .gives opt (String.ofList rest)

/-- The value that follows the long name of an option. -/
def long (opt : Opt) : List Char → Kind
  | [] => .opens opt
  | '=' :: rest => .gives opt (String.ofList rest)
  | _ => .other

/-- The rest of a list behind some characters. -/
def behind (start : String) (cs : List Char) : Option (List Char) :=
  if start.toList.isPrefixOf cs then some (cs.drop start.length) else none

/-- Tells what an argument is. -/
def kindOf (arg : String) : Kind :=
  let cs := arg.toList
  if arg = "--help" then .help
  else if arg = "--version" then .version
  else if arg = "--" then .finish
  else match behind "--config" cs, behind "--format" cs, cs with
    | some rest, _, _ => long .config rest
    | _, some rest, _ => long .format rest
    | _, _, '-' :: 'h' :: _ => .help
    | _, _, '-' :: 'V' :: _ => .version
    | _, _, '-' :: 'c' :: rest => attached .config rest
    | _, _, '-' :: 'f' :: rest => attached .format rest
    | _, _, _ => .other

/-- What is asked for once all options are read. -/
def Given.request (given : Given) : Request :=
  match given.config with
  | some config => .plan config (given.format.getD .yaml)
  | none => .misuse

/-- Reads the arguments after those whose options are given. -/
def readFrom (given : Given) : List String → Request
  | [] => given.request
  | arg :: rest =>
    match kindOf arg with
    | .help => .help
    | .version => .version
    | .finish => if rest.isEmpty then given.request else .misuse
    | .other => .misuse
    | .gives opt value =>
      match given.put opt value with
      | some given => readFrom given rest
      | none => .misuse
    | .opens opt =>
      match rest with
      | [] => .misuse
      | value :: rest =>
        match if isValue value then given.put opt value else none with
        | some given => readFrom given rest
        | none => .misuse

/-- Reads the arguments of the program. -/
def read (args : List String) : Request :=
  readFrom {} args

/-- The help text. -/
def helpText : String :=
  "Compile duplicity backup jobs into scripts and key import actions\n\n" ++
  "Usage: duplicity_job [OPTIONS] --config <CONFIG>\n\n" ++
  "Options:\n" ++
  "  -c, --config <CONFIG>  Location of config file\n" ++
  "  -f, --format <FORMAT>  Output format of the compiled plan " ++
  "[default: yaml] [possible values: yaml, json]\n" ++
  "  -h, --help             Print help\n" ++
  "  -V, --version          Print version\n"

/-- The name and version of the program. -/
def versionText : String :=
  "duplicity_job 0.1.0\n"

end CommandLine

end BackupPlan
