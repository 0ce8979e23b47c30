import IGate.Text.Similarity
import IGate.Text.Terminal

/-! The command line: the path of the configuration, or a question about the program. -/

namespace IGate.CommandLine

def program : String := "aprs-gateway"

def version : String := "0.1.0"

def defaultPath : String := "/etc/aprs-gateway.toml"

def variableName : String := "APRS_GATEWAY_CONFIG"

inductive Request where
  | run (path : String)
  | version
  | help (long : Bool)
  deriving DecidableEq

/-- How an argument that looks like an option might be meant: as a path, or as an option that it
is similar to. -/
inductive Hint where
  | asPath
  | misspelt (option : String)
  deriving DecidableEq

/-- `afterPath` tells that a path stands before the argument that is not understood. -/
inductive UsageError where
  | secondPath (argument : String)
  | unknownLetter (letter : Char)
  | unknownOption (option : String) (hint : Hint) (afterPath : Bool)
  | needsNoValue (option value : String)
  | emptyPath
  deriving DecidableEq

/-- How to call the program. A path that is there already is not optional any more. -/
def usageWith (options : String) (withPath : Bool) : String :=
  "Usage: " ++ program ++ options ++ (if withPath then " <CONFIG>" else " [CONFIG]")

def usage : String := usageWith "" false

namespace UsageError

def more : String := "\n\nFor more information, try '--help'.\n"

def unexpected (argument : String) : String :=
  "error: unexpected argument '" ++ Terminal.plain argument ++ "' found\n\n"

def asPath (argument : String) : String :=
  "  tip: to pass '" ++ Terminal.plain argument ++ "' as a value, use '-- " ++
    Terminal.plain argument ++ "'\n\n"

def misspelt (option : String) : String :=
  "  tip: a similar argument exists: '" ++ option ++ "'\n\n"

/-- What an argument does to a terminal is left out. -/
def message : UsageError → String
  | secondPath argument => unexpected argument ++ usage ++ more
  | unknownLetter letter =>
    let argument := String.ofList ['-', letter]
    unexpected argument ++ asPath argument ++ usage ++ more
  | unknownOption option .asPath afterPath =>
    unexpected option ++ asPath option ++ usageWith "" afterPath ++ more
  | unknownOption option (.misspelt meant) afterPath =>
    unexpected option ++ misspelt meant ++ usageWith (" " ++ meant) afterPath ++ more
  | needsNoValue option value =>
    "error: unexpected value '" ++ Terminal.plain value ++ "' for '" ++ option ++
      "' found; no more were expected\n\n" ++ usageWith (" " ++ option) false ++ more
  | emptyPath => "error: a value is required for '[CONFIG]' but none was supplied" ++ more

end UsageError

abbrev Found := Except UsageError (Request ⊕ Option String)

def checked {α : Type} (found : Option String) (a : α) : Except UsageError α :=
  if found = some "" then .error .emptyPath else .ok a

def paths (found : Option String) : List String → Found
  | [] => checked found (.inr found)
  | a :: rest =>
    match found with
    | some _ => .error (.secondPath a)
    | none => paths (some a) rest

def letter (found : Option String) : Char → Except UsageError Request
  | 'h' => checked found (.help false)
  | 'V' => checked found .version
  | c => .error (.unknownLetter c)

def options : List (String × Request) := [("help", .help true), ("version", .version)]

def hint (name : String) : Hint :=
  match Text.nearest? name (options.map Prod.fst) with
  | some option => .misspelt ("--" ++ option)
  | none => .asPath

/-- An option of several letters, perhaps with a value behind an equals sign. -/
def long (found : Option String) (name : List Char) : Except UsageError Request :=
  let option := String.ofList (name.takeWhile (· != '='))
  match options.lookup option, name.dropWhile (· != '=') with
  | some r, [] => checked found r
  | some _, _ :: value => .error (.needsNoValue ("--" ++ option) (String.ofList value))
  | none, _ => .error (.unknownOption ("--" ++ option) (hint option) found.isSome)

def read (found : Option String) : List String → Found
  | [] => checked found (.inr found)
  | a :: rest =>
    match a.toList with
    | ['-', '-'] => paths found rest
    | '-' :: '-' :: name => (long found name).map .inl
    | '-' :: c :: _ => (letter found c).map .inl
    | _ =>
      match found with
      | some _ => .error (.secondPath a)
      | none => read (some a) rest

/-- An argument comes before the variable, and that before the default. -/
def parse (arguments : List String) (fromEnv : Option String) : Except UsageError Request :=
  match read none arguments with
  | .error e => .error e
  | .ok (.inl r) => .ok r
  | .ok (.inr (some path)) => .ok (.run path)
  | .ok (.inr none) => checked fromEnv (.run (fromEnv.getD defaultPath))

def versionText : String := program ++ " " ++ version ++ "\n"

def indent (margin : String) (s : String) : String :=
  String.intercalate ("\n" ++ margin) (s.splitOn "\n")

/-- The variable and its value, and the end of the section that they end. A sequence for terminals
that the value begins may reach as far. -/
def variableText (margin : String) (fromEnv : Option String) : String :=
  Terminal.plain
    (indent margin ("[env: " ++ variableName ++ "=" ++ fromEnv.getD "" ++ "]") ++ "\n\n")

def helpText (long : Bool) (fromEnv : Option String) : String :=
  if long then
    "APRS gateway.\n\nForwards locally generated APRS frames to APRS-IS.\n\n" ++ usage ++
    "\n\nArguments:\n  [CONFIG]\n          Path to the TOML configuration file\n          \n" ++
    "          " ++ variableText "          " fromEnv ++ "Options:\n  -h, --help\n" ++
    "          Print help (see a summary with '-h')\n\n  -V, --version\n" ++
    "          Print version\n"
  else
    "Forwards local APRS frames to an APRS-IS server\n\n" ++ usage ++
    "\n\nArguments:\n  [CONFIG]  Path to the TOML configuration file " ++
    variableText "            " fromEnv ++ "Options:\n" ++
    "  -h, --help     Print help (see more with '--help')\n" ++
    "  -V, --version  Print version\n"

end IGate.CommandLine
