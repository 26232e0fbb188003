namespace MacroDeck

structure Options where
  files : List String := []
  dryRun : Bool := false
  skipInvalid : Bool := false
  configPath : Option String := none
deriving DecidableEq, Repr

inductive ArgumentError where
  | missingConfigPath
  | unknownArgument (argument : String)
  | noFiles
deriving DecidableEq, Repr

def ArgumentError.message : ArgumentError → String
  | missingConfigPath => "Missing config path"
  | unknownArgument argument => s!"Unknown argument: {argument}. Use -h for help."
  | noFiles => "No files given"

/-- What the arguments ask for. -/
inductive Request where
  | help
  | version
  | files (options : Options)
  | invalid (error : ArgumentError)
deriving DecidableEq, Repr

/-- What one argument is, where options are still read. -/
inductive Argument where
  | help
  | version
  | dryRun
  | skipInvalid
  | config
  | endOfOptions
  | unknown
  | file
deriving DecidableEq, Repr

def Argument.of (argument : String) : Argument :=
  if argument = "-h" ∨ argument = "--help" then .help
  else if argument = "-v" ∨ argument = "--version" then .version
  else if argument = "-n" ∨ argument = "--dry-run" then .dryRun
  else if argument = "-s" ∨ argument = "--skip-invalid" then .skipInvalid
  else if argument = "-c" ∨ argument = "--config" then .config
  else if argument = "--" then .endOfOptions
  else if argument.toList.head? = some '-' ∧ argument ≠ "-" then .unknown
  else .file

namespace Request

/-- The request once all arguments are read. -/
def ofOptions (options : Options) : Request :=
  if options.files.isEmpty then .invalid .noFiles else .files options

/-- The arguments are read from the left into the options; the first that settles the request ends the reading. -/
def read : List String → Options → Request
  | [], options => ofOptions options
  | argument :: rest, options =>
    match Argument.of argument with
    | .help => .help
    | .version => .version
    | .dryRun => read rest { options with dryRun := true }
    | .skipInvalid => read rest { options with skipInvalid := true }
    | .config =>
      match rest with
      | [] => .invalid .missingConfigPath
      | path :: rest => read rest { options with configPath := some path }
    | .endOfOptions => ofOptions { options with files := options.files ++ rest }
    | .unknown => .invalid (.unknownArgument argument)
    | .file => read rest { options with files := options.files ++ [argument] }

def ofArguments (arguments : List String) : Request :=
  read arguments {}

end Request

end MacroDeck
