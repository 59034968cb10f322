namespace NodeFlow

inductive Command
  | validate (workflow : String) (host catalog : Option String) (json : Bool)
  | extract (input : String)
  | order (workflow : String)
  | version
  | help
  deriving DecidableEq

inductive UsageError
  | noSubcommand
  | unknownSubcommand (name : String)
  | unknownOption (argument : String)
  | unexpectedValue (option : String)
  | missingValue (option : String)
  | repeatedOption (option : String)
  | missingFile
  | surplusArgument (argument : String)
  deriving DecidableEq

def UsageError.message : UsageError → String
  | .noSubcommand => "a subcommand is required"
  | .unknownSubcommand name => "unrecognized subcommand '" ++ name ++ "'"
  | .unknownOption argument => "unexpected argument '" ++ argument ++ "' found"
  | .unexpectedValue option => "unexpected value for '" ++ option ++ "'"
  | .missingValue option => "a value is required for '" ++ option ++ "'"
  | .repeatedOption option => "the argument '" ++ option ++ "' cannot be used multiple times"
  | .missingFile => "a file is required"
  | .surplusArgument argument => "unexpected argument '" ++ argument ++ "' found"

namespace Command

structure Settings where
  file : Option String
  host : Option String
  catalog : Option String
  json : Bool
  deriving DecidableEq

def Settings.initial : Settings := ⟨none, none, none, false⟩

def Settings.withFile (settings : Settings) (path : String) : Except UsageError Settings :=
  match settings.file with
  | some _ => .error (.surplusArgument path)
  | none => if path.isEmpty then .error .missingFile else .ok { settings with file := some path }

def Settings.withFiles (settings : Settings) : List String → Except UsageError Settings
  | [] => .ok settings
  | path :: rest => do
    let settings ← settings.withFile path
    settings.withFiles rest

def Settings.withHost (settings : Settings) (host : String) : Except UsageError Settings :=
  match settings.host with
  | some _ => .error (.repeatedOption "--host")
  | none => .ok { settings with host := some host }

def Settings.withCatalog (settings : Settings) (path : String) : Except UsageError Settings :=
  match settings.catalog with
  | some _ => .error (.repeatedOption "--catalog")
  | none =>
    if path.isEmpty then .error (.missingValue "--catalog")
    else .ok { settings with catalog := some path }

def Settings.withJson (settings : Settings) : Except UsageError Settings :=
  if settings.json then .error (.repeatedOption "--json") else .ok { settings with json := true }

-- A hyphen alone is a file.
def isOption (argument : String) : Bool :=
  match argument.toList with
  | '-' :: _ :: _ => true
  | _ => false

def splitOption (argument : String) : String × Option String :=
  let chars := argument.toList
  match chars.dropWhile (· != '=') with
  | [] => (argument, none)
  | _ :: value => (String.ofList (chars.takeWhile (· != '=')), some (String.ofList value))

def valueOption? (name : String) : Option (Settings → String → Except UsageError Settings) :=
  if name = "--host" then some Settings.withHost
  else if name = "--catalog" then some Settings.withCatalog
  else none

def isHelp (argument : String) : Bool := argument == "--help" || argument.startsWith "-h"

inductive Parsed
  | settings (settings : Settings)
  | help

-- `options` says whether the subcommand has options of its own.
def parseSettings (options : Bool) : List String → Settings → Except UsageError Parsed
  | [], settings => .ok (.settings settings)
  | argument :: rest, settings =>
    if argument = "--" then do
      let settings ← settings.withFiles rest
      .ok (.settings settings)
    else if !isOption argument then do
      let settings ← settings.withFile argument
      parseSettings options rest settings
    else if isHelp argument then .ok .help
    else if !options then .error (.unknownOption argument)
    else if argument = "--json" then do
      let settings ← settings.withJson
      parseSettings options rest settings
    else
      let (name, written) := splitOption argument
      match valueOption? name, written, rest with
      | none, _, _ =>
        .error (if name = "--json" then .unexpectedValue name else .unknownOption argument)
      | some set, some value, rest => do
        let settings ← set settings value
        parseSettings options rest settings
      | some _, none, [] => .error (.missingValue name)
      | some set, none, value :: rest =>
        if isOption value then .error (.missingValue name)
        else do
          let settings ← set settings value
          parseSettings options rest settings

def parseSubcommand (options : Bool) (arguments : List String)
    (make : String → Settings → Command) : Except UsageError Command := do
  match ← parseSettings options arguments .initial with
  | .help => .ok .help
  | .settings settings =>
    match settings.file with
    | some file => .ok (make file settings)
    | none => .error .missingFile

def subcommands : List String := ["validate", "extract", "order", "help"]

def parse : List String → Except UsageError Command
  | [] => .error .noSubcommand
  | argument :: rest =>
    if argument = "validate" then
      parseSubcommand true rest fun file settings =>
        .validate file settings.host settings.catalog settings.json
    else if argument = "extract" then parseSubcommand false rest fun file _ => .extract file
    else if argument = "order" then parseSubcommand false rest fun file _ => .order file
    else if argument = "help" then
      match rest with
      | [] => .ok .help
      | [topic] => if topic ∈ subcommands then .ok .help else .error (.unknownSubcommand topic)
      | _ :: surplus :: _ => .error (.unknownSubcommand surplus)
    else if argument = "--version" || argument.startsWith "-V" then .ok .version
    else if isHelp argument then .ok .help
    else if isOption argument then .error (.unknownOption argument)
    else .error (.unknownSubcommand argument)

end Command

end NodeFlow
