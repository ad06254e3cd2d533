import XmlSchema.Settings.Basic
import XmlSchema.Structure.Monitor
import XmlSchema.Validation.FailureText

namespace XmlSchema.Settings

open Text (Dump.quoted Dump.record)

inductive Invalidity where
  | noThreads
  | tooManyThreads
  | noTimeout
  | noNamespaceWarnings
  | emptyCache
  | incompleteLocation (location : SchemaLocation)
  | verboseAndQuiet
  | noExtensions
  | badExtension (extension : String)
  | stated (text : String)
  deriving DecidableEq, Repr

def SchemaLocation.dump (l : SchemaLocation) : String :=
  Dump.record "SchemaLocation"
    [("namespace", Dump.quoted l.namespaceName), ("location", Dump.quoted l.location)]

def Invalidity.message : Invalidity → String
  | .noThreads => "Number of threads must be greater than 0"
  | .tooManyThreads => "Number of threads cannot exceed 1000"
  | .noTimeout => "Timeout must be greater than 0"
  | .noNamespaceWarnings => "Namespace warning cap must be at least 1"
  | .emptyCache => "Cache must hold at least one schema set"
  | .incompleteLocation location =>
    "Schema location needs both a namespace and a location: " ++ location.dump
  | .verboseAndQuiet => "Cannot enable both verbose and quiet modes"
  | .noExtensions => "At least one file extension must be specified"
  | .badExtension extension => "Invalid file extension: " ++ extension
  | .stated text => text

inductive EnvironmentFault where
  | value (name value : String)
  | rootPath (name : String) (fault : Structure.RootPathFault)
  | stated (text : String)
  deriving DecidableEq, Repr

def EnvironmentFault.message : EnvironmentFault → String
  | .value name found => s!"Invalid {name} value: {found}"
  | .rootPath name fault => s!"Invalid {name} value: {fault.message}"
  | .stated text => text

inductive Failure where
  | io (cause : XmlSchema.Validation.ReadCause)
  | toml (details : String)
  | json (details : String)
  | invalid (invalidity : Invalidity)
  | environment (fault : EnvironmentFault)
  | unsupportedFormat (extension : String)
  deriving DecidableEq, Repr

def Failure.message : Failure → String
  | .io cause => "IO error: " ++ cause.message
  | .toml details => "TOML parsing error: " ++ details
  | .json details => "JSON parsing error: " ++ details
  | .invalid invalidity => "Configuration validation error: " ++ invalidity.message
  | .environment fault => "Environment variable error: " ++ fault.message
  | .unsupportedFormat extension => "Unsupported configuration file format: " ++ extension

def threadsFault? : Option Nat → Option Invalidity
  | some 0 => some .noThreads
  | some n => if 1000 < n then some .tooManyThreads else none
  | none => none

def SchemaLocation.isIncomplete (l : SchemaLocation) : Bool :=
  (Text.trim l.namespaceName).isEmpty || (Text.trim l.location).isEmpty

def isBadExtension (extension : String) : Bool :=
  extension.toList.any fun c => c == '/' || c == '\\' || c == '.'

def fault? (s : Settings) : Option Invalidity :=
  threadsFault? s.validation.threads
  <|> (if s.validation.timeoutSeconds = 0 then some .noTimeout else none)
  <|> (if s.validation.maxNamespaceWarnings = 0 then some .noNamespaceWarnings else none)
  <|> (if s.cache.maxEntries = some 0 then some .emptyCache else none)
  <|> ((s.schemas.locations.find? (·.isIncomplete)).map .incompleteLocation)
  <|> (if s.output.verbose && s.output.quiet then some .verboseAndQuiet else none)
  <|> (if s.documents.extensions.isEmpty then some .noExtensions else none)
  <|> ((s.documents.extensions.find? isBadExtension).map .badExtension)

def checked (s : Settings) : Except Failure Settings :=
  match s.fault? with
  | some invalidity => .error (.invalid invalidity)
  | none => .ok s

end XmlSchema.Settings
