import XmlSchema.Settings.Failure

namespace XmlSchema.Settings

namespace Failure

open Report (Verbosity)
open Text

def dump : Failure → String
  | .io cause => Dump.call "Io" [cause.dump]
  | .toml details => Dump.call "TomlParsing" [details]
  | .json details => Dump.call "JsonParsing" [details]
  | .invalid invalidity => Dump.call "Validation" [Dump.quoted invalidity.message]
  | .environment fault => Dump.call "Environment" [Dump.quoted fault.message]
  | .unsupportedFormat extension => Dump.call "UnsupportedFormat" [Dump.quoted extension]

def help : Failure → String
  | .io _ => "Check that the configuration file exists and is readable"
  | .toml _ | .json _ => "Check the configuration file syntax (TOML/JSON format expected)"
  | .unsupportedFormat _ => "Use a .toml or .json configuration file"
  | .environment _ => "Fix or unset the offending XSDGATE_* variable"
  | .invalid _ => "Adjust the value in the file, environment or flags"

def text (verbosity : Verbosity) (f : Failure) : String :=
  match verbosity with
  | .quiet => "Config error: " ++ f.message
  | .normal | .verbose => "Configuration Error: " ++ f.message ++ "\n" ++ f.help
  | .debug => "Configuration Error: " ++ f.message ++ "\nDebug: " ++ f.dump ++ "\n" ++ f.help

end Failure

end XmlSchema.Settings
