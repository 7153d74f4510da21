import FullTextQuery.Json.Reader
import FullTextQuery.Settings.Basic
import FullTextQuery.Settings.Path
import FullTextQuery.Toml.Reader

namespace FullTextQuery

/-!
# Sources of settings

Settings come from a file and from environment variables, of which the variables
win.  Each source is a list of values with the paths of their places.
-/

/-- The languages of settings files. -/
inductive SettingsFormat where
  | toml
  | json
  deriving Repr, DecidableEq

namespace SettingsFormat

/-- The language that the extension of a file name tells. -/
def ofExtension? : String → Option SettingsFormat
  | "toml" => some .toml
  | "json" => some .json
  | _ => none

/-- The document that a text spells. -/
def read? : SettingsFormat → String → Option Json
  | .toml => Toml.read?
  | .json => Json.read?

end SettingsFormat

namespace Settings

/-- Values and the texts of their paths. -/
abbrev Source : Type :=
  List (String × Json)

namespace Source

/-- The values of a text; the whole must be a section. -/
def ofText
    (format : SettingsFormat)
    (text : String) :
    Except SettingsError Source :=
  match format.read? text with
  | some (.object members) => .ok members
  | _ => .error .unreadableText

/-- The values of a file, which may begin with a byte-order mark. -/
def ofFile
    (format : SettingsFormat)
    (content : String) :
    Except SettingsError Source :=
  ofText format (String.ofList (Toml.dropMark content.toList))

/-- What the names of environment variables for settings begin with, in lower case. -/
def variablePrefix : List Char :=
  "searchlink_".toList

/-- A name in which two underscores are written for the point of a path. -/
def withPoints :
    List Char → List Char
  | '_' :: '_' :: rest => '.' :: withPoints rest
  | c :: rest => c :: withPoints rest
  | [] => []

/--
The path that the name of an environment variable stands for; its letter case does not
matter.
-/
def pathOfVariable?
    (name : String) :
    Option String :=
  let cs := (Text.lowercase name).toList
  if variablePrefix.isPrefixOf cs then
    some (String.ofList (withPoints (cs.drop variablePrefix.length)))
  else
    none

/-- The values of environment variables, all of them texts. -/
def ofEnvironment
    (environment : List (String × String)) :
    Source :=
  environment.filterMap fun (name, value) =>
    (pathOfVariable? name).map fun path => (path, .string value)

/-- Put the values of a source over a document. -/
def overlay
    (source : Source)
    (document : Json) :
    Json :=
  source.foldl (fun whole entry => Json.put entry.2 (SettingPath.ofText entry.1) whole) document

end Source

/-- The settings of some sources, of which the later ones win. -/
def ofSources
    (sources : List Source) :
    Except SettingsError Settings :=
  ofSections (sources.foldl (fun whole source => Source.overlay source whole) (.object [])).members

/-- The settings of a TOML text. -/
def ofToml
    (text : String) :
    Except ConfigError Settings :=
  (do ofSources [← Source.ofText .toml text] : Except SettingsError Settings).mapError
    .invalidSettings

/-- The settings of a file, if there is one, and of the environment. -/
def gather
    (file? : Option (SettingsFormat × String))
    (environment : List (String × String)) :
    Except ConfigError Settings :=
  let sources : Except SettingsError (List Source) :=
    match file? with
    | some (format, content) => do return [← Source.ofFile format content]
    | none => .ok []
  (do ofSources ((← sources) ++ [Source.ofEnvironment environment])).mapError .invalidSettings

end Settings

end FullTextQuery
