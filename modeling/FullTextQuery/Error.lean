import FullTextQuery.Url.ParseError
import FullTextQuery.Value

namespace FullTextQuery

/-!
# Errors

Every failure is a cause of one of eight kinds.  A cause carries what its
wording needs and nothing else; the wording is given once per kind, and
`Error.message` puts the name of the kind in front.  The causes named `other`
are for services and extensions that are not part of this library.
-/

/-- A place in a text: lines and columns count from one, columns in characters. -/
structure Position where
  line : Nat
  column : Nat
  deriving Repr, DecidableEq

/-- The part of an entity that a name belongs to. -/
inductive NameRole where
  | entity
  | table
  | property
  | column
  deriving Repr, DecidableEq

namespace NameRole

def word : NameRole → String
  | .entity => "entity"
  | .table => "table"
  | .property => "property"
  | .column => "column"

end NameRole

/-- Why a log filter is refused. -/
inductive LogFilterError where
  | invalidDirective
  | invalidLevel
  deriving Repr, DecidableEq

namespace LogFilterError

def message : LogFilterError → String
  | .invalidDirective => "invalid filter directive"
  | .invalidLevel =>
      "error parsing level filter: expected one of \"off\", \"error\", \"warn\", "
        ++ "\"info\", \"debug\", \"trace\", or a number 0-5"

end LogFilterError

/-- Why settings cannot be used; a name is that of a section or of a setting in it. -/
inductive SettingsError where
  | unreadableText
  | invalidSection (name : String)
  | invalidValue (name : String)
  | missingValue (name : String)
  deriving Repr, DecidableEq

namespace SettingsError

def message : SettingsError → String
  | .unreadableText => "the text cannot be read"
  | .invalidSection name => s!"'{name}' is not a section"
  | .invalidValue name => s!"invalid value for '{name}'"
  | .missingValue name => s!"missing value for '{name}'"

end SettingsError

/-- A model, a setting or a log filter that cannot be used. -/
inductive ConfigError where
  | invalidName (role : NameRole) (name : String)
  | propertyDeclaredTwice (property entity : String)
  | keyNotDeclared (property entity : String)
  | emptyEndpoint
  | zeroTimeout
  | invalidEndpoint (reason : Url.ParseError)
  | endpointWithoutPath (endpoint : String)
  | noSearchSection
  | invalidSettings (reason : SettingsError)
  | invalidLogFilter (filter : String) (reason : LogFilterError)
  | other (message : String)
  deriving Repr, DecidableEq

namespace ConfigError

def message : ConfigError → String
  | .invalidName role name => s!"invalid {role.word} name '{name}'"
  | .propertyDeclaredTwice property entity =>
      s!"property '{property}' declared twice on entity '{entity}'"
  | .keyNotDeclared property entity =>
      s!"key property '{property}' is not declared on entity '{entity}'"
  | .emptyEndpoint => "search endpoint must not be empty"
  | .zeroTimeout => "search timeout must be > 0 seconds"
  | .invalidEndpoint reason => "invalid search endpoint: " ++ reason.message
  | .endpointWithoutPath endpoint => s!"search endpoint {endpoint} cannot take a path"
  | .noSearchSection => "no [search] section configured"
  | .invalidSettings reason => "invalid settings: " ++ reason.message
  | .invalidLogFilter filter reason =>
      "invalid log filter '" ++ filter ++ "': " ++ reason.message
  | .other message => message

end ConfigError

/-- A failure of the relational store. -/
inductive StoreError where
  | cannotOpen (path : String)
  | noSuchTable (name : String)
  | tableExists (name : String)
  | noColumns (table : String)
  | duplicateColumn (name : String)
  | wrongCellCount (table : String)
  | invalidStatement
  | noSuchColumn (name : String)
  | ambiguousColumn (name : String)
  | noSuchFunction (name : String)
  | wrongArgumentCount (name : String)
  | orderTermOutOfRange
  | limitNotInteger
  | integerOverflow
  | patternTooLong
  | tooManyTables
  | tooDeep
  | unknownParameter (name : String)
  | noSuchResultColumn (index : Nat)
  | other (message : String)
  deriving Repr, DecidableEq

namespace StoreError

def message : StoreError → String
  | .cannotOpen path => s!"unable to open database file: {path}"
  | .noSuchTable name => s!"no such table: {name}"
  | .tableExists name => s!"table {name} already exists"
  | .noColumns table => s!"table {table} has no columns"
  | .duplicateColumn name => s!"duplicate column name: {name}"
  | .wrongCellCount table => s!"wrong number of values for table {table}"
  | .invalidStatement => "the statement cannot be read"
  | .noSuchColumn name => s!"no such column: {name}"
  | .ambiguousColumn name => s!"ambiguous column name: {name}"
  | .noSuchFunction name => s!"no such function: {name}"
  | .wrongArgumentCount name => s!"wrong number of arguments to function {name}()"
  | .orderTermOutOfRange => "ORDER BY term out of range"
  | .limitNotInteger => "datatype mismatch"
  | .integerOverflow => "integer overflow"
  | .patternTooLong => "LIKE pattern too complex"
  | .tooManyTables => "at most 64 tables in a join"
  | .tooDeep => "expression tree is too large"
  | .unknownParameter name => s!"invalid parameter name: {name}"
  | .noSuchResultColumn index => s!"invalid column index: {index}"
  | .other message => message

end StoreError

/-- A query text that is not a query. -/
inductive ParseError where
  | syntaxError (position : Position)
  | unexpectedInteger (text : String) (position : Position)
  | other (message : String) (position? : Option Position)
  deriving Repr, DecidableEq

namespace ParseError

def message : ParseError → String
  | .syntaxError position => s!"syntax error at {position.line}:{position.column}"
  | .unexpectedInteger text _ => s!"unexpected integer '{text}'"
  | .other message _ => message

/-- Where the text stops being a query. -/
def position? : ParseError → Option Position
  | .syntaxError position => some position
  | .unexpectedInteger _ position => some position
  | .other _ position? => position?

end ParseError

/-- A query that has no relational meaning over the model. -/
inductive PlanError where
  | unknownEntity (name : String)
  | itemDeclaredTwice (item : String)
  | unknownItem (item : String)
  | itemAsValue (item : String)
  | unknownProperty (entity property : String)
  | noPrimaryKey (entity : String)
  | compositePrimaryKey (entity : String) (keys : List String)
  | secondSearchPredicate
  | unsupportedKeyKind (property entity : String) (kind : ScalarKind)
  | noSearchIndex (entity : String)
  | searchOutsideWhere
  | unsupportedFunction (name : String) (arity : Nat)
  | unsupportedMembership (parameter : String)
  | parameterOfTwoSources (name : String)
  | other (message : String)
  deriving Repr, DecidableEq

namespace PlanError

def message : PlanError → String
  | .unknownEntity name => s!"unknown entity '{name}'"
  | .itemDeclaredTwice item => s!"item variable '{item}' is declared twice"
  | .unknownItem item => s!"unknown item variable '{item}'"
  | .itemAsValue item =>
      s!"item variable '{item}' cannot be used as a value; select one of its properties"
  | .unknownProperty entity property => s!"entity '{entity}' has no property '{property}'"
  | .noPrimaryKey entity => s!"entity '{entity}' has no primary key"
  | .compositePrimaryKey entity keys =>
      s!"entity '{entity}' has a composite primary key (" ++ String.intercalate ", " keys
        ++ "); only single-column keys are supported"
  | .secondSearchPredicate => "a query may contain at most one search predicate"
  | .unsupportedKeyKind property entity kind =>
      s!"key property '{property}' of entity '{entity}' is {kind.name}"
        ++ "; search keys must be Text or Integer"
  | .noSearchIndex entity => s!"entity '{entity}' has no search index"
  | .searchOutsideWhere => "search predicates are only allowed in where clauses"
  | .unsupportedFunction name arity =>
      s!"no SQL translation for function {name}/{Decimal.ofInt arity}"
  | .unsupportedMembership parameter =>
      s!"no SQL translation for membership test on parameter '{parameter}'"
  | .parameterOfTwoSources name =>
      s!"parameter '{name}' is used both as a caller value and a bound value set"
  | .other message => message

end PlanError

/-- Why a request to a search service was not answered. -/
inductive RequestError where
  | cannotBuild
  | cannotBuildFor (url : String)
  | cannotSend (url : String)
  deriving Repr, DecidableEq

namespace RequestError

def message : RequestError → String
  | .cannotBuild => "builder error"
  | .cannotBuildFor url => s!"builder error for url ({url})"
  | .cannotSend url => s!"error sending request for url ({url})"

end RequestError

/-- A search service that failed, or keys that cannot be used. -/
inductive SearchError where
  | invalidIntegerKey (raw : String)
  | realKey (raw : String)
  | unknownIndex (index : String)
  | requestFailed (reason : RequestError)
  | refusedStatus (status : String)
  | undecodableBody
  | invalidResponse (reason : String)
  | unsupportedKeyValue (field value : String)
  | missingKeyField (field : String)
  | other (message : String)
  deriving Repr, DecidableEq

namespace SearchError

def message : SearchError → String
  | .invalidIntegerKey raw => s!"key '{raw}' is not a valid Integer"
  | .realKey raw => s!"key '{raw}' cannot be bound to a Real key property"
  | .unknownIndex index => s!"index '{index}' not found"
  | .requestFailed reason => "search request failed: " ++ reason.message
  | .refusedStatus status => s!"search request failed: status {status}"
  | .undecodableBody => "error decoding response body"
  | .invalidResponse reason => s!"invalid search response: {reason}"
  | .unsupportedKeyValue field value => s!"key field '{field}' has unsupported value {value}"
  | .missingKeyField field => s!"document without key field '{field}'"
  | .other message => message

end SearchError

/-- A plan that cannot be run with what its caller supplied. -/
inductive RunError where
  | missingParameter (name : String)
  | searchTextNotText (name : String) (value : Value)
  | missingField (name : String)
  | fieldNotInteger (name : String)
  | other (message : String)
  deriving Repr, DecidableEq

namespace RunError

def message : RunError → String
  | .missingParameter name => s!"no value supplied for parameter @{name}"
  | .searchTextNotText name value =>
      s!"search text parameter @{name} must be Text, got {value.display}"
  | .missingField name => s!"record has no field '{name}'"
  | .fieldNotInteger name => s!"field '{name}' is not an Integer"
  | .other message => message

end RunError

/-- Something that the parts of the library promise each other did not hold. -/
inductive InvariantError where
  | setReadBeforeFound (parameter : String)
  | unresolvedMember (item property : String)
  | manyMemberships (count : Nat)
  | testWithoutSearch (search : Nat) (parameter : String)
  | parameterWithoutSearch (name : String)
  | searchNotRead (search : Nat) (parameter : String)
  | missingKeyProperty (property entity : String)
  | other (message : String)
  deriving Repr, DecidableEq

namespace InvariantError

def message : InvariantError → String
  | .setReadBeforeFound parameter => s!"parameter '{parameter}' resolved before it was bound"
  | .unresolvedMember item property =>
      s!"member {item}.{property} reached SQL rendering unresolved"
  | .manyMemberships count =>
      s!"{Decimal.ofInt count} membership tests in one statement, at most one is supported"
  | .testWithoutSearch search parameter =>
      s!"membership test #{Decimal.ofInt search} reads '{parameter}' but no pre-step binds it"
  | .parameterWithoutSearch name => s!"no pre-step binds '{name}' ahead of the relational step"
  | .searchNotRead search parameter =>
      s!"search marker #{Decimal.ofInt search} binds '{parameter}'"
        ++ " but the relational step does not read it"
  | .missingKeyProperty property entity =>
      s!"key property '{property}' missing from entity '{entity}'"
  | .other message => message

end InvariantError

/-- A failure, by its kind. -/
inductive Error where
  | config (cause : ConfigError)
  | store (cause : StoreError)
  | parse (cause : ParseError)
  | plan (cause : PlanError)
  | search (cause : SearchError)
  | run (cause : RunError)
  | invariant (cause : InvariantError)
  | lock (message : String)
  deriving Repr, DecidableEq

namespace Error

/-- The wording of a failure, with its kind in front. -/
def message : Error → String
  | .config cause => "Config error: " ++ cause.message
  | .store cause => "Persistence error: " ++ cause.message
  | .parse cause => "Parse error: " ++ cause.message
  | .plan cause => "Compile error: " ++ cause.message
  | .search cause => "Search error: " ++ cause.message
  | .run cause => "Execution error: " ++ cause.message
  | .invariant cause => "Internal invariant violated: " ++ cause.message
  | .lock message => "Lock poisoned: " ++ message

end Error

end FullTextQuery
