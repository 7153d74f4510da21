import FullTextQuery.Service.Config
import FullTextQuery.Json.Basic
import FullTextQuery.Text.Lowercase

namespace FullTextQuery

/-!
# Settings

What a user can set: the file of the database, the search service, and the log
filter.  Settings are read leniently from a document: a text may be given as a
number or a truth value, a number as a text, a real or a truth value, and names that
mean nothing are passed over.
-/

/-- The settings of a program that runs queries. -/
structure Settings where
  databasePath? : Option String := none
  search? : Option ServiceConfig := none
  logFilter : String := "info"
  deriving Repr, DecidableEq

namespace Settings

/-- A value as a text. -/
def textOf? : Json → Option String
  | .string text => some text
  | .bool b => some (if b then "true" else "false")
  | .integer n => some (Decimal.ofInt n)
  | .real x => some x.toPlain
  | _ => none

/-- The natural number next to a real, a half being rounded up; numbers below zero become zero. -/
def nearestNatural
    (x : Binary64) :
    Nat :=
  if x.isNaN || x.negative then
    0
  else
    let (num, den) := x.ratio
    (2 * num + den) / (2 * den)

/-- A value as a natural number below `bound`. -/
def naturalOf?
    (bound : Nat)
    (value : Json) :
    Option Nat :=
  let number? : Option Nat :=
    match value with
    | .integer n => if 0 ≤ n then some n.toNat else none
    | .bool b => some (if b then 1 else 0)
    | .real x => some (min (nearestNatural x) (UInt64.size - 1))
    | .string text =>
        match Text.lowercase text with
        | "true" | "on" | "yes" => some 1
        | "false" | "off" | "no" => some 0
        | _ => Decimal.below? UInt64.size text.toList
    | _ => none
  number?.filter fun n => decide (n < bound)

/-- The settings of a section by their names. -/
abbrev Entries : Type :=
  List (String × Json)

namespace Entries

/--
The entries of a section, of which `settings` are the names.  A list gives the
values of the settings in this order.
-/
def ofSection
    (name : String)
    (settings : List String) :
    Json → Except SettingsError Entries
  | .object members => .ok members
  | .array items => .ok (settings.zip items)
  | _ => .error (.invalidSection name)

/-- A setting that is read by `read?`; `default?` stands for one that is not given. -/
def get
    (entries : Entries)
    (name : String)
    (read? : Json → Option α)
    (default? : Option α) :
    Except SettingsError α :=
  match entries.lookup name, default? with
  | some value, _ =>
      match read? value with
      | some found => .ok found
      | none => .error (.invalidValue name)
  | none, some default => .ok default
  | none, none => .error (.missingValue name)

/-- A setting that may be left out or be null. -/
def getOptional
    (entries : Entries)
    (name : String)
    (read? : Json → Option α) :
    Except SettingsError (Option α) :=
  match entries.lookup name with
  | none => .ok none
  | some .null => .ok none
  | some value =>
      match read? value with
      | some found => .ok (some found)
      | none => .error (.invalidValue name)

end Entries

/-- The settings of a search service. -/
def searchOf
    (value : Json) :
    Except SettingsError ServiceConfig := do
  let entries ← Entries.ofSection "search"
    ["endpoint", "api_key", "api_version", "key_field", "top", "timeout_secs"] value
  let config : ServiceConfig := { endpoint := ← entries.get "endpoint" textOf? none }
  return { config with
    apiKey? := ← entries.getOptional "api_key" textOf?
    apiVersion := ← entries.get "api_version" textOf? config.apiVersion
    keyField := ← entries.get "key_field" textOf? config.keyField
    top := UInt32.ofNat (← entries.get "top" (naturalOf? UInt32.size) config.top.toNat)
    timeoutSeconds :=
      UInt64.ofNat
        (← entries.get "timeout_secs" (naturalOf? UInt64.size) config.timeoutSeconds.toNat) }

/-- The settings in the sections of a whole document. -/
def ofSections
    (sections : List (String × Json)) :
    Except SettingsError Settings := do
  let default : Settings := {}
  let databasePath? ←
    match sections.lookup "database" with
    | none => pure none
    | some value => do
        let entries ← Entries.ofSection "database" ["path"] value
        entries.getOptional "path" textOf?
  let search? ←
    match sections.lookup "search" with
    | none => pure none
    | some .null => pure none
    | some value => (searchOf value).map some
  let logFilter ←
    match sections.lookup "logging" with
    | none => pure default.logFilter
    | some value => do
        let entries ← Entries.ofSection "logging" ["filter"] value
        entries.get "filter" textOf? default.logFilter
  return { databasePath?, search?, logFilter }

end Settings

end FullTextQuery
