import FullTextQuery.Binary64.Nearest
import FullTextQuery.Database.Basic
import FullTextQuery.Extension.Search
import FullTextQuery.Service.Http
import FullTextQuery.Settings.Basic

namespace FullTextQuery

/-!
# Databases from settings
-/

namespace Settings

/-- Where the settings keep the tables. -/
def storage
    (settings : Settings) :
    Storage :=
  match settings.databasePath? with
  | some path => .file path
  | none => .inMemory

end Settings

namespace Database

/--
Open the database that the settings describe, with the search service that they
name.  The service is checked before the tables are touched.
-/
def ofSettings
    (settings : Settings)
    (model : Model)
    (files : String → Except StoreError Store)
    (transport : Transport σ)
    (world : σ) :
    Except Error (Database σ) :=
  match settings.search? with
  | none => .error (.config .noSearchSection)
  | some config => do
      config.check.mapError .config
      start settings.storage files ⟨model, .search⟩ (config.service transport) world

end Database

end FullTextQuery
