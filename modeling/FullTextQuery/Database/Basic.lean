import FullTextQuery.Database.Cache
import FullTextQuery.Plan.Run
import FullTextQuery.Planner.Plan
import FullTextQuery.Query.Parser

namespace FullTextQuery

/-!
# Databases

A database joins a store, a search service and a planner, and remembers the queries
that it has prepared from text.
-/

/-- Where the tables are kept. -/
inductive Storage where
  | inMemory
  | file (path : String)
  deriving Repr, DecidableEq

namespace Storage

/-- The store at the beginning; `files` tells what is in a file, or why it cannot be opened. -/
def initial
    (files : String → Except StoreError Store) :
    Storage → Except StoreError Store
  | .inMemory => .ok .empty
  | .file path => files path

end Storage

/-- The plan of a query text, with a number that tells it from other preparations. -/
structure PreparedQuery where
  number : Nat
  plan : QueryPlan
  deriving Repr, DecidableEq

/-- A store, a planner, and a search service with states in `σ` in the world as it is. -/
structure Database (σ : Type) where
  planner : Planner
  service : SearchService σ
  world : σ
  store : Store
  cache : TextCache PreparedQuery := { capacity := TextCache.defaultCapacity }
  preparations : Nat := 0

namespace Database

/-- Open a database. -/
def start
    (storage : Storage)
    (files : String → Except StoreError Store)
    (planner : Planner)
    (service : SearchService σ)
    (world : σ) :
    Except Error (Database σ) := do
  let store ← (storage.initial files).mapError .store
  return { planner, service, world, store }

/-- The same database with an empty cache of the given capacity. -/
def withCapacity
    (database : Database σ)
    (capacity : Nat) :
    Database σ :=
  { database with cache := { capacity } }

/-- The model of the entities. -/
def model
    (database : Database σ) :
    Model :=
  database.planner.model

/-- The number of queries in the cache. -/
def cacheSize
    (database : Database σ) :
    Nat :=
  database.cache.size

/-- Ask the search service. -/
def search
    (database : Database σ)
    (index text : String) :
    Except Error (List String) × Database σ :=
  let (answer, world) := database.service.search index text database.world
  (answer, { database with world })

/-- The plan of a query. -/
def planQuery
    (database : Database σ)
    (query : Query) :
    Except Error QueryPlan :=
  database.planner.plan query

/-- The plan of a query text; the cache is passed by. -/
def planText
    (database : Database σ)
    (text : String) :
    Except Error QueryPlan := do
  let query ← (Query.parse text).mapError .parse
  database.planQuery query

/-- The prepared query of a text, out of the cache if it is there. -/
def prepare
    (database : Database σ)
    (text : String) :
    Except Error PreparedQuery × Database σ :=
  match database.cache.get? text with
  | some prepared => (.ok prepared, database)
  | none =>
      match database.planText text with
      | .error e => (.error e, database)
      | .ok plan =>
          let prepared : PreparedQuery := ⟨database.preparations, plan⟩
          (.ok prepared,
            { database with
              cache := database.cache.insert text prepared
              preparations := database.preparations + 1 })

variable [NumeralReading]

/-- Run a plan once, in a context of its own. -/
def run
    (database : Database σ)
    (plan : QueryPlan)
    (parameters : Parameters) :
    Except Error (List Record) × Database σ :=
  let connect := fun world => (.ok database.store, world)
  let outcome := plan.steps.run database.service connect (.start parameters) database.world
  (outcome.result, { database with world := outcome.world })

/-- Prepare a text, through the cache, and run it. -/
def query
    (database : Database σ)
    (text : String)
    (parameters : Parameters) :
    Except Error (List Record) × Database σ :=
  match database.prepare text with
  | (.error e, after) => (.error e, after)
  | (.ok prepared, after) => after.run prepared.plan parameters

end Database

end FullTextQuery
