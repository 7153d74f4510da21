import FullTextQuery.Proofs.Json.Reading
import FullTextQuery.Proofs.Outcome
import FullTextQuery.Proofs.Query.CanonicalUnits
import FullTextQuery.Service.Http
import FullTextQuery.Value.Key

namespace FullTextQuery

/-!
# What a response answers

A response answers keys exactly if its status says so and its body is the text of a document
of the right shape: an object whose member `value` is an array of objects, or an array of
exactly one such array, in the place of the members of the object.  Every found object gives
one key, in their order.  Any other response is refused as a failed search.
-/

namespace HttpResponse

/-- The found objects of a document. -/
inductive Lists : Json → List (List (String × Json)) → Prop
  | object {members : List (String × Json)} {documents : List (List (String × Json))} :
      members.lookup "value" = some (.array (documents.map .object)) →
        Lists (.object members) documents
  | loneArray {documents : List (List (String × Json))} :
      Lists (.array [.array (documents.map .object)]) documents

/-- The key of a found object: a text as it is, or a number as a document of its own. -/
inductive IsKey (field : String) (document : List (String × Json)) : String → Prop
  | text {text : String} :
      document.lookup field = some (.string text) → IsKey field document text
  | integer {n : Int} :
      document.lookup field = some (.integer n) → IsKey field document (Decimal.ofInt n)
  | real {x : Binary64} :
      document.lookup field = some (.real x) → IsKey field document x.toJsonNumber

/-- What a good response is, and the keys that it answers. -/
structure Answers
    (response : HttpResponse)
    (field : String)
    (keys : List String) :
    Prop where
  isSuccess : 200 ≤ response.status ∧ response.status < 300
  hasKeys : ∃ text document documents, response.body = text.toUTF8 ∧ Json.IsTextOf text document ∧
    Lists document documents ∧ List.Forall₂ (IsKey field) documents keys

variable {field key : String} {value : Json} {document : List (String × Json)}
  {documents : List (List (String × Json))} {keys : List String} {response : HttpResponse}

/-- The bytes of a text, and of no other one, are decoded to it. -/
theorem fromUTF8?_eq_some_iff
    {bytes : ByteArray}
    {text : String} :
    String.fromUTF8? bytes = some text ↔ bytes = text.toUTF8 := by
  unfold String.fromUTF8?
  constructor
  · intro decoded
    split at decoded
    · cases decoded
      rfl
    · cases decoded
  · rintro rfl
    exact dif_pos text.isValidUTF8

theorem members_eq_ok_iff :
    members value = .ok document ↔ value = .object document := by
  cases value <;> simp [members]

theorem documents_eq_ok_iff :
    HttpResponse.documents value = .ok documents ↔ value = .array (documents.map .object) := by
  cases value with
  | array items =>
      rw [HttpResponse.documents, Except.mapM_eq_ok]
      simp only [members_eq_ok_iff]
      rw [← List.forall₂_map_right_iff, List.forall₂_eq_eq_eq, Json.array.injEq]
  | _ => simp [HttpResponse.documents]

/-- The found objects are those of a whole document. -/
theorem answer_eq_ok_iff :
    answer value = .ok documents ↔ Lists value documents := by
  constructor
  · intro answered
    unfold answer at answered
    split at answered
    · split at answered
      · rename_i members _ isValue
        rw [documents_eq_ok_iff.mp answered] at isValue
        exact .object isValue
      · cases answered
    · cases answered
    · rw [documents_eq_ok_iff.mp answered]
      exact .loneArray
    · obtain ⟨_, -, refused⟩ := Except.bind_eq_ok.mp answered
      cases refused
    · cases answered
  · rintro (isValue | _)
    · rw [answer, isValue]
      exact documents_eq_ok_iff.mpr rfl
    · exact documents_eq_ok_iff.mpr rfl

theorem key_eq_ok_iff :
    HttpResponse.key field document = .ok key ↔ IsKey field document key := by
  constructor
  · intro isKey
    unfold HttpResponse.key at isKey
    split at isKey
    · cases isKey
      exact .text ‹_›
    · cases isKey
      exact .integer ‹_›
    · cases isKey
      exact .real ‹_›
    · cases isKey
    · cases isKey
  · rintro (isText | isInteger | isReal)
    · rw [HttpResponse.key, isText]
    · rw [HttpResponse.key, isInteger]
      rfl
    · rw [HttpResponse.key, isReal]
      rfl

theorem isSuccess_iff
    {status : Nat} :
    HttpResponse.isSuccess status = true ↔ 200 ≤ status ∧ status < 300 := by
  simp [HttpResponse.isSuccess]

/-- A response has keys exactly if it answers them. -/
theorem keys_eq_ok_iff :
    response.keys field = .ok keys ↔ response.Answers field keys := by
  unfold HttpResponse.keys
  by_cases isGood : isSuccess response.status = true
  · rw [if_neg (by simp [isGood])]
    constructor
    · intro decoded
      split at decoded
      · cases decoded
      · rename_i document isRead
        obtain ⟨text, isText, isDocument⟩ := Option.bind_eq_some_iff.mp isRead
        obtain ⟨documents, isAnswer, areKeys⟩ := Except.bind_eq_ok.mp decoded
        refine ⟨isSuccess_iff.mp isGood, text, document, documents,
          fromUTF8?_eq_some_iff.mp isText, Json.read?_eq_some_iff.mp isDocument,
          answer_eq_ok_iff.mp isAnswer, ?_⟩
        exact (Except.mapM_eq_ok.mp areKeys).imp fun _ _ => key_eq_ok_iff.mp
    · rintro ⟨-, text, document, documents, isText, isDocument, isList, areKeys⟩
      rw [fromUTF8?_eq_some_iff.mpr isText, Option.bind_some, Json.read?_eq_some_iff.mpr isDocument]
      refine Except.bind_eq_ok.mpr ⟨documents, answer_eq_ok_iff.mpr isList, ?_⟩
      exact Except.mapM_eq_ok.mpr (areKeys.imp fun _ _ => key_eq_ok_iff.mpr)
  · rw [if_pos (by simp [isGood])]
    constructor
    · intro decoded
      cases decoded
    · exact fun answers => absurd (isSuccess_iff.mpr answers.isSuccess) isGood

end HttpResponse

section Numbers

/-- Nothing is cut off a text without white space. -/
theorem trimBlanks_of_noBlank
    {cs : List Char}
    (noBlank : ∀ c ∈ cs, Text.isBlank c = false) :
    Text.trimBlanks cs = cs := by
  have stops : ∀ {others : List Char}, (∀ c ∈ others, c ∈ cs) → Text.Stops Text.isBlank others :=
    fun within c isHead => noBlank c (within c (List.mem_of_mem_head? isHead))
  rw [Text.trimBlanks, Text.dropWhile_of_stops (stops fun _ member => member),
    Text.dropWhile_of_stops (stops fun _ member => List.mem_reverse.mp member),
    List.reverse_reverse]

theorem isBlank_of_isDigit
    {c : Char}
    (isDigit : Decimal.isDigit c = true) :
    Text.isBlank c = false := by
  simp only [Decimal.isDigit, Bool.and_eq_true, decide_eq_true_eq] at isDigit
  have low : '0'.toNat = 48 := rfl
  have high : '9'.toNat = 57 := rfl
  simp [Text.isBlank, Text.inRanges, Text.blankRanges]
  omega

/-- The decimal text of a number of 64 bits is that number as a key. -/
theorem ofKey_ofInt
    (n : Int64) :
    Value.ofKey (Decimal.ofInt n.toInt) .integer = .ok (.integer n) := by
  have noBlank : ∀ c ∈ (Decimal.ofInt n.toInt).toList, Text.isBlank c = false := by
    intro c member
    rw [Query.toList_ofInt] at member
    rcases List.mem_append.mp member with isSign | isDigit
    · rw [show c = '-' by cases negative : decide (n.toInt < 0) <;> simp_all [Query.minus]]
      rfl
    · exact isBlank_of_isDigit (Decimal.isDigit_of_mem_digits isDigit)
  rw [Value.ofKey, trimBlanks_of_noBlank noBlank, Query.int64?_ofInt]

end Numbers

/--
What a search makes of a response: exactly the keys that the response answers, or else a failed
search.  The key of a number of 64 bits converts back to it.
-/
structure Decodes
    (response : HttpResponse)
    (field : String)
    (after : σ)
    (outcome : Except Error (List String) × σ) :
    Prop where
  answered : ∀ keys, outcome = (.ok keys, after) ↔ response.Answers field keys
  refused : (∀ keys, ¬ response.Answers field keys) → ∃ e, outcome = (.error (.search e), after)
  converted : ∀ document key (n : Int64), document.lookup field = some (.integer n.toInt) →
    HttpResponse.IsKey field document key → Value.ofKey key .integer = .ok (.integer n)

namespace ServiceConfig

/-- A search whose response arrived decodes it. -/
theorem decodes_of_arrived
    {config : ServiceConfig}
    {transport : Transport σ}
    {index text : String}
    {world after : σ}
    {request : HttpRequest}
    {response : HttpResponse}
    (built : config.request index text = .ok request)
    (arrived : transport request world = (some response, after)) :
    Decodes response config.keyField after
      ((config.service transport).search index text world) := by
  have sent : (config.service transport).search index text world =
      ((response.keys config.keyField).mapError .search, after) := by
    simp only [service, built, send, arrived]
  rw [sent]
  refine ⟨fun keys => ?_, fun noKeys => ?_, fun document key n isNumber isKey => ?_⟩
  · rw [Prod.mk.injEq, Except.mapError_eq_ok, HttpResponse.keys_eq_ok_iff, eq_self, and_true]
  · cases decoded : response.keys config.keyField with
    | ok keys => exact absurd (HttpResponse.keys_eq_ok_iff.mp decoded) (noKeys keys)
    | error e => exact ⟨e, rfl⟩
  · cases isKey with
    | text isText => rw [isNumber] at isText; cases isText
    | integer isInteger =>
        rw [isNumber] at isInteger
        cases isInteger
        exact ofKey_ofInt n
    | real isReal => rw [isNumber] at isReal; cases isReal

/-- A service that answers every request with one body. -/
def answering
    (body : String) :
    Transport Unit :=
  fun _ world => (some ⟨200, body.toUTF8⟩, world)

/-- Settings with an endpoint and nothing else. -/
def plainSettings : ServiceConfig :=
  { endpoint := "http://h" }

theorem exists_request_plainSettings :
    ∃ request, plainSettings.request "i" "q" = .ok request :=
  Except.exists_eq_ok_iff.mpr (by decide +kernel)

/-- A response with a text and a number as keys. -/
theorem decodes_of_arrived_textAndNumber :
    ∃ request body after, plainSettings.request "i" "q" = .ok request ∧
      answering body request () = (some ⟨200, body.toUTF8⟩, after) ∧
      body = "\x7b\"value\":[\x7b\"id\":\"A\"\x7d,\x7b\"id\":7\x7d]\x7d" ∧
      Decodes ⟨200, body.toUTF8⟩ "id" after
        ((plainSettings.service (answering body)).search "i" "q" ()) := by
  obtain ⟨request, built⟩ := exists_request_plainSettings
  exact ⟨request, _, (), built, rfl, rfl, decodes_of_arrived built rfl⟩

/-- An array of one array of objects is answered like an object, although it is none. -/
theorem exists_search_of_loneArray :
    (plainSettings.service (answering "[[\x7b\"id\":\"A\"\x7d]]")).search "i" "q" () =
      (.ok ["A"], ()) ∧
    ∀ members, ¬ Json.IsTextOf "[[\x7b\"id\":\"A\"\x7d]]" (.object members) := by
  obtain ⟨request, built⟩ := exists_request_plainSettings
  have isArray : (Json.read? "[[\x7b\"id\":\"A\"\x7d]]").map HttpResponse.found =
      some "sequence" := by
    decide +kernel
  have decoded : HttpResponse.keys ⟨200, "[[\x7b\"id\":\"A\"\x7d]]".toUTF8⟩ "id" = .ok ["A"] := by
    rw [HttpResponse.keys, HttpResponse.fromUTF8?_eq_some_iff.mpr rfl]
    decide +kernel
  constructor
  · simp only [service, built, send, answering]
    rw [show plainSettings.keyField = "id" from rfl, decoded, Except.mapError]
  · intro members isObject
    have isMap : HttpResponse.found (.object members) = "map" := rfl
    rw [Json.read?_eq_some_iff.mpr isObject, Option.map_some, isMap] at isArray
    exact absurd isArray (by decide)

end ServiceConfig

end FullTextQuery
