import FullTextQuery.Proofs.Url.Segments
import FullTextQuery.Service.Config

namespace FullTextQuery

open Url

/-!
# The address of an index

The URL of an index is the endpoint with a longer path.  The name of the index is one
segment of it and can be read from it, if the name has no tabs and no line breaks and is not
one or two full stops: full stops are left out, and tabs and line breaks are dropped first.
So names address different URLs if they are different without such characters, and names
that are alike without them address the same.
-/

/-- What is left of a text in a URL. -/
def keptChars
    (text : String) :
    List Char :=
  text.toList.filter fun c => !isLineBreakOrTab c

/-- A path without segments is written as one empty segment. -/
def written
    (segments : List Segment) :
    List Segment :=
  if segments = [[]] then [] else segments

/-- What the name of an index is in a path: nothing, the place above, or a segment. -/
inductive IndexPlace where
  | absent
  | above
  | segment (text : List Char)
  deriving Repr, DecidableEq

namespace IndexPlace

/-- The place of a name; full stops that are left over mean what they mean in a path. -/
def ofName
    (index : String) :
    IndexPlace :=
  if index = "." ∨ index = ".." then .absent
  else if keptChars index = ['.', '.'] then .above
  else if keptChars index = ['.'] then .segment []
  else .segment (keptChars index)

/-- The segments below those of the endpoint. -/
def path
    (base : List Segment) :
    IndexPlace → List Segment
  | .absent => base ++ ["indexes".toList, "docs".toList, "search".toList]
  | .above => written (base ++ [[]]) ++ ["docs".toList, "search".toList]
  | .segment text =>
      base ++ ["indexes".toList, percentEncode EncodeSet.specialSegment text, "docs".toList,
        "search".toList]

end IndexPlace

/-- The segments of an endpoint that stay: an empty one at the end does not. -/
def keptSegments
    (base : List Segment) :
    List Segment :=
  written (dropEmptyLast base)

/-- The segments of an endpoint without an empty one at the end. -/
def withoutEmptyLast
    (base : List Segment) :
    List Segment :=
  if base.getLast? = some [] then base.dropLast else base

/-- Whether a name is written as one segment that it can be read from. -/
structure IsSegmentName (index : String) : Prop where
  noBreak : ∀ c ∈ index.toList, isLineBreakOrTab c = false
  notHere : index ≠ "."
  notAbove : index ≠ ".."

section Pushing

variable {segments : List Segment} {cs : List Char}

/-- A path with a segment that is not empty is written with all its segments. -/
theorem written_of_mem
    {segment : Segment}
    (isSegment : segment ∈ segments)
    (notEmpty : segment ≠ []) :
    written segments = segments := by
  refine if_neg fun alone => notEmpty ?_
  rwa [alone, List.mem_singleton] at isSegment

/-- Under the schemes of the web the last segment is dropped, whatever it is. -/
theorem dropLastSegment_special
    (segments : List Segment) :
    dropLastSegment .special segments = segments.dropLast := by
  unfold dropLastSegment
  split
  · rfl
  · rfl

/-- What one more text does to a path, by what is left of it. -/
theorem pushText_eq
    (notStop : ¬ (cs = ['.'] ∨ cs = ['.', '.'])) :
    pushText .special segments cs =
      (if cs.filter (fun c => !isLineBreakOrTab c) = ['.', '.'] then
        (written segments).dropLast ++ [[]]
      else if cs.filter (fun c => !isLineBreakOrTab c) = ['.'] then
        written segments ++ [[]]
      else
        written segments ++ [percentEncode EncodeSet.specialSegment
          (cs.filter fun c => !isLineBreakOrTab c)]) := by
  have above : ∀ text, isAbove (percentEncode EncodeSet.specialSegment text) = true ↔
      text = ['.', '.'] := fun text => isAbove_percentEncode rfl rfl
  have here : ∀ text, isHere (percentEncode EncodeSet.specialSegment text) = true ↔
      text = ['.'] := fun text => isHere_percentEncode rfl rfl
  rw [pushText, if_neg notStop]
  simp only [addSegment, SchemeKind.segmentSet, above, here, dropLastSegment_special,
    writtenSegment, reduceCtorEq, false_and, ↓reduceIte, Bool.false_eq_true, written]

/-- The other texts of the path are appended as they are. -/
theorem pushText_fixed
    (text : String)
    (isFixed : text ∈ ["indexes", "docs", "search"]) :
    pushText .special segments text.toList = written segments ++ [text.toList] := by
  have plain : ∀ text ∈ ["indexes", "docs", "search"],
      ¬ (text.toList = ['.'] ∨ text.toList = ['.', '.']) ∧
      text.toList.filter (fun c => !isLineBreakOrTab c) = text.toList ∧
      percentEncode EncodeSet.specialSegment text.toList = text.toList := by
    decide +kernel
  obtain ⟨notStop, kept, isWritten⟩ := plain text isFixed
  obtain ⟨notHere, notAbove⟩ := not_or.mp notStop
  rw [pushText_eq notStop, kept, if_neg notAbove, if_neg notHere, isWritten]

end Pushing

/-- What the name of an index does to the path in front of it. -/
theorem pushText_index
    (base : List Segment)
    (index : String) :
    pushText .special (base ++ ["indexes".toList]) index.toList =
      match IndexPlace.ofName index with
      | .absent => base ++ ["indexes".toList]
      | .above => base ++ [[]]
      | .segment text =>
          base ++ ["indexes".toList, percentEncode EncodeSet.specialSegment text] := by
  have isWritten : written (base ++ ["indexes".toList]) = base ++ ["indexes".toList] :=
    written_of_mem List.mem_concat_self (by decide)
  have isStop : (index = "." ∨ index = "..") ↔
      (index.toList = ['.'] ∨ index.toList = ['.', '.']) := by
    rw [← String.toList_inj, ← String.toList_inj]
    rfl
  unfold IndexPlace.ofName
  by_cases stop : index = "." ∨ index = ".."
  · rw [if_pos stop, pushText, if_pos (isStop.mp stop)]
  · rw [if_neg stop, pushText_eq (isStop.not.mp stop), isWritten]
    change (if keptChars index = ['.', '.'] then _ else if keptChars index = ['.'] then _ else
      _ ++ [percentEncode EncodeSet.specialSegment (keptChars index)]) = _
    by_cases isAbove : keptChars index = ['.', '.']
    · simp [isAbove]
    · by_cases isHere : keptChars index = ['.']
      · simp [isHere, percentEncode]
      · simp [isAbove, isHere]

/-- The path of the URL of an index below an endpoint with some segments. -/
theorem foldl_pushText
    (base : List Segment)
    (index : String) :
    ((["indexes", index, "docs", "search"].map String.toList).foldl (pushText .special)
      (dropEmptyLast base)) = (IndexPlace.ofName index).path (keptSegments base) := by
  have docsWritten : ∀ front : List Segment,
      written (front ++ ["docs".toList]) = front ++ ["docs".toList] :=
    fun front => written_of_mem List.mem_concat_self (by decide)
  simp only [List.map_cons, List.map_nil, List.foldl_cons, List.foldl_nil]
  rw [pushText_fixed "indexes" (by simp), ← keptSegments, pushText_index,
    pushText_fixed "search" (by simp), pushText_fixed "docs" (by simp), docsWritten]
  unfold IndexPlace.path
  cases IndexPlace.ofName index with
  | absent =>
      dsimp only
      rw [written_of_mem List.mem_concat_self (by decide)]
      simp
  | above => simp
  | segment text =>
      dsimp only
      rw [written_of_mem (show "indexes".toList ∈ _ by simp) (by decide)]
      simp

/-- An empty segment at the end is all that an endpoint loses, except of two empty ones. -/
theorem keptSegments_eq
    {base : List Segment}
    (notTwoEmpty : base ≠ [[], []]) :
    keptSegments base = withoutEmptyLast base := by
  match base with
  | [] => rfl
  | [only] =>
      by_cases isEmpty : only = [] <;> simp [keptSegments, dropEmptyLast, withoutEmptyLast, written,
        isEmpty]
  | first :: second :: rest =>
      have twoOrMore : 1 < (first :: second :: rest).length := by simp
      unfold keptSegments withoutEmptyLast dropEmptyLast
      by_cases isEmpty : (first :: second :: rest).getLast? = some []
      · rw [if_pos ⟨twoOrMore, isEmpty⟩, if_pos isEmpty, written, if_neg]
        intro loneEmpty
        obtain ⟨front, isFront⟩ := List.getLast?_eq_some_iff.mp isEmpty
        rw [isFront, List.dropLast_concat] at loneEmpty
        exact notTwoEmpty (isFront.trans (by rw [loneEmpty]; rfl))
      · rw [if_neg (fun both => isEmpty both.2), if_neg isEmpty, written, if_neg (by simp)]

/-- A name is one segment as it is exactly if it has this place. -/
theorem ofName_eq_segment_iff
    {index : String} :
    IndexPlace.ofName index = .segment index.toList ↔ IsSegmentName index := by
  have keptAll : keptChars index = index.toList ↔
      ∀ c ∈ index.toList, isLineBreakOrTab c = false := by
    simp [keptChars, List.filter_eq_self]
  unfold IndexPlace.ofName
  constructor
  · intro isSegment
    by_cases stop : index = "." ∨ index = ".."
    · simp [stop] at isSegment
    · obtain ⟨notHere, notAbove⟩ := not_or.mp stop
      rw [if_neg stop] at isSegment
      refine ⟨keptAll.mp ?_, notHere, notAbove⟩
      by_cases isAbove : keptChars index = ['.', '.']
      · simp [isAbove] at isSegment
      · by_cases isHere : keptChars index = ['.']
        · -- The place is the empty segment, but the name is not empty.
          have isEmpty : index.toList = [] := by simpa [isHere] using isSegment.symm
          simp [keptChars, isEmpty] at isHere
        · simpa [isAbove, isHere] using isSegment
  · rintro ⟨noBreak, notHere, notAbove⟩
    have isHere : index.toList ≠ ['.'] := fun same => notHere (String.toList_inj.mp same)
    have isAbove : index.toList ≠ ['.', '.'] := fun same => notAbove (String.toList_inj.mp same)
    rw [keptAll.mpr noBreak, if_neg (by simp [notHere, notAbove]), if_neg isAbove, if_neg isHere]

/-- The text that a place adds between the endpoint and the end of the path. -/
def IndexPlace.text
    (base : List Segment) :
    IndexPlace → List Char
  | .absent => '/' :: "indexes".toList
  | .above => if base = [] then [] else ['/']
  | .segment text => '/' :: "indexes".toList ++ '/' :: percentEncode EncodeSet.specialSegment text

theorem text_append
    (front rest : List Segment) :
    (Path.segments (front ++ rest)).text =
      (Path.segments front).text ++ (Path.segments rest).text :=
  List.flatMap_append

theorem text_path
    (base : List Segment)
    (place : IndexPlace) :
    (Path.segments (place.path base)).text =
      (Path.segments base).text ++ place.text base ++
        (Path.segments ["docs".toList, "search".toList]).text := by
  generalize isEnding : Path.segments ["docs".toList, "search".toList] = ending
  cases place with
  | absent =>
      have split : base ++ ["indexes".toList, "docs".toList, "search".toList] =
          (base ++ ["indexes".toList]) ++ ["docs".toList, "search".toList] := by
        simp only [List.append_assoc, List.cons_append, List.nil_append]
      rw [IndexPlace.path, split, text_append, text_append, isEnding]
      rfl
  | above =>
      rw [IndexPlace.path, text_append, isEnding]
      by_cases noSegments : base = []
      · rw [noSegments]
        rfl
      · rw [written, if_neg (by simp [noSegments]), text_append, IndexPlace.text, if_neg noSegments]
        rfl
  | segment text =>
      have split : base ++ ["indexes".toList, percentEncode EncodeSet.specialSegment text,
          "docs".toList, "search".toList] =
          (base ++ ["indexes".toList, percentEncode EncodeSet.specialSegment text]) ++
            ["docs".toList, "search".toList] := by
        simp only [List.append_assoc, List.cons_append, List.nil_append]
      rw [IndexPlace.path, split, text_append, text_append, isEnding]
      simp only [Path.text, IndexPlace.text, List.flatMap_cons, List.flatMap_nil, List.append_nil]

/-- Different places have different texts. -/
theorem text_injective
    (base : List Segment) :
    Function.Injective (IndexPlace.text base) := by
  have aboveLength : (IndexPlace.text base .above).length ≤ 1 := by
    unfold IndexPlace.text
    dsimp only
    split <;> simp
  have absentLength : (IndexPlace.text base .absent).length = 8 := by
    simp [IndexPlace.text]
  have segmentLength : ∀ text, 9 ≤ (IndexPlace.text base (.segment text)).length := by
    intro text
    simp [IndexPlace.text]
  intro first second same
  have sameLength := congrArg List.length same
  match first, second with
  | .absent, .absent => rfl
  | .above, .above => rfl
  | .segment text, .segment other =>
      have sameText := List.append_cancel_left same
      exact congrArg _ (percentEncode_injective rfl (List.cons.inj sameText).2)
  | .absent, .above => omega
  | .above, .absent => omega
  | .absent, .segment text =>
      have := segmentLength text
      omega
  | .segment text, .absent =>
      have := segmentLength text
      omega
  | .above, .segment text =>
      have := segmentLength text
      omega
  | .segment text, .above =>
      have := segmentLength text
      omega

/-- What the URLs of indexes below an endpoint with some segments are. -/
structure AddressesIndexes
    (config : ServiceConfig)
    (endpoint : Url)
    (base : List Segment) :
    Prop where
  /-- The endpoint has a path of segments. -/
  hasSegments : endpoint.path = .segments base
  /-- Every name has a URL, which is the endpoint but for its path. -/
  succeeds : ∀ index, config.indexUrl index = .ok { endpoint with
    path := .segments ((IndexPlace.ofName index).path (keptSegments base)) }
  /-- Exactly these names are one segment of four, from which they can be read. -/
  oneSegment : ∀ index,
    (∃ segment,
      config.indexUrl index = .ok { endpoint with
        path := .segments (withoutEmptyLast base ++
          ["indexes".toList, segment, "docs".toList, "search".toList]) } ∧
      percentDecode segment = Text.encodeUtf8 index.toList) ↔
        IsSegmentName index ∧ base ≠ [[], []]
  /-- Two names address the same exactly if they have the same place. -/
  sameUrl : ∀ index other url otherUrl, config.indexUrl index = .ok url →
    config.indexUrl other = .ok otherUrl →
      (url.text = otherUrl.text ↔ IndexPlace.ofName index = IndexPlace.ofName other)
  /-- Different names that are one segment address different URLs. -/
  different : ∀ index other url otherUrl, IsSegmentName index → IsSegmentName other →
    index ≠ other → config.indexUrl index = .ok url → config.indexUrl other = .ok otherUrl →
      url.text ≠ otherUrl.text

section Main

variable {config : ServiceConfig} {endpoint : Url} {base : List Segment} {index other : String}

/-- Settings that are accepted have a URL. -/
theorem exists_endpointUrl_of_check
    (accepted : config.check = .ok ()) :
    ∃ endpoint, config.endpointUrl = .ok endpoint := by
  cases parsed : config.endpointUrl with
  | ok endpoint => exact ⟨endpoint, rfl⟩
  | error e =>
      simp only [ServiceConfig.check, parsed, Except.error_bind] at accepted
      split at accepted
      · simp at accepted
      · split at accepted <;> simp at accepted

/-- The URL of an index is that of the endpoint with a longer path. -/
theorem indexUrl_eq
    (isEndpoint : config.endpointUrl = .ok endpoint)
    (special : endpoint.kind = .special)
    (hasSegments : endpoint.path = .segments base)
    (index : String) :
    config.indexUrl index = .ok { endpoint with
      path := .segments ((IndexPlace.ofName index).path (keptSegments base)) } := by
  rw [ServiceConfig.indexUrl, isEndpoint, Except.ok_bind, pushTexts?, hasSegments]
  dsimp only
  rw [special, foldl_pushText]
  rfl

/-- With an authority the texts of two URLs that differ in their paths differ there. -/
theorem text_inj_of_path
    {authority : Authority}
    (hasAuthority : endpoint.authority? = some authority)
    (path otherPath : Path) :
    { endpoint with path }.text = { endpoint with path := otherPath }.text ↔
      path.text = otherPath.text := by
  simp [Url.text, authorityText, hasAuthority, ← String.toList_inj]

/-- A name that is no segment adds less than four segments. -/
theorem length_path_lt
    {place : IndexPlace}
    (noSegment : ∀ text, place ≠ .segment text)
    (base : List Segment) :
    (place.path base).length < base.length + 4 := by
  cases place with
  | absent => simp [IndexPlace.path]
  | above =>
      unfold IndexPlace.path written
      dsimp only
      split <;> simp
  | segment text => exact absurd rfl (noSegment text)

/-- Four segments behind the endpoint are there for a name that is a segment only. -/
theorem path_eq_iff
    {segment : Segment} :
    (IndexPlace.ofName index).path (keptSegments base) = withoutEmptyLast base ++
      ["indexes".toList, segment, "docs".toList, "search".toList] ↔
    base ≠ [[], []] ∧ ∃ text, IndexPlace.ofName index = .segment text ∧
      segment = percentEncode EncodeSet.specialSegment text := by
  constructor
  · intro samePath
    have sameLength := congrArg List.length samePath
    by_cases twoEmpty : base = [[], []]
    · -- Both empty segments are lost, and no place makes up for one of them.
      have atMost : ((IndexPlace.ofName index).path []).length ≤ 4 := by
        cases isPlace : IndexPlace.ofName index with
        | segment text => simp [IndexPlace.path]
        | _ => exact Nat.le_of_lt (length_path_lt (by simp) [])
      have noneKept : keptSegments [[], []] = [] := rfl
      rw [twoEmpty, noneKept] at sameLength
      simp [withoutEmptyLast] at sameLength
      omega
    · rw [keptSegments_eq twoEmpty] at samePath sameLength
      cases isPlace : IndexPlace.ofName index with
      | segment text =>
          rw [isPlace, IndexPlace.path, List.append_cancel_left_eq] at samePath
          obtain ⟨isSegment, -⟩ := List.cons.inj (List.cons.inj samePath).2
          exact ⟨twoEmpty, text, rfl, isSegment.symm⟩
      | _ =>
          have fewer := length_path_lt (show ∀ text, IndexPlace.ofName index ≠ .segment text by
            simp [isPlace]) (withoutEmptyLast base)
          simp [sameLength] at fewer
  · rintro ⟨notTwoEmpty, text, isPlace, rfl⟩
    rw [keptSegments_eq notTwoEmpty, isPlace, IndexPlace.path]

/-- What the URLs of indexes are below an accepted endpoint of the web. -/
theorem exists_addressesIndexes_of_check
    (accepted : config.check = .ok ()) :
    ∃ endpoint, config.endpointUrl = .ok endpoint ∧
      (endpoint.scheme = "http" ∨ endpoint.scheme = "https" →
        ∃ base, AddressesIndexes config endpoint base) := by
  obtain ⟨endpoint, isEndpoint⟩ := exists_endpointUrl_of_check accepted
  refine ⟨endpoint, isEndpoint, fun isWeb => ?_⟩
  have special : endpoint.kind = .special := by
    rcases isWeb with scheme | scheme <;> rw [kind, scheme] <;> rfl
  have parsed := Except.mapError_eq_ok.mp isEndpoint
  obtain ⟨authority, base, hasAuthority, hasSegments⟩ := exists_segments_of_parse parsed special
  have succeeds := indexUrl_eq isEndpoint special hasSegments
  have sameUrl : ∀ index other url otherUrl, config.indexUrl index = .ok url →
      config.indexUrl other = .ok otherUrl →
        (url.text = otherUrl.text ↔ IndexPlace.ofName index = IndexPlace.ofName other) := by
    intro index other url otherUrl isUrl isOther
    obtain rfl := Except.ok.inj ((succeeds index).symm.trans isUrl)
    obtain rfl := Except.ok.inj ((succeeds other).symm.trans isOther)
    rw [text_inj_of_path hasAuthority, text_path, text_path, List.append_cancel_right_eq,
      List.append_cancel_left_eq, (text_injective _).eq_iff]
  refine ⟨base, hasSegments, succeeds, ?_, sameUrl, ?_⟩
  · intro index
    simp only [succeeds, Except.ok.injEq, Url.mk.injEq, Path.segments.injEq, true_and, and_true,
      path_eq_iff, ← ofName_eq_segment_iff]
    constructor
    · rintro ⟨segment, ⟨notTwoEmpty, text, isPlace, rfl⟩, isRead⟩
      exact ⟨eq_of_percentDecode_percentEncode rfl isRead ▸ isPlace, notTwoEmpty⟩
    · rintro ⟨isPlace, notTwoEmpty⟩
      exact ⟨_, ⟨notTwoEmpty, _, isPlace, rfl⟩, percentDecode_percentEncode rfl _⟩
  · intro index other url otherUrl isName isOtherName different isUrl isOther sameText
    have samePlace := (sameUrl index other url otherUrl isUrl isOther).mp sameText
    rw [ofName_eq_segment_iff.mpr isName, ofName_eq_segment_iff.mpr isOtherName] at samePlace
    exact different (String.toList_inj.mp (IndexPlace.segment.inj samePlace))

/-- An endpoint with a slash at the end, which is no segment of the path. -/
theorem exists_addressesIndexes_of_check_search :
    ServiceConfig.check ⟨"https://search.example.net/", none, "", "id", 1, 1⟩ = .ok () ∧
    ∃ endpoint base, endpoint.scheme = "https" ∧
      AddressesIndexes ⟨"https://search.example.net/", none, "", "id", 1, 1⟩ endpoint base := by
  have accepted : ServiceConfig.check ⟨"https://search.example.net/", none, "", "id", 1, 1⟩ =
      .ok () := by
    decide +kernel
  have isHttps : ((ServiceConfig.endpointUrl
      ⟨"https://search.example.net/", none, "", "id", 1, 1⟩).map (·.scheme)) = .ok "https" := by
    decide +kernel
  obtain ⟨endpoint, isEndpoint, addresses⟩ := exists_addressesIndexes_of_check accepted
  rw [isEndpoint] at isHttps
  have isHttps := Except.ok.inj isHttps
  obtain ⟨base, addresses⟩ := addresses (.inr isHttps)
  exact ⟨accepted, endpoint, base, isHttps, addresses⟩

/-- A tab is dropped, so that a name with it addresses the index without it. -/
theorem exists_indexUrl_of_two_names :
    ServiceConfig.check ⟨"http://h", none, "", "id", 1, 1⟩ = .ok () ∧
    ∃ url, url.scheme = "http" ∧
      ServiceConfig.indexUrl ⟨"http://h", none, "", "id", 1, 1⟩ "a\tb" = .ok url ∧
      ServiceConfig.indexUrl ⟨"http://h", none, "", "id", 1, 1⟩ "ab" = .ok url := by
  refine ⟨by decide +kernel, ⟨"http", some { host := .name ['h'] }, .segments
    ["indexes".toList, "ab".toList, "docs".toList, "search".toList], none, none⟩, rfl, ?_, ?_⟩
  · decide +kernel
  · decide +kernel

/-- A full stop that is left over is the empty name, and two of them are the place above. -/
example : IndexPlace.ofName "\t." = IndexPlace.ofName "" ∧ IndexPlace.ofName "\t.." = .above := by
  decide +kernel

end Main

end FullTextQuery
