import FullTextQuery.Proofs.Outcome
import FullTextQuery.Proofs.Text.Utf8
import FullTextQuery.Url.Parser

namespace FullTextQuery.Url

/-!
# Segments

Where the sign `%` itself is encoded, decoding gives the bytes of a text back, so that texts
with the same encoding are the same.  One more segment is appended to a path unless it is one
or two full stops, and an encoded text is such a segment only if it is one or two full stops
itself.  Under the schemes of the web every URL has an authority and a path of segments.
-/

variable {set : EncodeSet} {cs : List Char}

/-! ## Percent encoding -/

theorem hexValue?_upperHexDigit :
    ∀ n < 16, Text.hexValue? (Text.upperHexDigit n) = some n := by
  decide +kernel

/-- An encoded byte is decoded to that byte. -/
theorem percentDecode_percentByte
    (b : UInt8)
    (rest : List Char) :
    percentDecode (percentByte b ++ rest) = b :: percentDecode rest := by
  have high := hexValue?_upperHexDigit (b.toNat / 16) (by have := b.toNat_lt; omega)
  have low := hexValue?_upperHexDigit (b.toNat % 16) (by omega)
  simp [percentByte, percentDecode, high, low, Nat.div_add_mod']

/-- Encoded bytes are decoded to those bytes. -/
theorem percentDecode_flatMap_percentByte
    (bytes : List UInt8)
    (rest : List Char) :
    percentDecode (bytes.flatMap percentByte ++ rest) = bytes ++ percentDecode rest := by
  induction bytes with
  | nil => rfl
  | cons b others inductionHypothesis =>
      rw [List.flatMap_cons, List.append_assoc, percentDecode_percentByte, inductionHypothesis]
      rfl

/-- A character that is not the sign `%` is decoded to its bytes. -/
theorem percentDecode_cons
    {c : Char}
    (noSign : c ≠ '%')
    (rest : List Char) :
    percentDecode (c :: rest) = Text.utf8Bytes c ++ percentDecode rest := by
  rw [percentDecode]
  exact fun _ _ _ isSign => absurd isSign noSign

/-- What is encoded is decoded to its bytes, if the sign `%` is encoded too. -/
theorem percentDecode_percentEncode
    (encodesSign : set '%' = true)
    (cs : List Char) :
    percentDecode (percentEncode set cs) = Text.encodeUtf8 cs := by
  induction cs with
  | nil => rfl
  | cons c rest inductionHypothesis =>
      rw [percentEncode, List.flatMap_cons, Text.encodeUtf8, List.flatMap_cons]
      unfold percentChar
      split
      next isPlain =>
        have noSign : c ≠ '%' := by
          rintro rfl
          simp [encodesSign] at isPlain
        exact (percentDecode_cons noSign _).trans (congrArg _ inductionHypothesis)
      next =>
        rw [percentDecode_flatMap_percentByte]
        exact congrArg _ inductionHypothesis

/-- Texts with the same encoding are the same. -/
theorem percentEncode_injective
    (encodesSign : set '%' = true) :
    Function.Injective (percentEncode set) := by
  intro first second same
  have sameBytes := congrArg percentDecode same
  rw [percentDecode_percentEncode encodesSign, percentDecode_percentEncode encodesSign] at sameBytes
  exact Text.encodeUtf8_injective sameBytes

/-! ## Full stops -/

/-- The spellings of a full stop mean its byte. -/
theorem percentDecode_of_mem_fullStops :
    ∀ stop ∈ fullStops, percentDecode stop = Text.encodeUtf8 ['.'] := by
  decide +kernel

theorem percentDecode_append_of_mem_fullStops :
    ∀ first ∈ fullStops, ∀ second ∈ fullStops,
      percentDecode (first ++ second) = Text.encodeUtf8 ['.', '.'] := by
  decide +kernel

/-- The encoding of a text is that of another if they mean the same bytes. -/
theorem eq_of_percentDecode_percentEncode
    (encodesSign : set '%' = true)
    {text : List Char}
    (same : percentDecode (percentEncode set cs) = Text.encodeUtf8 text) :
    cs = text :=
  Text.encodeUtf8_injective ((percentDecode_percentEncode encodesSign cs).symm.trans same)

/-- An encoded text means the place where it stands only if it is one full stop. -/
theorem isHere_percentEncode
    (encodesSign : set '%' = true)
    (keepsStop : set '.' = false) :
    isHere (percentEncode set cs) = true ↔ cs = ['.'] := by
  constructor
  · intro here
    have isStop := List.contains_iff_mem.mp here
    exact eq_of_percentDecode_percentEncode encodesSign (percentDecode_of_mem_fullStops _ isStop)
  · rintro rfl
    have plain : percentEncode set ['.'] = ['.'] := by
      simp [percentEncode, percentChar, keepsStop]
    rw [plain]
    decide

/-- An encoded text means the place above only if it is two full stops. -/
theorem isAbove_percentEncode
    (encodesSign : set '%' = true)
    (keepsStop : set '.' = false) :
    isAbove (percentEncode set cs) = true ↔ cs = ['.', '.'] := by
  constructor
  · intro above
    simp only [isAbove, List.any_eq_true, beq_iff_eq] at above
    obtain ⟨first, isFirst, second, isSecond, isBoth⟩ := above
    refine eq_of_percentDecode_percentEncode encodesSign ?_
    rw [isBoth]
    exact percentDecode_append_of_mem_fullStops first isFirst second isSecond
  · rintro rfl
    have plain : percentEncode set ['.', '.'] = ['.', '.'] := by
      simp [percentEncode, percentChar, keepsStop]
    rw [plain]
    decide

/-! ## URLs that were read -/

/-- Behind an authority the path has segments. -/
theorem exists_segments_pathBehindAuthority
    (kind : SchemeKind)
    (cs : List Char) :
    ∃ segments rest, Parser.pathBehindAuthority kind cs = (.segments segments, rest) := by
  unfold Parser.pathBehindAuthority
  lift_lets
  intro isEmpty
  by_cases noPath : (isEmpty && !kind.isSpecial) = true
  · exact ⟨_, _, if_pos noPath⟩
  · exact ⟨_, _, if_neg noPath⟩

/-- A URL that is read with an authority has one, and a path of segments. -/
theorem exists_segments_of_withAuthority
    {scheme : String}
    {kind : SchemeKind}
    {url : Url}
    (parsed : Parser.withAuthority scheme kind cs = .ok url) :
    ∃ authority segments, url.authority? = some authority ∧ url.path = .segments segments := by
  obtain ⟨⟨authority, left⟩, -, isUrl⟩ := Except.bind_eq_ok.mp parsed
  obtain ⟨segments, rest, isPath⟩ := exists_segments_pathBehindAuthority kind
    (left ++ cs.dropWhile fun c => !Parser.endsAuthority kind c)
  simp only [isPath, Except.pure_eq_ok, Except.ok.injEq] at isUrl
  subst isUrl
  exact ⟨authority, segments, rfl, rfl⟩

/-- The URL of a file has that scheme. -/
theorem scheme_of_file
    {url : Url}
    (parsed : Parser.file cs = .ok url) :
    url.scheme = "file" := by
  unfold Parser.file at parsed
  dsimp only at parsed
  split at parsed
  all_goals
    obtain ⟨host, -, isUrl⟩ := Except.bind_eq_ok.mp parsed
    simp only [Except.pure_eq_ok, Except.ok.injEq] at isUrl
    subst isUrl
    rfl

/-- The URL without an authority has the scheme that it is read with. -/
theorem scheme_withoutAuthority
    (scheme : String)
    (cs : List Char) :
    (Parser.withoutAuthority scheme cs).scheme = scheme := by
  unfold Parser.withoutAuthority
  split <;> rfl

/-- Under a special scheme a URL has an authority and a path of segments. -/
theorem exists_segments_of_parse
    {text : String}
    {url : Url}
    (parsed : parse text = .ok url)
    (special : url.kind = .special) :
    ∃ authority segments, url.authority? = some authority ∧ url.path = .segments segments := by
  unfold parse at parsed
  split at parsed
  case h_1 => simp at parsed
  case h_2 scheme rest _ =>
    dsimp only at parsed
    split at parsed
    case h_1 => exact exists_segments_of_withAuthority parsed
    case h_2 =>
      rw [kind, scheme_of_file parsed] at special
      exact absurd special (by decide)
    case h_3 => exact exists_segments_of_withAuthority parsed
    case h_4 isOther _ _ =>
      obtain rfl := Except.ok.inj parsed
      rw [kind, scheme_withoutAuthority, isOther] at special
      exact absurd special (by decide)

end FullTextQuery.Url
