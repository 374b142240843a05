import CatalogServer.Proofs.Catalog.Spans
import CatalogServer.Workspace.Detection

/-!
# Which documents look like catalogs

A text is looked at only up to a limit before it is read.  The markers that
are searched begin with an angle bracket and have no other one, so they occur
in front of the root element of a document, in its start tag, or behind it.
A document whose root stands within the limit is found by its start tag; one
whose root stands behind it, only by a marker in front of the root.
-/

namespace CatalogServer

open Text Xml Reader

namespace Detection

/-- The part of a text behind byte order marks and blanks. -/
def head (text : String) : List Char :=
  trimStart (text.toList.dropWhile (· == '\uFEFF'))

/-- One of the markers occurs in a text. -/
def hasMarker (text : List Char) : Bool :=
  markers.any fun marker => occursIn marker.toList text

theorem occursIn_iff_infix {part text : List Char} :
    occursIn part text = true ↔ part <:+: text := by
  induction text with
  | nil => simp [occursIn]
  | cons c rest ih =>
      rw [occursIn, Bool.or_eq_true, List.isPrefixOf_iff_prefix, ih, List.infix_cons_iff]

theorem hasMarker_iff {text : List Char} :
    hasMarker text = true ↔ ∃ marker ∈ markers, marker.toList <:+: text := by
  simp only [hasMarker, List.any_eq_true, occursIn_iff_infix]

theorem hasMarker_of_infix {part text : List Char} (inside : part <:+: text)
    (found : hasMarker part = true) : hasMarker text = true := by
  rw [hasMarker_iff] at found ⊢
  obtain ⟨marker, member, occurs⟩ := found
  exact ⟨marker, member, occurs.trans inside⟩

theorem looksLikeCatalog_iff {text : String} (markup : (head text).head? = some '<') :
    looksLikeCatalog text = hasMarker ((head text).take searchedLength) := by
  obtain ⟨rest, headEq⟩ := List.head?_eq_some_iff.mp markup
  rw [head] at headEq
  rw [looksLikeCatalog, head, headEq]
  rfl

/-- An angle bracket stands at the front of every marker, and nowhere else in
it. -/
theorem exists_of_mem_markers {marker : String} (member : marker ∈ markers) :
    ∃ marks, marker.toList = '<' :: marks ∧ '<' ∉ marks ∧ 3 ≤ marks.length := by
  simp only [markers, List.mem_cons, List.not_mem_nil, or_false] at member
  rcases member with rfl | rfl | rfl | rfl <;> exact ⟨_, rfl, by decide, by decide⟩

/-- The beginning of a start tag that is too short for a marker adds none to
what stands in front of it. -/
theorem hasMarker_append {tag : List Char} (starts : tag.head?.all (· == '<') = true)
    (short : tag.length ≤ 3) (text : List Char) : hasMarker (text ++ tag) = hasMarker text := by
  rw [Bool.eq_iff_iff]
  refine ⟨?_, hasMarker_of_infix (List.prefix_append text tag).isInfix⟩
  intro found
  rw [hasMarker_iff] at found ⊢
  obtain ⟨marker, member, occurs⟩ := found
  obtain ⟨marks, markerEq, single, long⟩ := exists_of_mem_markers member
  refine ⟨marker, member, ?_⟩
  rw [markerEq] at occurs ⊢
  have notIn : ¬ '<' :: marks <:+: tag := by
    intro inside
    have bound := inside.length_le
    rw [List.length_cons] at bound
    omega
  rcases List.infix_append_iff.mp occurs with
    inText | inTag | ⟨front, back, parted, endsText, inTag⟩
  · exact inText
  · exact absurd inTag notIn
  · cases front with
    | nil =>
        rw [parted] at notIn
        exact absurd inTag.isInfix notIn
    | cons c front =>
        -- the marker goes on in the tag only with a second angle bracket
        obtain ⟨rfl, marksEq⟩ := List.cons.inj parted
        cases back with
        | nil =>
            obtain rfl : marks = front := marksEq.trans (List.append_nil front)
            exact endsText.isInfix
        | cons d back =>
            obtain ⟨after, rfl⟩ := inTag
            obtain rfl : d = '<' := by simpa using starts
            rw [marksEq] at single
            exact absurd (by simp) single

end Detection

open Detection

theorem Xml.Tag.exists_separator (tag : Tag) (close : Char) (after : List Char) :
    ∃ separator rest, tag.content ++ close :: after = tag.nameChars ++ separator :: rest ∧
      (separator = close ∨ isMarkupBlank separator = true) := by
  have parts : tag.content = tag.nameChars ++ tag.attributeText :=
    List.takeWhile_append_dropWhile.symm
  cases behind : tag.attributeText with
  | nil => exact ⟨close, after, by rw [parts, behind, List.append_nil], .inl rfl⟩
  | cons blank rest =>
      refine ⟨blank, rest ++ close :: after, by rw [parts, behind, List.append_assoc]; rfl, .inr ?_⟩
      have kept := List.head?_dropWhile_not (fun c => !isMarkupBlank c) tag.content
      rw [← Tag.attributeText, behind] at kept
      simpa using kept

namespace Reader

theorem exists_tag_of_stands {text : List Char} {element : Element}
    (stands : element.Stands text) :
    ∃ before separator rest,
      text = before ++ '<' :: (element.tag.nameChars ++ separator :: rest) ∧
        byteSize before = element.startTag.start ∧
          (separator = '>' ∨ separator = '/' ∨ isMarkupBlank separator = true) := by
  cases stands with
  | @empty before startTag after tag whole written =>
      obtain rfl : startTag = '<' :: (tag.content ++ ['/', '>']) := written
      obtain ⟨separator, rest, named, kind⟩ := tag.exists_separator '/' ('>' :: after)
      refine ⟨before, separator, rest, ?_, rfl, .inr kind⟩
      rw [whole, ← named]
      simp
  | @paired before startTag inner endTag after tag content whole written covered closed =>
      obtain rfl : startTag = '<' :: (tag.content ++ ['>']) := written
      obtain ⟨separator, rest, named, kind⟩ :=
        tag.exists_separator '>' (inner ++ endTag ++ after)
      refine ⟨before, separator, rest, ?_, rfl, kind.imp_right .inr⟩
      rw [whole, ← named]
      simp

theorem exists_blanks_of_read {text : String} {document : Document}
    (read : Document.read text = .ok document) :
    ∃ blanks rest, dropByteOrderMark text.toList = blanks ++ '<' :: rest ∧
      blanks.all isAsciiBlank = true := by
  obtain ⟨root, -, -, stands⟩ := stands_of_read read
  obtain ⟨before, separator, behind, whole, -⟩ := exists_tag_of_stands stands
  have bracket : '<' ∈ dropByteOrderMark text.toList := by rw [whole]; simp
  have resumed : resume .prolog (scan 0 [] (dropByteOrderMark text.toList)) = .ok document := read
  generalize dropByteOrderMark text.toList = source at bracket resumed ⊢
  cases source with
  | nil => cases bracket
  | cons c others =>
      by_cases markup : c = '<'
      · exact ⟨[], others, by rw [markup]; rfl, rfl⟩
      · have first := takes_of_ordinary markup [] others
        obtain ⟨data, ends⟩ := first.ends_of_text
        have parted : c :: others.takeWhile (· != '<') ++ others.dropWhile (· != '<') =
            c :: others := by
          rw [List.cons_append, List.takeWhile_append_dropWhile]
        rw [← parted] at bracket resumed ⊢
        rw [scan_of_takes first, resume_cons] at resumed
        obtain ⟨next, step, -⟩ := Except.bind_eq_ok resumed
        simp only [State.step, prologStep] at step
        split at step
        · next blank =>
            rcases ends with empty | ⟨rest, starts⟩
            · rw [empty, List.append_nil] at bracket
              exact absurd bracket data
            · exact ⟨_, rest, by rw [starts], blank⟩
        · cases step

/-- Blanks do not belong to the part of a text that is looked at. -/
theorem head_eq {text : String} {blanks rest : List Char}
    (parted : dropByteOrderMark text.toList = blanks ++ '<' :: rest)
    (blank : blanks.all isAsciiBlank = true) : head text = '<' :: rest := by
  have unmarked : (dropByteOrderMark text.toList).dropWhile (· == '\uFEFF') =
      blanks ++ '<' :: rest := by
    rw [parted]
    cases blanks with
    | nil => rfl
    | cons c others =>
        have other : c ≠ '\uFEFF' := by
          rintro rfl
          exact absurd (List.all_eq_true.mp blank _ List.mem_cons_self) (by decide)
        exact List.dropWhile_cons_of_neg (by simpa using other)
  have marks : text.toList.dropWhile (· == '\uFEFF') = blanks ++ '<' :: rest := by
    rw [← unmarked]
    by_cases marked : text.toList.head? = some '\uFEFF'
    · obtain ⟨others, textEq⟩ := List.head?_eq_some_iff.mp marked
      rw [textEq]
      rfl
    · rw [dropByteOrderMark_of_head marked]
  rw [head, marks, trimStart,
    List.dropWhile_append_of_pos fun c member =>
      isBlank_of_isAsciiBlank (List.all_eq_true.mp blank c member)]
  rfl

end Reader

namespace Detection

/-- The root element of a document stands behind a prolog in the part of its
text that is looked at, and its name is followed by a separator. -/
structure RootStands (text : String) (document : Document) (prolog : List Char)
    (separator : Char) (behind : List Char) : Prop where
  parted : head text = prolog ++ '<' :: ("TS".toList ++ separator :: behind)
  place : byteSize (dropByteOrderMark text.toList) =
    document.spans.root.start + byteSize ('<' :: ("TS".toList ++ separator :: behind))
  ends : separator = '>' ∨ separator = '/' ∨ isMarkupBlank separator = true

variable {text : String} {document : Document} {prolog behind : List Char} {separator : Char}

theorem rootStands_of_read (read : Document.read text = .ok document) :
    ∃ prolog separator behind, RootStands text document prolog separator behind := by
  obtain ⟨root, -, outlines, stands⟩ := stands_of_read read
  obtain ⟨before, separator, behind, whole, start, kind⟩ := exists_tag_of_stands stands
  obtain ⟨blanks, rest, parted, blank⟩ := exists_blanks_of_read read
  have name : root.tag.nameChars = "TS".toList := by
    rw [← outlines.named, Tag.name, String.toList_ofList]
  rw [name] at whole
  rw [← outlines.startTag] at start
  -- the blanks in front of the markup stand in front of the root as well
  rcases List.append_eq_append_iff.mp (parted.symm.trans whole) with
    ⟨prolog, rfl, restEq⟩ | ⟨others, blanksEq, restEq⟩
  · refine ⟨prolog, separator, behind, ⟨?_, ?_, kind⟩⟩
    · rw [head_eq parted blank, restEq]
    · rw [whole, byteSize_append, start]
  · cases others with
    | nil =>
        refine ⟨[], separator, behind, ⟨?_, ?_, kind⟩⟩
        · rw [head_eq parted blank, ← List.nil_append ('<' :: rest), ← restEq]
          rfl
        · rw [whole, byteSize_append, start]
    | cons c others =>
        obtain ⟨rfl, -⟩ := List.cons.inj restEq
        have member : '<' ∈ blanks := by rw [blanksEq]; simp
        exact absurd (List.all_eq_true.mp blank _ member) (by decide)

/-- Whether a document that is read looks like a catalog is told by the markers
up to the limit. -/
theorem looksLikeCatalog_eq (read : Document.read text = .ok document) :
    looksLikeCatalog text = hasMarker ((head text).take searchedLength) := by
  obtain ⟨blanks, rest, parted, blank⟩ := exists_blanks_of_read read
  exact looksLikeCatalog_iff (by rw [head_eq parted blank]; rfl)

/-- Markers in front of the root are seen up to the limit. -/
theorem RootStands.hasMarker_of_prolog
    (stands : RootStands text document prolog separator behind)
    (found : hasMarker (prolog.take searchedLength) = true) :
    hasMarker ((head text).take searchedLength) = true := by
  refine hasMarker_of_infix (List.IsPrefix.isInfix ?_) found
  rw [stands.parted, List.take_append]
  exact List.prefix_append _ _

/-- A start tag within the limit is a marker, if its name is followed by an
angle bracket, a space or a line feed. -/
theorem RootStands.hasMarker_of_near
    (stands : RootStands text document prolog separator behind)
    (near : prolog.length + 4 ≤ searchedLength) (common : separator ∈ ['>', ' ', '\n']) :
    hasMarker ((head text).take searchedLength) = true := by
  have marker : hasMarker ['<', 'T', 'S', separator] = true := by
    simp only [List.mem_cons, List.not_mem_nil, or_false] at common
    rcases common with rfl | rfl | rfl <;> decide
  refine hasMarker_of_infix ?_ marker
  have whole : head text = prolog ++ ['<', 'T', 'S', separator] ++ behind := by
    rw [stands.parted, List.append_assoc]
    rfl
  have inFront : prolog ++ ['<', 'T', 'S', separator] <+: (head text).take searchedLength := by
    refine List.prefix_of_prefix_length_le (whole ▸ List.prefix_append _ _)
      (List.take_prefix _ _) ?_
    rw [List.length_take, whole]
    simp only [List.length_append, List.length_cons, List.length_nil]
    omega
  exact (List.suffix_append _ _).isInfix.trans inFront.isInfix

/-- When the start tag reaches the limit, only what stands in front of it
counts. -/
theorem RootStands.hasMarker_of_far
    (stands : RootStands text document prolog separator behind)
    (far : searchedLength < prolog.length + 4) :
    hasMarker ((head text).take searchedLength) = hasMarker (prolog.take searchedLength) := by
  rw [stands.parted, List.take_append]
  refine hasMarker_append ?_ ?_ _
  · cases searchedLength - prolog.length <;> simp
  · rw [List.length_take]
    omega

end Detection

end CatalogServer
