import CatalogServer.Text.Utf8
import CatalogServer.Xml.Event

/-!
# Splitting a document into events

Character data runs up to the next angle bracket.  Behind an opening angle
bracket the first character tells the kind of markup: an exclamation mark
starts a comment, a character data section or the document type, a slash an
end tag, a question mark a processing instruction, anything else a start
tag.  Each kind ends by its own rule, and each recogniser returns the text
behind the markup together with a proof that it is shorter, so the scan of
a whole document terminates.
-/

namespace CatalogServer.Xml

open Text

/-- Cuts a text at the first occurrence of a delimiter: the part before it
and the part behind it. -/
def splitAtDelimiter (delimiter : List Char) : List Char → Option (List Char × List Char)
  | [] => if delimiter.isEmpty then some ([], []) else none
  | c :: rest =>
      if delimiter.isPrefixOf (c :: rest) then
        some ([], (c :: rest).drop delimiter.length)
      else
        (splitAtDelimiter delimiter rest).map fun (before, after) => (c :: before, after)

/-- Cuts a tag off: its content and the text behind its closing angle
bracket, which is the first one outside quotes. -/
def splitTag : (quote : Option Char) → List Char → Option (List Char × List Char)
  | _, [] => none
  | none, c :: rest =>
      if c == '>' then
        some ([], rest)
      else
        (splitTag (if c == '"' || c == '\'' then some c else none) rest).map
          fun (content, after) => (c :: content, after)
  | some quote, c :: rest =>
      (splitTag (if c == quote then none else some quote) rest).map
        fun (content, after) => (c :: content, after)

/-- Cuts a document type off at the closing angle bracket that balances the
opening ones inside it. -/
def splitDoctype : (depth : Nat) → List Char → Option (List Char × List Char)
  | _, [] => none
  | depth, c :: rest =>
      if c == '>' && depth == 0 then
        some ([], rest)
      else
        let depth := if c == '<' then depth + 1 else if c == '>' then depth - 1 else depth
        (splitDoctype depth rest).map fun (content, after) => (c :: content, after)

/-- Markup right behind its opening angle bracket: the characters it takes
and what it is, or why it is not well formed.  The error carries the offset
behind the angle bracket to which it belongs, if not to the bracket itself. -/
inductive Markup where
  /-- An event that takes the given characters and leaves the rest. -/
  | event (event : Event) (taken rest : List Char)
  | endTag (name taken rest : List Char)
  | fault (error : MarkupError)
  /-- A fault a number of bytes behind the opening angle bracket. -/
  | faultBehind (error : MarkupError) (distance : Nat)

/-- The letters that start a document type, in either case. -/
def isDoctypeKeyword (word : List Char) : Bool :=
  word.map Char.toLower == "doctype".toList

def scanComment : List Char → Markup
  | [] => .fault .commentNotClosed
  | c :: rest =>
      match splitAtDelimiter "-->".toList rest with
      | none => .fault .commentNotClosed
      | some (body, after) =>
          if c == '-' then
            .event .comment ("!-".toList ++ c :: body ++ "-->".toList) after
          else
            .fault .commentNotClosed

def scanCdata (text : List Char) : Markup :=
  match splitAtDelimiter "]]>".toList text with
  | none => .fault .cdataNotClosed
  | some (body, after) =>
      if "CDATA[".toList.isPrefixOf body then
        .event (.cdata (body.drop "CDATA[".length))
          ("![".toList ++ body ++ "]]>".toList) after
      else
        .fault .cdataNotClosed

def scanDoctype (text : List Char) : Markup :=
  match splitDoctype 0 text with
  | none => .fault .doctypeNotClosed
  | some (body, after) =>
      if isDoctypeKeyword (body.take "doctype".length) then
        if (body.drop "doctype".length).all isMarkupBlank then
          .faultBehind .doctypeWithoutName (byteSize ('!' :: body) + 1)
        else
          .event .doctype ('!' :: body ++ ['>']) after
      else
        .fault .doctypeNotClosed

/-- Recognises a processing instruction or the XML declaration behind
`<?`.  The declaration has the name `xml`. -/
def scanInstruction : List Char → Markup
  | '>' :: _ => .fault .instructionNotClosed
  | text =>
      match splitAtDelimiter "?>".toList text with
      | none => .fault .instructionNotClosed
      | some (body, after) =>
          let taken := '?' :: body ++ "?>".toList
          if body.takeWhile (!isMarkupBlank ·) == "xml".toList then
            .event .declaration taken after
          else
            .event .instruction taken after

/-- The name in an end tag.  Blanks behind it do not belong to it, but where
there is nothing else the blanks are the name. -/
def endTagName (content : List Char) : List Char :=
  if content.all isMarkupBlank then content
  else (content.reverse.dropWhile isMarkupBlank).reverse

/-- Recognises an end tag behind `</`. -/
def scanEndTag (text : List Char) : Markup :=
  match splitTag none text with
  | none => .fault .tagNotClosed
  | some (content, after) =>
      .endTag (endTagName content) ('/' :: content ++ ['>']) after

/-- Recognises a start tag.  A slash at its end closes the element. -/
def scanStartTag (text : List Char) : Markup :=
  match splitTag none text with
  | none => .fault .tagNotClosed
  | some (content, after) =>
      let taken := content ++ ['>']
      if content.getLast? == some '/' then
        .event (.selfClosing ⟨content.dropLast⟩) taken after
      else
        .event (.opening ⟨content⟩) taken after

def scanMarkup : List Char → Markup
  | '!' :: '-' :: rest => scanComment rest
  | '!' :: '[' :: rest => scanCdata rest
  | '!' :: 'D' :: rest => scanDoctype ('D' :: rest)
  | '!' :: 'd' :: rest => scanDoctype ('d' :: rest)
  | '!' :: _ => .fault .unknownMarkup
  | '?' :: rest => scanInstruction rest
  | '/' :: rest => scanEndTag rest
  | text => scanStartTag text

theorem eq_of_splitAtDelimiter {delimiter text before after : List Char}
    (split : splitAtDelimiter delimiter text = some (before, after)) :
    text = before ++ delimiter ++ after := by
  induction text generalizing before with
  | nil =>
      simp only [splitAtDelimiter] at split
      split at split <;> simp_all
  | cons c rest ih =>
      simp only [splitAtDelimiter] at split
      split at split
      case isTrue initial =>
        simp only [Option.some.injEq, Prod.mk.injEq] at split
        obtain ⟨rfl, rfl⟩ := split
        obtain ⟨suffix, suffixEq⟩ := List.isPrefixOf_iff_prefix.mp initial
        rw [← suffixEq]
        simp
      case isFalse =>
        simp only [Option.map_eq_some_iff, Prod.mk.injEq, Prod.exists] at split
        obtain ⟨before', after', found, rfl, rfl⟩ := split
        rw [ih found]
        simp

theorem eq_of_splitTag {quote : Option Char} {text content after : List Char}
    (split : splitTag quote text = some (content, after)) :
    text = content ++ '>' :: after := by
  induction text generalizing quote content with
  | nil => cases quote <;> simp [splitTag] at split
  | cons c rest ih =>
      cases quote with
      | none =>
          simp only [splitTag] at split
          split at split
          case isTrue closes =>
            simp only [Option.some.injEq, Prod.mk.injEq] at split
            obtain ⟨rfl, rfl⟩ := split
            simp [eq_of_beq closes]
          case isFalse =>
            simp only [Option.map_eq_some_iff, Prod.mk.injEq, Prod.exists] at split
            obtain ⟨content', after', found, rfl, rfl⟩ := split
            simp [ih found]
      | some mark =>
          simp only [splitTag, Option.map_eq_some_iff, Prod.mk.injEq, Prod.exists] at split
          obtain ⟨content', after', found, rfl, rfl⟩ := split
          simp [ih found]

theorem eq_of_splitDoctype {depth : Nat} {text content after : List Char}
    (split : splitDoctype depth text = some (content, after)) :
    text = content ++ '>' :: after := by
  induction text generalizing depth content with
  | nil => simp [splitDoctype] at split
  | cons c rest ih =>
      simp only [splitDoctype] at split
      split at split
      case isTrue closes =>
        simp only [Option.some.injEq, Prod.mk.injEq] at split
        obtain ⟨rfl, rfl⟩ := split
        simp only [Bool.and_eq_true, beq_iff_eq] at closes
        simp [closes.1]
      case isFalse =>
        simp only [Option.map_eq_some_iff, Prod.mk.injEq, Prod.exists] at split
        obtain ⟨content', after', found, rfl, rfl⟩ := split
        simp [ih found]

/-- The characters that markup takes and leaves, if it is well formed. -/
def Markup.parts? : Markup → Option (List Char × List Char)
  | .event _ taken rest => some (taken, rest)
  | .endTag _ taken rest => some (taken, rest)
  | .fault _ => none
  | .faultBehind _ _ => none

theorem parts_scanComment {text taken rest : List Char}
    (parts : (scanComment text).parts? = some (taken, rest)) :
    '!' :: '-' :: text = taken ++ rest := by
  cases text with
  | nil => simp [scanComment, Markup.parts?] at parts
  | cons c text =>
      simp only [scanComment] at parts
      split at parts
      · simp [Markup.parts?] at parts
      · next before after found =>
          split at parts
          · simp only [Markup.parts?, Option.some.injEq, Prod.mk.injEq] at parts
            obtain ⟨rfl, rfl⟩ := parts
            simp [eq_of_splitAtDelimiter found]
          · simp [Markup.parts?] at parts

theorem parts_scanCdata {text taken rest : List Char}
    (parts : (scanCdata text).parts? = some (taken, rest)) :
    '!' :: '[' :: text = taken ++ rest := by
  simp only [scanCdata] at parts
  split at parts
  · simp [Markup.parts?] at parts
  · next before after found =>
      split at parts
      · simp only [Markup.parts?, Option.some.injEq, Prod.mk.injEq] at parts
        obtain ⟨rfl, rfl⟩ := parts
        simp [eq_of_splitAtDelimiter found]
      · simp [Markup.parts?] at parts

theorem parts_scanDoctype {text taken rest : List Char}
    (parts : (scanDoctype text).parts? = some (taken, rest)) :
    '!' :: text = taken ++ rest := by
  simp only [scanDoctype] at parts
  split at parts
  · simp [Markup.parts?] at parts
  · next body after found =>
      split at parts
      · split at parts
        · simp [Markup.parts?] at parts
        · simp only [Markup.parts?, Option.some.injEq, Prod.mk.injEq] at parts
          obtain ⟨rfl, rfl⟩ := parts
          simp [eq_of_splitDoctype found]
      · simp [Markup.parts?] at parts

theorem parts_scanInstruction {text taken rest : List Char}
    (parts : (scanInstruction text).parts? = some (taken, rest)) :
    '?' :: text = taken ++ rest := by
  unfold scanInstruction at parts
  split at parts
  · simp [Markup.parts?] at parts
  · split at parts
    · simp [Markup.parts?] at parts
    · next body after found =>
        have whole : '?' :: text = '?' :: body ++ "?>".toList ++ after := by
          rw [eq_of_splitAtDelimiter found]
          simp
        simp only at parts
        split at parts <;>
        · simp only [Markup.parts?, Option.some.injEq, Prod.mk.injEq] at parts
          rw [whole, parts.1, parts.2]

theorem parts_scanEndTag {text taken rest : List Char}
    (parts : (scanEndTag text).parts? = some (taken, rest)) :
    '/' :: text = taken ++ rest := by
  simp only [scanEndTag] at parts
  split at parts
  · simp [Markup.parts?] at parts
  · next content after found =>
      simp only [Markup.parts?, Option.some.injEq, Prod.mk.injEq] at parts
      obtain ⟨rfl, rfl⟩ := parts
      simp [eq_of_splitTag found]

theorem parts_scanStartTag {text taken rest : List Char}
    (parts : (scanStartTag text).parts? = some (taken, rest)) :
    text = taken ++ rest := by
  simp only [scanStartTag] at parts
  split at parts
  · simp [Markup.parts?] at parts
  · next content after found =>
      have whole : text = content ++ ['>'] ++ after := by
        rw [eq_of_splitTag found]
        simp
      split at parts <;>
      · simp only [Markup.parts?, Option.some.injEq, Prod.mk.injEq] at parts
        rw [whole, parts.1, parts.2]

/-- Markup takes an initial part of the text and leaves the rest. -/
theorem parts_scanMarkup {text taken rest : List Char}
    (parts : (scanMarkup text).parts? = some (taken, rest)) :
    text = taken ++ rest := by
  unfold scanMarkup at parts
  split at parts
  · exact parts_scanComment parts
  · exact parts_scanCdata parts
  · exact parts_scanDoctype parts
  · exact parts_scanDoctype parts
  · simp [Markup.parts?] at parts
  · exact parts_scanInstruction parts
  · exact parts_scanEndTag parts
  · exact parts_scanStartTag parts

theorem length_parts_scanMarkup {text taken rest : List Char}
    (parts : (scanMarkup text).parts? = some (taken, rest)) :
    rest.length ≤ text.length := by
  rw [parts_scanMarkup parts]
  simp

/-- The events of a text that begins at a byte offset inside the given open
elements, innermost first. -/
def scan (offset : Nat) (opened : List (List Char)) (text : List Char) : EventStream :=
  match text with
  | [] => ⟨[], .complete offset⟩
  | '<' :: rest =>
      match markup : scanMarkup rest with
      | .fault error => ⟨[], .failed offset error⟩
      | .faultBehind error distance => ⟨[], .failed (offset + distance) error⟩
      | .event event taken after =>
          let stop := offset + 1 + byteSize taken
          let opened :=
            match event with
            | .opening tag => tag.nameChars :: opened
            | _ => opened
          (scan stop opened after).cons ⟨⟨offset, stop⟩, event⟩
      | .endTag name taken after =>
          let stop := offset + 1 + byteSize taken
          match opened with
          | [] => ⟨[], .failed offset (.unmatchedEnd (String.ofList name))⟩
          | innermost :: outer =>
              if innermost == name then
                (scan stop outer after).cons ⟨⟨offset, stop⟩, .closing⟩
              else
                ⟨[], .failed offset
                  (.mismatchedEnd (String.ofList innermost) (String.ofList name))⟩
  | c :: rest =>
      let raw := c :: rest.takeWhile (· != '<')
      let stop := offset + byteSize raw
      (scan stop opened (rest.dropWhile (· != '<'))).cons ⟨⟨offset, stop⟩, .text raw⟩
termination_by text.length
decreasing_by
  · have parts : (scanMarkup rest).parts? = some (taken, after) := by rw [markup]; rfl
    have shorter := length_parts_scanMarkup parts
    simp only [List.length_cons]
    omega
  · have parts : (scanMarkup rest).parts? = some (taken, after) := by rw [markup]; rfl
    have shorter := length_parts_scanMarkup parts
    simp only [List.length_cons]
    omega
  · have suffix : rest.dropWhile (· != '<') <:+ rest := List.dropWhile_suffix _
    have shorter := suffix.length_le
    simp only [List.length_cons]
    omega

/-- A text without the byte order mark at its very start. -/
def dropByteOrderMark : List Char → List Char
  | '\uFEFF' :: rest => rest
  | text => text

/-- The events of a document.  A byte order mark at the start is skipped and
does not count in the offsets. -/
def events (document : String) : EventStream :=
  scan 0 [] (dropByteOrderMark document.toList)

end CatalogServer.Xml
