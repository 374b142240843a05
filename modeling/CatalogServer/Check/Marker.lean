import CatalogServer.Text.Ascending
import CatalogServer.Text.Blank
import CatalogServer.Text.Numeral

/-!
# Markers in message texts

Some parts of a source text must come back in its target: numbered
placeholders such as `%1` or `%L2`, a keyboard accelerator such as the `C`
of `&Copy`, and the punctuation at the end.
-/

namespace CatalogServer.Marker

open Text

def digit? (c : Char) : Option Nat :=
  if c.isDigit then some (c.toNat - '0'.toNat) else none

/-- The number right behind a percent sign: an `L` may come first, then a
digit other than zero and possibly a second digit.  Returned with the text
behind what was taken. -/
def placeholderAt (text : List Char) : Option Nat × List Char :=
  let behindMark :=
    match text with
    | 'L' :: rest => rest
    | _ => text
  match behindMark with
  | [] => (none, [])
  | first :: rest =>
      match digit? first with
      | none | some 0 => (none, behindMark)
      | some tens =>
          match rest.head?.bind digit? with
          | some ones => (some (tens * 10 + ones), rest.drop 1)
          | none => (some tens, rest)

theorem length_placeholderAt (text : List Char) :
    (placeholderAt text).2.length ≤ text.length := by
  have markTaken : (match text with
      | 'L' :: rest => rest
      | _ => text).length ≤ text.length := by
    split
    · simp
    · exact Nat.le_refl _
  unfold placeholderAt
  simp only
  split
  · simp
  · next first rest behind =>
      rw [behind] at markTaken
      simp only [List.length_cons] at markTaken
      split
      · rw [behind]
        simpa using markTaken
      · rw [behind]
        simpa using markTaken
      · split
        · simp only [List.length_drop]
          omega
        · simp only
          omega

/-- The numbers of the placeholders of a text, in increasing order. -/
def placeholders (text : List Char) : List Nat :=
  match text with
  | [] => []
  | c :: rest =>
      if c == '%' then
        let found := placeholderAt rest
        match found.1 with
        | some number => insertAscending number (placeholders found.2)
        | none => placeholders found.2
      else
        placeholders rest
termination_by text.length
decreasing_by
  all_goals
    have bound := length_placeholderAt rest
    simp only [List.length_cons]
    omega

/-- The keyboard accelerator: the character behind an ampersand, unless it
is a blank or a second ampersand, which makes the two a literal one. -/
def accelerator? : List Char → Option Char
  | [] => none
  | '&' :: next :: rest =>
      if next == '&' || isBlank next then accelerator? rest else some next
  | _ :: rest => accelerator? rest

/-- The punctuation that ends a text, blanks aside; marks of other scripts
count as the ASCII mark they stand for.  Greek ends a question with a
semicolon. -/
def ending? (language : String) (text : List Char) : Option Char :=
  match (trimEnd text).getLast? with
  | none => none
  | some last =>
      if last == '.' || last == '。' || last == '…' || last == '।' then some '.'
      else if last == '?' || last == '？' || last == '؟' then some '?'
      else if last == ';' && "el".toList.isPrefixOf language.toList then some '?'
      else if last == '!' || last == '！' then some '!'
      else if last == ':' || last == '：' then some ':'
      else none

end CatalogServer.Marker
