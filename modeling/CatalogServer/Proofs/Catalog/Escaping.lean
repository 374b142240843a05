import CatalogServer.Catalog.Escape
import CatalogServer.Proofs.Outcome
import CatalogServer.Text.Blank
import CatalogServer.Xml.Reference
import Mathlib.Data.Bool.AllAny
import Mathlib.Data.List.Basic
import Mathlib.Tactic.ByContra

/-!
# Escaped text is read back

Every reference that escaping writes resolves to the character it was
written for, and all other characters stand for themselves, so a text is
read back character by character.  Two kinds of characters are special.
Control characters in the content of an element are written as `byte`
elements, and the null character cannot be written in an attribute value at
all: its reference is refused.
-/

namespace CatalogServer

open Text

namespace Xml

theorem toOption_resolveReference (start other : Nat) (body : List Char) :
    (resolveReference start body).toOption = (resolveReference other body).toOption := by
  unfold resolveReference
  split
  · rfl
  · split <;> rfl

theorem toOption_unescapeFrom (text : List Char) (offset other : Nat) :
    (unescapeFrom offset text).toOption = (unescapeFrom other text).toOption := by
  fun_induction unescapeFrom offset text generalizing other with
  | case1 => rw [unescapeFrom]
  | case2 offset c rest reference unterminated =>
      rw [unescapeFrom, if_pos reference]
      split <;> simp_all
  | case3 offset c rest reference body after terminated ih =>
      rw [unescapeFrom, if_pos reference]
      split
      · simp_all
      · next body' after' terminated' =>
          rw [terminated] at terminated'
          cases terminated'
          simp only [Except.toOption_bind, ih (other + 1 + byteSize body + 1),
            toOption_resolveReference offset other]
  | case4 offset c rest ordinary ih =>
      rw [unescapeFrom, if_neg ordinary]
      simp only [Except.toOption_bind, ih (other + c.utf8Size)]

theorem toOption_unescape_cons {c : Char} (ordinary : c ≠ '&') (rest : List Char) :
    (unescape (c :: rest)).toOption = (unescape rest).toOption.map (c :: ·) := by
  unfold unescape
  rw [unescapeFrom, if_neg (by simpa using ordinary), Except.toOption_bind,
    toOption_unescapeFrom rest _ 0]
  cases (unescapeFrom 0 rest).toOption <;> rfl

theorem splitReference_append {body : List Char} (inside : ∀ c ∈ body, c ≠ ';' ∧ c ≠ '&')
    (rest : List Char) : splitReference (body ++ ';' :: rest) = some (body, rest) := by
  induction body with
  | nil => simp [splitReference]
  | cons c body ih =>
      have ordinary := inside c List.mem_cons_self
      have others := ih fun d member => inside d (List.mem_cons_of_mem c member)
      simp [splitReference, ordinary.1, ordinary.2, others]

theorem toOption_unescape_reference {body : List Char}
    (inside : ∀ c ∈ body, c ≠ ';' ∧ c ≠ '&') (rest : List Char) :
    (unescape ('&' :: (body ++ ';' :: rest))).toOption =
      (resolveReference 0 body).toOption.bind fun c =>
        (unescape rest).toOption.map (c :: ·) := by
  unfold unescape
  rw [unescapeFrom, if_pos (by decide)]
  split
  · next unterminated =>
      rw [splitReference_append inside] at unterminated
      simp at unterminated
  · next body' after' terminated =>
      rw [splitReference_append inside] at terminated
      cases terminated
      rw [Except.toOption_bind]
      congr 1
      funext c
      rw [Except.toOption_bind, toOption_unescapeFrom rest _ 0]
      cases (unescapeFrom 0 rest).toOption <;> rfl

end Xml

namespace Escape

open Xml

/-- The characters that are written as `byte` elements in the content of an
element. -/
def isByte (c : Char) : Bool :=
  isControl c && !(c == '\t' || c == '\n' || c == '\r')

theorem ne_of_isAlphanum {c : Char} (word : c.isAlphanum = true) :
    c ≠ ';' ∧ c ≠ '&' ∧ c ≠ '<' ∧ c ≠ '>' ∧ c ≠ '"' ∧ c ≠ '\'' := by
  refine ⟨?_, ?_, ?_, ?_, ?_, ?_⟩ <;> rintro rfl <;> revert word <;> decide

theorem resolve_entity {c : Char} {reference : List Char} (written : entity? c = some reference) :
    ∃ body, reference = '&' :: (body ++ [';']) ∧ (∀ d ∈ body, d.isAlphanum = true) ∧
      (resolveReference 0 body).toOption = some c := by
  unfold entity? at written
  split at written
  case isTrue amp =>
    refine ⟨"amp".toList, by simpa using written.symm, List.all_eq_true.mp (by decide), ?_⟩
    rw [eq_of_beq amp]
    decide
  split at written
  case isTrue less =>
    refine ⟨"lt".toList, by simpa using written.symm, List.all_eq_true.mp (by decide), ?_⟩
    rw [eq_of_beq less]
    decide
  split at written
  case isTrue greater =>
    refine ⟨"gt".toList, by simpa using written.symm, List.all_eq_true.mp (by decide), ?_⟩
    rw [eq_of_beq greater]
    decide
  split at written
  case isTrue double =>
    refine ⟨"quot".toList, by simpa using written.symm, List.all_eq_true.mp (by decide), ?_⟩
    rw [eq_of_beq double]
    decide
  split at written
  case isTrue single =>
    refine ⟨"apos".toList, by simpa using written.symm, List.all_eq_true.mp (by decide), ?_⟩
    rw [eq_of_beq single]
    decide
  simp at written

theorem ne_of_mem_entity {c d : Char} {reference : List Char}
    (written : entity? c = some reference) (member : d ∈ reference) :
    d ≠ '<' ∧ d ≠ '>' ∧ d ≠ '"' ∧ d ≠ '\'' := by
  obtain ⟨body, rfl, words, -⟩ := resolve_entity written
  simp only [List.mem_cons, List.mem_append, List.not_mem_nil, or_false] at member
  rcases member with rfl | word | rfl
  · decide
  · exact (ne_of_isAlphanum (words d word)).2.2
  · decide

theorem ne_of_entity_eq_none {c : Char} (plain : entity? c = none) :
    c ≠ '&' ∧ c ≠ '<' ∧ c ≠ '>' ∧ c ≠ '"' ∧ c ≠ '\'' := by
  refine ⟨?_, ?_, ?_, ?_, ?_⟩ <;> rintro rfl <;> revert plain <;> decide

theorem toOption_unescape_entity {c : Char} {reference : List Char}
    (written : entity? c = some reference) (rest : List Char) :
    (unescape (reference ++ rest)).toOption = (unescape rest).toOption.map (c :: ·) := by
  obtain ⟨body, rfl, words, resolved⟩ := resolve_entity written
  have inside : ∀ d ∈ body, d ≠ ';' ∧ d ≠ '&' := by
    intro d member
    have plain := ne_of_isAlphanum (words d member)
    exact ⟨plain.1, plain.2.1⟩
  rw [List.cons_append, List.append_assoc, List.singleton_append,
    toOption_unescape_reference inside, resolved]
  rfl

/-- The three ways in which a character of content is written. -/
theorem contentChar_cases (c : Char) :
    (∃ reference, entity? c = some reference ∧ isByte c = false ∧ contentChar c = reference) ∨
    (entity? c = none ∧ isByte c = false ∧ contentChar c = [c]) ∨
    (isByte c ∧
      contentChar c = "<byte value=\"x".toList ++ hexDigits c.toNat ++ "\"/>".toList) := by
  unfold contentChar
  cases written : entity? c with
  | some reference =>
      left
      refine ⟨reference, rfl, ?_, rfl⟩
      by_contra byte
      have markup : c = '&' ∨ c = '<' ∨ c = '>' ∨ c = '"' ∨ c = '\'' := by
        by_contra other
        simp only [not_or] at other
        simp [entity?, other] at written
      rcases markup with rfl | rfl | rfl | rfl | rfl <;> exact byte (by decide)
  | none =>
      right
      by_cases layout : (c == '\t' || c == '\n' || c == '\r') = true
      · left
        refine ⟨rfl, ?_, ?_⟩
        · rw [isByte, layout, Bool.not_true, Bool.and_false]
        · simp only [layout, if_true]
      · simp only [Bool.not_eq_true] at layout
        cases control : isControl c with
        | true =>
            right
            simp only [isByte, control, layout]
            exact ⟨rfl, rfl⟩
        | false =>
            left
            simp only [isByte, control, layout]
            exact ⟨trivial, rfl, rfl⟩

theorem contentChar_ne_nil (c : Char) : contentChar c ≠ [] := by
  rcases contentChar_cases c with ⟨reference, written, -, spelled⟩ | ⟨-, -, spelled⟩ |
    ⟨-, spelled⟩
  · obtain ⟨body, rfl, -⟩ := resolve_entity written
    simp [spelled]
  · simp [spelled]
  · simp [spelled]

theorem toOption_unescape_contentChar {c : Char} (text : isByte c = false) (rest : List Char) :
    (unescape (contentChar c ++ rest)).toOption = (unescape rest).toOption.map (c :: ·) := by
  rcases contentChar_cases c with ⟨reference, written, -, spelled⟩ | ⟨plain, -, spelled⟩ |
    ⟨byte, -⟩
  · rw [spelled]
    exact toOption_unescape_entity written rest
  · rw [spelled]
    exact toOption_unescape_cons (ne_of_entity_eq_none plain).1 rest
  · rw [byte] at text
    exact absurd text (by decide)

/-- No bracket or quote stands in content outside `byte` elements. -/
theorem ne_of_mem_contentChar {c d : Char} (text : isByte c = false)
    (member : d ∈ contentChar c) : d ≠ '<' ∧ d ≠ '>' ∧ d ≠ '"' ∧ d ≠ '\'' := by
  rcases contentChar_cases c with ⟨reference, written, -, spelled⟩ | ⟨plain, -, spelled⟩ |
    ⟨byte, -⟩
  · rw [spelled] at member
    exact ne_of_mem_entity written member
  · rw [spelled] at member
    rw [List.mem_singleton.mp member]
    exact (ne_of_entity_eq_none plain).2
  · rw [byte] at text
    exact absurd text (by decide)

/-- The code of a control character is read back from its digits, both in a
`byte` element and in a reference. -/
theorem hexDigits_of_control :
    ∀ code < 0x20, readSignedNumeral 16 maxWord32 (hexDigits code) = .ok code ∧
      (characterOfCode ('x' :: hexDigits code)).toOption =
        (if code = 0 then none else charOfCode? code) ∧
      (hexDigits code).all Char.isAlphanum = true := by
  decide

theorem charOfCode_toNat (c : Char) : charOfCode? c.toNat = some c := by
  have valid : c.toNat.isValidChar := c.valid
  rw [charOfCode?, dif_pos valid]
  exact congrArg some (Char.ext rfl)

theorem toNat_lt_of_isControl {c : Char} (control : isControl c) : c.toNat < 0x20 := by
  simpa [isControl] using control

theorem isAlphanum_of_mem_hexDigits {c : Char} (control : isControl c) :
    ∀ d ∈ hexDigits c.toNat, d.isAlphanum = true :=
  List.all_eq_true.mp (hexDigits_of_control c.toNat (toNat_lt_of_isControl control)).2.2

theorem byteValue_hexDigits {c : Char} (control : isControl c) :
    byteValue? (String.ofList ('x' :: hexDigits c.toNat)) = some c := by
  have digits := (hexDigits_of_control c.toNat (toNat_lt_of_isControl control)).1
  simp only [byteValue?, String.toList_ofList, digits]
  exact charOfCode_toNat c

theorem toOption_unescape_control {c : Char} (control : isControl c) (rest : List Char) :
    (unescape ("&#x".toList ++ hexDigits c.toNat ++ ";".toList ++ rest)).toOption =
      if c = '\x00' then none else (unescape rest).toOption.map (c :: ·) := by
  have code := (hexDigits_of_control c.toNat (toNat_lt_of_isControl control)).2.1
  have words := isAlphanum_of_mem_hexDigits control
  have inside : ∀ d ∈ '#' :: 'x' :: hexDigits c.toNat, d ≠ ';' ∧ d ≠ '&' := by
    intro d member
    simp only [List.mem_cons] at member
    rcases member with rfl | rfl | digit
    · decide
    · decide
    · have plain := ne_of_isAlphanum (words d digit)
      exact ⟨plain.1, plain.2.1⟩
  have resolved : (resolveReference 0 ('#' :: 'x' :: hexDigits c.toNat)).toOption =
      if c = '\x00' then none else some c := by
    have null : c.toNat = 0 ↔ c = '\x00' := by
      rw [← Char.toNat_inj]
      rfl
    simp only [resolveReference, Except.toOption_mapError, code, charOfCode_toNat, null]
  have spelled : "&#x".toList ++ hexDigits c.toNat ++ ";".toList ++ rest =
      '&' :: (('#' :: 'x' :: hexDigits c.toNat) ++ ';' :: rest) := by
    rw [List.append_assoc, List.append_assoc]
    rfl
  rw [spelled, toOption_unescape_reference inside, resolved]
  split <;> rfl

theorem toOption_unescape_attributeChar (c : Char) (rest : List Char) :
    (unescape (attributeChar c ++ rest)).toOption =
      if c = '\x00' then none else (unescape rest).toOption.map (c :: ·) := by
  unfold attributeChar
  split
  · next reference written =>
      rw [toOption_unescape_entity written rest, if_neg]
      rintro rfl
      have unwritten : entity? '\x00' = none := by decide
      rw [unwritten] at written
      simp at written
  · next plain =>
      by_cases control : isControl c
      · rw [if_pos control]
        exact toOption_unescape_control control rest
      · rw [if_neg control, if_neg]
        · exact toOption_unescape_cons (ne_of_entity_eq_none plain).1 rest
        · rintro rfl
          exact control (by decide)

theorem ne_of_mem_attributeChar {c d : Char} (member : d ∈ attributeChar c) :
    d ≠ '<' ∧ d ≠ '>' ∧ d ≠ '"' ∧ d ≠ '\'' := by
  unfold attributeChar at member
  split at member
  · next reference written => exact ne_of_mem_entity written member
  · next plain =>
      split at member
      · next control =>
          have words := isAlphanum_of_mem_hexDigits control
          have lead : ∀ d ∈ "&#x".toList, d ≠ '<' ∧ d ≠ '>' ∧ d ≠ '"' ∧ d ≠ '\'' :=
            List.all_iff_forall_prop.mp (by decide)
          have mark : ∀ d ∈ ";".toList, d ≠ '<' ∧ d ≠ '>' ∧ d ≠ '"' ∧ d ≠ '\'' :=
            List.all_iff_forall_prop.mp (by decide)
          simp only [List.mem_append] at member
          rcases member with (front | digit) | semicolon
          · exact lead d front
          · exact (ne_of_isAlphanum (words d digit)).2.2
          · exact mark d semicolon
      · rw [List.mem_singleton.mp member]
        exact (ne_of_entity_eq_none plain).2

/-- An attribute value is read back exactly when it holds no null
character. -/
theorem toOption_unescape_attributeValue (value : List Char) :
    (unescape (value.flatMap attributeChar)).toOption =
      if '\x00' ∈ value then none else some value := by
  induction value with
  | nil => simp [unescape, unescapeFrom]
  | cons c rest ih =>
      rw [List.flatMap_cons, toOption_unescape_attributeChar, ih]
      by_cases null : c = '\x00'
      · simp [null]
      · by_cases later : '\x00' ∈ rest
        · simp [null, later]
        · simp [null, later, Ne.symm null]

end Escape

end CatalogServer
