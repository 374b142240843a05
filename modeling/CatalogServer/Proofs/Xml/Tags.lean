import CatalogServer.Xml.Scan
import Mathlib.Data.List.TakeWhile
import Mathlib.Tactic.ByContra

/-!
# Tags and the quotes in them

A tag ends at the first closing angle bracket outside quotes.  Following the
quotes through a part of a tag tells whether the tag ends inside the part,
and, if it does not, from which quote on the rest has to be read.  A part in
which no quote is left open can therefore be cut off whatever follows it.

Behind an opening angle bracket the scanner then recognises a start tag, a
self-closing tag or an end tag by its content alone.
-/

namespace CatalogServer.Xml

open Text

/-- The quote that is open behind a part of a tag, given the one that is open
in front of it; none when the tag ends inside the part. -/
def quoteBehind : (quote : Option Char) → List Char → Option (Option Char)
  | quote, [] => some quote
  | none, c :: rest =>
      if c == '>' then none
      else quoteBehind (if c == '"' || c == '\'' then some c else none) rest
  | some quote, c :: rest => quoteBehind (if c == quote then none else some quote) rest

/-- A part of a tag that leaves no quote open and does not end the tag. -/
def isClosed (part : List Char) : Bool :=
  quoteBehind none part == some none

theorem quoteBehind_append (quote : Option Char) (first second : List Char) :
    quoteBehind quote (first ++ second) =
      (quoteBehind quote first).bind fun between => quoteBehind between second := by
  induction first generalizing quote with
  | nil => simp [quoteBehind]
  | cons c rest ih =>
      cases quote with
      | none =>
          simp only [List.cons_append, quoteBehind]
          split
          · rfl
          · exact ih _
      | some quote =>
          simp only [List.cons_append, quoteBehind]
          exact ih _

theorem splitTag_append {quote behind : Option Char} {part : List Char}
    (open_ : quoteBehind quote part = some behind) (rest : List Char) :
    splitTag quote (part ++ rest) =
      (splitTag behind rest).map fun (content, after) => (part ++ content, after) := by
  induction part generalizing quote with
  | nil =>
      simp only [quoteBehind, Option.some.injEq] at open_
      subst open_
      simp
  | cons c part ih =>
      cases quote with
      | none =>
          simp only [quoteBehind] at open_
          split at open_
          · simp at open_
          · next inside =>
              simp only [List.cons_append, splitTag, if_neg inside, ih open_, Option.map_map]
              rfl
      | some quote =>
          simp only [quoteBehind] at open_
          simp only [List.cons_append, splitTag, ih open_, Option.map_map]
          rfl

theorem exists_splitTag_of_quoteBehind_eq_none {quote : Option Char} {part : List Char}
    (ends : quoteBehind quote part = none) :
    ∃ content behind, part = content ++ '>' :: behind ∧
      ∀ rest, splitTag quote (part ++ rest) = some (content, behind ++ rest) := by
  induction part generalizing quote with
  | nil => simp [quoteBehind] at ends
  | cons c part ih =>
      cases quote with
      | none =>
          simp only [quoteBehind] at ends
          split at ends
          case isTrue closes =>
            refine ⟨[], part, by simp [eq_of_beq closes], fun rest => ?_⟩
            simp [splitTag, closes]
          case isFalse inside =>
            obtain ⟨content, behind, rfl, splits⟩ := ih ends
            refine ⟨c :: content, behind, rfl, fun rest => ?_⟩
            simp only [List.cons_append, splitTag, if_neg inside]
            rw [splits rest]
            rfl
      | some quote =>
          simp only [quoteBehind] at ends
          obtain ⟨content, behind, rfl, splits⟩ := ih ends
          refine ⟨c :: content, behind, rfl, fun rest => ?_⟩
          simp only [List.cons_append, splitTag]
          rw [splits rest]
          rfl

theorem quoteBehind_of_splitTag {quote : Option Char} {text content after : List Char}
    (split : splitTag quote text = some (content, after)) :
    quoteBehind quote content = some none := by
  induction text generalizing quote content with
  | nil => cases quote <;> simp [splitTag] at split
  | cons c rest ih =>
      cases quote with
      | none =>
          simp only [splitTag] at split
          split at split
          case isTrue closes =>
            simp only [Option.some.injEq, Prod.mk.injEq] at split
            obtain ⟨rfl, rfl⟩ := split
            rfl
          case isFalse inside =>
            simp only [Option.map_eq_some_iff, Prod.mk.injEq, Prod.exists] at split
            obtain ⟨content', after', found, rfl, rfl⟩ := split
            simp only [quoteBehind, if_neg inside]
            exact ih found
      | some quote =>
          simp only [splitTag, Option.map_eq_some_iff, Prod.mk.injEq, Prod.exists] at split
          obtain ⟨content', after', found, rfl, rfl⟩ := split
          simp only [quoteBehind]
          exact ih found

theorem splitTag_closed {content : List Char} (closed : isClosed content) (rest : List Char) :
    splitTag none (content ++ '>' :: rest) = some (content, rest) := by
  rw [splitTag_append (eq_of_beq closed)]
  simp [splitTag]

theorem isClosed_append {first second : List Char} (closedFirst : isClosed first)
    (closedSecond : isClosed second) : isClosed (first ++ second) := by
  simp only [isClosed, beq_iff_eq] at *
  rw [quoteBehind_append, closedFirst]
  exact closedSecond

theorem quoteBehind_quoted {quote : Char} {value : List Char} (unquoted : quote ∉ value) :
    quoteBehind (some quote) value = some (some quote) := by
  induction value with
  | nil => rfl
  | cons c rest ih =>
      simp only [List.mem_cons, not_or] at unquoted
      have other : (c == quote) = false := by
        rw [beq_eq_false_iff_ne]
        exact fun equal => unquoted.1 equal.symm
      simp only [quoteBehind, other]
      exact ih unquoted.2

/-- Only quotation marks are ever open behind a part of a tag. -/
theorem mark_of_quoteBehind {quote : Option Char} {part : List Char} {mark : Char}
    (marks : ∀ c, quote = some c → c = '"' ∨ c = '\'')
    (open_ : quoteBehind quote part = some (some mark)) : mark = '"' ∨ mark = '\'' := by
  induction part generalizing quote with
  | nil =>
      simp only [quoteBehind, Option.some.injEq] at open_
      exact marks mark open_
  | cons c rest ih =>
      cases quote with
      | none =>
          simp only [quoteBehind] at open_
          split at open_
          · simp at open_
          · refine ih ?_ open_
            intro other opened
            split at opened
            · next isMark => simp_all
            · simp at opened
      | some quote =>
          simp only [quoteBehind] at open_
          refine ih ?_ open_
          intro other opened
          split at opened
          · simp at opened
          · exact marks other opened

/-- A text that can end the name of an element, so that the element's tags
are read as written: it leaves no quote open, holds no blank, and does not
close the element by a slash at its end. -/
def isPlainName (name : List Char) : Bool :=
  isClosed name && name.all (!isMarkupBlank ·) && name.getLast? != some '/'

/-- The first character of an element, which starts no other kind of
markup. -/
def startsElement : List Char → Bool
  | [] => false
  | first :: _ => first != '!' && first != '?' && first != '/'

/-- A name that an element can have. -/
def isElementName (name : List Char) : Bool :=
  isPlainName name && startsElement name

theorem isClosed_of_isPlainName {name : List Char} (plain : isPlainName name) :
    isClosed name := by
  simp only [isPlainName, Bool.and_eq_true] at plain
  exact plain.1.1

theorem unblank_of_isPlainName {name : List Char} (plain : isPlainName name) :
    ∀ c ∈ name, (!isMarkupBlank c) = true := by
  simp only [isPlainName, Bool.and_eq_true, List.all_eq_true] at plain
  exact plain.1.2

theorem getLast_of_isPlainName {name : List Char} (plain : isPlainName name) :
    name.getLast? ≠ some '/' := by
  simp only [isPlainName, Bool.and_eq_true, bne_iff_ne] at plain
  exact plain.2

theorem isPlainName_append {first second : List Char} (plainFirst : isPlainName first)
    (plainSecond : isPlainName second) : isPlainName (first ++ second) := by
  have closed := isClosed_append (isClosed_of_isPlainName plainFirst)
    (isClosed_of_isPlainName plainSecond)
  have unblankFirst := unblank_of_isPlainName plainFirst
  have unblankSecond := unblank_of_isPlainName plainSecond
  have lastFirst := getLast_of_isPlainName plainFirst
  have lastSecond := getLast_of_isPlainName plainSecond
  simp only [isPlainName, Bool.and_eq_true, List.all_eq_true, bne_iff_ne]
  refine ⟨⟨closed, ?_⟩, ?_⟩
  · intro c member
    rcases List.mem_append.mp member with inFirst | inSecond
    · exact unblankFirst c inFirst
    · exact unblankSecond c inSecond
  · rw [List.getLast?_append]
    cases last : second.getLast? with
    | none => simpa using lastFirst
    | some c => simpa [last] using lastSecond

theorem startsElement_append {first : List Char} (starts : startsElement first)
    (second : List Char) : startsElement (first ++ second) := by
  cases first with
  | nil => simp [startsElement] at starts
  | cons c rest => exact starts

theorem scanMarkup_of_startsElement {text : List Char} (starts : startsElement text) :
    scanMarkup text = scanStartTag text := by
  cases text with
  | nil => simp [startsElement] at starts
  | cons first rest =>
      simp only [startsElement, Bool.and_eq_true, bne_iff_ne, ne_eq] at starts
      unfold scanMarkup
      split <;> simp_all

theorem scanMarkup_opening {content : List Char} (closed : isClosed content)
    (starts : startsElement content) (unslashed : content.getLast? ≠ some '/')
    (rest : List Char) :
    scanMarkup (content ++ '>' :: rest) =
      .event (.opening ⟨content⟩) (content ++ ['>']) rest := by
  rw [scanMarkup_of_startsElement (startsElement_append starts _), scanStartTag,
    splitTag_closed closed]
  simp [unslashed]

theorem scanMarkup_selfClosing {content : List Char} (closed : isClosed content)
    (starts : startsElement content) (rest : List Char) :
    scanMarkup (content ++ '/' :: '>' :: rest) =
      .event (.selfClosing ⟨content⟩) (content ++ ['/', '>']) rest := by
  have slashClosed : isClosed (content ++ ['/']) :=
    isClosed_append closed (by decide)
  have split := splitTag_closed slashClosed rest
  rw [List.append_assoc] at split
  rw [scanMarkup_of_startsElement (startsElement_append starts _), scanStartTag,
    show content ++ '/' :: '>' :: rest = content ++ (['/'] ++ '>' :: rest) from rfl, split]
  simp

theorem endTagName_of_isPlainName {name : List Char} (plain : isPlainName name) :
    endTagName name = name := by
  have unblank := unblank_of_isPlainName plain
  unfold endTagName
  split
  · rfl
  · cases reversed : name.reverse with
    | nil => simpa using reversed.symm
    | cons last others =>
        have member : last ∈ name := by
          rw [← List.mem_reverse, reversed]
          exact List.mem_cons_self
        have keeps : isMarkupBlank last = false := by
          simpa using unblank last member
        rw [List.dropWhile_cons_of_neg (by simp [keeps]), ← reversed, List.reverse_reverse]

theorem scanMarkup_endTag {name : List Char} (plain : isPlainName name) (rest : List Char) :
    scanMarkup ('/' :: (name ++ '>' :: rest)) = .endTag name ('/' :: name ++ ['>']) rest := by
  change scanEndTag (name ++ '>' :: rest) = _
  rw [scanEndTag, splitTag_closed (isClosed_of_isPlainName plain)]
  simp [endTagName_of_isPlainName plain]

/-- Behind the beginning of a name, the rest of a start tag alone decides
what tag it is. -/
theorem scanMarkup_behind {front : List Char} (name : isElementName front) (text : List Char) :
    scanMarkup (front ++ text) =
      match splitTag none text with
      | none => .fault .tagNotClosed
      | some (content, after) =>
          if content.getLast? == some '/' then
            .event (.selfClosing ⟨front ++ content.dropLast⟩) (front ++ content ++ ['>']) after
          else
            .event (.opening ⟨front ++ content⟩) (front ++ content ++ ['>']) after := by
  simp only [isElementName, Bool.and_eq_true] at name
  obtain ⟨plain, starts⟩ := name
  have closed := isClosed_of_isPlainName plain
  have unslashed := getLast_of_isPlainName plain
  rw [scanMarkup_of_startsElement (startsElement_append starts _), scanStartTag,
    splitTag_append (eq_of_beq closed)]
  cases split : splitTag none text with
  | none => rfl
  | some parts =>
      obtain ⟨content, after⟩ := parts
      simp only [Option.map_some]
      cases content with
      | nil => simp [unslashed]
      | cons c content =>
          have last : (front ++ c :: content).getLast? = (c :: content).getLast? := by
            rw [List.getLast?_append]
            simp [List.getLast?_cons]
          rw [last, List.dropLast_append_of_ne_nil (by simp)]

theorem nameChars_append {front : List Char} (plain : isPlainName front)
    (content : List Char) :
    (Tag.mk (front ++ content)).nameChars =
      front ++ content.takeWhile (!isMarkupBlank ·) := by
  unfold Tag.nameChars
  rw [List.takeWhile_append_of_pos (unblank_of_isPlainName plain)]

theorem nameChars_of_isPlainName {name : List Char} (plain : isPlainName name) :
    (Tag.mk name).nameChars = name := by
  have whole := nameChars_append plain []
  simpa using whole

/-- Where a tag ends that starts with a text and a closing angle bracket:
inside the text, right behind it, or, when the text leaves a quote open,
behind the quote that closes it. -/
theorem splitTag_cases {text rest content after : List Char}
    (split : splitTag none (text ++ '>' :: rest) = some (content, after)) :
    content.length < text.length ∨ (content = text ∧ isClosed text) ∨
      ∃ inner, content = text ++ '>' :: inner ∧ inner ≠ [] := by
  cases behind : quoteBehind none text with
  | none =>
      left
      obtain ⟨inner, outer, rfl, splits⟩ := exists_splitTag_of_quoteBehind_eq_none behind
      rw [splits] at split
      simp only [Option.some.injEq, Prod.mk.injEq] at split
      obtain ⟨rfl, -⟩ := split
      simp only [List.length_append, List.length_cons]
      omega
  | some open_ =>
      right
      rw [splitTag_append behind] at split
      simp only [Option.map_eq_some_iff, Prod.mk.injEq, Prod.exists] at split
      obtain ⟨inner, outer, found, rfl, -⟩ := split
      cases open_ with
      | none =>
          left
          simp only [splitTag, beq_self_eq_true, if_true, Option.some.injEq,
            Prod.mk.injEq] at found
          obtain ⟨rfl, -⟩ := found
          exact ⟨List.append_nil _, by simp [isClosed, behind]⟩
      | some quote =>
          right
          simp only [splitTag, Option.map_eq_some_iff, Prod.mk.injEq, Prod.exists] at found
          obtain ⟨inner', outer', closing, rfl, -⟩ := found
          refine ⟨inner', rfl, ?_⟩
          rintro rfl
          -- A quotation mark is no bracket, so the tag cannot end right here.
          have mark := mark_of_quoteBehind (by simp) behind
          have still := quoteBehind_of_splitTag closing
          rcases mark with rfl | rfl <;> simp [quoteBehind] at still

/-- The content of a tag without the slash that closes the element. -/
def dropSlash (content : List Char) : List Char :=
  if content.getLast? == some '/' then content.dropLast else content

theorem length_dropSlash_le (content : List Char) :
    (dropSlash content).length ≤ content.length := by
  unfold dropSlash
  split
  · simp
  · exact le_refl _

theorem takeWhile_ne_of_length_lt {test : Char → Bool} {text name : List Char}
    (shorter : text.length < name.length) : text.takeWhile test ≠ name := by
  intro same
  have kept := (List.takeWhile_prefix test (l := text)).length_le
  rw [same] at kept
  omega

/-- A tag whose content starts with a text that can end no name, and a
closing angle bracket, has another name, wherever the tag ends. -/
theorem takeWhile_dropSlash_ne {name rest content after : List Char}
    (odd : isPlainName name = false)
    (split : splitTag none (name ++ '>' :: rest) = some (content, after)) :
    (dropSlash content).takeWhile (!isMarkupBlank ·) ≠ name := by
  rcases splitTag_cases split with shorter | ⟨rfl, closed⟩ | ⟨inner, rfl, nonempty⟩
  · exact takeWhile_ne_of_length_lt ((length_dropSlash_le content).trans_lt shorter)
  · intro same
    by_cases slash : content.getLast? = some '/'
    · have nonempty : content ≠ [] := by
        rintro rfl
        simp at slash
      refine takeWhile_ne_of_length_lt ?_ same
      simp only [dropSlash, slash, beq_self_eq_true, if_true, List.length_dropLast]
      have positive := List.length_pos_iff.mpr nonempty
      omega
    · have plain : isPlainName content = true := by
        simp only [isPlainName, Bool.and_eq_true, bne_iff_ne, List.all_eq_true]
        refine ⟨⟨closed, ?_⟩, slash⟩
        simp only [dropSlash, beq_iff_eq, slash, if_false] at same
        exact List.takeWhile_eq_self_iff.mp same
      rw [plain] at odd
      exact absurd odd (by decide)
  · intro same
    -- The bracket stands inside quotes and is part of the name.
    have longer : ∃ kept, dropSlash (name ++ '>' :: inner) = name ++ '>' :: kept := by
      unfold dropSlash
      split
      · refine ⟨inner.dropLast, ?_⟩
        rw [List.dropLast_append_of_ne_nil (by simp), List.dropLast_cons_of_ne_nil nonempty]
      · exact ⟨inner, rfl⟩
    obtain ⟨kept, keptEq⟩ := longer
    rw [keptEq] at same
    have unblank : ∀ c ∈ name, (!isMarkupBlank c) = true := by
      rw [← same]
      intro c member
      exact (List.mem_takeWhile_imp member :)
    rw [List.takeWhile_append_of_pos unblank] at same
    have lengths := congrArg List.length same
    simp [show isMarkupBlank '>' = false by decide] at lengths

/-- An element with a name that is not plain behind its beginning is read
under another name with the same beginning, if its tag ends at all. -/
theorem scanMarkup_of_not_isPlainName {front name : List Char} (begins : isElementName front)
    (odd : isPlainName name = false) (rest : List Char) :
    scanMarkup (front ++ (name ++ '>' :: rest)) = .fault .tagNotClosed ∨
      ∃ tag event taken after other,
        scanMarkup (front ++ (name ++ '>' :: rest)) = .event event taken after ∧
        (event = .opening tag ∨ event = .selfClosing tag) ∧
        tag.nameChars = front ++ other ∧ other ≠ name := by
  have plain : isPlainName front := by
    simp only [isElementName, Bool.and_eq_true] at begins
    exact begins.1
  rw [scanMarkup_behind begins]
  cases split : splitTag none (name ++ '>' :: rest) with
  | none => exact .inl rfl
  | some parts =>
      obtain ⟨content, after⟩ := parts
      right
      have differs := takeWhile_dropSlash_ne odd split
      by_cases slash : content.getLast? = some '/'
      · refine ⟨⟨front ++ content.dropLast⟩, _, front ++ content ++ ['>'], after, _, ?_,
          .inr rfl, nameChars_append plain _, ?_⟩
        · simp only [slash, beq_self_eq_true, if_true]
        · simpa [dropSlash, slash] using differs
      · refine ⟨⟨front ++ content⟩, _, front ++ content ++ ['>'], after, _, ?_,
          .inl rfl, nameChars_append plain _, ?_⟩
        · simp only [beq_iff_eq, slash, if_false]
        · simpa [dropSlash, slash] using differs

end CatalogServer.Xml
