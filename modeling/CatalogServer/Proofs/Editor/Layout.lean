import CatalogServer.Proofs.Editor.Listing
import Mathlib.Algebra.Ring.Nat

/-!
# The lines of the text over a message

The text over a message is laid out in lines: the paragraphs of the header, a line
for every catalog of the project, and a line for every plural form that is shown.
Texts of messages and notes are escaped, which turns their line feeds into blanks.
The name of the context and the languages are not escaped.

So the layout holds exactly if neither the name of the context nor the language of
a catalog of the project has a line feed, and every line feed in one of them adds
one to the text.
-/

namespace CatalogServer.Hover

/-- How often a text begins a new line. -/
def lineFeeds (text : String) : Nat :=
  text.toList.count '\n'

section Counting

@[simp]
theorem lineFeeds_append (first second : String) :
    lineFeeds (first ++ second) = lineFeeds first + lineFeeds second := by
  simp [lineFeeds, List.count_append]

theorem lineFeeds_eq_zero_iff {text : String} : lineFeeds text = 0 ↔ '\n' ∉ text.toList :=
  List.count_eq_zero

theorem lineFeeds_join (parts : List String) :
    lineFeeds (String.join parts) = (parts.map lineFeeds).sum := by
  induction parts with
  | nil => rfl
  | cons part rest ih => rw [String.join_cons, lineFeeds_append, ih, List.map_cons, List.sum_cons]

@[simp]
theorem lineFeeds_escape (text : String) : lineFeeds (escape text) = 0 := by
  rw [lineFeeds_eq_zero_iff, escape, String.toList_ofList, List.mem_flatMap]
  rintro ⟨c, -, member⟩
  unfold escapeChar at member
  split at member
  · next markup =>
      rcases List.mem_cons.mp member with fed | fed
      · exact absurd fed (by decide)
      · cases List.mem_singleton.mp fed
        exact absurd markup (by decide)
  · split at member
    · exact absurd member (by decide)
    · next other =>
        cases List.mem_singleton.mp member
        exact other (beq_self_eq_true _)

@[simp]
theorem lineFeeds_statusMark (status : Status) : lineFeeds (statusMark status) = 0 := by
  cases status <;> decide

@[simp]
theorem lineFeeds_pluralLine (number : Nat) (form : FormText) :
    lineFeeds (pluralLine number form) = 1 := by
  have digits : lineFeeds (toString number) = 0 :=
    lineFeeds_eq_zero_iff.mpr (not_mem_toString number (by decide))
  rw [pluralLine, lineFeeds_append, lineFeeds_append, lineFeeds_append, digits, formText,
    lineFeeds_escape]
  decide

/-- The plural forms that are listed for a target. -/
def listedForms (target : Target) : Nat :=
  if target.isEmpty then 0
  else
    match target.text with
    | .single _ => 0
    | .plural forms => forms.length

theorem lineFeeds_targetText (target : Target) :
    lineFeeds (targetText target) = listedForms target := by
  unfold targetText listedForms
  dsimp only
  split
  · decide
  · cases target.text with
    | single form => simp [formText]
    | plural forms =>
        have opening : lineFeeds "(plural)" = 0 := by decide
        have each : (forms.mapIdx pluralLine).map lineFeeds = List.replicate forms.length 1 := by
          rw [List.eq_replicate_iff]
          simp
        simp [opening, lineFeeds_join, each]

theorem lineFeeds_paragraph {heading : String} (single : lineFeeds heading = 0) (text : String) :
    lineFeeds (paragraph heading text) = 2 := by
  rw [paragraph, lineFeeds_append, lineFeeds_append, lineFeeds_append, lineFeeds_append, single,
    lineFeeds_escape]
  decide

theorem lineFeeds_optional {heading : String} (single : lineFeeds heading = 0)
    (text : Option String) :
    lineFeeds ((text.map (paragraph heading)).getD "") = if text.isSome then 2 else 0 := by
  cases text with
  | none => rfl
  | some text => exact lineFeeds_paragraph single text

theorem lineFeeds_header (key : MessageKey) (note : Option String) :
    lineFeeds (header key note) =
      4 + (if key.comment.isSome then 2 else 0) + (if note.isSome then 2 else 0) +
        lineFeeds key.context := by
  have source := lineFeeds_paragraph (show lineFeeds "Source" = 0 by decide) key.source
  have disambiguation := lineFeeds_optional (show lineFeeds "Disambiguation" = 0 by decide)
    key.comment
  have developer := lineFeeds_optional (show lineFeeds "Developer comment" = 0 by decide) note
  have opening : lineFeeds "**Context:** `" = 0 := by decide
  have closing : lineFeeds "`\n" = 1 := by decide
  have last : lineFeeds "\n" = 1 := by decide
  unfold header
  -- The parts are named so that none of them is taken apart.
  generalize paragraph "Source" key.source = first at source ⊢
  generalize (key.comment.map (paragraph "Disambiguation")).getD "" = second at disambiguation ⊢
  generalize (note.map (paragraph "Developer comment")).getD "" = third at developer ⊢
  simp only [lineFeeds_append, opening, closing, last, source, disambiguation, developer]
  omega

theorem lineFeeds_render (line : Line) :
    lineFeeds line.render = 1 + lineFeeds line.text + lineFeeds line.language := by
  have opening : lineFeeds "**" = 0 := by decide
  have closing : lineFeeds "**: " = 0 := by decide
  have last : lineFeeds "\n" = 1 := by decide
  simp only [Line.render, lineFeeds_append, opening, closing, last]
  omega

end Counting

section Files

variable {key : MessageKey} {file : CatalogFile} {files : List CatalogFile}

/-- The lines that a file has in the layout: one if it is a catalog, and one for
each plural form that is listed. -/
def laidLines (key : MessageKey) (file : CatalogFile) : Nat :=
  match file.document? with
  | none => 0
  | some document =>
      1 + ((document.locate? key).map fun located => listedForms located.message.target).getD 0

/-- The line feeds in the language of a file that is a catalog. -/
def languageFeeds (file : CatalogFile) : Nat :=
  if file.document?.isSome then lineFeeds file.language else 0

/-- The line feeds that the layout has for a key: those of the header and of its
notes, and those of the files of the project. -/
def laidFeeds (key : MessageKey) (note : Option String) (project : String)
    (files : List CatalogFile) : Nat :=
  4 + (if key.comment.isSome then 2 else 0) + (if note.isSome then 2 else 0) +
    ((files.filter (·.project == project)).map (laidLines key)).sum

/-- A text over a message of a file has as many line feeds as its layout. -/
inductive LaidOut (key : MessageKey) (file : CatalogFile) (files : List CatalogFile)
    (text : String) : Prop where
  | over (document : Document) (located : LocatedMessage)
      (read : Document.read file.text = .ok document)
      (found : document.locate? key = some located)
      (feeds : lineFeeds text = laidFeeds key located.message.extraComment file.project files)

theorem lineFeeds_line? (key : MessageKey) (file : CatalogFile) :
    ((line? key file).map fun line => lineFeeds line.render).getD 0 =
      laidLines key file + languageFeeds file := by
  unfold line? laidLines languageFeeds
  cases file.document? with
  | none => rfl
  | some document =>
      simp only [Option.map_some, Option.getD_some, lineFeeds_render, Option.isSome_some, if_true]
      cases document.locate? key with
      | none => rfl
      | some located =>
          simp only [Option.map_some, Option.getD_some, lineFeeds_targetText]

theorem sum_lineFeeds_filterMap (key : MessageKey) (files : List CatalogFile) :
    ((files.filterMap (line? key)).map fun line => lineFeeds line.render).sum =
      (files.map (laidLines key)).sum + (files.map languageFeeds).sum := by
  induction files with
  | nil => rfl
  | cons file rest ih =>
      have here := lineFeeds_line? key file
      rw [List.map_cons, List.sum_cons, List.map_cons, List.sum_cons]
      cases shown : line? key file with
      | none =>
          rw [shown, Option.map_none, Option.getD_none] at here
          rw [List.filterMap_cons_none shown, ih]
          omega
      | some line =>
          rw [shown, Option.map_some, Option.getD_some] at here
          rw [List.filterMap_cons_some shown, List.map_cons, List.sum_cons, ih]
          omega

variable {current : Option String} {primary : Option (List String)} {text : String}

/-- Besides the line feeds of its layout a text has those of the name of the context
and of the languages. -/
theorem lineFeeds_of_shown (shown : text? key file files current primary = some text) :
    ∃ document located, Document.read file.text = .ok document ∧
      document.locate? key = some located ∧
      lineFeeds text = laidFeeds key located.message.extraComment file.project files +
        (lineFeeds key.context +
          ((files.filter (·.project == file.project)).map languageFeeds).sum) := by
  obtain ⟨document, located, read, found, rfl⟩ := text?_eq_some_iff.mp shown
  refine ⟨document, located, read, found, ?_⟩
  have sorted := (List.mergeSort_perm (linesIn key file.project files)
    (Line.isAtMost current primary)).map fun line => lineFeeds line.render
  rw [lineFeeds_append, lineFeeds_join, List.map_map, lineFeeds_header, laidFeeds]
  have lines := sorted.sum_nat.trans
    (sum_lineFeeds_filterMap key (files.filter (·.project == file.project)))
  simp only [Function.comp_def] at lines ⊢
  omega

theorem sum_languageFeeds_eq_zero_iff (project : String) :
    ((files.filter (·.project == project)).map languageFeeds).sum = 0 ↔
      ∀ other ∈ files, other.project = project → other.document?.isSome = true →
        '\n' ∉ other.language.toList := by
  rw [List.sum_eq_zero_iff_forall_eq_nat, List.forall_mem_map]
  simp only [List.mem_filter, beq_iff_eq, and_imp]
  refine forall₃_congr fun other _ _ => ?_
  unfold languageFeeds
  cases other.document?.isSome with
  | false => simp
  | true => simp [lineFeeds_eq_zero_iff]

/-- The text over a message is laid out exactly if no line feed stands in the name of
the context or in the language of a catalog of the project. -/
theorem laidOut_iff (shown : text? key file files current primary = some text) :
    LaidOut key file files text ↔ '\n' ∉ key.context.toList ∧
      ∀ other ∈ files, other.project = file.project → other.document?.isSome = true →
        '\n' ∉ other.language.toList := by
  obtain ⟨document, located, read, found, feeds⟩ := lineFeeds_of_shown shown
  have laid : LaidOut key file files text ↔
      lineFeeds key.context +
        ((files.filter (·.project == file.project)).map languageFeeds).sum = 0 := by
    constructor
    · rintro ⟨again, locatedAgain, readAgain, foundAgain, laid⟩
      cases read.symm.trans readAgain
      cases found.symm.trans foundAgain
      omega
    · intro none
      exact ⟨document, located, read, found, by omega⟩
  rw [laid, Nat.add_eq_zero_iff, lineFeeds_eq_zero_iff, sum_languageFeeds_eq_zero_iff]

/-- Two files of a project, one of them in Swedish and without the message. -/
def localeFilesOf (text : String) : List CatalogFile :=
  [danishFile "/ws/a_da.ts" text, ⟨"/ws/a_sv.ts", "sv", "a", "<TS></TS>"⟩]

theorem laidOut_localeFilesOf_annotatedText :
    ∃ text, text? annotatedKey (danishFile "/ws/a_da.ts" annotatedText)
        (localeFilesOf annotatedText) none none = some text ∧
      LaidOut annotatedKey (danishFile "/ws/a_da.ts" annotatedText)
        (localeFilesOf annotatedText) text := by
  obtain ⟨text, shown⟩ := exists_text?_annotatedText locate?_annotatedDocument "/ws/a_da.ts"
    (localeFilesOf annotatedText) none none
  have single : ∀ other ∈ localeFilesOf annotatedText, '\n' ∉ other.language.toList := by
    simp [localeFilesOf, danishFile]
  exact ⟨text, shown,
    (laidOut_iff shown).mpr ⟨by decide, fun other member _ _ => single other member⟩⟩

/-- The key of the message in the context with a name of two lines. -/
def brokenKey : MessageKey :=
  ⟨"n\n", "s", none⟩

/-- The name of a context may break the layout. -/
theorem not_laidOut_brokenKey :
    ¬ ∀ (key : MessageKey) (file : CatalogFile) (files : List CatalogFile)
        (current : Option String) (primary : Option (List String)) (text : String),
      text? key file files current primary = some text → LaidOut key file files text := by
  intro laidOut
  have found : annotatedDocument.locate? brokenKey =
      some ⟨⟨1, 0⟩, { source := "s" }, ⟨243, 261⟩⟩ := by
    rfl
  let file := danishFile "/ws/a_da.ts" annotatedText
  obtain ⟨text, shown⟩ := exists_text?_annotatedText found "/ws/a_da.ts" [file] none none
  obtain ⟨document, located, read, locatedAt, laid⟩ := laidOut _ _ _ _ _ _ shown
  obtain ⟨again, locatedAgain, readAgain, foundAgain, feeds⟩ := lineFeeds_of_shown shown
  cases read.symm.trans readAgain
  cases locatedAt.symm.trans foundAgain
  have broken : lineFeeds brokenKey.context = 1 := by decide
  rw [broken] at feeds
  omega

end Files

end CatalogServer.Hover
