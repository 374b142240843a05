import CatalogServer.Editor.Hover
import CatalogServer.Proofs.Catalog.Resuming
import Mathlib.Data.List.TakeWhile
import Mathlib.Data.String.Basic

/-!
# The order of the lines over a message

The text over a message has a line for every catalog of the project.  The lines
are sorted by their languages only, so lines of one language keep the order in
which the files are given.  A line begins with an asterisk, while every asterisk
in the text of a target is escaped, so two different lines of one language can be
told apart wherever they stand.

The text over a message is therefore the same for every order of the files exactly
if no two catalogs of the project have one language and show different things.
-/

namespace CatalogServer.Hover

section Sorting

variable {α : Type} {le : α → α → Bool}

/-- A stable sort puts the first item in front of the first one that it may come
before. -/
theorem mergeSort_cons_eq (trans : ∀ a b c, le a b = true → le b c = true → le a c = true)
    (total : ∀ a b, (le a b || le b a) = true) (first : α) (rest : List α) :
    (first :: rest).mergeSort le =
      (rest.mergeSort le).takeWhile (fun item => !le first item) ++
        first :: (rest.mergeSort le).dropWhile fun item => !le first item := by
  obtain ⟨before, behind, whole, parted, passed⟩ := List.mergeSort_cons trans total first rest
  have ordered := List.pairwise_mergeSort trans total (first :: rest)
  rw [whole, List.pairwise_append, List.pairwise_cons] at ordered
  obtain ⟨-, ⟨follows, -⟩, -⟩ := ordered
  rw [whole, parted, List.takeWhile_append_of_pos passed, List.dropWhile_append_of_pos passed]
  cases behind with
  | nil => simp
  | cons next behind => simp [follows next List.mem_cons_self]

/-- Two items that compare alike stay side by side in their order. -/
theorem exists_mergeSort_tied (trans : ∀ a b c, le a b = true → le b c = true → le a c = true)
    (total : ∀ a b, (le a b || le b a) = true) {first second : α}
    (tied : ∀ item, le first item = le second item) (rest : List α) :
    ∃ before behind, (first :: second :: rest).mergeSort le = before ++ first :: second :: behind ∧
      (second :: first :: rest).mergeSort le = before ++ second :: first :: behind := by
  have itself (item : α) : le item item = true := by simpa using total item item
  have alike : (fun item => !le first item) = fun item => !le second item :=
    funext fun item => congrArg not (tied item)
  have stopsFirst : le second first = true := (tied first).symm.trans (itself first)
  refine ⟨(rest.mergeSort le).takeWhile fun item => !le second item,
    (rest.mergeSort le).dropWhile fun item => !le second item, ?_, ?_⟩
  · rw [mergeSort_cons_eq trans total first, mergeSort_cons_eq trans total second, alike,
      List.takeWhile_append_of_pos fun _ => List.mem_takeWhile_imp,
      List.dropWhile_append_of_pos fun _ => List.mem_takeWhile_imp]
    simp [itself second]
  · rw [mergeSort_cons_eq trans total second, mergeSort_cons_eq trans total first, alike,
      List.takeWhile_append_of_pos fun _ => List.mem_takeWhile_imp,
      List.dropWhile_append_of_pos fun _ => List.mem_takeWhile_imp]
    simp [stopsFirst]

end Sorting

section Languages

variable {current : Option String} {primary : Option (List String)}

theorem Priority.isAtMost_trans (first second third : Priority)
    (before : first.isAtMost second = true) (behind : second.isAtMost third = true) :
    first.isAtMost third = true := by
  cases first <;> cases second <;> cases third <;>
    simp only [isAtMost, decide_eq_true_eq, Bool.false_eq_true] at before behind ⊢
  · exact before.trans behind
  · exact before.trans behind

theorem Priority.isAtMost_total (first second : Priority) :
    (first.isAtMost second || second.isAtMost first) = true := by
  cases first <;> cases second <;>
    simp only [isAtMost, Bool.or_eq_true, decide_eq_true_eq, Bool.false_eq_true, or_true, true_or]
  · exact Nat.le_total _ _
  · exact le_total _ _

theorem Priority.eq_of_isAtMost {first second : Priority} (before : first.isAtMost second = true)
    (behind : second.isAtMost first = true) : first = second := by
  cases first <;> cases second <;>
    simp only [isAtMost, decide_eq_true_eq, Bool.false_eq_true] at before behind ⊢
  · exact congrArg _ (Nat.le_antisymm before behind)
  · exact congrArg _ (le_antisymm before behind)

/-- The language that has a place in the order. -/
def Priority.language? (current : Option String) (primary : Option (List String)) :
    Priority → Option String
  | .current => current
  | .primary number => (primary.getD [])[number]?
  | .other language => some language

theorem Priority.language?_ofLanguage (language : String) :
    (ofLanguage current primary language).language? current primary = some language := by
  unfold ofLanguage
  split
  · next chosen => exact beq_iff_eq.mp chosen
  · split
    · next number found =>
        obtain ⟨bound, named, -⟩ := List.findIdx?_eq_some_iff_getElem.mp found
        rw [language?, List.getElem?_eq_getElem bound, beq_iff_eq.mp named]
    · rfl

theorem Priority.ofLanguage_injective :
    Function.Injective (Priority.ofLanguage current primary) := by
  intro first second same
  have languages := congrArg (language? current primary) same
  rw [language?_ofLanguage, language?_ofLanguage] at languages
  exact Option.some.inj languages

theorem Line.isAtMost_trans (first second third : Line)
    (before : Line.isAtMost current primary first second = true)
    (behind : Line.isAtMost current primary second third = true) :
    Line.isAtMost current primary first third = true :=
  Priority.isAtMost_trans _ _ _ before behind

theorem Line.isAtMost_total (first second : Line) :
    (Line.isAtMost current primary first second ||
      Line.isAtMost current primary second first) = true :=
  Priority.isAtMost_total _ _

theorem Line.language_eq_of_isAtMost {first second : Line}
    (before : Line.isAtMost current primary first second = true)
    (behind : Line.isAtMost current primary second first = true) :
    first.language = second.language :=
  Priority.ofLanguage_injective (Priority.eq_of_isAtMost before behind)

end Languages

section Escaping

/-- Every asterisk of a text stands behind a backslash. -/
def EscapesAsterisks (text : List Char) : Prop :=
  ∀ before after, text = before ++ '*' :: after → before.getLast? = some '\\'

variable {first second : List Char}

theorem escapesAsterisks_of_not_mem {text : List Char} (absent : '*' ∉ text) :
    EscapesAsterisks text := by
  rintro before after rfl
  exact absurd (List.mem_append_right _ List.mem_cons_self) absent

theorem EscapesAsterisks.append (front : EscapesAsterisks first) (back : EscapesAsterisks second) :
    EscapesAsterisks (first ++ second) := by
  intro before after whole
  rcases List.append_eq_append_iff.mp whole with ⟨inner, rfl, parted⟩ | ⟨inner, rfl, parted⟩
  · rw [List.getLast?_append, back inner after parted]
    rfl
  · cases inner with
    | nil => exact absurd (back [] after parted.symm) (by simp)
    | cons c inner =>
        obtain ⟨rfl, -⟩ := List.cons.inj parted
        exact front before inner rfl

theorem escapesAsterisks_flatMap {α : Type} {write : α → List Char} {items : List α}
    (escaped : ∀ item ∈ items, EscapesAsterisks (write item)) :
    EscapesAsterisks (items.flatMap write) := by
  induction items with
  | nil => exact escapesAsterisks_of_not_mem List.not_mem_nil
  | cons item rest ih =>
      obtain ⟨here, later⟩ := List.forall_mem_cons.mp escaped
      rw [List.flatMap_cons]
      exact here.append (ih later)

theorem escapesAsterisks_escape (text : String) : EscapesAsterisks (escape text).toList := by
  rw [escape, String.toList_ofList]
  refine escapesAsterisks_flatMap fun c _ => ?_
  unfold escapeChar
  split
  · intro before after whole
    match before with
    | [] => simp at whole
    | [d] =>
        obtain ⟨rfl, -⟩ := List.cons.inj whole
        rfl
    | d :: e :: before => simp at whole
  · next plain =>
      split
      · exact escapesAsterisks_of_not_mem (by decide)
      · refine escapesAsterisks_of_not_mem fun member => ?_
        cases List.mem_singleton.mp member
        exact plain (by decide)

theorem escapesAsterisks_join {parts : List String}
    (escaped : ∀ part ∈ parts, EscapesAsterisks part.toList) :
    EscapesAsterisks (String.join parts).toList := by
  rw [String.toList_join]
  exact escapesAsterisks_flatMap escaped

theorem escapesAsterisks_statusMark (status : Status) :
    EscapesAsterisks (statusMark status).toList := by
  apply escapesAsterisks_of_not_mem
  cases status <;> decide

theorem not_mem_toString (number : Nat) {c : Char} (other : c.isDigit = false) :
    c ∉ (toString number).toList := by
  rw [Nat.toString_eq_repr, Nat.toList_repr]
  intro member
  have digit : c.isDigit = true := Nat.isDigit_of_mem_toDigits (by decide) (by decide) member
  exact Bool.false_ne_true (other.symm.trans digit)

theorem escapesAsterisks_pluralLine (number : Nat) (form : FormText) :
    EscapesAsterisks (pluralLine number form).toList := by
  have digits : '*' ∉ (toString number).toList := not_mem_toString number (by decide)
  simp only [pluralLine, String.toList_append]
  refine .append (.append (.append ?_ (escapesAsterisks_of_not_mem digits)) ?_)
    (escapesAsterisks_escape _)
  · exact escapesAsterisks_of_not_mem (by decide)
  · exact escapesAsterisks_of_not_mem (by decide)

theorem escapesAsterisks_targetText (target : Target) :
    EscapesAsterisks (targetText target).toList := by
  unfold targetText
  dsimp only
  split
  · exact escapesAsterisks_of_not_mem (by decide)
  · split
    · rw [String.toList_append]
      exact (escapesAsterisks_escape _).append (escapesAsterisks_statusMark _)
    · rw [String.toList_append, String.toList_append]
      refine .append (.append (escapesAsterisks_of_not_mem (by decide))
        (escapesAsterisks_statusMark _)) (escapesAsterisks_join ?_)
      intro part member
      obtain ⟨number, bound, rfl⟩ := List.mem_mapIdx.mp member
      exact escapesAsterisks_pluralLine _ _

theorem escapesAsterisks_of_line? {key : MessageKey} {file : CatalogFile} {line : Line}
    (shown : line? key file = some line) : EscapesAsterisks line.text.toList := by
  obtain ⟨document, -, rfl⟩ := Option.map_eq_some_iff.mp shown
  dsimp only
  split
  · exact escapesAsterisks_targetText _
  · exact escapesAsterisks_of_not_mem (by decide)

/-- A line as it is written behind the asterisk that it begins with. -/
def written (opening text : List Char) : List Char :=
  '*' :: opening ++ (text ++ ['\n'])

/-- Lines that may exchange their places are the same: the shorter one opens the
longer one, and no text goes on with an asterisk behind the end of another. -/
theorem eq_of_written_comm_of_le {opening : List Char} (escaped : EscapesAsterisks second)
    (fits : first.length ≤ second.length)
    (same : written opening first ++ written opening second =
      written opening second ++ written opening first) : first = second := by
  have opens : written opening first <+: written opening second :=
    List.prefix_of_prefix_length_le ⟨_, rfl⟩ ⟨_, same.symm⟩ (by simpa [written] using fits)
  obtain ⟨left, whole⟩ := opens
  have tail : first ++ ['\n'] ++ left = second ++ ['\n'] := by
    simpa [written] using whole
  cases left with
  | nil => simpa using tail
  | cons c left =>
      rw [← whole, List.append_assoc, List.append_cancel_left_eq, whole, written, written] at same
      obtain ⟨rfl, -⟩ := List.cons.inj same
      have closed : (first ++ ['\n']).getLast? = some '\\' :=
        escaped.append (escapesAsterisks_of_not_mem (by decide)) _ left tail.symm
      simp at closed

theorem eq_of_written_comm {opening : List Char} (firstEscaped : EscapesAsterisks first)
    (secondEscaped : EscapesAsterisks second)
    (same : written opening first ++ written opening second =
      written opening second ++ written opening first) : first = second := by
  rcases Nat.le_total first.length second.length with fits | fits
  · exact eq_of_written_comm_of_le secondEscaped fits same
  · exact (eq_of_written_comm_of_le firstEscaped fits same.symm).symm

end Escaping

section Listing

theorem toList_render (line : Line) :
    line.render.toList =
      written ('*' :: line.language.toList ++ ['*', '*', ':', ' ']) line.text.toList := by
  simp [Line.render, written]

theorem text_eq_of_render_comm {line other : Line}
    (lineEscaped : EscapesAsterisks line.text.toList)
    (otherEscaped : EscapesAsterisks other.text.toList) (language : line.language = other.language)
    (same : line.render ++ other.render = other.render ++ line.render) : line.text = other.text := by
  have characters := congrArg String.toList same
  rw [String.toList_append, String.toList_append, toList_render, toList_render, language]
    at characters
  exact String.toList_inj.mp (eq_of_written_comm lineEscaped otherEscaped characters)

variable {key : MessageKey} {file : CatalogFile} {files order : List CatalogFile}
  {current : Option String} {primary : Option (List String)}

/-- The lines for a key in the catalogs of a project, in the order of the files. -/
def linesIn (key : MessageKey) (project : String) (files : List CatalogFile) : List Line :=
  (files.filter (·.project == project)).filterMap (line? key)

/-- Catalogs of a project that have one language show the same for a key. -/
def AgreeInLanguage (key : MessageKey) (project : String) (files : List CatalogFile) : Prop :=
  ∀ line ∈ linesIn key project files, ∀ other ∈ linesIn key project files,
    line.language = other.language → line.text = other.text

theorem mem_linesIn {project : String} {line : Line} :
    line ∈ linesIn key project files ↔
      ∃ file ∈ files, file.project = project ∧ line? key file = some line := by
  simp [linesIn, and_assoc]

theorem linesIn_perm (same : order.Perm files) (project : String) :
    (linesIn key project order).Perm (linesIn key project files) :=
  (same.filter _).filterMap _

/-- The text over a message: the header of the hovered file, and the lines in the
order of their languages. -/
theorem text?_eq_some_iff {text : String} :
    text? key file files current primary = some text ↔
      ∃ document located, Document.read file.text = .ok document ∧
        document.locate? key = some located ∧
        text = header key located.message.extraComment ++
          String.join (((linesIn key file.project files).mergeSort
            (Line.isAtMost current primary)).map Line.render) := by
  simp only [text?, linesIn, Option.bind_eq_bind, Option.bind_eq_some_iff, Option.some.injEq,
    CatalogFile.document?, CatalogFile.read, Except.toOption_eq_some_iff]
  constructor
  · rintro ⟨document, read, located, found, rfl⟩
    exact ⟨document, located, read, found, rfl⟩
  · rintro ⟨document, located, read, found, rfl⟩
    exact ⟨document, read, located, found, rfl⟩

theorem mergeSort_linesIn (same : order.Perm files) {project : String}
    (agree : AgreeInLanguage key project files) :
    (linesIn key project order).mergeSort (Line.isAtMost current primary) =
      (linesIn key project files).mergeSort (Line.isAtMost current primary) := by
  have lines : (linesIn key project order).Perm (linesIn key project files) :=
    linesIn_perm same project
  refine List.Perm.eq_of_pairwise ?_
    (List.pairwise_mergeSort Line.isAtMost_trans Line.isAtMost_total _)
    (List.pairwise_mergeSort Line.isAtMost_trans Line.isAtMost_total _)
    ((List.mergeSort_perm _ _).trans (lines.trans (List.mergeSort_perm _ _).symm))
  intro line other lineMem otherMem before behind
  have language := Line.language_eq_of_isAtMost before behind
  have text := agree line (lines.mem_iff.mp (List.mem_mergeSort.mp lineMem)) other
    (List.mem_mergeSort.mp otherMem) language
  obtain ⟨lineLanguage, lineText⟩ := line
  cases language
  cases text
  rfl

/-- The text tells in which order two files come whose catalogs have one language
and show different things. -/
theorem text?_swap_ne {first second : CatalogFile} {rest : List CatalogFile} {line other : Line}
    {text : String}
    (shown : text? key file (first :: second :: rest) current primary = some text)
    (firstProject : first.project = file.project) (secondProject : second.project = file.project)
    (firstLine : line? key first = some line) (secondLine : line? key second = some other)
    (language : line.language = other.language) (differs : line.text ≠ other.text) :
    text? key file (second :: first :: rest) current primary ≠ some text := by
  intro swapped
  obtain ⟨document, located, read, found, rfl⟩ := text?_eq_some_iff.mp shown
  obtain ⟨again, locatedAgain, readAgain, foundAgain, same⟩ := text?_eq_some_iff.mp swapped
  cases read.symm.trans readAgain
  cases found.symm.trans foundAgain
  have lines : linesIn key file.project (first :: second :: rest) =
      line :: other :: linesIn key file.project rest := by
    simp [linesIn, firstProject, secondProject, firstLine, secondLine]
  have linesSwapped : linesIn key file.project (second :: first :: rest) =
      other :: line :: linesIn key file.project rest := by
    simp [linesIn, firstProject, secondProject, firstLine, secondLine]
  have tied (item : Line) :
      Line.isAtMost current primary line item = Line.isAtMost current primary other item := by
    rw [Line.isAtMost, Line.isAtMost, language]
  obtain ⟨before, behind, sorted, sortedSwapped⟩ :=
    exists_mergeSort_tied Line.isAtMost_trans Line.isAtMost_total tied
      (linesIn key file.project rest)
  rw [lines, linesSwapped, sorted, sortedSwapped, String.append_right_inj] at same
  simp only [List.map_append, List.map_cons, String.join_append, String.join_cons,
    String.append_right_inj] at same
  rw [← String.append_assoc, ← String.append_assoc, String.append_left_inj] at same
  exact differs (text_eq_of_render_comm (escapesAsterisks_of_line? firstLine)
    (escapesAsterisks_of_line? secondLine) language same)

/-- The text over a message is the same for every order of the files exactly if
there is none or the catalogs of the project that have one language agree. -/
theorem text?_anyOrder_iff (key : MessageKey) (file : CatalogFile) (files : List CatalogFile)
    (current : Option String) (primary : Option (List String)) :
    (∀ order, order.Perm files →
        text? key file order current primary = text? key file files current primary) ↔
      text? key file files current primary = none ∨ AgreeInLanguage key file.project files := by
  constructor
  · intro anyOrder
    by_contra neither
    simp only [AgreeInLanguage, not_or, not_forall] at neither
    obtain ⟨given, line, lineMem, other, otherMem, language, differs⟩ := neither
    obtain ⟨text, shown⟩ := Option.ne_none_iff_exists'.mp given
    obtain ⟨first, firstMem, firstProject, firstLine⟩ := mem_linesIn.mp lineMem
    obtain ⟨second, secondMem, secondProject, secondLine⟩ := mem_linesIn.mp otherMem
    have different : second ≠ first := by
      rintro rfl
      cases firstLine.symm.trans secondLine
      exact differs rfl
    obtain ⟨rest, inFront⟩ : ∃ rest, files.Perm (first :: second :: rest) :=
      ⟨(files.erase first).erase second, (List.perm_cons_erase firstMem).trans
        ((List.perm_cons_erase ((List.mem_erase_of_ne different).mpr secondMem)).cons first)⟩
    have straight : text? key file (first :: second :: rest) current primary = some text :=
      (anyOrder _ inFront.symm).trans shown
    have swapped : text? key file (second :: first :: rest) current primary = some text :=
      (anyOrder _ ((List.Perm.swap first second rest).trans inFront.symm)).trans shown
    exact text?_swap_ne straight firstProject secondProject firstLine secondLine language differs
      swapped
  · rintro (absent | agree) order same
    · rw [absent, Option.eq_none_iff_forall_ne_some]
      intro text shown
      obtain ⟨document, located, read, found, -⟩ := text?_eq_some_iff.mp shown
      exact Option.eq_none_iff_forall_ne_some.mp absent _
        (text?_eq_some_iff.mpr ⟨document, located, read, found, rfl⟩)
    · refine Option.ext fun text => ?_
      rw [text?_eq_some_iff, text?_eq_some_iff, mergeSort_linesIn same agree]

/-- A catalog with notes and plural forms, and line feeds in its texts and in the
name of its second context. -/
def annotatedText : String :=
  "<TS><context><name>n</name><message numerus=\"yes\"><source>a\n*</source>" ++
    "<comment>c</comment><extracomment>e\n</extracomment><translation>" ++
    "<numerusform>x</numerusform><numerusform/></translation></message></context>" ++
    "<context><name>n\n</name><message><source>s</source></message></context></TS>"

def annotatedMessage : Message where
  numerus := true
  source := "a\n*"
  comment := some "c"
  extraComment := some "e\n"
  target := ⟨.finished, .plural [.plain "x", .plain ""]⟩

def annotatedDocument : Document where
  catalog :=
    { contexts := [
        { name := "n", messages := [annotatedMessage] },
        { name := "n\n", messages := [{ source := "s" }] }] }
  spans :=
    { root := ⟨0, 4⟩
      contexts := [
        { element := ⟨4, 210⟩
          name := ⟨13, 27⟩
          messages := [⟨⟨27, 200⟩, ⟨50, 70⟩, some ⟨⟨121, 190⟩, ⟨121, 134⟩⟩⟩] },
        { element := ⟨210, 281⟩
          name := ⟨219, 234⟩
          messages := [⟨⟨234, 271⟩, ⟨243, 261⟩, none⟩] }] }

theorem read_annotatedText : Document.read annotatedText = .ok annotatedDocument := by
  refine Reader.read_of_toList (by
    unfold annotatedText
    rw [String.toList_append, String.toList_append, String.toList_append, String.toList_ofList,
      String.toList_ofList, String.toList_ofList, String.toList_ofList]) ?_
  decide +kernel

def annotatedKey : MessageKey :=
  annotatedMessage.keyIn { name := "n" }

theorem locate?_annotatedDocument :
    annotatedDocument.locate? annotatedKey = some ⟨⟨0, 0⟩, annotatedMessage, ⟨50, 70⟩⟩ := by
  rfl

/-- A Danish file of a project. -/
def danishFile (path text : String) : CatalogFile :=
  ⟨path, "da", "a", text⟩

theorem exists_text?_annotatedText {located : LocatedMessage}
    (found : annotatedDocument.locate? key = some located) (path : String)
    (files : List CatalogFile) (current : Option String) (primary : Option (List String)) :
    ∃ text, text? key (danishFile path annotatedText) files current primary = some text := by
  have read : Document.read (danishFile path annotatedText).text = .ok annotatedDocument :=
    read_annotatedText
  exact ⟨_, text?_eq_some_iff.mpr ⟨_, _, read, found, rfl⟩⟩

/-- The order in which two files of one language are given shows. -/
theorem not_anyOrder_danishFile :
    ¬ ∀ (key : MessageKey) (file : CatalogFile) (files order : List CatalogFile)
        (current : Option String) (primary : Option (List String)),
      (files.map (·.path)).Nodup → order.Perm files →
        text? key file order current primary = text? key file files current primary := by
  intro anyOrder
  let first := danishFile "/ws/a_da.ts" annotatedText
  let second := danishFile "/ws/b/a_da.ts" "<TS></TS>"
  have firstLine : line? annotatedKey first = some ⟨"da", targetText annotatedMessage.target⟩ := by
    simp [line?, first, danishFile, CatalogFile.document?, CatalogFile.read, read_annotatedText,
      locate?_annotatedDocument]
  have secondLine : line? annotatedKey second = some ⟨"da", "_(missing)_"⟩ := by decide +kernel
  obtain ⟨text, shown⟩ :=
    exists_text?_annotatedText locate?_annotatedDocument "/ws/a_da.ts" [first, second] none none
  refine text?_swap_ne shown rfl rfl firstLine secondLine rfl (by decide +kernel) ?_
  rw [← shown]
  exact anyOrder _ _ _ _ _ _ (by decide) (List.Perm.swap first second [])

end Listing

end CatalogServer.Hover
