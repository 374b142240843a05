import CatalogServer.Proofs.Catalog.Messages

/-!
# Written catalogs are read back

A catalog is written as a prolog and a root element with one element for
each context.  The contexts, like the messages in them, are read back one
after the other, so a written catalog is read back as a whole when no
attribute holds the null character and the names of additional data are
plain.
-/

namespace CatalogServer.Reader

open Text Xml

theorem gathers_contextText (place : InContext) (part : ContextPart) :
    Gathers fun taken => .contextText place part 0 taken.text :=
  gathers_gather (.contextText place part 0 []) rfl

theorem catalogFrom_contextText (place : InContext) (part : ContextPart) (text : String)
    (opened : List (List Char)) (rest : List Char) :
    catalogFrom (.context place) opened
        ((Writer.textElement "    " part.element text).toList ++ rest) =
      catalogFrom (.context (closeContextText place part text default)) opened rest := by
  have isElement : isElementName part.element.toList := by
    cases part <;> decide
  have plain : isPlainName part.element.toList := by
    cases part <;> decide
  have enters : ((State.context place).step
      ⟨default, .opening ⟨part.element.toList⟩⟩).toOption =
        some (.contextText place part 0 []) := by
    simp only [State.step, contextStep, name_of_isPlainName part.element plain]
    cases part <;> rfl
  have leaves : ((State.contextText place part 0 text.toList).step
      ⟨default, .closing⟩).toOption =
        some (.context (closeContextText place part text default)) := by
    rw [State.step, contextTextStep, String.ofList_toList]
    rfl
  rw [textElement_eq, List.append_assoc, List.append_assoc,
    catalogFrom_blanks (skipsBlanks_context place) (by decide),
    catalogFrom_leafElement isElement enters (gathers_contextText place part)]
  simp only [writtenPiece, leaves, Option.bind_some]
  exact catalogFrom_lineEnd (skipsBlanks_context _) opened rest

/-- A context of which everything was read but its messages. -/
def bareContext (document : Document) (context : Context) : InContext :=
  { document := document
    context :=
      { start := 0
        context := { context with messages := [] }
        name := some default } }

/-- The messages of a context and its end tag. -/
def contextTail (messages : List Message) : List Char :=
  messages.flatMap (fun message => (Writer.messageElement message).toList) ++
    '<' :: '/' :: ("context".toList ++ '>' :: ['\n'])

theorem catalogFrom_toMessages (document : Document) (context : Context)
    (opened : List (List Char)) (rest : List Char) :
    catalogFrom (.root document) opened ((Writer.contextElement context).toList ++ rest) =
      catalogFrom (.context (bareContext document context)) ("context".toList :: opened)
        (contextTail context.messages ++ rest) := by
  have tag : "<context>\n".toList = '<' :: ("context".toList ++ '>' :: ['\n']) := rfl
  have endTag : "</context>\n".toList = '<' :: '/' :: ("context".toList ++ '>' :: ['\n']) := rfl
  have layout : (Writer.contextElement context).toList ++ rest =
      '<' :: ("context".toList ++ '>' :: '\n' ::
        ((Writer.textElement "    " "name" context.name).toList ++
          ((Writer.optionalElement "    " "comment" context.comment).toList ++
            (contextTail context.messages ++ rest)))) := by
    unfold Writer.contextElement contextTail
    simp only [String.toList_append, toList_join_map, tag, endTag, List.append_assoc,
      List.cons_append, List.nil_append]
  have plain : isPlainName "context".toList := by decide
  have enters : ((State.root document).step
      ⟨default, .opening ⟨"context".toList⟩⟩).toOption =
        some (.context ⟨document, { start := 0 }⟩) := by
    simp only [State.step, rootStep, name_of_isPlainName "context" plain]
    rfl
  rw [layout, catalogFrom_opening (isClosed_of_isPlainName plain) (by decide)
    (getLast_of_isPlainName plain), enters, Option.bind_some, nameChars_of_isPlainName plain,
    catalogFrom_lineEnd (skipsBlanks_context _)]
  refine (catalogFrom_contextText _ .name context.name _ _).trans ?_
  obtain ⟨name, comment, messages⟩ := context
  cases comment with
  | none => rfl
  | some text => exact catalogFrom_contextText _ .comment text _ _

theorem catalogFrom_contextEnd (document : Document) (context : Context)
    (opened : List (List Char)) (rest : List Char) :
    catalogFrom (.context ⟨document, { start := 0, context := context, name := some default }⟩)
        ("context".toList :: opened) (contextTail [] ++ rest) =
      catalogFrom (.root (addContext document context default)) opened rest := by
  have layout : contextTail [] ++ rest =
      '<' :: '/' :: ("context".toList ++ '>' :: '\n' :: rest) := by
    simp [contextTail]
  rw [layout, catalogFrom_endTag (by decide)]
  refine (catalogFrom_lineEnd (skipsBlanks_root _) opened rest).trans ?_
  exact catalogFrom_congr (.root (Eq.refl _)) opened rest

/-- Everything that has to be written in a message can be written. -/
structure MessageWritable (message : Message) : Prop where
  nullFree : MessageNullFree message
  /-- The names of additional data end the name of an element. -/
  plain : ∀ extra ∈ message.extras, isPlainName extra.name.toList

theorem catalogFrom_messages {messages : List Message}
    (writable : ∀ message ∈ messages, MessageWritable message) (place : InContext)
    (opened : List (List Char)) (rest : List Char) :
    catalogFrom (.context place) opened
        (messages.flatMap (fun message => (Writer.messageElement message).toList) ++ rest) =
      catalogFrom (.context { place with context := { place.context with context :=
        { place.context.context with
          messages := place.context.context.messages ++ messages.map rereadMessage } } })
        opened rest := by
  induction messages generalizing place with
  | nil =>
      rw [List.flatMap_nil, List.nil_append, List.map_nil, List.append_nil]
  | cons message messages ih =>
      have first := writable message List.mem_cons_self
      have others := ih fun other member => writable other (List.mem_cons_of_mem message member)
      rw [List.flatMap_cons, List.append_assoc,
        catalogFrom_messageElement first.nullFree first.plain, others]
      refine catalogFrom_congr (.context ?_) opened rest
      exact ⟨rfl, by simp [addMessage], rfl⟩

/-- The context as which a written context is read back. -/
def rereadContext (context : Context) : Context :=
  { context with messages := context.messages.map rereadMessage }

/-- A context is read back, but for the shapes of targets. -/
theorem catalogFrom_contextElement {context : Context}
    (writable : ∀ message ∈ context.messages, MessageWritable message) (document : Document)
    (opened : List (List Char)) (rest : List Char) :
    catalogFrom (.root document) opened ((Writer.contextElement context).toList ++ rest) =
      catalogFrom (.root (addContext document (rereadContext context) default)) opened rest := by
  have tail : contextTail context.messages ++ rest =
      context.messages.flatMap (fun message => (Writer.messageElement message).toList) ++
        (contextTail [] ++ rest) := by
    simp [contextTail]
  rw [catalogFrom_toMessages, tail, catalogFrom_messages writable]
  exact catalogFrom_contextEnd document (rereadContext context) opened rest

theorem catalogFrom_contexts {contexts : List Context}
    (writable : ∀ context ∈ contexts, ∀ message ∈ context.messages, MessageWritable message)
    (document : Document) (opened : List (List Char)) (rest : List Char) :
    catalogFrom (.root document) opened
        (contexts.flatMap (fun context => (Writer.contextElement context).toList) ++ rest) =
      catalogFrom (.root { document with catalog := { document.catalog with
        contexts := document.catalog.contexts ++ contexts.map rereadContext } })
        opened rest := by
  induction contexts generalizing document with
  | nil =>
      rw [List.flatMap_nil, List.nil_append, List.map_nil, List.append_nil]
  | cons context contexts ih =>
      have first := writable context List.mem_cons_self
      have others := ih fun other member => writable other (List.mem_cons_of_mem context member)
      rw [List.flatMap_cons, List.append_assoc, catalogFrom_contextElement first, others]
      exact catalogFrom_congr (.root (by simp [sameContent, addContext])) opened rest

/-- The attributes of the root element. -/
def rootGiven (catalog : Catalog) : Given :=
  [("version", catalog.version), ("language", catalog.language),
    ("sourcelanguage", catalog.sourceLanguage)]

theorem named_rootGiven (catalog : Catalog) : (rootGiven catalog).Named := by
  constructor
  · simp only [rootGiven, List.mem_cons, List.not_mem_nil, or_false, forall_eq_or_imp, forall_eq]
    decide
  · simp [rootGiven]

/-- A root element of which only the start tag was read. -/
def bareDocument (catalog : Catalog) : Document :=
  ⟨{ catalog with contexts := [] }, default⟩

theorem step_openRoot (catalog : Catalog) :
    (State.prolog.step ⟨default, .opening (writtenTag "TS".toList
      (rootGiven catalog).raws)⟩).toOption =
      if (rootGiven catalog).NullFree then some (.root (bareDocument catalog)) else none := by
  have plain : isPlainName "TS".toList := by decide
  have name := name_writtenTag plain (rootGiven catalog).raws
  have named := named_rootGiven catalog
  have version := Given.attribute_present named "version" List.mem_cons_self
  have language := Given.attribute_present named "language"
    (List.mem_cons_of_mem _ List.mem_cons_self)
  have source := Given.attribute_present named "sourcelanguage"
    (List.mem_cons_of_mem _ (List.mem_cons_of_mem _ (List.mem_singleton.mpr rfl)))
  simp only [State.step, prologStep, name, beq_self_eq_true, if_true, rootDocument,
    Except.toOption_map, Except.toOption_bind, toOption_attributesAt,
    Given.toOption_attributes named plain]
  split
  · simp only [Option.bind_some, Except.toOption_ok, Option.map_some, version, language, source]
    rfl
  · rfl

/-- The contexts of a catalog and the end tag of its root element. -/
def rootTail (contexts : List Context) : List Char :=
  contexts.flatMap (fun context => (Writer.contextElement context).toList) ++
    '<' :: '/' :: ("TS".toList ++ '>' :: ['\n'])

theorem catalogFrom_declaration (rest : List Char) :
    catalogFrom .prolog [] ("<?xml version=\"1.0\" encoding=\"utf-8\"?>".toList ++ rest) =
      catalogFrom .prolog [] rest := by
  have takes : Takes [] ('<' :: "?xml version=\"1.0\" encoding=\"utf-8\"?>".toList) .declaration
      [] rest :=
    .markup rfl
  exact catalogFrom_of_takes takes .prolog

theorem catalogFrom_doctype (rest : List Char) :
    catalogFrom .prolog [] ("<!DOCTYPE TS>".toList ++ rest) = catalogFrom .prolog [] rest := by
  have takes : Takes [] ('<' :: "!DOCTYPE TS>".toList) .doctype [] rest :=
    .markup rfl
  exact catalogFrom_of_takes takes .prolog

/-- A catalog is read up to its contexts, unless an attribute holds the null
character. -/
theorem catalogFrom_toContexts (catalog : Catalog) :
    catalogFrom .prolog [] (Writer.write catalog).toList =
      if (rootGiven catalog).NullFree then
        catalogFrom (.root (bareDocument catalog)) ["TS".toList] (rootTail catalog.contexts)
      else none := by
  have attributes := Given.written_append [("version", catalog.version)]
    [("language", catalog.language), ("sourcelanguage", catalog.sourceLanguage)]
  have others := Given.written_append [("language", catalog.language)]
    [("sourcelanguage", catalog.sourceLanguage)]
  rw [List.singleton_append] at attributes others
  rw [others] at attributes
  have prolog : Writer.prolog.toList =
      "<?xml version=\"1.0\" encoding=\"utf-8\"?>".toList ++
        '\n' :: ("<!DOCTYPE TS>".toList ++ ['\n']) := rfl
  have tag : "<TS".toList = '<' :: "TS".toList := rfl
  have tagEnd : ">\n".toList = ['>', '\n'] := rfl
  have endTag : "</TS>\n".toList = '<' :: '/' :: ("TS".toList ++ '>' :: ['\n']) := rfl
  have layout : (Writer.write catalog).toList =
      "<?xml version=\"1.0\" encoding=\"utf-8\"?>".toList ++
        '\n' :: ("<!DOCTYPE TS>".toList ++
          '\n' :: ('<' :: ("TS".toList ++ (rootGiven catalog).raws.flatMap (·.written) ++
            '>' :: '\n' :: rootTail catalog.contexts))) := by
    unfold Writer.write Writer.rootAttributes rootGiven rootTail
    simp only [attributes, Given.written_single, String.toList_append, toList_join_map, prolog,
      tag, tagEnd, endTag, List.append_assoc, List.cons_append, List.nil_append]
  rw [layout, catalogFrom_declaration, catalogFrom_lineEnd skipsBlanks_prolog,
    catalogFrom_doctype, catalogFrom_lineEnd skipsBlanks_prolog,
    catalogFrom_startTag (by decide) (named_rootGiven catalog), step_openRoot]
  split
  · exact catalogFrom_lineEnd (skipsBlanks_root _) _ _
  · rfl

theorem catalogFrom_rootEnd (document : Document) :
    catalogFrom (.root document) ["TS".toList] (rootTail []) = some document.catalog := by
  have layout : rootTail [] = '<' :: '/' :: ("TS".toList ++ '>' :: ['\n']) := by
    simp [rootTail]
  rw [layout, catalogFrom_endTag (by decide)]
  refine (catalogFrom_lineEnd (skipsBlanks_epilog document) [] []).trans ?_
  exact catalogFrom_nil _ _

/-- The catalog as which a written catalog is read back. -/
def rereadCatalog (catalog : Catalog) : Catalog :=
  { catalog with contexts := catalog.contexts.map rereadContext }

/-- A written catalog is read back, but for the shapes of targets. -/
theorem catalogFrom_write {catalog : Catalog} (nullFree : (rootGiven catalog).NullFree)
    (writable : ∀ context ∈ catalog.contexts, ∀ message ∈ context.messages,
      MessageWritable message) :
    catalogFrom .prolog [] (Writer.write catalog).toList = some (rereadCatalog catalog) := by
  have tail : rootTail catalog.contexts =
      catalog.contexts.flatMap (fun context => (Writer.contextElement context).toList) ++
        rootTail [] := by
    simp [rootTail]
  rw [catalogFrom_toContexts, if_pos nullFree, tail, catalogFrom_contexts writable,
    catalogFrom_rootEnd]
  rfl

theorem dropByteOrderMark_write (catalog : Catalog) :
    dropByteOrderMark (Writer.write catalog).toList = (Writer.write catalog).toList := by
  have starts : ∃ rest, (Writer.write catalog).toList = '<' :: rest := by
    have prolog : Writer.prolog.toList = '<' :: Writer.prolog.toList.tail := rfl
    unfold Writer.write
    simp only [String.toList_append, List.append_assoc]
    rw [prolog]
    exact ⟨_, rfl⟩
  obtain ⟨rest, starts⟩ := starts
  rw [starts]
  rfl

theorem catalog_read_write (catalog : Catalog) :
    (Document.read (Writer.write catalog)).toOption.map (·.catalog) =
      catalogFrom .prolog [] (Writer.write catalog).toList := by
  rw [catalog_read, dropByteOrderMark_write]

end CatalogServer.Reader
