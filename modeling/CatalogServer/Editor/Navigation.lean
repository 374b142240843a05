import CatalogServer.Editor.Geometry
import CatalogServer.Workspace.Detection

/-!
# Finding a message in other files

The message under a cursor is found in every other catalog by its key.  Its
definitions are the same message in the other catalogs of the project, its
references are all its occurrences in the workspace.
-/

namespace CatalogServer

open Text

namespace CatalogFile

def keyAt? (file : CatalogFile) (position : Position) : Option MessageKey := do
  let document ← file.document?
  let offset ← LineIndex.offset file.text.toList position
  let index ← document.spans.messageAt? offset
  let context ← document.catalog.contexts[index.context]?
  let message ← context.messages[index.message]?
  some (message.keyIn context)

/-- The range of the source element of the message with a key. -/
def sourceRange? (file : CatalogFile) (key : MessageKey) : Option Range := do
  let document ← file.document?
  let located ← document.locate? key
  some (LineIndex.range file.text.toList located.source)

/-- Where the message with a key stands in a file. -/
def location? (file : CatalogFile) (key : MessageKey) : Option Location := do
  let range ← file.sourceRange? key
  let uri ← Uri.ofFilePath? file.path
  some ⟨uri, range⟩

def isAtMost (first second : CatalogFile) : Bool :=
  decide (first.path ≤ second.path)

end CatalogFile

namespace Navigation

/-- All occurrences of a message in files, in the order of their paths. -/
def references (key : MessageKey) (files : List CatalogFile) : List Location :=
  (files.mergeSort CatalogFile.isAtMost).filterMap (·.location? key)

/-- The same message in the other catalogs of a project; `others` are the
other files of the workspace. -/
def definitions (key : MessageKey) (project : String) (others : List CatalogFile) :
    List Location :=
  references key (others.filter (·.project == project))

end Navigation

end CatalogServer
