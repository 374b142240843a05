import CatalogServer.Catalog.Basic

/-!
# Finding messages

Messages are looked up by their place in a catalog or by their key.  Where
a key occurs more than once the first message in document order counts.
-/

namespace CatalogServer

/-- A message with its place and its context. -/
structure MessageEntry where
  index : MessageIndex
  context : Context
  message : Message
  deriving DecidableEq, Repr

def MessageEntry.key (entry : MessageEntry) : MessageKey :=
  entry.message.keyIn entry.context

namespace Catalog

/-- Entries of the messages of one context, numbered from `message`. -/
def entriesOfContext (number : Nat) (context : Context) :
    (message : Nat) → List Message → List MessageEntry
  | _, [] => []
  | message, first :: rest =>
      ⟨⟨number, message⟩, context, first⟩ ::
        entriesOfContext number context (message + 1) rest

/-- Entries of a list of contexts, numbered from `number`. -/
def entriesOfContexts : (number : Nat) → List Context → List MessageEntry
  | _, [] => []
  | number, context :: rest =>
      entriesOfContext number context 0 context.messages ++
        entriesOfContexts (number + 1) rest

def entries (catalog : Catalog) : List MessageEntry :=
  entriesOfContexts 0 catalog.contexts

def message? (catalog : Catalog) (index : MessageIndex) : Option Message := do
  let context ← catalog.contexts[index.context]?
  context.messages[index.message]?

def find? (catalog : Catalog) (key : MessageKey) : Option MessageEntry :=
  catalog.entries.find? (·.key == key)

/-- Adds an entry to a table of keys unless the key is already there. -/
def insertKey (table : List (MessageKey × MessageIndex)) (entry : MessageEntry) :
    List (MessageKey × MessageIndex) :=
  if table.any (·.1 == entry.key) then table else table ++ [(entry.key, entry.index)]

/-- The table from keys to places; the first message with a key counts. -/
def keyTable (catalog : Catalog) : List (MessageKey × MessageIndex) :=
  catalog.entries.foldl insertKey []

/-- The target text to show for a source text: that of the first finished,
non-empty message with this source in a context of the given name, or else
the source itself. -/
def lookupText (catalog : Catalog) (context source : String) : String :=
  let candidates := (catalog.contexts.filter (·.name == context)).flatMap (·.messages)
  let usable := candidates.find? fun message =>
    message.source == source && message.target.status == .finished &&
      !message.target.isEmpty
  match usable with
  | some message => message.target.display
  | none => source

end Catalog

end CatalogServer
