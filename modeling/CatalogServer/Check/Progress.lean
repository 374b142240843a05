import CatalogServer.Catalog.Lookup

/-!
# Progress of a catalog

The progress of a catalog counts its messages by what is left to do.
-/

namespace CatalogServer

/-- A target with text that is still marked unfinished can be marked as
finished. -/
def Message.canBeFinished (message : Message) : Bool :=
  message.target.status == .unfinished && !message.target.isEmpty

/-- Numbers of messages by what is left to do. -/
structure Progress where
  total : Nat := 0
  finished : Nat := 0
  unfinished : Nat := 0
  missing : Nat := 0
  obsolete : Nat := 0
  numerus : Nat := 0
  deriving DecidableEq, Repr

namespace Progress

def countTarget (progress : Progress) (target : Target) : Progress :=
  if !target.status.isActive then { progress with obsolete := progress.obsolete + 1 }
  else if target.isEmpty then { progress with missing := progress.missing + 1 }
  else if target.status == .unfinished then
    { progress with unfinished := progress.unfinished + 1 }
  else { progress with finished := progress.finished + 1 }

def count (progress : Progress) (message : Message) : Progress :=
  countTarget
    { progress with
      total := progress.total + 1
      numerus := progress.numerus + if message.numerus then 1 else 0 }
    message.target

def ofCatalog (catalog : Catalog) : Progress :=
  (catalog.entries.map (·.message)).foldl count {}

end Progress

end CatalogServer
