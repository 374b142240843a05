import CatalogServer.Proofs.Catalog.Comments
import CatalogServer.Proofs.Session.Tracking
import CatalogServer.Proofs.Workspace.Indexing
import CatalogServer.Proofs.Workspace.Sniffing

/-!
# Catalogs that are noticed

A text is looked at before anything else is done with it: when a folder is
indexed, when the editor opens a document, and when a file that changed is read
again.  A text that passes is tracked each time, so what has been shown of
looking at a text settles which documents the server notices.
-/

namespace CatalogServer

open Text Xml Reader Detection

/-- Wherever the server comes upon a text, it takes it for a catalog. -/
structure Noticed (text : String) : Prop where
  looked : looksLikeCatalog text = true
  /-- Indexing finds the files that hold it. -/
  indexed : ∀ disk path, disk.readText path = .ok text →
    Indexing.loadCandidate? disk path = some (.ofText path text)
  /-- It is tracked when a document with it is opened at an accepted path. -/
  opened : ∀ (session : Session) uri path, uri.filePath? = some path →
    session.acceptsPath path = true →
      .ofText path text ∈ (session.documentOpened uri text).session.tracked
  /-- It is tracked when a file with it is read again. -/
  reloaded : ∀ (session : Session) disk path, session.isOpenAt path = false →
    disk.readText path = .ok text → .ofText path text ∈ (session.reload disk path).tracked

theorem Session.mem_track_ofText (session : Session) (path text : String) :
    .ofText path text ∈ (session.track path text).tracked := by
  have here : (CatalogFile.ofText path text).path = path := rfl
  rw [mem_track, if_pos here]

theorem noticed_iff {text : String} : Noticed text ↔ looksLikeCatalog text = true := by
  refine ⟨Noticed.looked, fun looked => ⟨looked, ?_, ?_, ?_⟩⟩
  · intro disk path held
    exact Indexing.loadCandidate?_eq_some.mpr ⟨text, ⟨held, looked⟩, rfl⟩
  · intro session uri path lies accepts
    have stillAccepts : (session.openDocument ⟨uri, text⟩).acceptsPath path = true := accepts
    simp only [Session.documentOpened, Session.updateDocument, lies, looked, stillAccepts,
      Bool.and_self, if_true]
    exact Session.mem_track_ofText _ path text
  · intro session disk path closed held
    simp only [Session.reload, closed, held, looked, if_true]
    exact Session.mem_track_ofText _ path text

/-- A document that is read is noticed if a marker stands within the limit in
front of its root, or if its root does and has one of the common spellings.  If
the root reaches the limit, a marker in front of it is the only way. -/
theorem Document.noticed_of_read {text : String} {document : Document}
    (read : Document.read text = .ok document) :
    ∃ prolog separator behind, RootStands text document prolog separator behind ∧
      (hasMarker (prolog.take searchedLength) = true → Noticed text) ∧
      (prolog.length + 4 ≤ searchedLength → separator ∈ ['>', ' ', '\n'] → Noticed text) ∧
      (searchedLength < prolog.length + 4 →
        (Noticed text ↔ hasMarker (prolog.take searchedLength) = true)) := by
  obtain ⟨prolog, separator, behind, stands⟩ := rootStands_of_read read
  refine ⟨prolog, separator, behind, stands, ?_⟩
  rw [noticed_iff, looksLikeCatalog_eq read]
  exact ⟨stands.hasMarker_of_prolog, stands.hasMarker_of_near,
    fun far => by rw [stands.hasMarker_of_far far]⟩

def bareText : String :=
  "<TS></TS>"

theorem noticed_bareText :
    (Document.read bareText).toOption.isSome = true ∧ Noticed bareText := by
  have placed : (Document.read bareText).toOption.map (·.spans.root.start) = some 0 := by
    decide +kernel
  obtain ⟨document, read, start⟩ := Except.toOption_map_eq_some_iff.mp placed
  refine ⟨by rw [read]; rfl, ?_⟩
  obtain ⟨prolog, separator, behind, stands, -, near, -⟩ :=
    Document.noticed_of_read read
  have parted := stands.parted
  have place := stands.place
  have shown : head bareText = dropByteOrderMark bareText.toList := by decide +kernel
  rw [start, ← shown, parted, byteSize_append, Nat.add_right_cancel_iff] at place
  obtain rfl : prolog = [] := by
    by_contra nonempty
    exact absurd place (byteSize_pos nonempty).ne'
  have third : (head bareText)[3]? = some '>' := by decide +kernel
  rw [parted] at third
  obtain rfl : separator = '>' := Option.some.inj third
  exact near (by decide) (by decide)

/-- A document whose root stands behind a comment that fills the limit. -/
def farText : String :=
  "<!--" ++ String.ofList (List.replicate searchedLength 'a') ++ "-->" ++ bareText

theorem toList_farText : farText.toList =
    "<!--".toList ++ List.replicate searchedLength 'a' ++ "-->".toList ++ bareText.toList := by
  simp [farText]

/-- Not every document that is read looks like a catalog. -/
theorem not_looksLikeCatalog_farText :
    ¬ ∀ text document, Document.read text = .ok document → looksLikeCatalog text = true := by
  intro looks
  have unmarked : farText.toList.head? ≠ some '\uFEFF' := by
    rw [toList_farText]
    decide +kernel
  have catalog : (Document.read farText).toOption.map (·.catalog) = some {} := by
    rw [catalog_read, dropByteOrderMark_of_head unmarked, toList_farText,
      catalogFrom_comment (by simp [List.mem_replicate])]
    have plain : bareText.toList = dropByteOrderMark bareText.toList := by decide +kernel
    rw [plain, ← catalog_read]
    decide +kernel
  obtain ⟨document, read, -⟩ := Except.toOption_map_eq_some_iff.mp catalog
  have missed : hasMarker ((head farText).take searchedLength) = false := by
    rw [head, toList_farText]
    decide +kernel
  have seen := looks _ _ read
  rw [looksLikeCatalog_eq read, missed] at seen
  cases seen

end CatalogServer
