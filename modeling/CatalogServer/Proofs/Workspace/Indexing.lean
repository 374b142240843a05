import CatalogServer.Proofs.Workspace.Matching
import CatalogServer.Workspace.Indexing

/-!
# What indexing a folder finds

Indexing reaches the files that are searched below a folder and that the matcher
of the folder accepts.  A file is found at a path just if indexing reaches the
path and the disk holds a catalog there.
-/

namespace CatalogServer

/-- A folder is on the disk, at a place, and has a matcher. -/
structure Disk.Indexable (disk : Disk) (settings : Settings) (folder : String) (place : Place)
    (matcher : FileMatcher) : Prop where
  placed : disk.place folder = .ok place
  isFolder : disk.isFolder place = true
  given : FileMatcher.ofSettings folder settings = .ok matcher

/-- A path is that of a file which is searched below a folder and which the
matcher of the folder accepts. -/
def Disk.Reaches (disk : Disk) (settings : Settings) (folder path : String) : Prop :=
  ∃ place matcher, disk.Indexable settings folder place matcher ∧
    matcher.accepts path = true ∧
      ∃ file ∈ disk.search place, path = Path.join folder (Disk.relativePath place file)

/-- The file at a path can be read and looks like a catalog. -/
def Disk.HoldsCatalog (disk : Disk) (path text : String) : Prop :=
  disk.readText path = .ok text ∧ Detection.looksLikeCatalog text = true

/-- The catalog at a path is this file, with the language and the project that
are detected in it. -/
structure Disk.Loads (disk : Disk) (path : String) (file : CatalogFile) : Prop where
  path_eq : file.path = path
  holds : disk.HoldsCatalog path file.text
  language_eq : file.language = Detection.language path file.text
  project_eq : file.project = Detection.project path

namespace Indexing

variable {disk : Disk} {settings : Settings} {folder path : String}

theorem mem_candidatePaths {matcher : FileMatcher} {place : Place} :
    path ∈ candidatePaths disk matcher place ↔
      matcher.accepts path = true ∧ ∃ file ∈ disk.search place,
        path = Path.join matcher.root (Disk.relativePath place file) := by
  simp only [candidatePaths, List.mem_filter, List.mem_map, and_comm, @eq_comm _ path]

/-- What indexing reaches are the candidates below the folder. -/
theorem reaches_iff :
    disk.Reaches settings folder path ↔
      ∃ place matcher, disk.Indexable settings folder place matcher ∧
        path ∈ candidatePaths disk matcher place := by
  constructor
  · rintro ⟨place, matcher, indexable, found⟩
    refine ⟨place, matcher, indexable, mem_candidatePaths.mpr ?_⟩
    rwa [(FileMatcher.ofSettings_eq_ok indexable.given).2.2]
  · rintro ⟨place, matcher, indexable, candidate⟩
    have found := mem_candidatePaths.mp candidate
    rw [(FileMatcher.ofSettings_eq_ok indexable.given).2.2] at found
    exact ⟨place, matcher, indexable, found⟩

theorem indexFolder_eq_ok {found : IndexedFolder} :
    indexFolder disk settings folder = .ok found ↔
      ∃ place matcher, disk.Indexable settings folder place matcher ∧
        found = ⟨(candidatePaths disk matcher place).filterMap (loadCandidate? disk),
          (candidatePaths disk matcher place).length⟩ := by
  constructor
  · intro indexed
    unfold indexFolder at indexed
    dsimp only at indexed
    split at indexed
    · next place placed =>
        split at indexed
        · next isFolder =>
            obtain ⟨_, same, indexed⟩ := Except.bind_eq_ok indexed
            cases same
            obtain ⟨matcher, given, indexed⟩ := Except.bind_eq_ok indexed
            cases indexed
            exact ⟨place, matcher, ⟨placed, isFolder, Except.mapError_eq_ok given⟩, rfl⟩
        · cases indexed
    · cases indexed
  · rintro ⟨place, matcher, ⟨placed, isFolder, given⟩, rfl⟩
    unfold indexFolder
    dsimp only
    rw [placed, given]
    dsimp only
    rw [if_pos isFolder]
    rfl

theorem loadCandidate?_eq_some {file : CatalogFile} :
    loadCandidate? disk path = some file ↔
      ∃ text, disk.HoldsCatalog path text ∧ .ofText path text = file := by
  have loaded : loadCandidate? disk path =
      (disk.readText path).toOption.bind fun text =>
        if Detection.looksLikeCatalog text then some (.ofText path text) else none := by
    unfold loadCandidate? CatalogFile.load
    cases disk.readText path <;> rfl
  simp only [loaded, Option.bind_eq_some_iff, Except.toOption_eq_some_iff,
    Option.ite_none_right_eq_some, Option.some.injEq, Disk.HoldsCatalog, and_assoc]

theorem loads_iff {file : CatalogFile} :
    disk.Loads path file ↔ loadCandidate? disk path = some file := by
  rw [loadCandidate?_eq_some]
  constructor
  · rintro ⟨rfl, holds, language, project⟩
    refine ⟨file.text, holds, ?_⟩
    rw [CatalogFile.ofText, ← language, ← project]
  · rintro ⟨text, holds, rfl⟩
    exact ⟨rfl, holds, rfl, rfl⟩

end Indexing

end CatalogServer
