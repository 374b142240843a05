import CatalogServer.Workspace.Indexing
import Mathlib.Logic.Relation

/-!
# Reading candidates at the same time

Indexing a folder looks for its candidates first, which may fail.  It reads
several of them at once, and takes the file of each when its reading ends, in
whatever order that happens.  Each candidate that is taken is reported, whether
it is a catalog or not.  When all of them are taken, the files are merged into
those that are tracked.

Indexing a folder at once, as `Indexing.indexFolder` does, takes the candidates
in the order of their paths.
-/

namespace CatalogServer.Indexing

/-- The paths of the candidates in a folder.  They are known before anything is
read. -/
def candidates (disk : Disk) (settings : Settings) (root : String) :
    Except IndexingError (List String) := do
  let folder ←
    match disk.place root with
    | .ok place => if disk.isFolder place then .ok place else .error (.invalidFolder root)
    | .error _ => .error (.invalidFolder root)
  let matcher ← (FileMatcher.ofSettings root settings).mapError .matcher
  return candidatePaths disk matcher folder

/-- How many candidates are read at once: the threads of the settings, or four
fifths of the cores, and one at least. -/
def readingLimit (settings : Settings) (cores : Nat) : Nat :=
  max (settings.indexing.threads.getD (cores * 4 / 5)) 1

/-- A number of candidates as it is reported.  Reports have 32 bits for it, and
larger numbers stay at the largest one. -/
def reported (number : Nat) : Nat :=
  min number 4294967295

/-- The state of reading candidates. -/
structure Reading where
  waiting : List String := []
  begun : List String := []
  loaded : List CatalogFile := []
  current : Nat := 0
  /-- The reports so far: how many candidates were taken, of how many. -/
  reports : List (Nat × Nat) := []
  deriving DecidableEq, Repr

namespace Reading

def Finished (reading : Reading) : Prop :=
  reading.waiting = [] ∧ reading.begun = []

/-- Takes the candidate at a path, whose reading ended. -/
def take (disk : Disk) (total : Nat) (path : String) (reading : Reading) : Reading :=
  let current := reported (reading.current + 1)
  { reading with
    begun := reading.begun.erase path
    loaded := reading.loaded ++ (loadCandidate? disk path).toList
    current := current
    reports := reading.reports ++ [(current, total)] }

/-- What can happen while candidates are read. -/
inductive Step (disk : Disk) (limit total : Nat) : Reading → Reading → Prop
  /-- The reading of the next candidate begins, if there is room for it. -/
  | begins {reading : Reading} {path : String} {rest : List String}
      (waits : reading.waiting = path :: rest) (room : reading.begun.length < limit) :
      Step disk limit total reading
        { reading with waiting := rest, begun := reading.begun ++ [path] }
  /-- The reading of any candidate ends that has begun. -/
  | ends {reading : Reading} {path : String} (begun : path ∈ reading.begun) :
      Step disk limit total reading (reading.take disk total path)

end Reading

/-- How far indexing a folder has come. -/
inductive Phase where
  | begins
  /-- The candidates are read, of which the reports tell this number. -/
  | reads (total : Nat)
  | ended (outcome : Except IndexingError Unit)

/-- The state of indexing a folder. -/
structure Run where
  tracked : List CatalogFile
  reading : Reading := {}
  phase : Phase := .begins

/-- What can happen while a folder is indexed. -/
inductive Step (disk : Disk) (settings : Settings) (root : String) (cores : Nat) :
    Run → Run → Prop
  | fails {run : Run} {error : IndexingError} (begins : run.phase = .begins)
      (refused : candidates disk settings root = .error error) :
      Step disk settings root cores run { run with phase := .ended (.error error) }
  | finds {run : Run} {paths : List String} (begins : run.phase = .begins)
      (found : candidates disk settings root = .ok paths) :
      Step disk settings root cores run
        { run with
          reading := { run.reading with waiting := paths }
          phase := .reads (reported paths.length) }
  | reads {run : Run} {total : Nat} {next : Reading} (reads : run.phase = .reads total)
      (step : Reading.Step disk (readingLimit settings cores) total run.reading next) :
      Step disk settings root cores run { run with reading := next }
  | merges {run : Run} {total : Nat} (reads : run.phase = .reads total)
      (finished : run.reading.Finished) :
      Step disk settings root cores run
        { run with
          tracked := merge run.tracked run.reading.loaded
          phase := .ended (.ok ()) }

/-- Indexing a folder with some files tracked can have this outcome, leave
these files tracked and report these numbers. -/
def Indexes (disk : Disk) (settings : Settings) (root : String) (cores : Nat)
    (tracked : List CatalogFile) (outcome : Except IndexingError Unit)
    (after : List CatalogFile) (reports : List (Nat × Nat)) : Prop :=
  ∃ last, Relation.ReflTransGen (Step disk settings root cores) { tracked := tracked } last ∧
    last.phase = .ended outcome ∧ last.tracked = after ∧ last.reading.reports = reports

end CatalogServer.Indexing
