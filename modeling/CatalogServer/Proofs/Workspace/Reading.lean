import CatalogServer.Proofs.Session.Detected
import CatalogServer.Workspace.Reading

/-!
# Indexing in any order of reading

Whatever order the candidates of a folder are read in, each of them is taken
once.  So the files that are loaded are the same in every run, up to their
order, the reports count the candidates from the first to the last, and merging
the files into the tracked ones leads to the same files.  A run comes to an end
in any case: every candidate begins and ends once, and as long as there is room
for one to begin or one to end, the run goes on.  A run that fails does so before
it has tracked or reported anything.
-/

namespace CatalogServer.Indexing

open Relation

variable {disk : Disk} {settings : Settings} {root : String} {paths : List String}
  {limit total : Nat}

namespace Reading

variable {reading next last : Reading}

/-- Some candidates were taken, in some order, and the others are still to be
read. -/
def Accounts (disk : Disk) (paths : List String) (total : Nat) (reading : Reading) : Prop :=
  ∃ taken : List String, (taken ++ (reading.begun ++ reading.waiting)).Perm paths ∧
    reading.loaded = taken.filterMap (loadCandidate? disk) ∧
    reading.current = reported taken.length ∧
    reading.reports = (List.range taken.length).map fun number => (reported (number + 1), total)

theorem reported_succ (number : Nat) : reported (reported number + 1) = reported (number + 1) := by
  unfold reported
  omega

theorem accounts_start (disk : Disk) (paths : List String) (total : Nat) :
    Accounts disk paths total { waiting := paths } :=
  ⟨[], .refl _, rfl, rfl, rfl⟩

theorem Accounts.step (accounts : reading.Accounts disk paths total)
    (step : Step disk limit total reading next) : next.Accounts disk paths total := by
  obtain ⟨taken, parted, loaded, current, reports⟩ := accounts
  cases step with
  | @begins path rest waits room =>
      refine ⟨taken, ?_, loaded, current, reports⟩
      rw [waits] at parted
      simpa using parted
  | @ends path begun =>
      refine ⟨taken ++ [path], ?_, ?_, ?_, ?_⟩
      · have moved : (taken ++ [path] ++ (reading.begun.erase path ++ reading.waiting)).Perm
            (taken ++ (reading.begun ++ reading.waiting)) := by
          rw [List.append_assoc]
          exact ((List.perm_cons_erase begun).symm.append_right _).append_left taken
        exact moved.trans parted
      · rw [take, loaded, List.filterMap_append]
        cases candidate : loadCandidate? disk path <;> simp [candidate]
      · rw [take, current, reported_succ, List.length_append, List.length_singleton]
      · rw [take, reports, current, reported_succ, List.length_append, List.length_singleton,
          List.range_succ, List.map_append]
        rfl

theorem accounts_of_run (run : ReflTransGen (Step disk limit total) { waiting := paths } last) :
    last.Accounts disk paths total := by
  induction run with
  | refl => exact accounts_start disk paths total
  | tail _ step ih => exact ih.step step

/-- When all candidates are taken, each of them was taken and counted once. -/
theorem exists_taken_of_finished
    (run : ReflTransGen (Step disk limit total) { waiting := paths } last)
    (finished : last.Finished) :
    ∃ taken : List String, taken.Perm paths ∧
      last.loaded = taken.filterMap (loadCandidate? disk) ∧
      last.reports = (List.range paths.length).map fun number => (reported (number + 1), total) := by
  obtain ⟨taken, parted, loaded, -, reports⟩ := accounts_of_run run
  rw [finished.1, finished.2, List.append_nil, List.append_nil] at parted
  exact ⟨taken, parted, loaded, parted.length_eq ▸ reports⟩

/-- How much is still to happen: each candidate begins and ends once. -/
def remaining (reading : Reading) : Nat :=
  2 * reading.waiting.length + reading.begun.length

theorem Step.remaining_eq (step : Step disk limit total reading next) :
    reading.remaining = next.remaining + 1 := by
  cases step with
  | begins waits room =>
      simp only [remaining, waits, List.length_cons, List.length_append, List.length_nil]
      omega
  | @ends path begun =>
      have positive := List.length_pos_of_mem begun
      simp only [remaining, take, List.length_erase_of_mem begun]
      omega

/-- Reading is never stuck. -/
theorem exists_step (room : 0 < limit) (unfinished : ¬reading.Finished) :
    ∃ next, Step disk limit total reading next := by
  cases begunEq : reading.begun with
  | nil =>
      cases waits : reading.waiting with
      | nil => exact absurd ⟨waits, begunEq⟩ unfinished
      | cons path rest => exact ⟨_, .begins waits (by rw [begunEq]; exact room)⟩
  | cons path rest => exact ⟨_, .ends (begunEq ▸ List.mem_cons_self)⟩

theorem exists_finished (room : 0 < limit) (reading : Reading) :
    ∃ last, ReflTransGen (Step disk limit total) reading last ∧ last.Finished := by
  induction remains : reading.remaining using Nat.strongRecOn generalizing reading with
  | ind number ih =>
      by_cases finished : reading.Finished
      · exact ⟨reading, .refl, finished⟩
      · obtain ⟨next, step⟩ : ∃ next, Step disk limit total reading next :=
          exists_step room finished
        have fewer : next.remaining < number := by
          have counted := step.remaining_eq
          omega
        obtain ⟨last, run, finished⟩ := ih _ fewer next rfl
        exact ⟨last, .head step run, finished⟩

end Reading

theorem readingLimit_pos (settings : Settings) (cores : Nat) : 0 < readingLimit settings cores := by
  unfold readingLimit
  omega

theorem indexFolder_eq :
    indexFolder disk settings root = (candidates disk settings root).map fun paths =>
      ⟨paths.filterMap (loadCandidate? disk), paths.length⟩ := by
  unfold indexFolder candidates
  cases disk.place root with
  | error error => rfl
  | ok place =>
      dsimp only
      cases disk.isFolder place with
      | false => rfl
      | true => cases FileMatcher.ofSettings root settings <;> rfl

theorem candidates_eq_ok :
    candidates disk settings root = .ok paths ↔
      ∃ place matcher, disk.Indexable settings root place matcher ∧
        paths = candidatePaths disk matcher place := by
  constructor
  · intro found
    have indexed : indexFolder disk settings root =
        .ok ⟨paths.filterMap (loadCandidate? disk), paths.length⟩ := by
      rw [indexFolder_eq, found]
      rfl
    obtain ⟨place, matcher, indexable, -⟩ := indexFolder_eq_ok.mp indexed
    refine ⟨place, matcher, indexable, ?_⟩
    unfold candidates at found
    rw [indexable.placed, indexable.given] at found
    dsimp only at found
    rw [if_pos indexable.isFolder] at found
    exact (Except.ok.inj found).symm
  · rintro ⟨place, matcher, ⟨placed, isFolder, given⟩, rfl⟩
    unfold candidates
    rw [placed, given]
    dsimp only
    rw [if_pos isFolder]
    rfl

/-- The candidates are the paths that indexing reaches. -/
theorem mem_candidates_iff (found : candidates disk settings root = .ok paths) {path : String} :
    path ∈ paths ↔ disk.Reaches settings root path := by
  obtain ⟨place, matcher, indexable, rfl⟩ := candidates_eq_ok.mp found
  rw [reaches_iff]
  constructor
  · exact fun candidate => ⟨place, matcher, indexable, candidate⟩
  · rintro ⟨other, otherMatcher, otherIndexable, candidate⟩
    cases indexable.placed.symm.trans otherIndexable.placed
    cases indexable.given.symm.trans otherIndexable.given
    exact candidate

theorem not_indexable_of_refused {error : IndexingError}
    (refused : candidates disk settings root = .error error) {place : Place}
    {matcher : FileMatcher} : ¬disk.Indexable settings root place matcher := by
  intro indexable
  have found := candidates_eq_ok.mpr ⟨place, matcher, indexable, rfl⟩
  cases found.symm.trans refused

section Running

variable {cores : Nat} {tracked after : List CatalogFile} {reports : List (Nat × Nat)}
  {run next : Run}

/-- What was done in each phase of indexing a folder. -/
inductive Run.Proper (disk : Disk) (settings : Settings) (root : String) (cores : Nat)
    (tracked : List CatalogFile) : Run → Prop
  | begins : Proper disk settings root cores tracked { tracked := tracked }
  | failed {error : IndexingError} (refused : candidates disk settings root = .error error) :
      Proper disk settings root cores tracked
        { tracked := tracked, phase := .ended (.error error) }
  | reads {paths : List String} {reading : Reading}
      (found : candidates disk settings root = .ok paths)
      (read : ReflTransGen (Reading.Step disk (readingLimit settings cores)
        (reported paths.length)) { waiting := paths } reading) :
      Proper disk settings root cores tracked ⟨tracked, reading, .reads (reported paths.length)⟩
  | merged {paths : List String} {reading : Reading}
      (found : candidates disk settings root = .ok paths)
      (read : ReflTransGen (Reading.Step disk (readingLimit settings cores)
        (reported paths.length)) { waiting := paths } reading)
      (finished : reading.Finished) :
      Proper disk settings root cores tracked
        ⟨merge tracked reading.loaded, reading, .ended (.ok ())⟩

theorem Step.not_ended (step : Step disk settings root cores run next)
    {outcome : Except IndexingError Unit} : run.phase ≠ .ended outcome := by
  cases step with
  | fails begins | finds begins =>
      rw [begins]
      rintro ⟨⟩
  | reads reads | merges reads =>
      rw [reads]
      rintro ⟨⟩

theorem Run.Proper.step (proper : run.Proper disk settings root cores tracked)
    (step : Step disk settings root cores run next) :
    next.Proper disk settings root cores tracked := by
  cases proper with
  | begins =>
      cases step with
      | fails begins refused => exact .failed refused
      | finds begins found => exact .reads found .refl
      | reads reads => cases reads
      | merges reads => cases reads
  | failed => exact absurd rfl step.not_ended
  | reads found read =>
      cases step with
      | fails begins => cases begins
      | finds begins => cases begins
      | reads reads step =>
          cases reads
          exact .reads found (read.tail step)
      | merges reads finished => exact .merged found read finished
  | merged => exact absurd rfl step.not_ended

theorem proper_of_run
    (runs : ReflTransGen (Step disk settings root cores) { tracked := tracked } run) :
    run.Proper disk settings root cores tracked := by
  induction runs with
  | refl => exact .begins
  | tail _ step ih => exact ih.step step

/-- Indexing fails only when there are no candidates to be read, and leaves
everything as it was. -/
theorem Indexes.of_error {error : IndexingError}
    (indexes : Indexes disk settings root cores tracked (.error error) after reports) :
    candidates disk settings root = .error error ∧ after = tracked ∧ reports = [] := by
  obtain ⟨last, runs, ended, rfl, rfl⟩ := indexes
  cases proper_of_run runs with
  | begins | reads => cases ended
  | failed refused =>
      cases ended
      exact ⟨refused, rfl, rfl⟩
  | merged => cases ended

theorem Indexes.of_ok
    (indexes : Indexes disk settings root cores tracked (.ok ()) after reports) :
    ∃ paths reading, candidates disk settings root = .ok paths ∧
      ReflTransGen (Reading.Step disk (readingLimit settings cores) (reported paths.length))
        { waiting := paths } reading ∧
      reading.Finished ∧ after = merge tracked reading.loaded ∧ reports = reading.reports := by
  obtain ⟨last, runs, ended, rfl, rfl⟩ := indexes
  cases proper_of_run runs with
  | begins | reads | failed => cases ended
  | merged found read finished => exact ⟨_, _, found, read, finished, rfl, rfl⟩

theorem exists_indexes (disk : Disk) (settings : Settings) (root : String) (cores : Nat)
    (tracked : List CatalogFile) :
    ∃ outcome after reports, Indexes disk settings root cores tracked outcome after reports := by
  cases found : candidates disk settings root with
  | error error => exact ⟨_, _, _, _, .single (.fails rfl found), rfl, rfl, rfl⟩
  | ok paths =>
      obtain ⟨last, read, finished⟩ : ∃ last, ReflTransGen (Reading.Step disk
          (readingLimit settings cores) (reported paths.length)) { waiting := paths } last ∧
            last.Finished :=
        Reading.exists_finished (readingLimit_pos settings cores) _
      have reads : ReflTransGen (Step disk settings root cores)
          ⟨tracked, { waiting := paths }, .reads (reported paths.length)⟩
          ⟨tracked, last, .reads (reported paths.length)⟩ := by
        clear finished
        induction read with
        | refl => exact .refl
        | tail _ step ih => exact ih.tail (.reads rfl step)
      exact ⟨_, _, _, _, .head (.finds rfl found) (reads.tail (.merges rfl finished)),
        rfl, rfl, rfl⟩

end Running

/-- The reports on some candidates, from the first to the last. -/
def allReports (count : Nat) : List (Nat × Nat) :=
  (List.range count).map fun number => (reported (number + 1), reported count)

theorem allReports_of_le {count : Nat} (small : count ≤ 4294967295) :
    allReports count = (List.range count).map fun number => (number + 1, count) := by
  refine List.map_congr_left fun number member => ?_
  have below := List.mem_range.mp member
  unfold reported
  rw [Prod.mk.injEq]
  omega

/-- The files and the reports after the candidates at some paths were read. -/
structure MergesExactly (disk : Disk) (paths : List String) (tracked after : List CatalogFile)
    (reports : List (Nat × Nat)) : Prop where
  /-- Tracked are the files at whose paths no catalog was read, as before, and a
  file for each path at which one was read. -/
  mem {file : CatalogFile} : file ∈ after ↔
    file ∈ tracked ∧ ¬(file.path ∈ paths ∧ ∃ text, disk.HoldsCatalog file.path text) ∨
      ∃ path ∈ paths, disk.Loads path file
  distinct : after.Pairwise fun first second => first.path ≠ second.path
  reports_eq : reports = allReports paths.length
  counted : paths.length ≤ 4294967295 →
    reports = (List.range paths.length).map fun number => (number + 1, paths.length)

section Merging

variable {tracked after loaded : List CatalogFile} {taken : List String}
  {reports : List (Nat × Nat)}

theorem mem_merge_loaded (perm : taken.Perm paths) {file : CatalogFile} :
    file ∈ merge tracked (taken.filterMap (loadCandidate? disk)) ↔
      file ∈ tracked ∧ ¬(file.path ∈ paths ∧ ∃ text, disk.HoldsCatalog file.path text) ∨
        ∃ path ∈ paths, disk.Loads path file := by
  have loaded {other : CatalogFile} : other ∈ taken.filterMap (loadCandidate? disk) ↔
      ∃ path ∈ paths, disk.Loads path other := by
    simp only [List.mem_filterMap, perm.mem_iff, loads_iff]
  have replaced : (taken.filterMap (loadCandidate? disk)).any (·.path == file.path) = true ↔
      file.path ∈ paths ∧ ∃ text, disk.HoldsCatalog file.path text := by
    simp only [List.any_eq_true, loaded, beq_iff_eq]
    constructor
    · rintro ⟨other, ⟨path, pathMem, loads⟩, samePath⟩
      rw [← samePath, loads.path_eq]
      exact ⟨pathMem, _, loads.holds⟩
    · rintro ⟨pathMem, text, holds⟩
      exact ⟨.ofText file.path text, ⟨file.path, pathMem, rfl, holds, rfl, rfl⟩, rfl⟩
  rw [merge, List.mem_append, List.mem_filter, loaded, Bool.not_eq_true', ← Bool.not_eq_true,
    replaced]

/-- The order in which files were loaded does not matter for what they are
merged into, but for the order of the list. -/
theorem merge_perm {found : List CatalogFile} (perm : loaded.Perm found) :
    (merge tracked loaded).Perm (merge tracked found) := by
  have sameKept : (fun file : CatalogFile => !loaded.any (·.path == file.path)) =
      fun file => !found.any (·.path == file.path) := by
    funext file
    rw [perm.any_eq]
  rw [merge, merge, sameKept]
  exact perm.append_left _

/-- Whatever order the candidates were read in, the files that were loaded are
merged exactly. -/
theorem mergesExactly_of_taken
    (distinct : tracked.Pairwise fun first second => first.path ≠ second.path)
    (distinctPaths : paths.Nodup) (perm : taken.Perm paths) :
    MergesExactly disk paths tracked (merge tracked (taken.filterMap (loadCandidate? disk)))
      (allReports paths.length) := by
  refine ⟨mem_merge_loaded perm, pairwise_merge distinct ?_, rfl, allReports_of_le⟩
  exact pairwise_loaded (perm.nodup_iff.mpr distinctPaths)

theorem MergesExactly.again {afterAgain : List CatalogFile} {reportsAgain : List (Nat × Nat)}
    (first : MergesExactly disk paths tracked after reports)
    (second : MergesExactly disk paths after afterAgain reportsAgain) (file : CatalogFile) :
    file ∈ afterAgain ↔ file ∈ after := by
  rw [second.mem, first.mem]
  tauto

end Merging

/-- Indexing a folder comes to an end.  It fails only for a folder that cannot be
indexed, which leaves the tracked files as they were and reports nothing.
Otherwise all files are read and merged exactly that are searched below the
folder and accepted by its matcher, as they are when the folder is indexed at
once, and indexing it again leads to the same files. -/
theorem indexes_exactly (plain : disk.PlainNames) {tracked : List CatalogFile}
    (distinct : tracked.Pairwise fun first second => first.path ≠ second.path)
    (settings : Settings) (root : String) (cores : Nat) :
    (∃ outcome after reports, Indexes disk settings root cores tracked outcome after reports) ∧
      (∀ error after reports,
        Indexes disk settings root cores tracked (.error error) after reports →
          after = tracked ∧ reports = [] ∧
            ∀ place matcher, ¬disk.Indexable settings root place matcher) ∧
      ∀ after reports, Indexes disk settings root cores tracked (.ok ()) after reports →
        ∃ paths found, paths.Nodup ∧
          (∀ path, path ∈ paths ↔ disk.Reaches settings root path) ∧
          MergesExactly disk paths tracked after reports ∧
          indexFolder disk settings root = .ok found ∧ after.Perm (merge tracked found.files) ∧
          ∀ coresAgain outcome afterAgain reportsAgain,
            Indexes disk settings root coresAgain after outcome afterAgain reportsAgain →
              outcome = .ok () ∧ ∀ file, file ∈ afterAgain ↔ file ∈ after := by
  refine ⟨exists_indexes disk settings root cores tracked, ?_, ?_⟩
  · intro error after reports indexes
    obtain ⟨refused, same, unreported⟩ := indexes.of_error
    exact ⟨same, unreported, fun _ _ => not_indexable_of_refused refused⟩
  · intro after reports indexes
    obtain ⟨paths, reading, found, read, finished, rfl, rfl⟩ := indexes.of_ok
    have distinctPaths : paths.Nodup := by
      obtain ⟨place, matcher, -, rfl⟩ := candidates_eq_ok.mp found
      exact pairwise_candidatePaths (Disk.distinctPaths_of_plainNames plain) matcher place
    obtain ⟨taken, perm, loaded, reports⟩ := Reading.exists_taken_of_finished read finished
    have merges : MergesExactly disk paths tracked (merge tracked reading.loaded)
        reading.reports := by
      rw [loaded, reports]
      exact mergesExactly_of_taken distinct distinctPaths perm
    have indexed : indexFolder disk settings root =
        .ok ⟨paths.filterMap (loadCandidate? disk), paths.length⟩ := by
      rw [indexFolder_eq, found]
      rfl
    refine ⟨paths, _, distinctPaths, fun path => mem_candidates_iff found, merges, indexed, ?_, ?_⟩
    · rw [loaded]
      exact merge_perm (perm.filterMap _)
    · intro coresAgain outcome afterAgain reportsAgain indexesAgain
      cases outcome with
      | error error => cases found.symm.trans indexesAgain.of_error.1
      | ok =>
          obtain ⟨pathsAgain, readingAgain, foundAgain, readAgain, finishedAgain, rfl, rfl⟩ :=
            indexesAgain.of_ok
          cases found.symm.trans foundAgain
          obtain ⟨takenAgain, permAgain, loadedAgain, -⟩ :=
            Reading.exists_taken_of_finished readAgain finishedAgain
          have mergesAgain : MergesExactly disk paths (merge tracked reading.loaded)
              (merge (merge tracked reading.loaded) readingAgain.loaded)
              (allReports paths.length) := by
            rw [loadedAgain]
            exact mergesExactly_of_taken merges.distinct distinctPaths permAgain
          exact ⟨rfl, merges.again mergesAgain⟩

/-- A folder with a catalog, a file of a program, which has the same extension,
and another catalog that is excluded. -/
def programDisk : Disk :=
  ((Server.catalogFolder "<TS></TS>").disk.write ["ws", "b.ts"]
    (Text.encode "let a".toList)).write ["ws", "target", "c.ts"] (Text.encode "<TS></TS>".toList)

/-- Tracked are an earlier text of the catalog and a file of another folder. -/
def earlierFiles : List CatalogFile :=
  [.ofText "/ws/a.ts" "<TS/>", .ofText "/c.ts" "<TS></TS>"]

theorem candidates_programDisk :
    candidates programDisk {} "/ws" = .ok ["/ws/a.ts", "/ws/b.ts"] :=
  Except.toOption_eq_some_iff.mp (by decide +kernel)

/-- Both candidates are reported, and the catalog takes the place of its earlier
text.  The other catalog is found by the search, but it is no candidate. -/
theorem indexes_programDisk :
    programDisk.PlainNames ∧
      (earlierFiles.Pairwise fun first second => first.path ≠ second.path) ∧
      (∃ after reports, Indexes programDisk {} "/ws" 4 earlierFiles (.ok ()) after reports) ∧
      ["ws", "target", "c.ts"] ∈ programDisk.search ["ws"] ∧
      programDisk.HoldsCatalog "/ws/target/c.ts" "<TS></TS>" ∧
      ∀ after reports, Indexes programDisk {} "/ws" 4 earlierFiles (.ok ()) after reports →
        reports = [(1, 2), (2, 2)] ∧ .ofText "/c.ts" "<TS></TS>" ∈ after ∧
          (∀ file ∈ after, file.path = "/ws/a.ts" → file = .ofText "/ws/a.ts" "<TS></TS>") ∧
          ∀ file ∈ after, file.path ≠ "/ws/target/c.ts" := by
  have plain : programDisk.PlainNames := by decide +kernel
  have distinct : earlierFiles.Pairwise fun first second => first.path ≠ second.path := by
    decide +kernel
  have holds {path : String} (read : (programDisk.readText path).toOption = some "<TS></TS>") :
      programDisk.HoldsCatalog path "<TS></TS>" :=
    ⟨Except.toOption_eq_some_iff.mp read, by decide +kernel⟩
  obtain ⟨⟨outcome, after, reports, indexes⟩, fails, exactly⟩ :=
    indexes_exactly plain distinct {} "/ws" 4
  have succeeds : outcome = .ok () := by
    cases outcome with
    | error error =>
        obtain ⟨place, matcher, indexable, -⟩ := candidates_eq_ok.mp candidates_programDisk
        exact absurd indexable ((fails error after reports indexes).2.2 place matcher)
    | ok => rfl
  refine ⟨plain, distinct, ⟨after, reports, succeeds ▸ indexes⟩, by decide +kernel,
    holds (by decide +kernel), ?_⟩
  intro after reports indexes
  obtain ⟨paths, -, once, reached, merges, -⟩ := exactly after reports indexes
  have perm : paths.Perm ["/ws/a.ts", "/ws/b.ts"] := by
    refine (List.perm_ext_iff_of_nodup once (by decide)).mpr fun path => ?_
    rw [reached, mem_candidates_iff candidates_programDisk]
  refine ⟨?_, ?_, ?_, ?_⟩
  · have counted := merges.counted (by rw [perm.length_eq]; decide)
    rwa [perm.length_eq] at counted
  · refine merges.mem.mpr (.inl ⟨by decide +kernel, ?_⟩)
    rintro ⟨candidate, -⟩
    exact absurd (perm.mem_iff.mp candidate) (by decide +kernel)
  · intro file fileMem here
    have catalog : programDisk.HoldsCatalog "/ws/a.ts" "<TS></TS>" := holds (by decide +kernel)
    rcases merges.mem.mp fileMem with ⟨-, unread⟩ | ⟨path, -, loads⟩
    · exact absurd ⟨here ▸ perm.mem_iff.mpr List.mem_cons_self, _, here ▸ catalog⟩ unread
    · obtain rfl : path = "/ws/a.ts" := loads.path_eq.symm.trans here
      obtain ⟨text, other, rfl⟩ := loadCandidate?_eq_some.mp (loads_iff.mp loads)
      cases catalog.1.symm.trans other.1
      rfl
  · rintro file fileMem here
    rcases merges.mem.mp fileMem with ⟨earlier, -⟩ | ⟨path, pathMem, loads⟩
    · have elsewhere : ∀ file ∈ earlierFiles, file.path ≠ "/ws/target/c.ts" := by decide +kernel
      exact elsewhere file earlier here
    · have excluded : "/ws/target/c.ts" ∉ ["/ws/a.ts", "/ws/b.ts"] := by decide +kernel
      rw [loads.path_eq.symm.trans here] at pathMem
      exact excluded (perm.mem_iff.mp pathMem)

end CatalogServer.Indexing
