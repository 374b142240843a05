import CatalogServer.Proofs.Session.Refusals

/-!
# Indexing and following judge paths alike

Indexing a folder asks the matcher of this folder whether a path is that of a
catalog file; following the editor and the disk asks the matcher of the root
folder that the session remembers, or looks at the extension when there is
none.  The patterns are the same, but they are asked about the path below one
folder or the other.  The two agree just if the session does not misjudge the
path, in one of the ways listed here.  When the settings of the first folder can
be loaded at the start, that folder is remembered, and exactly the catalog files
of the other folders are misjudged.
-/

namespace CatalogServer

/-- A path lies in one of the folders that the editor names, and in no other
one. -/
structure Surroundings.LiesOnlyIn (around : Surroundings) (folder path : String) : Prop where
  named : folder ∈ around.folderPaths
  within : (Path.relativeTo? folder path).isSome = true
  alone : ∀ other ∈ around.folderPaths, ¬Path.SameFolder other folder →
    Path.relativeTo? other path = none

namespace Session

variable {session : Session} {folder path : String} {matcher : FileMatcher}

/-- The ways in which a session misjudges a path below a folder. -/
inductive Misjudges (session : Session) (folder path : String) : Prop
  /-- No root folder is remembered, and the path has the extension of catalog
  files, but the patterns do not pick it. -/
  | extension (relative : String) (unknown : session.store.root = none)
      (below : Path.relativeTo? folder path = some relative)
      (alike : Path.extension? path = some "ts") (unpicked : ¬session.settings.Picks relative)
  /-- No root folder is remembered, and the patterns pick the path, but it has
  another extension. -/
  | otherExtension (relative : String) (unknown : session.store.root = none)
      (below : Path.relativeTo? folder path = some relative)
      (unlike : Path.extension? path ≠ some "ts") (picked : session.settings.Picks relative)
  /-- The patterns pick the path, but it lies outside the root folder. -/
  | outside (root relative : String) (known : session.store.root = some root)
      (apart : Path.relativeTo? root path = none)
      (below : Path.relativeTo? folder path = some relative)
      (picked : session.settings.Picks relative)
  /-- The patterns pick the path below the folder, but not below the root
  folder, in which it lies too. -/
  | pickedInFolder (root inRoot relative : String) (known : session.store.root = some root)
      (within : Path.relativeTo? root path = some inRoot)
      (below : Path.relativeTo? folder path = some relative)
      (unpicked : ¬session.settings.Picks inRoot) (picked : session.settings.Picks relative)
  /-- The patterns pick the path below the root folder, but not below the
  folder. -/
  | pickedInRoot (root inRoot relative : String) (known : session.store.root = some root)
      (within : Path.relativeTo? root path = some inRoot)
      (below : Path.relativeTo? folder path = some relative)
      (picked : session.settings.Picks inRoot) (unpicked : ¬session.settings.Picks relative)

theorem acceptsPath_of_root {root : String} (known : session.store.root = some root)
    (given : FileMatcher.ofSettings root session.settings = .ok matcher) :
    session.acceptsPath path = matcher.accepts path := by
  rw [acceptsPath, known]
  dsimp only
  rw [given]

theorem acceptsPath_of_apart {root : String} (valid : session.settings.isValid = true)
    (known : session.store.root = some root) (apart : Path.relativeTo? root path = none) :
    session.acceptsPath path = false := by
  obtain ⟨matcher, given⟩ := FileMatcher.exists_ofSettings valid root
  have sameRoot := (FileMatcher.ofSettings_eq_ok given).2.2
  rw [acceptsPath_of_root known given]
  exact FileMatcher.accepts_of_relativeTo?_eq_none (sameRoot.symm ▸ apart)

theorem acceptsPath_eq_iff (valid : session.settings.isValid = true)
    (given : FileMatcher.ofSettings folder session.settings = .ok matcher) {relative : String}
    (below : Path.relativeTo? folder path = some relative) :
    session.acceptsPath path = matcher.accepts path ↔ ¬session.Misjudges folder path := by
  rw [Bool.eq_iff_iff, FileMatcher.accepts_iff_of_below given below]
  cases known : session.store.root with
  | none =>
      have judged : session.acceptsPath path = true ↔ Path.extension? path = some "ts" := by
        rw [acceptsPath, known, beq_iff_eq]
      rw [judged]
      constructor
      · intro agree misjudges
        cases misjudges with
        | extension other unknown below' alike unpicked =>
            cases below.symm.trans below'
            exact unpicked (agree.mp alike)
        | otherExtension other unknown below' unlike picked =>
            cases below.symm.trans below'
            exact unlike (agree.mpr picked)
        | outside root other known' => cases known.symm.trans known'
        | pickedInFolder root inRoot other known' => cases known.symm.trans known'
        | pickedInRoot root inRoot other known' => cases known.symm.trans known'
      · intro respected
        constructor
        · intro alike
          by_contra unpicked
          exact respected (.extension relative known below alike unpicked)
        · intro picked
          by_contra unlike
          exact respected (.otherExtension relative known below unlike picked)
  | some root =>
      cases place : Path.relativeTo? root path with
      | none =>
          rw [acceptsPath_of_apart valid known place, Bool.false_eq_true, false_iff]
          constructor
          · intro unpicked misjudges
            cases misjudges with
            | extension other unknown => cases known.symm.trans unknown
            | otherExtension other unknown => cases known.symm.trans unknown
            | outside root' other known' apart below' picked =>
                cases below.symm.trans below'
                exact unpicked picked
            | pickedInFolder root' inRoot other known' within =>
                cases known.symm.trans known'
                cases place.symm.trans within
            | pickedInRoot root' inRoot other known' within =>
                cases known.symm.trans known'
                cases place.symm.trans within
          · intro respected picked
            exact respected (.outside root relative known place below picked)
      | some inRoot =>
          obtain ⟨rootMatcher, rootGiven⟩ := FileMatcher.exists_ofSettings valid root
          rw [acceptsPath_of_root known rootGiven,
            FileMatcher.accepts_iff_of_below rootGiven place]
          constructor
          · intro agree misjudges
            cases misjudges with
            | extension other unknown => cases known.symm.trans unknown
            | otherExtension other unknown => cases known.symm.trans unknown
            | outside root' other known' apart =>
                cases known.symm.trans known'
                cases place.symm.trans apart
            | pickedInFolder root' inRoot' other known' within below' unpicked picked =>
                cases known.symm.trans known'
                cases place.symm.trans within
                cases below.symm.trans below'
                exact unpicked (agree.mpr picked)
            | pickedInRoot root' inRoot' other known' within below' picked unpicked =>
                cases known.symm.trans known'
                cases place.symm.trans within
                cases below.symm.trans below'
                exact unpicked (agree.mp picked)
          · intro respected
            constructor
            · intro picked
              by_contra unpicked
              exact respected
                (.pickedInRoot root inRoot relative known place below picked unpicked)
            · intro picked
              by_contra unpicked
              exact respected
                (.pickedInFolder root inRoot relative known place below unpicked picked)

/-- Where the root folder is one that the editor names, misjudged are just the
catalog files that lie in another folder only. -/
theorem misjudges_iff_of_root {around : Surroundings} {root : String}
    (known : session.store.root = some root) (named : root ∈ around.folderPaths)
    (only : around.LiesOnlyIn folder path)
    (given : FileMatcher.ofSettings folder session.settings = .ok matcher) :
    session.Misjudges folder path ↔
      ¬Path.SameFolder root folder ∧ matcher.accepts path = true := by
  have same {inRoot relative : String} (within : Path.relativeTo? root path = some inRoot)
      (below : Path.relativeTo? folder path = some relative) : inRoot = relative := by
    by_cases sameFolder : Path.SameFolder root folder
    · rw [Path.relativeTo?_congr sameFolder] at within
      exact Option.some.inj (within.symm.trans below)
    · cases within.symm.trans (only.alone root named sameFolder)
  constructor
  · intro misjudges
    cases misjudges with
    | extension relative unknown => cases known.symm.trans unknown
    | otherExtension relative unknown => cases known.symm.trans unknown
    | outside root' relative known' apart below picked =>
        cases known.symm.trans known'
        refine ⟨?_, (FileMatcher.accepts_iff_of_below given below).mpr picked⟩
        intro sameFolder
        rw [Path.relativeTo?_congr sameFolder] at apart
        cases apart.symm.trans below
    | pickedInFolder root' inRoot relative known' within below unpicked picked =>
        cases known.symm.trans known'
        exact absurd (same within below ▸ picked) unpicked
    | pickedInRoot root' inRoot relative known' within below picked unpicked =>
        cases known.symm.trans known'
        exact absurd (same within below ▸ picked) unpicked
  · rintro ⟨other, accepted⟩
    obtain ⟨relative, below⟩ := Option.isSome_iff_exists.mp only.within
    exact .outside root relative known (only.alone root named other) below
      ((FileMatcher.accepts_iff_of_below given below).mp accepted)

end Session

namespace Server

theorem root_run_of_started {arrivals : List Arrival} {count : Nat} {opening : Arrival}
    {root : String} (opens : arrivals[count]? = some opening)
    (started : (run {} (arrivals.take count)).started? opening.incoming = some (some root))
    (valid : opening.around.disk.HasValidSettings root) :
    (run {} arrivals).session.store.root = some root := by
  have opened : arrivals = arrivals.take count ++ opening :: arrivals.drop (count + 1) := by
    obtain ⟨within, rfl⟩ := List.getElem?_eq_some_iff.mp opens
    rw [List.getElem_cons_drop, List.take_append_drop]
  -- The root folder is known after the message that starts the session, and
  -- what arrives later keeps it.
  have split : run {} arrivals =
      ((run {} (arrivals.take count)).next opening).run (arrivals.drop (count + 1)) := by
    conv_lhs => rw [opened]
    rw [run, List.foldl_append]
    rfl
  rw [split]
  exact root_run (root_of_started started valid) (not_fresh_of_started started) _

/-- In every state of a run after the session was started, whatever the
settings file holds, there is a matcher for each folder that the editor names,
the first of them being the one that the session was started with; and the
session agrees with it on the paths that lie in no other folder just if it
does not misjudge them.  When the settings of the first folder could be loaded
at the start, it misjudges exactly the catalog files of the other folders. -/
theorem agrees_iff {arrivals : List Arrival} {count : Nat} {opening : Arrival}
    {start : Option String} (opens : arrivals[count]? = some opening)
    (started : (run {} (arrivals.take count)).started? opening.incoming = some start)
    {around : Surroundings} (first : (around.folders.getD []).head?.bind Uri.filePath? = start)
    {folder path : String} (only : around.LiesOnlyIn folder path) :
    ∃ matcher, FileMatcher.ofSettings folder (run {} arrivals).session.settings = .ok matcher ∧
      ((run {} arrivals).session.acceptsPath path = matcher.accepts path ↔
        ¬(run {} arrivals).session.Misjudges folder path) ∧
      ∀ root, start = some root → opening.around.disk.HasValidSettings root →
        ((run {} arrivals).session.Misjudges folder path ↔
          ¬Path.SameFolder root folder ∧ matcher.accepts path = true) := by
  have valid : (run {} arrivals).session.settings.isValid = true :=
    isValid_run arrivals Settings.isValid_default
  obtain ⟨matcher, given⟩ := FileMatcher.exists_ofSettings valid folder
  obtain ⟨relative, below⟩ := Option.isSome_iff_exists.mp only.within
  refine ⟨matcher, given, Session.acceptsPath_eq_iff valid given below, ?_⟩
  rintro root rfl settled
  refine Session.misjudges_iff_of_root (root_run_of_started opens started settled) ?_ only given
  obtain ⟨uri, head, place⟩ := Option.bind_eq_some_iff.mp first
  exact List.mem_filterMap.mpr ⟨uri, List.mem_of_head? head, place⟩

/-- A workspace of two folders that have no settings file. -/
def twoFolders : Surroundings where
  disk := { folders := [["ws"], ["ws", "a"], ["ws", "b"]] }
  folders := some [⟨"file", some "", "/ws/a", none, none⟩, ⟨"file", some "", "/ws/b", none, none⟩]

def startedInTwoFolders : List Arrival :=
  starting twoFolders ["file:///ws/a", "file:///ws/b"]

/-- The session agrees with indexing on a path in the first folder, and not on
one in the second folder. -/
theorem agrees_firstFolder :
    (∃ matcher, FileMatcher.ofSettings "/ws/a" (run {} startedInTwoFolders).session.settings =
        .ok matcher ∧
      (run {} startedInTwoFolders).session.acceptsPath "/ws/a/x.ts" =
        matcher.accepts "/ws/a/x.ts") ∧
    ∃ matcher, FileMatcher.ofSettings "/ws/b" (run {} startedInTwoFolders).session.settings =
        .ok matcher ∧
      (run {} startedInTwoFolders).session.acceptsPath "/ws/b/x.ts" ≠
        matcher.accepts "/ws/b/x.ts" := by
  obtain ⟨opening, opens, started, around⟩ : ∃ opening, startedInTwoFolders[0]? = some opening ∧
      (run {} (startedInTwoFolders.take 0)).started? opening.incoming = some (some "/ws/a") ∧
        opening.around = twoFolders :=
    ⟨_, rfl, by decide +kernel, rfl⟩
  have first : (twoFolders.folders.getD []).head?.bind Uri.filePath? = some "/ws/a" := by
    decide +kernel
  have paths : twoFolders.folderPaths = ["/ws/a", "/ws/b"] := by decide +kernel
  have settled : opening.around.disk.HasValidSettings "/ws/a" := by
    rw [around]
    exact Disk.hasValidSettings_of_absent (by decide +kernel)
  constructor
  · have only : twoFolders.LiesOnlyIn "/ws/a" "/ws/a/x.ts" := by
      refine ⟨by simp [paths], by decide +kernel, ?_⟩
      rw [paths]
      decide +kernel
    obtain ⟨matcher, given, agrees, misjudges⟩ := agrees_iff opens started first only
    refine ⟨matcher, given, agrees.mpr ?_⟩
    intro misjudged
    exact ((misjudges "/ws/a" rfl settled).mp misjudged).1 rfl
  · have only : twoFolders.LiesOnlyIn "/ws/b" "/ws/b/x.ts" := by
      refine ⟨by simp [paths], by decide +kernel, ?_⟩
      rw [paths]
      decide +kernel
    obtain ⟨matcher, given, agrees, misjudges⟩ := agrees_iff opens started first only
    refine ⟨matcher, given, fun agree => agrees.mp agree ?_⟩
    have accepted : (FileMatcher.ofSettings "/ws/b"
        (run {} startedInTwoFolders).session.settings).toOption.map (·.accepts "/ws/b/x.ts") =
          some true := by
      decide +kernel
    rw [given] at accepted
    exact (misjudges "/ws/a" rfl settled).mpr ⟨by decide +kernel, Option.some.inj accepted⟩

/-- A folder with a settings file that is refused. -/
def refusingFolder : Surroundings :=
  { emptyFolder with disk := emptyFolder.disk.write ["ws", settingsFileName] refusedSettings }

/-- No root folder is remembered then, and a path in the folder counts as that
of a catalog file although it is excluded. -/
theorem not_agrees_refusedSettings :
    (∃ opening, (starting refusingFolder ["file:///ws"])[0]? = some opening ∧
      started? {} opening.incoming = some (some "/ws")) ∧
    (refusingFolder.folders.getD []).head?.bind Uri.filePath? = some "/ws" ∧
    ¬∀ folder path, refusingFolder.LiesOnlyIn folder path →
      ∃ matcher, FileMatcher.ofSettings folder
          (run {} (starting refusingFolder ["file:///ws"])).session.settings = .ok matcher ∧
        (run {} (starting refusingFolder ["file:///ws"])).session.acceptsPath path =
          matcher.accepts path := by
  refine ⟨⟨_, rfl, by decide +kernel⟩, by decide +kernel, ?_⟩
  intro agrees
  have paths : refusingFolder.folderPaths = ["/ws"] := by decide +kernel
  have only : refusingFolder.LiesOnlyIn "/ws" "/ws/target/a.ts" := by
    refine ⟨by simp [paths], by decide +kernel, ?_⟩
    rw [paths]
    decide +kernel
  obtain ⟨matcher, given, agree⟩ := agrees "/ws" "/ws/target/a.ts" only
  have judged : (run {} (starting refusingFolder ["file:///ws"])).session.acceptsPath
      "/ws/target/a.ts" = true := by
    decide +kernel
  have excluded : (FileMatcher.ofSettings "/ws" (run {} (starting refusingFolder
      ["file:///ws"])).session.settings).toOption.map (·.accepts "/ws/target/a.ts") =
        some false := by
    decide +kernel
  rw [given, Except.toOption_ok, Option.map_some, ← agree, judged] at excluded
  cases excluded

end Server

end CatalogServer
