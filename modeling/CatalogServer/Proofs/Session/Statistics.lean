import CatalogServer.Proofs.Session.Detected
import CatalogServer.Proofs.Session.References

/-!
# Statistics of one file and of all files

Editors ask for the statistics of the file that an address names, or, without
any argument, for those of all files.  Asked for all, a server reports each
tracked file once, in the order of their paths.  Asked for one, it reports the
file at the path of the address and nothing else, provided that there is such a
path: a text that is no address, and an address of something other than a file,
are taken for no argument at all, so that all files are reported.
-/

namespace CatalogServer

open Text Json

namespace Uri

/-- The path that the text of an address stands for. -/
def pathOf? (text : String) : Option String :=
  (read text).toOption.bind filePath?

theorem isSome_ofFilePath? (path : String) :
    (ofFilePath? path).isSome = Path.isAbsolute path := by
  cases absolute : Path.isAbsolute path <;> simp [ofFilePath?, absolute]

end Uri

/-- A value tells the address of a file, its language and project, and how its
messages stand, or null if the file is no catalog. -/
def CatalogFile.ReportedAs (file : CatalogFile) (entry : Json) : Prop :=
  ∃ uri stats, Uri.ofFilePath? file.path = some uri ∧
    entry = ofMembers [("uri", uri.encode), ("language", .string file.language),
      ("project", .string file.project), ("stats", stats)] ∧
    (stats = .null ↔ ∀ document, Document.read file.text ≠ .ok document) ∧
    ∀ document, Document.read file.text = .ok document →
      stats = (Progress.ofCatalog document.catalog).encode

theorem CatalogFile.reportedAs_encode {file : CatalogFile} {uri : Uri}
    (address : Uri.ofFilePath? file.path = some uri) :
    file.ReportedAs
      (FileStatistics.encode ⟨uri, file.language, file.project, Check.fileProgress? file⟩) := by
  refine ⟨uri, _, address, rfl, ?_⟩
  unfold Check.fileProgress?
  cases read : file.document? with
  | none =>
      have unread (document : Document) : Document.read file.text ≠ .ok document := by
        rw [ne_eq, ← CatalogFile.document?_eq_some_iff, read]
        exact Option.some_ne_none document ∘ Eq.symm
      exact ⟨iff_of_true rfl unread, fun document found => absurd found (unread document)⟩
  | some document =>
      rw [CatalogFile.document?_eq_some_iff] at read
      refine ⟨iff_of_false ?_ fun unread => unread document read, fun other found => ?_⟩
      · exact Json.noConfusion
      · cases read.symm.trans found
        rfl

namespace Session

variable {session : Session} {only : Option String}

theorem exists_reported_statistics (distinct : (session.tracked.map (·.path)).Nodup)
    (only : Option String) :
    ∃ files, Navigation.Increasing files ∧
      (∀ file, file ∈ files ↔ (file ∈ session.tracked ∧ only.all (file.path == ·) = true) ∧
        Path.isAbsolute file.path = true) ∧
      List.Forall₂ (fun entry file => file.ReportedAs entry)
        ((session.statistics only).map FileStatistics.encode) files := by
  have distinctToo : ((session.tracked.filter fun file => only.all (file.path == ·)).map
      (·.path)).Nodup :=
    distinct.sublist (List.filter_sublist.map _)
  refine ⟨((session.tracked.filter fun file => only.all (file.path == ·)).mergeSort
    CatalogFile.isAtMost).filter fun file => Path.isAbsolute file.path,
    List.Pairwise.filter _ (Navigation.increasing_mergeSort distinctToo), ?_, ?_⟩
  · intro file
    rw [List.mem_filter, List.mem_mergeSort, List.mem_filter]
  · rw [List.forall₂_map_left_iff]
    refine forall₂_filterMap_filter ?_ ?_
    · intro file _ absolute
      obtain ⟨uri, address⟩ := Option.isSome_iff_exists.mp
        ((Uri.isSome_ofFilePath? file.path).trans absolute)
      exact ⟨_, by rw [address]; rfl, CatalogFile.reportedAs_encode address⟩
    · intro file _ relative
      have address : Uri.ofFilePath? file.path = none := by
        rw [← Option.not_isSome_iff_eq_none, Uri.isSome_ofFilePath?, relative]
        decide
      rw [address]
      rfl

/-- The entries of the tracked file at a path: one, or none if there is no such
file. -/
inductive TellsOne (session : Session) (path : Option String) : List Json → Prop where
  | nothing (absent : ∀ file ∈ session.tracked, path ≠ some file.path) : TellsOne session path []
  | entry {file : CatalogFile} {entry : Json} (tracked : file ∈ session.tracked)
      (here : path = some file.path) (reported : file.ReportedAs entry) :
      TellsOne session path [entry]

/-- The entries of all tracked files that have an address, in the order of their
paths. -/
def TellsAll (session : Session) (entries : List Json) : Prop :=
  ∃ files, Navigation.Increasing files ∧
    (∀ file, file ∈ files ↔ file ∈ session.tracked ∧ Path.isAbsolute file.path = true) ∧
    List.Forall₂ (fun entry file => file.ReportedAs entry) entries files

theorem tellsAll_statistics (distinct : (session.tracked.map (·.path)).Nodup) :
    session.TellsAll ((session.statistics none).map FileStatistics.encode) := by
  obtain ⟨files, increasing, listed, reported⟩ := exists_reported_statistics distinct none
  exact ⟨files, increasing, fun file => by simpa using listed file, reported⟩

/-- A path is enough for telling the file at it from all others. -/
theorem tellsOne_statistics_some (distinct : (session.tracked.map (·.path)).Nodup)
    {uri : Uri} {path : String} (place : uri.filePath? = some path) :
    session.TellsOne (some path)
      ((session.statistics (some path)).map FileStatistics.encode) := by
  obtain ⟨files, increasing, listed, reported⟩ := exists_reported_statistics distinct (some path)
  have here (file : CatalogFile) : file ∈ files ↔ file ∈ session.tracked ∧ file.path = path := by
    rw [listed, Option.all_some, beq_iff_eq, and_iff_left_iff_imp]
    rintro ⟨-, rfl⟩
    exact Uri.isAbsolute_of_filePath? place
  generalize (session.statistics (some path)).map FileStatistics.encode = entries at reported
  cases reported with
  | nil =>
      refine .nothing fun file tracked same => ?_
      exact List.not_mem_nil ((here file).mpr ⟨tracked, (Option.some.inj same).symm⟩)
  | @cons entry file entries files first others =>
      obtain ⟨tracked, same⟩ := (here file).mp List.mem_cons_self
      cases others with
      | nil => exact .entry tracked (congrArg some same.symm) first
      | @cons _ other _ _ _ _ =>
          -- Two files in the order of their paths have different paths.
          have otherSame := ((here other).mp (List.mem_cons_of_mem _ List.mem_cons_self)).2
          have before := List.rel_of_pairwise_cons increasing List.mem_cons_self
          rw [same, otherSame] at before
          exact absurd before (lt_irrefl path)

/-- Where there is no path, nothing is told only if there is nothing to tell. -/
theorem tellsOne_statistics_none_iff (distinct : (session.tracked.map (·.path)).Nodup) :
    session.TellsOne none ((session.statistics none).map FileStatistics.encode) ↔
      ∀ file ∈ session.tracked, Path.isAbsolute file.path = false := by
  obtain ⟨files, -, listed, reported⟩ := tellsAll_statistics distinct
  generalize (session.statistics none).map FileStatistics.encode = entries at reported
  constructor
  · intro tells
    cases tells with
    | nothing absent =>
        cases reported
        intro file tracked
        rw [← Bool.not_eq_true]
        intro absolute
        exact List.not_mem_nil ((listed file).mpr ⟨tracked, absolute⟩)
    | entry tracked here => cases here
  · intro relative
    have empty : files = [] := by
      rw [List.eq_nil_iff_forall_not_mem]
      intro file member
      obtain ⟨tracked, absolute⟩ := (listed file).mp member
      rw [relative file tracked] at absolute
      cases absolute
    subst empty
    cases reported
    exact .nothing fun file _ => Option.some_ne_none file.path ∘ Eq.symm

end Session

namespace Server

variable {server : Server} {around : Surroundings} {text : String} {params : Json}
  {arguments : List Json}

/-- Parameters ask for statistics with some arguments. -/
def AskStatistics (params : Json) (arguments : List Json) : Prop :=
  Params.decodeCommand params = .ok (.command "linguist.getStatistics" arguments)

/-- What a server answers to a request to run a command. -/
def toldCommand (server : Server) (around : Surroundings) (params : Json) : Option Answer :=
  (server.handle around (.request "workspace/executeCommand" (some params))).bind (·.answer)

/-- A server tells the statistics of the file that the text of an address names,
whatever else stands in the arguments, and without arguments those of all
files. -/
structure TellsStatistics (server : Server) (text : String) : Prop where
  one : ∀ around params members more, AskStatistics params (.object members :: more) →
    members.lookup "uri" = some (.string text) →
      ∃ entries, server.toldCommand around params = some (.result (.array entries)) ∧
        server.session.TellsOne (Uri.pathOf? text) entries
  all : ∀ around params, AskStatistics params [] →
    ∃ entries, server.toldCommand around params = some (.result (.array entries)) ∧
      server.session.TellsAll entries

theorem toldCommand_statistics (running : server.phase = .running)
    (asked : AskStatistics params arguments) :
    server.toldCommand around params = some (.result (.array
      ((server.session.statistics ((Command.decodeFile? arguments).bind Uri.filePath?)).map
        FileStatistics.encode))) := by
  have routed : server.handle around (.request "workspace/executeCommand" (some params)) =
      some (server.request (Params.decoded Params.decodeCommand) (some params)) := by
    rw [handle, running]
    rfl
  rw [AskStatistics] at asked
  rw [toldCommand, routed]
  simp [request, running, Params.decoded, asked, Except.mapError, Session.answer, Command.decode?,
    Session.runCommand, afterTurn, ofList]

theorem decodeFile?_object {members : List (String × Json)} (more : List Json)
    (named : members.lookup "uri" = some (.string text)) :
    (Command.decodeFile? (.object members :: more)).bind Uri.filePath? = Uri.pathOf? text := by
  have decoded : Command.decodeFile? (.object members :: more) =
      (given members "uri" Uri.decode).toOption.join := rfl
  rw [decoded, given, named, Uri.pathOf?]
  dsimp only [Uri.decode]
  cases Uri.read text <;> rfl

/-- The parameters of a request for the statistics of the file that a text
names. -/
def statisticsParams (text : String) : Json :=
  ofMembers [("command", .string "linguist.getStatistics"),
    ("arguments", .array [.object [("uri", .string text)]])]

theorem askStatistics_statisticsParams (text : String) :
    AskStatistics (statisticsParams text) [.object [("uri", .string text)]] :=
  rfl

/-- The statistics are told exactly if the text of the address leads to a path,
or there are none that could be told in its place. -/
theorem tellsStatistics_iff_of_nodup (running : server.phase = .running)
    (distinct : (server.session.tracked.map (·.path)).Nodup) :
    server.TellsStatistics text ↔
      (∃ path, Uri.pathOf? text = some path) ∨
        ∀ file ∈ server.session.tracked, Path.isAbsolute file.path = false := by
  have one {around : Surroundings} {params : Json} {members : List (String × Json)}
      {more : List Json} (asked : AskStatistics params (.object members :: more))
      (named : members.lookup "uri" = some (.string text)) :
      server.toldCommand around params = some (.result (.array
        ((server.session.statistics (Uri.pathOf? text)).map FileStatistics.encode))) := by
    rw [toldCommand_statistics running asked, decodeFile?_object more named]
  constructor
  · rintro ⟨tellsOne, -⟩
    cases place : Uri.pathOf? text with
    | some path => exact .inl ⟨path, rfl⟩
    | none =>
        have asked := askStatistics_statisticsParams text
        obtain ⟨entries, told, tells⟩ := tellsOne emptyFolder _ _ _ asked rfl
        rw [one asked rfl, place] at told
        cases told
        rw [place] at tells
        exact .inr ((Session.tellsOne_statistics_none_iff distinct).mp tells)
  · intro known
    refine ⟨fun around params members more asked named => ⟨_, one asked named, ?_⟩,
      fun around params asked =>
        ⟨_, toldCommand_statistics running asked, Session.tellsAll_statistics distinct⟩⟩
    cases place : Uri.pathOf? text with
    | some path =>
        obtain ⟨uri, -, here⟩ := Option.bind_eq_some_iff.mp place
        exact Session.tellsOne_statistics_some distinct here
    | none =>
        refine (Session.tellsOne_statistics_none_iff distinct).mpr ?_
        rcases known with ⟨path, found⟩ | relative
        · rw [place] at found
          cases found
        · exact relative

/-- In every state that a server reaches, it tells the statistics of the file that
a text names, and of all files, exactly if the text is the address of a file, or
no tracked file has an address. -/
theorem tellsStatistics_run_iff (arrivals : List Arrival)
    (distinct : ∀ arrival ∈ arrivals, arrival.around.disk.DistinctPaths)
    (running : (run {} arrivals).phase = .running) (text : String) :
    (run {} arrivals).TellsStatistics text ↔
      (∃ path, Uri.pathOf? text = some path) ∨
        ∀ file ∈ (run {} arrivals).session.tracked, Path.isAbsolute file.path = false := by
  have tracked : WellTracked (run {} arrivals).session.tracked :=
    wellTracked_run_of_wellTracked distinct .nil
  exact tellsStatistics_iff_of_nodup running (List.pairwise_map.mpr tracked.distinct)

/-- A session with two documents, one of them no catalog. -/
def statisticsArrivals : List Arrival :=
  starting emptyFolder ["file:///ws"] ++
    [openingOf emptyFolder "file:///ws/b.ts" "<TS>",
      openingOf emptyFolder "file:///ws/a.ts" blankMessageText]

theorem distinctPaths_statisticsArrivals :
    ∀ arrival ∈ statisticsArrivals, arrival.around.disk.DistinctPaths := by
  have plain : emptyFolder.disk.PlainNames := by decide
  intro arrival member
  have around : arrival.around = emptyFolder := by
    revert arrival
    simp [statisticsArrivals, starting, openingOf]
  rw [around]
  exact Disk.distinctPaths_of_plainNames plain

theorem run_statisticsArrivals :
    (run {} statisticsArrivals).phase = .running ∧
      (run {} statisticsArrivals).session.tracked.map (·.path) = ["/ws/b.ts", "/ws/a.ts"] := by
  decide +kernel

/-- One of the documents is named by an address of it. -/
theorem tellsStatistics_addressed :
    (run {} statisticsArrivals).phase = .running ∧
      (run {} statisticsArrivals).TellsStatistics "file:///ws/%61.ts" := by
  have running := run_statisticsArrivals.1
  refine ⟨running, (tellsStatistics_run_iff statisticsArrivals distinctPaths_statisticsArrivals
    running "file:///ws/%61.ts").mpr ?_⟩
  exact .inl ⟨"/ws/a.ts", by decide +kernel⟩

/-- An address that is not the one of a file makes the server tell of both. -/
theorem not_tellsStatistics_untitled :
    (run {} statisticsArrivals).phase = .running ∧
      ¬ (run {} statisticsArrivals).TellsStatistics "untitled:x" := by
  obtain ⟨running, paths⟩ := run_statisticsArrivals
  have distinct : ((run {} statisticsArrivals).session.tracked.map (·.path)).Nodup := by
    rw [paths]
    decide
  refine ⟨running, fun tells => ?_⟩
  rcases (tellsStatistics_iff_of_nodup running distinct).mp tells with ⟨path, place⟩ | relative
  · have unplaced : Uri.pathOf? "untitled:x" = none := by decide +kernel
    rw [unplaced] at place
    cases place
  · rw [← List.forall_mem_map (P := fun path => Path.isAbsolute path = false), paths] at relative
    exact absurd (relative "/ws/a.ts" (by simp)) (by decide)

end Server

end CatalogServer
