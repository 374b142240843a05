import CatalogServer.Proofs.Editor.Navigating
import CatalogServer.Proofs.Session.Steps

/-!
# References without the declaration

An editor that asks for the occurrences of a key says whether it wants to be
told of the one in the document itself.  Files are tracked under their paths,
and a document is found by the path that its address stands for; but the
occurrence in the document is recognized by the address, which the editor may
spell in another way than the server does.  So this occurrence is left out, and
no other one, exactly if the address is the one that the server writes for the
path, and for no other path of a file with the key.
-/

namespace CatalogServer

open Text

section Filters

variable {α β : Type*} {items : List α} {first second : α → Bool} {write : α → β}

/-- Of items that the first filter tells apart only by what is written of them,
two filters leave the same writing exactly if they are one filter. -/
theorem map_filter_eq_iff
    (known : ∀ item ∈ items, ∀ other ∈ items, write item = write other → first item = first other) :
    (items.filter first).map write = (items.filter second).map write ↔
      ∀ item ∈ items, first item = second item := by
  constructor
  · intro same
    -- What the second filter leaves is written for the first one too.
    have leaves : ∀ item ∈ items, second item = true → first item = true := by
      intro item member left
      have written : write item ∈ (items.filter first).map write := by
        rw [same]
        exact List.mem_map_of_mem (List.mem_filter.mpr ⟨member, left⟩)
      obtain ⟨other, otherLeft, otherWritten⟩ := List.mem_map.mp written
      obtain ⟨otherMem, otherFirst⟩ := List.mem_filter.mp otherLeft
      rw [known item member other otherMem otherWritten.symm, otherFirst]
    have both : (items.filter first).filter second = items.filter second := by
      rw [List.filter_filter]
      refine List.filter_congr fun item member => ?_
      cases left : second item with
      | true => rw [leaves item member left, Bool.and_self]
      | false => exact Bool.false_and _
    have sizes : ((items.filter first).filter second).length = (items.filter first).length := by
      rw [both]
      simpa using (congrArg List.length same).symm
    have all := List.filter_eq_self.mp (List.filter_sublist.eq_of_length sizes)
    intro item member
    rw [Bool.eq_iff_iff]
    exact ⟨fun left => all item (List.mem_filter.mpr ⟨member, left⟩), leaves item member⟩
  · intro agree
    rw [List.filter_congr agree]

end Filters

theorem Text.decodeLenient_percentDecode_slash (rest : List Char) :
    decodeLenient (percentDecode ('/' :: rest)) = '/' :: decodeLenient (percentDecode rest) := by
  have bytes : percentDecode ('/' :: rest) = 0x2F :: percentDecode rest := by
    rw [percentDecode]
    · rfl
    · simp
  have alone : decode [0x2F] = some "/" := by decide +kernel
  rw [bytes, decodeLenient]
  simp [followerRanges, takeFollowers, alone]

namespace Uri

variable {uri other : Uri} {path otherPath : String}

theorem isAbsolute_of_filePath? (place : uri.filePath? = some path) :
    Path.isAbsolute path = true := by
  unfold filePath? at place
  dsimp only at place
  split at place
  · next rest spelled =>
      split at place
      · rw [Option.some.injEq] at place
        rw [← place, spelled, decodeLenient_percentDecode_slash, Path.isAbsolute,
          String.toList_ofList]
        rfl
      · cases place
  · cases place

theorem isAbsolute_of_ofFilePath? (address : ofFilePath? path = some uri) :
    Path.isAbsolute path = true := by
  rw [ofFilePath?, Option.ite_none_right_eq_some] at address
  exact address.1

theorem eq_of_render_eq (address : ofFilePath? path = some uri)
    (otherAddress : ofFilePath? otherPath = some other) (same : uri.render = other.render) :
    uri = other := by
  simp only [ofFilePath?, Option.ite_none_right_eq_some, Option.some.injEq] at address otherAddress
  obtain ⟨-, rfl⟩ := address
  obtain ⟨-, rfl⟩ := otherAddress
  simpa [render] using same

end Uri

theorem Location.render_eq_of_encode_eq {first second : Location}
    (same : first.encode = second.encode) : first.uri.render = second.uri.render := by
  have order : "range" < "uri" := by decide
  simp only [Location.encode, Json.ofMembers, List.foldl_cons, List.foldl_nil, Json.insertMember,
    order, if_true, Uri.encode, Json.object.injEq, List.cons.injEq, Prod.mk.injEq,
    Json.string.injEq, true_and, and_true] at same
  exact same.2

namespace Answer

/-- An answer tells locations: it is null without any, or else an array. -/
def Tells (answer : Answer) : List Location → Prop
  | [] => answer = .result .null
  | location :: others => answer = .result (.array ((location :: others).map Location.encode))

theorem tells_ofLocations_iff {told locations : List Location} :
    (ofLocations told).Tells locations ↔
      told.map Location.encode = locations.map Location.encode := by
  cases told <;> cases locations <;> simp [ofLocations, Tells, Json.ofList]

end Answer

namespace Navigation

variable {key : MessageKey} {files : List CatalogFile} {file : CatalogFile} {location : Location}

/-- The occurrences of a key, each with the file that it is in. -/
def occurrences (key : MessageKey) (files : List CatalogFile) : List (CatalogFile × Location) :=
  (files.mergeSort CatalogFile.isAtMost).filterMap fun file => (file.location? key).map (file, ·)

theorem map_snd_occurrences : (occurrences key files).map Prod.snd = references key files := by
  simp [occurrences, references, List.map_filterMap, Function.comp_def]

theorem mem_occurrences_iff :
    (file, location) ∈ occurrences key files ↔ file ∈ files ∧ file.Locates key location := by
  simp [occurrences, CatalogFile.location?_eq_some_iff]

theorem exists_mem_occurrences (absolute : Path.isAbsolute file.path = true)
    (member : file ∈ files) (holds : file.Holds key) :
    ∃ location, (file, location) ∈ occurrences key files := by
  obtain ⟨location, located⟩ :=
    Option.isSome_iff_exists.mp ((CatalogFile.isSome_location?_iff absolute).mpr holds)
  exact ⟨location, mem_occurrences_iff.mpr ⟨member, CatalogFile.location?_eq_some_iff.mp located⟩⟩

end Navigation

namespace Session

variable {session : Session} {uri : Uri} {position : Position} {file : CatalogFile}
  {key : MessageKey}

/-- The occurrences of the key at a position, each with its file. -/
def occurrences (session : Session) (uri : Uri) (position : Position) :
    List (CatalogFile × Location) :=
  match session.messageAt? uri position with
  | none => []
  | some (_, key) => Navigation.occurrences key session.tracked

/-- The occurrences in other files than the one whose path an address stands
for. -/
def occurrencesElsewhere (session : Session) (uri : Uri) (position : Position) :
    List (CatalogFile × Location) :=
  (session.occurrences uri position).filter fun occurrence =>
    some occurrence.1.path != uri.filePath?

theorem messageAt?_eq_some_iff :
    session.messageAt? uri position = some (file, key) ↔
      session.fileOf? uri = some file ∧ file.keyAt? position = some key := by
  simp only [messageAt?, Option.bind_eq_bind, Option.bind_eq_some_iff, Option.some.injEq,
    Prod.mk.injEq]
  constructor
  · rintro ⟨found, foundAt, keyFound, keyAt, rfl, rfl⟩
    exact ⟨foundAt, keyAt⟩
  · rintro ⟨foundAt, keyAt⟩
    exact ⟨file, foundAt, key, keyAt, rfl, rfl⟩

theorem mem_tracked_of_fileOf? (found : session.fileOf? uri = some file) :
    file ∈ session.tracked ∧ uri.filePath? = some file.path := by
  obtain ⟨path, place, foundAt⟩ := Option.bind_eq_some_iff.mp found
  have here : file.path = path := by simpa using List.find?_some foundAt
  rw [here]
  exact ⟨List.mem_of_find?_eq_some foundAt, place⟩

theorem references_eq (session : Session) (uri : Uri) (position : Position)
    (withDeclaration : Bool) :
    session.references uri position withDeclaration =
      ((session.occurrences uri position).filter fun occurrence =>
        withDeclaration || occurrence.2.uri != uri).map Prod.snd := by
  cases found : session.messageAt? uri position with
  | none => simp [references, occurrences, found]
  | some message =>
      simp only [references, occurrences, found, ← Navigation.map_snd_occurrences]
      cases withDeclaration with
      | true => simp
      | false => simp [List.filter_map, Function.comp_def]

/-- An address is the one that is written for the path of a file, and for no
other path of a file with a key. -/
structure Recognizes (session : Session) (uri : Uri) (file : CatalogFile) (key : MessageKey) :
    Prop where
  own : Uri.ofFilePath? file.path = some uri
  alone {other : CatalogFile} : other ∈ session.tracked → other.Holds key →
    Uri.ofFilePath? other.path = some uri → other.path = file.path

/-- The occurrences with another address are those in other files exactly if the
file is recognized by the address. -/
theorem agree_occurrences_iff (found : session.messageAt? uri position = some (file, key)) :
    (∀ occurrence ∈ session.occurrences uri position,
        (occurrence.2.uri != uri) = (some occurrence.1.path != uri.filePath?)) ↔
      session.Recognizes uri file key := by
  obtain ⟨foundAt, keyAt⟩ := messageAt?_eq_some_iff.mp found
  obtain ⟨member, place⟩ := mem_tracked_of_fileOf? foundAt
  have agrees (other : CatalogFile) (location : Location) :
      (location.uri != uri) = (some other.path != some file.path) ↔
        (location.uri = uri ↔ other.path = file.path) := by
    rw [Bool.eq_iff_iff]
    simp [not_iff_not]
  simp only [occurrences, found, place, Prod.forall, agrees]
  constructor
  · intro agree
    refine ⟨?_, ?_⟩
    · obtain ⟨document, entry, touches, rfl⟩ := CatalogFile.keyAt?_eq_some_iff.mp keyAt
      obtain ⟨location, occurs⟩ := Navigation.exists_mem_occurrences
        (Uri.isAbsolute_of_filePath? place) member touches.holds
      obtain ⟨-, address, -⟩ := Navigation.mem_occurrences_iff.mp occurs
      rw [address, (agree file location occurs).mpr rfl]
    · intro other otherMem holds otherAddress
      obtain ⟨location, occurs⟩ := Navigation.exists_mem_occurrences
        (Uri.isAbsolute_of_ofFilePath? otherAddress) otherMem holds
      obtain ⟨-, address, -⟩ := Navigation.mem_occurrences_iff.mp occurs
      exact (agree other location occurs).mp (Option.some.inj (address.symm.trans otherAddress))
  · rintro ⟨own, alone⟩ other location occurs
    obtain ⟨otherMem, locates⟩ := Navigation.mem_occurrences_iff.mp occurs
    constructor
    · rintro rfl
      exact alone otherMem locates.holds locates.1
    · intro same
      rw [← same] at own
      exact Option.some.inj (locates.1.symm.trans own)

theorem address_of_mem_occurrences {occurrence : CatalogFile × Location}
    (occurs : occurrence ∈ session.occurrences uri position) :
    Uri.ofFilePath? occurrence.1.path = some occurrence.2.uri := by
  unfold occurrences at occurs
  split at occurs
  · cases occurs
  · exact (Navigation.mem_occurrences_iff.mp occurs).2.1

/-- Told are the occurrences in other files exactly if the file under the
position, if any, is recognized by the address. -/
theorem tells_references_iff :
    (Answer.ofLocations (session.references uri position false)).Tells
        ((session.occurrencesElsewhere uri position).map Prod.snd) ↔
      ∀ file key, session.messageAt? uri position = some (file, key) →
        session.Recognizes uri file key := by
  rw [Answer.tells_ofLocations_iff, references_eq, occurrencesElsewhere, List.map_map,
    List.map_map, map_filter_eq_iff]
  · cases found : session.messageAt? uri position with
    | none => simp [occurrences, found]
    | some message =>
        obtain ⟨file, key⟩ := message
        simpa using agree_occurrences_iff found
  · intro occurrence occurs other otherOccurs same
    rw [Uri.eq_of_render_eq (address_of_mem_occurrences occurs)
      (address_of_mem_occurrences otherOccurs) (Location.render_eq_of_encode_eq same)]

/-- Asked for the occurrences of the key at a position, with the declaration and
without it, a server tells all of them, and those in other files than the one
whose path the address stands for. -/
structure Excludes (session : Session) (uri : Uri) (position : Position)
    (answers : Bool → Option Answer) : Prop where
  all : ∃ answer, answers true = some answer ∧
    answer.Tells ((session.occurrences uri position).map Prod.snd)
  elsewhere : ∃ answer, answers false = some answer ∧
    answer.Tells ((session.occurrencesElsewhere uri position).map Prod.snd)

theorem excludes_references_iff :
    session.Excludes uri position (fun withDeclaration =>
        some (.ofLocations (session.references uri position withDeclaration))) ↔
      ∀ file key, session.messageAt? uri position = some (file, key) →
        session.Recognizes uri file key := by
  rw [← tells_references_iff]
  constructor
  · rintro ⟨-, answer, told, tells⟩
    rw [Option.some.inj told]
    exact tells
  · intro tells
    refine ⟨⟨_, rfl, Answer.tells_ofLocations_iff.mpr ?_⟩, ⟨_, rfl, tells⟩⟩
    simp [references_eq]

end Session

namespace Server

variable {server : Server} {around : Surroundings} {uri : Uri} {position : Position}

/-- What a server answers to a request for the references. -/
def toldReferences (server : Server) (around : Surroundings) (params : Json) : Option Answer :=
  (server.handle around (.request "textDocument/references" (some params))).bind (·.answer)

theorem toldReferences_eq {params : Json} {withDeclaration : Bool}
    (running : server.phase = .running) (indexed : server.session.indexed = true)
    (asked : Params.decodeReferences params = .ok (.references uri position withDeclaration)) :
    server.toldReferences around params =
      some (.ofLocations (server.session.references uri position withDeclaration)) := by
  have routed : server.handle around (.request "textDocument/references" (some params)) =
      some (server.request (Params.decoded Params.decodeReferences) (some params)) := by
    rw [handle, running]
    rfl
  rw [toldReferences, routed]
  simp [request, running, Params.decoded, asked, Except.mapError, Session.answer, indexed,
    afterTurn]

/-- Asked for the references with the declaration and without it, a server that
has indexed the workspace tells all the occurrences and those in other files
than the document exactly if the file under the position, if any, is recognized
by the address: it is the one that is written for its path, and for the path of
no other file with the key. -/
theorem excludes_toldReferences_iff {params : Bool → Json} (running : server.phase = .running)
    (indexed : server.session.indexed = true)
    (asked : ∀ withDeclaration, Params.decodeReferences (params withDeclaration) =
      .ok (.references uri position withDeclaration)) :
    server.session.Excludes uri position (fun withDeclaration =>
        server.toldReferences around (params withDeclaration)) ↔
      ∀ file key, server.session.messageAt? uri position = some (file, key) →
        server.session.Recognizes uri file key := by
  simp only [toldReferences_eq running indexed (asked _)]
  exact Session.excludes_references_iff

/-- The parameters of a request for the references at a position. -/
def referenceParams (address : String) (position : Position) (withDeclaration : Bool) : Json :=
  Json.ofMembers [("textDocument", Json.ofMembers [("uri", .string address)]),
    ("position", position.encode),
    ("context", Json.ofMembers [("includeDeclaration", .bool withDeclaration)])]

/-- A catalog with one message, which has no text. -/
def blankMessageText : String :=
  "<TS><context><name/><message><source/></message></context></TS>"

/-- A document is asked about under the address that is written for its path. -/
theorem excludes_encodedAddress :
    let server := openedIn emptyFolder
      [("file:///ws/%C3%A4.ts", blankMessageText), ("file:///ws/b.ts", blankMessageText)]
    let uri : Uri := ⟨"file", some "", "/ws/%C3%A4.ts", none, none⟩
    server.session.messageAt? uri ⟨0, 25⟩ =
        some (CatalogFile.ofText "/ws/ä.ts" blankMessageText, ⟨"", "", none⟩) ∧
      server.session.Excludes uri ⟨0, 25⟩ fun withDeclaration =>
        server.toldReferences emptyFolder
          (referenceParams "file:///ws/%C3%A4.ts" ⟨0, 25⟩ withDeclaration) := by
  intro server uri
  obtain ⟨running, indexed, found, alone⟩ : server.phase = .running ∧
      server.session.indexed = true ∧
      server.session.messageAt? uri ⟨0, 25⟩ =
        some (CatalogFile.ofText "/ws/ä.ts" blankMessageText, ⟨"", "", none⟩) ∧
      ∀ other ∈ server.session.tracked,
        Uri.ofFilePath? other.path = some uri → other.path = "/ws/ä.ts" := by
    decide +kernel
  refine ⟨found, (excludes_toldReferences_iff running indexed ?_).mpr ?_⟩
  · intro withDeclaration
    rfl
  · intro file key foundAt
    cases found.symm.trans foundAt
    exact ⟨by decide +kernel, fun member _ address => alone _ member address⟩

/-- A document is asked about under another address of its path. -/
theorem not_excludes_respelledAddress :
    let server := openedIn emptyFolder [("file:///ws/a.ts", blankMessageText)]
    let uri : Uri := ⟨"file", some "", "/ws/%61.ts", none, none⟩
    server.phase = .running ∧ server.session.indexed = true ∧
      (∃ file ∈ server.session.tracked, uri.filePath? = some file.path) ∧
      (∀ withDeclaration, Params.decodeReferences
          (referenceParams "file:///ws/%61.ts" ⟨0, 25⟩ withDeclaration) =
        .ok (.references uri ⟨0, 25⟩ withDeclaration)) ∧
      ¬server.session.Excludes uri ⟨0, 25⟩ fun withDeclaration =>
        server.toldReferences emptyFolder
          (referenceParams "file:///ws/%61.ts" ⟨0, 25⟩ withDeclaration) := by
  intro server uri
  obtain ⟨running, indexed, tracked, found⟩ : server.phase = .running ∧
      server.session.indexed = true ∧
      (∃ file ∈ server.session.tracked, uri.filePath? = some file.path) ∧
      server.session.messageAt? uri ⟨0, 25⟩ =
        some (CatalogFile.ofText "/ws/a.ts" blankMessageText, ⟨"", "", none⟩) := by
    decide +kernel
  have asked : ∀ withDeclaration, Params.decodeReferences
      (referenceParams "file:///ws/%61.ts" ⟨0, 25⟩ withDeclaration) =
        .ok (.references uri ⟨0, 25⟩ withDeclaration) := by
    intro withDeclaration
    rfl
  refine ⟨running, indexed, tracked, asked, ?_⟩
  intro excludes
  simp only [toldReferences_eq running indexed (asked _)] at excludes
  have own := (Session.excludes_references_iff.mp excludes _ _ found).own
  revert own
  decide +kernel

end Server

end CatalogServer
