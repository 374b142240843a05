import CatalogServer.Session.Synchronization
import Mathlib.Logic.Basic
import Mathlib.Tactic.Tauto

/-!
# What is tracked at a path

Whatever changes the tracked files of a session does so in two ways: folders
are indexed, which merges the files found there, or the file at a path is
replaced.  A sequence of replacements counts, at every path, only by the
last of them.
-/

namespace CatalogServer

/-- One of the files lies at a path and has a text. -/
def HasText (files : List CatalogFile) (path text : String) : Prop :=
  ∃ file ∈ files, file.path = path ∧ file.text = text

instance (files : List CatalogFile) (path text : String) : Decidable (HasText files path text) :=
  inferInstanceAs (Decidable (∃ file ∈ files, file.path = path ∧ file.text = text))

theorem hasText_append {first second : List CatalogFile} {path text : String} :
    HasText (first ++ second) path text ↔
      HasText first path text ∨ HasText second path text := by
  simp only [HasText, List.mem_append, or_and_right, exists_or]

theorem exists_hasText {files : List CatalogFile} {path : String} :
    (∃ text, HasText files path text) ↔ ∃ file ∈ files, file.path = path := by
  constructor
  · rintro ⟨text, file, fileMem, filePath, _⟩
    exact ⟨file, fileMem, filePath⟩
  · rintro ⟨file, fileMem, filePath⟩
    exact ⟨file.text, file, fileMem, filePath, rfl⟩

theorem hasText_merge {tracked found : List CatalogFile} {path text : String} :
    HasText (Indexing.merge tracked found) path text ↔
      HasText found path text ∨
        (¬∃ other, HasText found path other) ∧ HasText tracked path text := by
  have kept : HasText (tracked.filter fun file => !found.any (·.path == file.path)) path text ↔
      (¬∃ other, HasText found path other) ∧ HasText tracked path text := by
    rw [exists_hasText]
    simp only [HasText, List.mem_filter, Bool.not_eq_true', List.any_eq_false, beq_iff_eq]
    constructor
    · rintro ⟨file, ⟨fileMem, notFound⟩, rfl, rfl⟩
      refine ⟨?_, file, fileMem, rfl, rfl⟩
      rintro ⟨other, otherMem, otherPath⟩
      exact notFound other otherMem otherPath
    · rintro ⟨notFound, file, fileMem, rfl, rfl⟩
      refine ⟨file, ⟨fileMem, ?_⟩, rfl, rfl⟩
      intro other otherMem otherPath
      exact notFound ⟨other, otherMem, otherPath⟩
  rw [Indexing.merge, hasText_append, kept, or_comm]

theorem exists_hasText_merge {tracked found : List CatalogFile} {path : String} :
    (∃ text, HasText (Indexing.merge tracked found) path text) ↔
      (∃ text, HasText found path text) ∨ ∃ text, HasText tracked path text := by
  simp only [hasText_merge, exists_or, exists_and_left]
  tauto

/-- Where files that are found agree with the tracked ones, merging adds
them. -/
theorem hasText_merge_of_agree {tracked found : List CatalogFile} {path text : String}
    (agree : ∀ held other, HasText tracked path held → HasText found path other → held = other) :
    HasText (Indexing.merge tracked found) path text ↔
      HasText tracked path text ∨ HasText found path text := by
  rw [hasText_merge]
  constructor
  · rintro (added | ⟨_, held⟩)
    · exact .inr added
    · exact .inl held
  · rintro (held | added)
    · by_cases replaced : ∃ other, HasText found path other
      · obtain ⟨other, added⟩ := replaced
        exact .inl (agree text other held added ▸ added)
      · exact .inr ⟨replaced, held⟩
    · exact .inl added

@[simp]
theorem Indexing.merge_nil (tracked : List CatalogFile) :
    Indexing.merge tracked [] = tracked := by
  simp [Indexing.merge]

theorem Indexing.merge_merge (tracked first second : List CatalogFile) :
    Indexing.merge (Indexing.merge tracked first) second =
      Indexing.merge tracked (Indexing.merge first second) := by
  simp only [Indexing.merge, List.filter_append, List.filter_filter, List.append_assoc]
  congr 1
  refine List.filter_congr ?_
  intro file _
  rw [Bool.eq_iff_iff]
  simp only [Bool.and_eq_true, Bool.not_eq_true', List.any_eq_false, beq_iff_eq,
    List.mem_append, List.mem_filter]
  constructor
  · rintro ⟨notSecond, notFirst⟩ other (⟨otherMem, _⟩ | otherMem)
    · exact notFirst other otherMem
    · exact notSecond other otherMem
  · intro absent
    have notSecond : ∀ other ∈ second, ¬other.path = file.path :=
      fun other otherMem => absent other (.inr otherMem)
    refine ⟨notSecond, ?_⟩
    intro other otherMem otherPath
    refine absent other (.inl ⟨otherMem, ?_⟩) otherPath
    intro later laterMem laterPath
    exact notSecond later laterMem (laterPath.trans otherPath)

/-- What becomes of the tracked file at a path. -/
inductive Replacement where
  | removed
  | text (text : String)
  deriving DecidableEq, Repr

namespace Session

variable (session : Session)

/-- Replaces the tracked file at a path. -/
def replaceAt (path : String) : Replacement → Session
  | .removed => session.untrack path
  | .text text => session.track path text

/-- Replaces tracked files one after the other. -/
def replaceAll (replacements : List (String × Replacement)) : Session :=
  replacements.foldl (fun session replaced => session.replaceAt replaced.1 replaced.2) session

@[simp]
theorem replaceAll_nil : session.replaceAll [] = session :=
  rfl

@[simp]
theorem replaceAll_cons (replaced : String × Replacement)
    (rest : List (String × Replacement)) :
    session.replaceAll (replaced :: rest) =
      (session.replaceAt replaced.1 replaced.2).replaceAll rest :=
  rfl

@[simp]
theorem track_store (path text : String) : (session.track path text).store = session.store := by
  unfold track
  split <;> rfl

@[simp]
theorem track_opened (path text : String) :
    (session.track path text).opened = session.opened := by
  unfold track
  split <;> rfl

@[simp]
theorem replaceAt_store (path : String) (replacement : Replacement) :
    (session.replaceAt path replacement).store = session.store := by
  cases replacement with
  | removed => rfl
  | text text => exact session.track_store path text

@[simp]
theorem replaceAt_opened (path : String) (replacement : Replacement) :
    (session.replaceAt path replacement).opened = session.opened := by
  cases replacement with
  | removed => rfl
  | text text => exact session.track_opened path text

@[simp]
theorem replaceAll_store (replacements : List (String × Replacement)) :
    (session.replaceAll replacements).store = session.store := by
  induction replacements generalizing session with
  | nil => rfl
  | cons replaced rest ih => rw [replaceAll_cons, ih, replaceAt_store]

@[simp]
theorem replaceAll_opened (replacements : List (String × Replacement)) :
    (session.replaceAll replacements).opened = session.opened := by
  induction replacements generalizing session with
  | nil => rfl
  | cons replaced rest ih => rw [replaceAll_cons, ih, replaceAt_opened]

variable {session}

/-- The file at the path is set, also when there was none. -/
theorem mem_track {path text : String} {file : CatalogFile} :
    file ∈ (session.track path text).tracked ↔
      if file.path = path then file = .ofText path text else file ∈ session.tracked := by
  unfold track
  by_cases held : session.tracked.any (·.path == path) = true
  · rw [if_pos held]
    simp only [List.mem_map]
    split
    case isTrue here =>
      constructor
      · rintro ⟨earlier, _, rfl⟩
        by_cases same : earlier.path = path
        · exact if_pos (beq_iff_eq.mpr same)
        · rw [if_neg (by simpa using same)] at here
          exact absurd here same
      · rintro rfl
        obtain ⟨earlier, earlierMem, same⟩ := List.any_eq_true.mp held
        exact ⟨earlier, earlierMem, if_pos same⟩
    case isFalse elsewhere =>
      constructor
      · rintro ⟨earlier, earlierMem, rfl⟩
        by_cases same : earlier.path = path
        · rw [if_pos (beq_iff_eq.mpr same)] at elsewhere
          exact absurd rfl elsewhere
        · rw [if_neg (by simpa using same)]
          exact earlierMem
      · intro fileMem
        exact ⟨file, fileMem, if_neg (by simpa using elsewhere)⟩
  · rw [if_neg held]
    have absent : ∀ file ∈ session.tracked, ¬file.path = path := by
      simpa using held
    simp only [List.mem_append, List.mem_singleton]
    split
    case isTrue here => exact or_iff_right fun fileMem => absent file fileMem here
    case isFalse elsewhere =>
      refine or_iff_left ?_
      rintro rfl
      exact elsewhere rfl

theorem mem_untrack {path : String} {file : CatalogFile} :
    file ∈ (session.untrack path).tracked ↔ file.path ≠ path ∧ file ∈ session.tracked := by
  rw [untrack, otherFiles, List.mem_filter, bne_iff_ne, and_comm]

/-- The last of the replacements at a path. -/
def lastAt? (replacements : List (String × Replacement)) (path : String) : Option Replacement :=
  match replacements with
  | [] => none
  | replaced :: rest =>
      (lastAt? rest path).or (if replaced.1 = path then some replaced.2 else none)

/-- Replacing files tells on a path by the last replacement there. -/
theorem mem_replaceAll {replacements : List (String × Replacement)} {file : CatalogFile} :
    file ∈ (session.replaceAll replacements).tracked ↔
      match lastAt? replacements file.path with
      | none => file ∈ session.tracked
      | some .removed => False
      | some (.text text) => file = .ofText file.path text := by
  induction replacements generalizing session with
  | nil => rfl
  | cons replaced rest ih =>
      obtain ⟨place, replacement⟩ := replaced
      rw [replaceAll_cons, ih, lastAt?]
      cases later : lastAt? rest file.path with
      | some last => cases last <;> rfl
      | none =>
          by_cases here : place = file.path
          · subst here
            cases replacement with
            | removed => simp [replaceAt, mem_untrack]
            | text other => simp [replaceAt, mem_track]
          · cases replacement with
            | removed => simp [replaceAt, mem_untrack, here, Ne.symm here]
            | text other => simp [replaceAt, mem_track, here, Ne.symm here]

theorem hasText_replaceAll {replacements : List (String × Replacement)} {path text : String} :
    HasText (session.replaceAll replacements).tracked path text ↔
      match lastAt? replacements path with
      | none => HasText session.tracked path text
      | some .removed => False
      | some (.text replaced) => text = replaced := by
  simp only [HasText, mem_replaceAll]
  constructor
  · rintro ⟨file, fileMem, rfl, rfl⟩
    split at fileMem
    · exact ⟨file, fileMem, rfl, rfl⟩
    · exact fileMem
    · exact congrArg CatalogFile.text fileMem
  · intro tells
    split at tells
    · next untouched =>
        obtain ⟨file, fileMem, rfl, rfl⟩ := tells
        exact ⟨file, by rwa [untouched], rfl, rfl⟩
    · exact tells.elim
    · next replaced last =>
        subst tells
        exact ⟨.ofText path text, by simp [CatalogFile.ofText, last], rfl, rfl⟩

theorem lastAt?_eq_none {replacements : List (String × Replacement)} {path : String} :
    lastAt? replacements path = none ↔ ∀ replaced ∈ replacements, replaced.1 ≠ path := by
  induction replacements with
  | nil => simp [lastAt?]
  | cons replaced rest ih =>
      rw [lastAt?, Option.or_eq_none_iff, ih, List.forall_mem_cons, and_comm]
      simp

theorem mem_of_lastAt? {replacements : List (String × Replacement)} {path : String}
    {replacement : Replacement}
    (last : lastAt? replacements path = some replacement) :
    (path, replacement) ∈ replacements := by
  induction replacements with
  | nil => cases last
  | cons replaced rest ih =>
      rw [lastAt?, Option.or_eq_some_iff] at last
      rcases last with later | ⟨_, here⟩
      · exact List.mem_cons_of_mem _ (ih later)
      · simp only [Option.ite_none_right_eq_some, Option.some.injEq] at here
        obtain ⟨rfl, rfl⟩ := here
        exact List.mem_cons_self

theorem lastAt?_eq_some_iff {replacements : List (String × Replacement)} {path : String}
    (single : ∀ first second, (path, first) ∈ replacements → (path, second) ∈ replacements →
      first = second) {replacement : Replacement} :
    lastAt? replacements path = some replacement ↔ (path, replacement) ∈ replacements := by
  constructor
  · exact mem_of_lastAt?
  · intro replacementMem
    cases last : lastAt? replacements path with
    | none => exact absurd rfl (lastAt?_eq_none.mp last _ replacementMem)
    | some latest => rw [single latest replacement (mem_of_lastAt? last) replacementMem]

end Session

end CatalogServer
