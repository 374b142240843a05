import CatalogServer.Proofs.Outcome
import CatalogServer.Settings.Validation
import CatalogServer.Workspace.FileMatcher
import Mathlib.Tactic.ByContra

/-!
# Matchers of valid settings

Valid settings have a matcher for every folder.  It accepts the paths below the
folder that the patterns of the settings pick.  What lies below a folder does not
depend on how the folder is spelled.
-/

namespace CatalogServer

namespace Settings

variable {settings : Settings}

theorem problems_eq_nil_of_isValid (valid : settings.isValid = true) : settings.problems = [] :=
  List.isEmpty_iff.mp valid

theorem exists_read_of_patternListProblems {field : String} {patterns : List String}
    (sound : patternListProblems field patterns = []) :
    ∀ text ∈ patterns, ∃ pattern, Glob.Pattern.read text false = .ok pattern := by
  intro text textMem
  obtain ⟨number, within, rfl⟩ := List.mem_iff_getElem.mp textMem
  have problems : patternProblems field patterns[number] number ∈
      patterns.mapIdx fun number pattern => patternProblems field pattern number :=
    List.mem_mapIdx.mpr ⟨number, within, rfl⟩
  have none := List.flatten_eq_nil_iff.mp sound _ problems
  unfold patternProblems at none
  split at none
  · next pattern read => exact ⟨pattern, read⟩
  · cases none

theorem exists_read_of_isValid (valid : settings.isValid = true) :
    (∀ text ∈ settings.catalogFiles.includePatterns,
        ∃ pattern, Glob.Pattern.read text false = .ok pattern) ∧
      ∀ text ∈ settings.allExcludePatterns,
        ∃ pattern, Glob.Pattern.read text false = .ok pattern := by
  have sound := problems_eq_nil_of_isValid valid
  simp only [problems, List.append_eq_nil_iff] at sound
  obtain ⟨⟨⟨⟨⟨⟨-, included⟩, excludedFiles⟩, excluded⟩, -⟩, -⟩, -⟩ := sound
  refine ⟨exists_read_of_patternListProblems included, ?_⟩
  intro text textMem
  rcases List.mem_append.mp textMem with general | ofFiles
  · exact exists_read_of_patternListProblems excluded text general
  · exact exists_read_of_patternListProblems excludedFiles text ofFiles

/-- One of the texts is a pattern that matches the path. -/
def MatchedBy (texts : List String) (path : String) : Prop :=
  ∃ text ∈ texts, ∃ pattern, Glob.Pattern.read text false = .ok pattern ∧
    pattern.matchesPath .wild path = true

/-- A path below a folder matches a pattern to include and none to exclude. -/
structure Picks (settings : Settings) (path : String) : Prop where
  included : MatchedBy settings.catalogFiles.includePatterns path
  unexcluded : ¬MatchedBy settings.allExcludePatterns path

end Settings

namespace FileMatcher

variable {settings : Settings} {root : String} {matcher : FileMatcher}

theorem exists_readPatterns (fault : String → Glob.PatternError → MatcherError)
    {texts : List String}
    (readable : ∀ text ∈ texts, ∃ pattern, Glob.Pattern.read text false = .ok pattern) :
    ∃ patterns, readPatterns fault texts = .ok patterns := by
  induction texts with
  | nil => exact ⟨[], rfl⟩
  | cons text rest ih =>
      obtain ⟨⟨pattern, read⟩, later⟩ := List.forall_mem_cons.mp readable
      obtain ⟨patterns, reads⟩ := ih later
      refine ⟨pattern :: patterns, ?_⟩
      rw [readPatterns] at reads ⊢
      rw [List.mapM_cons, read, reads]
      rfl

theorem exists_ofSettings (valid : settings.isValid = true) (root : String) :
    ∃ matcher, ofSettings root settings = .ok matcher := by
  obtain ⟨included, excluded⟩ := Settings.exists_read_of_isValid valid
  obtain ⟨includedPatterns, readsIncluded⟩ := exists_readPatterns .includePattern included
  obtain ⟨excludedPatterns, readsExcluded⟩ := exists_readPatterns .excludePattern excluded
  refine ⟨⟨root, includedPatterns, excludedPatterns⟩, ?_⟩
  rw [ofSettings, readsIncluded, readsExcluded]
  rfl

theorem ofSettings_eq_ok (given : ofSettings root settings = .ok matcher) :
    readPatterns .includePattern settings.catalogFiles.includePatterns = .ok matcher.included ∧
      readPatterns .excludePattern settings.allExcludePatterns = .ok matcher.excluded ∧
        matcher.root = root := by
  obtain ⟨included, readsIncluded, given⟩ := Except.bind_eq_ok given
  obtain ⟨excluded, readsExcluded, given⟩ := Except.bind_eq_ok given
  cases given
  exact ⟨readsIncluded, readsExcluded, rfl⟩

theorem anyMatches_iff {fault : String → Glob.PatternError → MatcherError} {texts : List String}
    {patterns : List Glob.Pattern} (reads : readPatterns fault texts = .ok patterns)
    {path : String} : anyMatches patterns path = true ↔ Settings.MatchedBy texts path := by
  unfold anyMatches Settings.MatchedBy
  induction texts generalizing patterns with
  | nil =>
      cases reads
      simp
  | cons text rest ih =>
      rw [readPatterns, List.mapM_cons] at reads
      obtain ⟨pattern, read, reads⟩ := Except.bind_eq_ok reads
      obtain ⟨others, readOthers, reads⟩ := Except.bind_eq_ok reads
      cases reads
      simp only [List.any_cons, Bool.or_eq_true, ih readOthers, List.mem_cons,
        exists_eq_or_imp, Except.mapError_eq_ok read, Except.ok.injEq, exists_eq_left']

theorem acceptsRelative_iff (given : ofSettings root settings = .ok matcher) {path : String} :
    matcher.acceptsRelative path = true ↔ settings.Picks path := by
  obtain ⟨included, excluded, -⟩ := ofSettings_eq_ok given
  rw [acceptsRelative, Bool.and_eq_true, Bool.not_eq_true', ← Bool.not_eq_true,
    anyMatches_iff included, anyMatches_iff excluded]
  exact ⟨fun ⟨taken, kept⟩ => ⟨taken, kept⟩, fun picked => ⟨picked.included, picked.unexcluded⟩⟩

/-- A path below the root folder is accepted when the patterns pick it. -/
theorem accepts_iff_of_below (given : ofSettings root settings = .ok matcher)
    {path relative : String} (below : Path.relativeTo? root path = some relative) :
    matcher.accepts path = true ↔ settings.Picks relative := by
  rw [accepts, (ofSettings_eq_ok given).2.2, below]
  exact acceptsRelative_iff given

theorem accepts_of_relativeTo?_eq_none {path : String}
    (outside : Path.relativeTo? matcher.root path = none) : matcher.accepts path = false := by
  rw [accepts, outside]

end FileMatcher

namespace Path

/-- Two spellings of one folder. -/
def SameFolder (first second : String) : Prop :=
  components first = components second

instance (first second : String) : Decidable (SameFolder first second) :=
  inferInstanceAs (Decidable (components first = components second))

theorem ofPiece_injective : Function.Injective Component.ofPiece := by
  intro first second same
  unfold Component.ofPiece at same
  split at same
  case isTrue firstParent =>
    split at same
    case isTrue secondParent =>
      exact (beq_iff_eq.mp firstParent).trans (beq_iff_eq.mp secondParent).symm
    case isFalse => cases same
  case isFalse =>
    split at same
    case isTrue => cases same
    case isFalse =>
      cases same
      rfl

theorem ofPiece_ne_root (piece : List Char) : Component.ofPiece piece ≠ .root := by
  unfold Component.ofPiece
  split <;> rintro ⟨⟩

theorem ofPiece_ne_current (piece : List Char) : Component.ofPiece piece ≠ .current := by
  unfold Component.ofPiece
  split <;> rintro ⟨⟩

theorem components_inj {first second : Head} {names others : List (List Char)}
    (same : first.components ++ names.map .ofPiece =
      second.components ++ others.map .ofPiece) : first = second ∧ names = others := by
  have pieces {names others : List (List Char)}
      (same : names.map Component.ofPiece = others.map .ofPiece) : names = others :=
    (List.map_inj_right fun _ _ => @ofPiece_injective _ _).mp same
  have unlike {component : Component} (other : ∀ piece, Component.ofPiece piece ≠ component)
      {names others : List (List Char)}
      (same : component :: names.map .ofPiece = others.map .ofPiece) : False := by
    cases others with
    | nil => cases same
    | cons piece rest => exact other piece (List.cons.inj same).1.symm
  cases first <;> cases second <;> simp only [Head.components, List.nil_append,
    List.cons_append] at same
  case rooted.rooted => exact ⟨rfl, pieces (List.cons.inj same).2⟩
  case dotted.dotted => exact ⟨rfl, pieces (List.cons.inj same).2⟩
  case plain.plain => exact ⟨rfl, pieces same⟩
  case rooted.dotted => cases (List.cons.inj same).1
  case dotted.rooted => cases (List.cons.inj same).1
  case rooted.plain => exact (unlike ofPiece_ne_root same).elim
  case plain.rooted => exact (unlike ofPiece_ne_root same.symm).elim
  case dotted.plain => exact (unlike ofPiece_ne_current same).elim
  case plain.dotted => exact (unlike ofPiece_ne_current same.symm).elim

theorem components_eq (path : String) :
    components path = (split path.toList).1.components ++
      ((split path.toList).2.filter (!isVoid ·)).map .ofPiece :=
  rfl

/-- What lies below a folder does not depend on how the folder is
spelled. -/
theorem relativeTo?_congr {first second : String} (same : SameFolder first second) :
    relativeTo? first = relativeTo? second := by
  rw [SameFolder, components_eq, components_eq] at same
  obtain ⟨sameHead, sameNames⟩ := components_inj same
  funext path
  simp only [relativeTo?, sameHead, sameNames]

end Path

end CatalogServer
