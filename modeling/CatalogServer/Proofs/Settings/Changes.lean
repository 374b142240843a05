import CatalogServer.Proofs.Workspace.Matching
import CatalogServer.Settings.Store

/-!
# Changes of the settings in effect

A change checks the settings before it stores them.  So when it is made the
settings in effect are valid, and when it is refused the store is the one that
it was applied to.
-/

namespace CatalogServer

/-- The settings file of a folder is valid, or there is none. -/
def Disk.HasValidSettings (disk : Disk) (folder : String) : Prop :=
  ∃ settings, Settings.ofFolder disk folder = .ok settings ∧ settings.isValid = true

namespace Settings

variable {settings : Settings}

theorem isValid_default : ({} : Settings).isValid = true := by
  decide +kernel

theorem checked_eq_ok {found : Settings} (checked : settings.checked = .ok found) :
    found = settings ∧ found.isValid = true := by
  unfold Settings.checked at checked
  split at checked
  · next none =>
      cases checked
      exact ⟨rfl, by rw [isValid, none, List.isEmpty_nil]⟩
  · cases checked

theorem checked_of_isValid (valid : settings.isValid = true) :
    settings.checked = .ok settings := by
  rw [checked, problems_eq_nil_of_isValid valid]

end Settings

theorem Disk.hasValidSettings_of_absent {disk : Disk} {folder : String}
    (absent : disk.hasPath (Path.join folder settingsFileName) = false) :
    disk.HasValidSettings folder := by
  refine ⟨{}, ?_, Settings.isValid_default⟩
  rw [Settings.ofFolder, absent]
  rfl

section Checks

variable {α : Type} {store after : SettingsStore} {checked : Except SettingsError α}
  {next : α → SettingsChange} {change : SettingsChange}

/-- A check that fails ends a change, and stores nothing. -/
theorem SettingsStore.apply_check (store : SettingsStore) (checked : Except SettingsError α)
    (next : α → SettingsChange) :
    store.apply (MonadExcept.ofExcept checked >>= next) =
      match checked with
      | .ok value => store.apply (next value)
      | .error error => (.error error, store) := by
  cases checked <;> rfl

theorem SettingsStore.apply_check_eq_ok :
    store.apply (MonadExcept.ofExcept checked >>= next) = (.ok (), after) ↔
      ∃ value, checked = .ok value ∧ store.apply (next value) = (.ok (), after) := by
  rw [apply_check]
  cases checked <;> simp

/-- A change that leaves every store as it was when it is refused. -/
def SettingsChange.Guarded (change : SettingsChange) : Prop :=
  ∀ (store : SettingsStore) (error : SettingsError),
    (store.apply change).1 = .error error → (store.apply change).2 = store

theorem SettingsChange.guarded_check (checked : Except SettingsError α)
    (guarded : ∀ value, (next value).Guarded) :
    SettingsChange.Guarded (MonadExcept.ofExcept checked >>= next) := by
  intro store error refused
  rw [SettingsStore.apply_check] at refused ⊢
  cases checked with
  | error _ => rfl
  | ok value => exact guarded value store error refused

theorem SettingsChange.guarded_modify (f : SettingsStore → SettingsStore) :
    SettingsChange.Guarded (modify f) := by
  intro store error refused
  cases refused

end Checks

namespace SettingsChange

theorem guarded_load (disk : Disk) (root : Option String) : (load disk root).Guarded :=
  guarded_check _ fun _ => guarded_check _ fun _ => guarded_modify _

theorem guarded_replace (settings : Settings) : (replace settings).Guarded :=
  guarded_check _ fun _ => guarded_modify _

theorem guarded_update (value : Json) : (update value).Guarded :=
  guarded_check _ guarded_replace

end SettingsChange

namespace SettingsStore

variable {store after : SettingsStore} {change : SettingsChange} {disk : Disk}

theorem apply_cases (guarded : change.Guarded) (store : SettingsStore) :
    (∃ error, store.apply change = (.error error, store)) ∨
      ∃ after, store.apply change = (.ok (), after) := by
  cases applied : store.apply change with
  | mk outcome left =>
      cases outcome with
      | error error =>
          have same := guarded store error (congrArg Prod.fst applied)
          rw [applied] at same
          exact .inl ⟨error, Prod.ext rfl same⟩
      | ok => exact .inr ⟨left, rfl⟩

theorem changed_eq_ok :
    store.changed change = .ok after ↔ store.apply change = (.ok (), after) := by
  unfold changed
  cases store.apply change with
  | mk outcome left => cases outcome <;> simp

theorem changed_eq_error (guarded : change.Guarded) {error : SettingsError} :
    store.changed change = .error error ↔ store.apply change = (.error error, store) := by
  unfold changed
  rcases apply_cases guarded store with ⟨other, refused⟩ | ⟨after, made⟩
  · simp [refused]
  · simp [made]

theorem load_eq_ok {root : Option String}
    (loaded : store.apply (.load disk root) = (.ok (), after)) :
    after.settings.isValid = true ∧ after.root = root := by
  obtain ⟨read, -, loaded⟩ := apply_check_eq_ok.mp loaded
  obtain ⟨settings, checked, loaded⟩ := apply_check_eq_ok.mp loaded
  cases loaded
  exact ⟨(Settings.checked_eq_ok checked).2, rfl⟩

theorem replace_eq_ok {settings : Settings}
    (given : store.apply (.replace settings) = (.ok (), after)) :
    after.settings.isValid = true ∧ after.root = store.root := by
  obtain ⟨settings, checked, given⟩ := apply_check_eq_ok.mp given
  cases given
  exact ⟨(Settings.checked_eq_ok checked).2, rfl⟩

theorem update_eq_ok {value : Json} (given : store.apply (.update value) = (.ok (), after)) :
    after.settings.isValid = true ∧ after.root = store.root := by
  obtain ⟨read, -, given⟩ := apply_check_eq_ok.mp given
  exact replace_eq_ok given

theorem exists_load_of_hasValidSettings (store : SettingsStore) {root : String}
    (valid : disk.HasValidSettings root) :
    ∃ after, store.apply (.load disk (some root)) = (.ok (), after) := by
  obtain ⟨settings, read, sound⟩ := valid
  refine ⟨⟨settings, some root⟩, ?_⟩
  exact apply_check_eq_ok.mpr ⟨settings, read,
    apply_check_eq_ok.mpr ⟨settings, Settings.checked_of_isValid sound, rfl⟩⟩

/-- What is given replaces all settings, so what was in effect before does not
matter. -/
theorem update_congr {other : SettingsStore} {value : Json}
    (given : store.apply (.update value) = (.ok (), after)) :
    other.apply (.update value) = (.ok (), ⟨after.settings, other.root⟩) := by
  obtain ⟨read, decoded, given⟩ := apply_check_eq_ok.mp given
  obtain ⟨settings, checked, given⟩ := apply_check_eq_ok.mp given
  cases given
  exact apply_check_eq_ok.mpr ⟨read, decoded, apply_check_eq_ok.mpr ⟨settings, checked, rfl⟩⟩

theorem replace_of_isValid {settings : Settings} (valid : settings.isValid = true)
    (store : SettingsStore) : store.replace settings = .ok { store with settings := settings } :=
  changed_eq_ok.mpr (apply_check_eq_ok.mpr ⟨settings, Settings.checked_of_isValid valid, rfl⟩)

end SettingsStore

end CatalogServer
