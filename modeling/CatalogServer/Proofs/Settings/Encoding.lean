import CatalogServer.Proofs.Check.Standing
import CatalogServer.Proofs.Json.Decoding
import CatalogServer.Proofs.Settings.Changes

/-!
# Settings survive encoding

Decoding undoes the encoding of settings and of every part of them.  So a store
takes over the settings that it is given as a value, bare or in a section of
their own, as it takes over the settings themselves: whole if they are valid,
and not at all otherwise.
-/

namespace CatalogServer

open Json Text

theorem Severity.ofName?_name (severity : Severity) : ofName? severity.name = some severity := by
  cases severity <;> decide

theorem Severity.undoes_decode : Undoes Severity.decode fun severity => .string severity.name := by
  intro severity
  simp only [Severity.decode, asChoice, choiceOf, ofName?_name]

theorem RuleSettings.encode_eq (rule : RuleSettings) :
    rule.encode = .object [
      ("enabled", .bool rule.enabled),
      ("severity", ofOption (fun severity => .string severity.name) rule.severity)] := by
  simp only [encode, ofMembers, insertMember, List.foldl_cons, List.foldl_nil, String.reduceLT,
    String.reduceBEq, Bool.false_eq_true, ↓reduceIte]

theorem RuleSettings.undoes_decode : Undoes RuleSettings.decode RuleSettings.encode := by
  intro rule
  have severity := Severity.undoes_decode.option nofun rule.severity
  simp [decode, encode_eq, asRecord, setMembers, members, Except.ok_bind,
    undoes_truth rule.enabled, severity]

theorem CatalogFileSettings.encode_eq (files : CatalogFileSettings) :
    files.encode = .object [
      ("excludePatterns", ofList .string files.excludePatterns),
      ("includePatterns", ofList .string files.includePatterns)] := by
  simp only [encode, ofMembers, insertMember, List.foldl_cons, List.foldl_nil, String.reduceLT,
    ↓reduceIte]

theorem CatalogFileSettings.undoes_decode :
    Undoes CatalogFileSettings.decode CatalogFileSettings.encode := by
  intro files
  have patterns := undoes_text.list
  simp [decode, encode_eq, asRecord, setMembers, members, Except.ok_bind, patterns _]

theorem IndexingSettings.undoes_decode :
    Undoes IndexingSettings.decode IndexingSettings.encode := by
  intro indexing
  have threads := undoes_size.option nofun indexing.threads
  simp [decode, encode, ofMembers, insertMember, asRecord, setMembers, members, Except.ok_bind,
    threads]

namespace Settings

theorem decodeLanguages_encodeLanguages (languages : Option (List String)) :
    decodeLanguages (encodeLanguages languages) = .ok languages :=
  undoes_text.list.option nofun languages

/-- The rules stand in the order of the codes of their kinds, and come back in
the order of the kinds. -/
theorem decodeRules_encode (rules : SortedMap IssueKind RuleSettings) :
    decodeRules (ofMembers (rules.entries.map fun (kind, rule) => (kind.code, rule.encode))) =
      .ok rules := by
  have named (kind : IssueKind) :
      choiceOf IssueKind.ofCode? (IssueKind.all.map IssueKind.code) kind.code = .ok kind := by
    rw [choiceOf, IssueKind.ofCode?_code]
  obtain ⟨found, decoded, same⟩ :=
    exists_asEntries named RuleSettings.undoes_decode rules.nodup_keys
  rw [decodeRules, decoded, Except.ok_bind, SortedMap.ofList_of_perm same]
  rfl

theorem decodeFormCounts_encode (counts : FormCounts) :
    decodeFormCounts (ofMembers (counts.entries.map fun (locale, count) =>
      (locale, ofNat count))) = .ok counts := by
  obtain ⟨found, decoded, same⟩ :=
    exists_asEntries (fun _ => rfl) undoes_size counts.nodup_keys
  rw [decodeFormCounts, decoded, Except.ok_bind, SortedMap.ofList_of_perm same]
  rfl

theorem encode_eq (settings : Settings) :
    settings.encode = .object [
      ("diagnostics", ofMembers
        (settings.rules.entries.map fun (kind, rule) => (kind.code, rule.encode))),
      ("excludePatterns", ofList .string settings.excludePatterns),
      ("indexing", settings.indexing.encode),
      ("optionalLanguages", encodeLanguages settings.optionalLanguages),
      ("pluralForms", ofMembers
        (settings.formCounts.entries.map fun (locale, count) => (locale, ofNat count))),
      ("primaryLanguages", encodeLanguages settings.primaryLanguages),
      ("requiredLanguages", encodeLanguages settings.requiredLanguages),
      ("translationFiles", settings.catalogFiles.encode)] := by
  rw [encode]
  -- the members that are objects themselves are left closed
  generalize ofMembers (settings.rules.entries.map _) = rules,
    ofMembers (settings.formCounts.entries.map _) = formCounts
  simp only [ofMembers, insertMember, List.foldl_cons, List.foldl_nil, String.reduceLT,
    String.reduceBEq, Bool.false_eq_true, ↓reduceIte]

theorem undoes_decode : Undoes decode encode := by
  intro settings
  have rules := decodeRules_encode settings.rules
  have excluded := undoes_text.list settings.excludePatterns
  have indexing := IndexingSettings.undoes_decode settings.indexing
  have formCounts := decodeFormCounts_encode settings.formCounts
  have files := CatalogFileSettings.undoes_decode settings.catalogFiles
  simp [encode_eq, decode, asRecord, setMembers, members, Except.ok_bind, rules, excluded,
    indexing, formCounts, files, decodeLanguages_encodeLanguages]

/-- Encoded settings are settings themselves, and so is a section with them. -/
theorem decodeSection_encode (settings : Settings) :
    decodeSection settings.encode = .ok settings ∧
      decodeSection (ofMembers [("linguist", settings.encode)]) = .ok settings := by
  have bare : settings.encode.member? "linguist" = none := by
    simp [encode_eq, member?, List.lookup_cons]
  have wrapped : (ofMembers [("linguist", settings.encode)]).member? "linguist" =
      some settings.encode := by
    simp [ofMembers, insertMember, member?]
  rw [decodeSection, decodeSection, bare, wrapped]
  exact ⟨undoes_decode settings, undoes_decode settings⟩

end Settings

theorem SettingsStore.update_encode (store : SettingsStore) (settings : Settings) :
    store.update settings.encode = store.replace settings ∧
      store.update (ofMembers [("linguist", settings.encode)]) = store.replace settings := by
  obtain ⟨bare, wrapped⟩ := settings.decodeSection_encode
  rw [update, update, SettingsChange.update, SettingsChange.update, bare, wrapped]
  exact ⟨rfl, rfl⟩

/-- Settings are decoded from what they are encoded as.  If they are valid,
both shapes of the value put exactly these settings into effect, and the root
folder stays. -/
theorem Settings.survive_encoding :
    (∀ settings : Settings, Settings.decode settings.encode = .ok settings) ∧
      ∀ settings : Settings, settings.isValid = true → ∀ store : SettingsStore,
        store.update settings.encode = .ok { store with settings := settings } ∧
        store.update (ofMembers [("linguist", settings.encode)]) =
          .ok { store with settings := settings } := by
  refine ⟨undoes_decode, fun settings valid store => ?_⟩
  obtain ⟨bare, wrapped⟩ := store.update_encode settings
  rw [bare, wrapped, SettingsStore.replace_of_isValid valid]
  exact ⟨rfl, rfl⟩

/-- Settings with two rules that stand in the other order in an object. -/
def ruledSettings : Settings :=
  { catalogFiles := { includePatterns := ["locale/*.ts"] }
    indexing := ⟨some 4⟩
    rules := .ofList [(.malformed, ⟨true, some .hint⟩), (.emptySource, ⟨false, none⟩)]
    optionalLanguages := some []
    formCounts := .ofList [("pt_BR", 3), ("cy", 5)] }

theorem survive_encoding_ruledSettings :
    ruledSettings.isValid = true ∧
      SettingsStore.update ⟨{}, some "/ws"⟩ ruledSettings.encode =
        .ok ⟨ruledSettings, some "/ws"⟩ ∧
      SettingsStore.update ⟨{}, some "/ws"⟩ (ofMembers [("linguist", ruledSettings.encode)]) =
        .ok ⟨ruledSettings, some "/ws"⟩ := by
  have valid : ruledSettings.isValid = true := by decide +kernel
  exact ⟨valid, Settings.survive_encoding.2 ruledSettings valid ⟨{}, some "/ws"⟩⟩

end CatalogServer
