import CatalogServer.Locale.Plural
import CatalogServer.Proofs.Locale.Parts

/-!
# The normal form of a locale

A locale has many spellings, but one that it is written in: the language in
lower case, and behind an underscore the territory in upper case.  Every
spelling is read as a locale in normal form, and a locale in normal form is
read back from the way it is written.  So nothing that depends on the locale
can tell a spelling from the written form.
-/

namespace CatalogServer

open Text

namespace LocaleTag

/-- A locale in normal form: the language has two or three lower-case letters
of ASCII, and the territory, if there is one, two upper-case letters or three
digits. -/
structure IsNormal (tag : LocaleTag) : Prop where
  language : (tag.language.length = 2 ∨ tag.language.length = 3) ∧
    ∀ c ∈ tag.language.toList, c.isLower = true
  territory : ∀ code ∈ tag.territory,
    code.length = 2 ∧ (∀ c ∈ code.toList, c.isUpper = true) ∨
      code.length = 3 ∧ ∀ c ∈ code.toList, c.isDigit = true

variable {tag : LocaleTag} {spelling : String} {word : List Char}

theorem isLanguage_iff :
    isLanguage word = true ↔
      (word.length = 2 ∨ word.length = 3) ∧ ∀ c ∈ word, c.isAlpha = true := by
  simp [isLanguage]

theorem isTerritory_iff :
    isTerritory word = true ↔
      word.length = 2 ∧ (∀ c ∈ word, c.isAlpha = true) ∨
        word.length = 3 ∧ ∀ c ∈ word, c.isDigit = true := by
  simp [isTerritory]

/-- A text names a locale by its first word, which has to be a language, and by
the first word behind it that can be a territory. -/
theorem parse?_eq_some_iff :
    parse? spelling = some tag ↔
      ∃ language others,
        (splitParts (trim spelling.toList)).filter (!·.isEmpty) = language :: others ∧
        isLanguage language = true ∧
        tag = ⟨String.ofList (language.map Char.toLower),
          (others.find? isTerritory).map fun part => String.ofList (part.map Char.toUpper)⟩ := by
  unfold parse?
  split
  · next nothing => simp [nothing]
  · next language others parts =>
      split
      · next given =>
          rw [Option.some_inj]
          constructor
          · rintro rfl
            exact ⟨language, others, parts, given, rfl⟩
          · rintro ⟨_, _, same, -, rfl⟩
            obtain ⟨rfl, rfl⟩ := List.cons.inj (parts.symm.trans same)
            rfl
      · next refused =>
          refine iff_of_false nofun ?_
          rintro ⟨_, _, same, given, -⟩
          obtain ⟨rfl, -⟩ := List.cons.inj (parts.symm.trans same)
          exact refused given

theorem map_eq_self {f : Char → Char} (fixed : ∀ c ∈ word, f c = c) : word.map f = word :=
  (List.map_congr_left fixed).trans (List.map_id' word)

section Casing

variable {c : Char}

/-- Letters and digits are among the characters up to the last letter of
ASCII, so what they have in common can be tried out. -/
theorem exists_code (word : c.isAlphanum = true) : ∃ code < 123, c = Char.ofNat code := by
  have range := toNat_of_isAlphanum word
  exact ⟨c.toNat, by omega, (Char.ofNat_toNat c).symm⟩

theorem isAlpha_of_isUpper (upper : c.isUpper = true) : c.isAlpha = true :=
  (Bool.or_eq_true _ _).mpr (.inl upper)

theorem isAlpha_of_isLower (lower : c.isLower = true) : c.isAlpha = true :=
  (Bool.or_eq_true _ _).mpr (.inr lower)

theorem isLower_toLower (letter : c.isAlpha = true) : c.toLower.isLower = true := by
  obtain ⟨code, small, rfl⟩ := exists_code (by rw [Char.isAlphanum, letter, Bool.true_or])
  revert code
  decide

theorem isUpper_toUpper (letter : c.isAlpha = true) : c.toUpper.isUpper = true := by
  obtain ⟨code, small, rfl⟩ := exists_code (by rw [Char.isAlphanum, letter, Bool.true_or])
  revert code
  decide

theorem toLower_of_isLower (lower : c.isLower = true) : c.toLower = c := by
  have word : c.isAlphanum = true := by
    rw [Char.isAlphanum, isAlpha_of_isLower lower, Bool.true_or]
  obtain ⟨code, small, rfl⟩ := exists_code word
  clear word
  revert code
  decide

theorem toUpper_of_isUpper (upper : c.isUpper = true) : c.toUpper = c := by
  have word : c.isAlphanum = true := by
    rw [Char.isAlphanum, isAlpha_of_isUpper upper, Bool.true_or]
  obtain ⟨code, small, rfl⟩ := exists_code word
  clear word
  revert code
  decide

theorem toUpper_of_isDigit (digit : c.isDigit = true) : c.toUpper = c := by
  obtain ⟨code, small, rfl⟩ := exists_code (by rw [Char.isAlphanum, digit, Bool.or_true])
  revert code
  decide

end Casing

theorem isNormal_of_parse? (named : parse? spelling = some tag) : tag.IsNormal := by
  obtain ⟨language, others, -, given, rfl⟩ := parse?_eq_some_iff.mp named
  obtain ⟨size, letters⟩ := isLanguage_iff.mp given
  constructor
  · rw [String.length_ofList, String.toList_ofList, List.length_map, List.forall_mem_map]
    exact ⟨size, fun c member => isLower_toLower (letters c member)⟩
  · intro code given
    obtain ⟨part, found, rfl⟩ := Option.map_eq_some_iff.mp given
    rw [String.length_ofList, String.toList_ofList, List.length_map]
    rcases isTerritory_iff.mp (List.find?_some found) with ⟨size, letters⟩ | ⟨size, digits⟩
    · exact .inl ⟨size, List.forall_mem_map.mpr fun c member => isUpper_toUpper (letters c member)⟩
    · have same : part.map Char.toUpper = part :=
        map_eq_self fun c member => toUpper_of_isDigit (digits c member)
      exact .inr ⟨size, same.symm ▸ digits⟩

namespace IsNormal

variable (normal : tag.IsNormal)

include normal

theorem map_toLower : tag.language.toList.map Char.toLower = tag.language.toList := by
  exact map_eq_self fun c member => toLower_of_isLower (normal.language.2 c member)

theorem isLanguage : isLanguage tag.language.toList = true := by
  exact isLanguage_iff.mpr ⟨normal.language.1, fun c member =>
    isAlpha_of_isLower (normal.language.2 c member)⟩

theorem map_toUpper {code : String} (given : code ∈ tag.territory) :
    code.toList.map Char.toUpper = code.toList := by
  refine map_eq_self fun c member => ?_
  rcases normal.territory code given with ⟨-, upper⟩ | ⟨-, digits⟩
  · exact toUpper_of_isUpper (upper c member)
  · exact toUpper_of_isDigit (digits c member)

theorem isTerritory {code : String} (given : code ∈ tag.territory) :
    isTerritory code.toList = true := by
  refine isTerritory_iff.mpr ((normal.territory code given).imp_left ?_)
  rintro ⟨size, upper⟩
  exact ⟨size, fun c member => isAlpha_of_isUpper (upper c member)⟩

end IsNormal

theorem parts_render (normal : tag.IsNormal) :
    (splitParts (trim tag.render.toList)).filter (!·.isEmpty) =
      tag.language.toList :: (tag.territory.map String.toList).toList := by
  obtain ⟨language, territory⟩ := tag
  obtain ⟨nonempty, plain⟩ := isAlphanum_of_isLanguage normal.isLanguage
  have visible {word : List Char} (plain : word.all Char.isAlphanum = true) :
      ∀ c ∈ word, isBlank c = false := fun c member =>
    isBlank_of_isAlphanum (List.all_eq_true.mp plain c member)
  have kept {word : List Char} (nonempty : word ≠ []) : (!word.isEmpty) = true := by
    rwa [Bool.not_eq_true', List.isEmpty_eq_false_iff]
  cases territory with
  | none =>
      have whole : (render ⟨language, none⟩).toList = language.toList := rfl
      rw [whole, trim_eq_self (visible plain), splitParts_of_isAlphanum plain]
      exact List.filter_cons_of_pos (kept nonempty)
  | some code =>
      obtain ⟨present, given⟩ := isAlphanum_of_isTerritory (normal.isTerritory rfl)
      have whole : (render ⟨language, some code⟩).toList =
          language.toList ++ '_' :: code.toList := by
        simp [render]
      have unblank : ∀ c ∈ language.toList ++ '_' :: code.toList, isBlank c = false := by
        simp only [List.forall_mem_append, List.forall_mem_cons]
        exact ⟨visible plain, by decide, visible given⟩
      rw [whole, trim_eq_self unblank, splitParts_append, splitParts_of_isAlphanum plain,
        splitParts_of_isAlphanum given]
      exact List.filter_eq_self.mpr (List.forall_mem_cons.mpr
        ⟨kept nonempty, List.forall_mem_singleton.mpr (kept present)⟩)

/-- A locale in normal form is read back from the way it is written. -/
theorem parse?_render (normal : tag.IsNormal) : parse? tag.render = some tag := by
  refine parse?_eq_some_iff.mpr ⟨_, _, parts_render normal, normal.isLanguage, ?_⟩
  -- Reading folds the letter case, which is the normal one already.
  rw [normal.map_toLower, String.ofList_toList]
  obtain ⟨language, territory⟩ := tag
  cases territory with
  | none => rfl
  | some code =>
      have found : [code.toList].find? isTerritory = some code.toList :=
        List.find?_cons_of_pos (normal.isTerritory rfl)
      simp only [Option.map_some, Option.toList_some, found, normal.map_toUpper rfl,
        String.ofList_toList]

theorem exists_spelling_iff : (∃ spelling, parse? spelling = some tag) ↔ tag.IsNormal :=
  ⟨fun ⟨_, named⟩ => isNormal_of_parse? named, fun normal => ⟨tag.render, parse?_render normal⟩⟩

/-- A spelling is read as a locale in normal form, the locale is read back from
the way it is written, and it has the plural rule of the spelling. -/
theorem normalizes_of_parse? (named : parse? spelling = some tag) :
    tag.IsNormal ∧ parse? tag.render = some tag ∧
      PluralRule.ofLocale? spelling = PluralRule.ofLocale? tag.render := by
  have normal := isNormal_of_parse? named
  have again := parse?_render normal
  refine ⟨normal, again, ?_⟩
  rw [PluralRule.ofLocale?, PluralRule.ofLocale?, named, again]

/-- A script between them is passed over, and the first part that can be a
territory counts. -/
theorem normalizes_brazilianText :
    parse? " pT--latn_bR-419 " = some ⟨"pt", some "BR"⟩ ∧
      parse? "pt_BR" = some ⟨"pt", some "BR"⟩ ∧
      PluralRule.ofLocale? " pT--latn_bR-419 " = PluralRule.ofLocale? "pt_BR" := by
  have named : parse? " pT--latn_bR-419 " = some ⟨"pt", some "BR"⟩ := by decide +kernel
  obtain ⟨-, again, alike⟩ := normalizes_of_parse? named
  exact ⟨named, again, alike⟩

end LocaleTag

end CatalogServer
