import CatalogServer.Proofs.Locale.Parts
import CatalogServer.Workspace.Detection

/-!
# Locales in the names of files

The name of a file is cut at the first separator behind which a locale stands,
so of several locales that a name ends in the longest one counts.  A project
and the locale behind it are told apart just if the words at the end of the
project do not read on into the locale.
-/

namespace CatalogServer

open Text

namespace Path

theorem pieces_eq (text : List Char) : pieces text = text.splitOnP (· == '/') :=
  eq_splitOnP rfl (fun _ _ => rfl) text

/-- A text that can be the name of a file: a single piece of a path that means
something and is not the folder around. -/
structure IsName (name : List Char) : Prop where
  single : '/' ∉ name
  means : isVoid name = false
  down : name ≠ ['.', '.']

variable {name : List Char}

theorem IsName.pieces (isName : IsName name) : pieces name = [name] := by
  rw [pieces_eq]
  apply List.splitOnP_eq_singleton
  intro c member
  rw [beq_eq_false_iff_ne]
  rintro rfl
  exact isName.single member

/-- Behind a slash, or at the front, a name is the last piece of a path. -/
theorem IsName.getLast_pieces (isName : IsName name) {folder : List Char}
    (ends : folder = [] ∨ folder.getLast? = some '/') :
    ∃ parts, Path.pieces (folder ++ name) = parts ++ [name] := by
  rcases ends with rfl | ends
  · exact ⟨[], isName.pieces⟩
  · obtain ⟨front, rfl⟩ := List.getLast?_eq_some_iff.mp ends
    refine ⟨Path.pieces front, ?_⟩
    rw [List.append_assoc, List.singleton_append, pieces_eq, List.splitOnP_append_cons _ _ rfl,
      ← pieces_eq, ← pieces_eq, isName.pieces]

theorem IsName.getLast_split (isName : IsName name) {folder : List Char}
    (ends : folder = [] ∨ folder.getLast? = some '/') :
    ∃ parts, (split (folder ++ name)).2 = parts ++ [name] := by
  unfold split
  split
  · next rest starts =>
      cases folder with
      | nil => exact absurd (by rw [← List.nil_append name, starts]; simp) isName.single
      | cons slash folder =>
          obtain ⟨rfl, rfl⟩ := List.cons.inj starts
          refine isName.getLast_pieces ?_
          cases folder with
          | nil => exact .inl rfl
          | cons c folder => exact ends.imp nofun (by simp)
  · obtain ⟨parts, whole⟩ := isName.getLast_pieces ends
    rw [whole]
    split
    · next rest starts =>
        cases parts with
        | nil =>
            obtain ⟨rfl, -⟩ := List.cons.inj starts
            cases isName.means
        | cons dot parts => exact ⟨parts, (List.cons.inj starts).2.symm⟩
    · exact ⟨parts, rfl⟩

theorem IsName.fileName?_join (isName : IsName name) (dir : String) :
    fileName? (join dir (String.ofList name)) = some (String.ofList name) := by
  obtain ⟨folder, ends, path⟩ : ∃ folder, (folder = [] ∨ folder.getLast? = some '/') ∧
      (join dir (String.ofList name)).toList = folder ++ name := by
    unfold join
    split
    · next complete =>
        refine ⟨dir.toList, ?_, by simp⟩
        rw [Bool.or_eq_true, beq_iff_eq, beq_iff_eq] at complete
        exact complete.imp_left (by rintro rfl; rfl)
    · exact ⟨dir.toList ++ ['/'], .inr (by simp), by simp⟩
  obtain ⟨parts, split⟩ := isName.getLast_split ends
  have kept : (parts ++ [name]).filter (!isVoid ·) = parts.filter (!isVoid ·) ++ [name] := by
    simp [isName.means]
  have component : Component.ofPiece name = .name name := by
    rw [Component.ofPiece, if_neg (by simpa using isName.down)]
  have last : (components (join dir (String.ofList name))).getLast? = some (.name name) := by
    simp only [components, path, split, kept, List.map_append, List.map_cons, List.map_nil,
      component, ← List.append_assoc, List.getLast?_concat]
  rw [fileName?, last]

theorem splitExtension_append {stem extension : List Char} (nonempty : stem ≠ [])
    (single : '.' ∉ extension) :
    splitExtension (stem ++ '.' :: extension) = (stem, some extension) := by
  have plain : ∀ c ∈ extension.reverse, (c != '.') = true := by
    intro c member
    rw [bne_iff_ne]
    rintro rfl
    exact single (List.mem_reverse.mp member)
  have reversed : (stem ++ '.' :: extension).reverse = extension.reverse ++ '.' :: stem.reverse := by
    simp
  have front : (stem ++ '.' :: extension).reverse.dropWhile (· != '.') = '.' :: stem.reverse := by
    rw [reversed, List.dropWhile_append_of_pos plain, List.dropWhile_cons_of_neg (by simp)]
  have behind : (stem ++ '.' :: extension).reverse.takeWhile (· != '.') = extension.reverse := by
    rw [reversed, List.takeWhile_append_of_pos plain, List.takeWhile_cons_of_neg (by simp),
      List.append_nil]
  unfold splitExtension
  dsimp only
  rw [front, behind]
  split
  · next nothing => cases nothing
  · next alone => exact absurd (List.reverse_eq_nil_iff.mp (List.cons.inj alone).2) nonempty
  · next before whole =>
      obtain ⟨-, rfl⟩ := List.cons.inj whole
      simp

theorem stem?_join {stem extension : List Char} (isName : IsName (stem ++ '.' :: extension))
    (nonempty : stem ≠ []) (single : '.' ∉ extension) (dir : String) :
    stem? (join dir (String.ofList (stem ++ '.' :: extension))) = some (String.ofList stem) := by
  rw [stem?, isName.fileName?_join, Option.map_some, String.toList_ofList,
    splitExtension_append nonempty single]

end Path

/-- A word that is the code of a language with a plural rule, in any letter
case. -/
def PluralRule.knows (word : List Char) : Bool :=
  LocaleTag.isLanguage word &&
    (PluralRule.ofTag? ⟨String.ofList (word.map Char.toLower), none⟩).isSome

/-- A locale as it is written in the name of a file: a language with a plural
rule, and possibly a territory behind it. -/
inductive LocaleName : List Char → Prop where
  | language {word : List Char} (known : PluralRule.knows word = true) : LocaleName word
  | territory {word code : List Char} (known : PluralRule.knows word = true)
      (given : LocaleTag.isTerritory code = true) : LocaleName (word ++ '_' :: code)

/-- The parts of a text in front of a locale, the empty ones left out. -/
def LocaleTag.words (text : List Char) : List (List Char) :=
  (splitParts (trimStart text)).filter (!·.isEmpty)

namespace PluralRule

theorem isAlphanum_of_knows {word : List Char} (known : knows word = true) :
    word ≠ [] ∧ word.all Char.isAlphanum = true := by
  rw [knows, Bool.and_eq_true] at known
  exact LocaleTag.isAlphanum_of_isLanguage known.1

theorem isSome_ofTag? (language : String) (territory : Option String) :
    (ofTag? ⟨language, territory⟩).isSome = (ofTag? ⟨language, none⟩).isSome := by
  unfold ofTag?
  split
  · next brazilian =>
      rw [Bool.and_eq_true, beq_iff_eq] at brazilian
      obtain rfl : language = "pt" := brazilian.1
      decide
  · simp

/-- A text names a locale with a plural rule just if its first word is the code
of a language with one. -/
theorem isSome_ofLocale? (text : List Char) :
    (ofLocale? (String.ofList text)).isSome = true ↔
      ∃ word others, (LocaleTag.splitParts (trim text)).filter (!·.isEmpty) = word :: others ∧
        knows word = true := by
  rw [ofLocale?, LocaleTag.parse?, String.toList_ofList]
  cases (LocaleTag.splitParts (trim text)).filter (!·.isEmpty) with
  | nil => simp
  | cons word others =>
      dsimp only
      split
      · next language =>
          rw [Option.bind_some, isSome_ofTag?]
          simp [knows, language]
      · next other => simp [knows, other]

end PluralRule

theorem getLast?_append_cons {text : List Char} (front : List Char) (c : Char)
    (nonempty : text ≠ []) : (front ++ c :: text).getLast? = text.getLast? := by
  obtain ⟨others, last, rfl⟩ := (List.eq_nil_or_concat text).resolve_left nonempty
  simp [List.getLast?_cons, List.getLast?_append]

namespace LocaleName

variable {locale : List Char}

theorem exists_parts (isName : LocaleName locale) :
    ∃ word others, LocaleTag.splitParts locale = word :: others ∧ others.length ≤ 1 ∧
      word ≠ [] ∧ PluralRule.knows word = true := by
  cases isName with
  | language known =>
      obtain ⟨nonempty, letters⟩ := PluralRule.isAlphanum_of_knows known
      exact ⟨_, [], LocaleTag.splitParts_of_isAlphanum letters, Nat.zero_le 1, nonempty, known⟩
  | @territory word code known given =>
      obtain ⟨nonempty, letters⟩ := PluralRule.isAlphanum_of_knows known
      obtain ⟨-, others⟩ := LocaleTag.isAlphanum_of_isTerritory given
      refine ⟨word, [code], ?_, Nat.le_refl 1, nonempty, known⟩
      rw [LocaleTag.splitParts_append, LocaleTag.splitParts_of_isAlphanum letters,
        LocaleTag.splitParts_of_isAlphanum others]
      rfl

theorem visible (isName : LocaleName locale) :
    locale ≠ [] ∧ (∀ c ∈ locale.head?, isBlank c = false) ∧
      ∀ c ∈ locale.getLast?, isBlank c = false := by
  have ends {word : List Char} (plain : word ≠ [] ∧ word.all Char.isAlphanum = true) :
      (∀ c ∈ word.head?, isBlank c = false) ∧ ∀ c ∈ word.getLast?, isBlank c = false := by
    have visible : ∀ c ∈ word, isBlank c = false := fun c member =>
      isBlank_of_isAlphanum (List.all_eq_true.mp plain.2 c member)
    exact ⟨fun c first => visible c (List.mem_of_head? first),
      fun c last => visible c (List.mem_of_getLast? last)⟩
  cases isName with
  | language known =>
      have language := PluralRule.isAlphanum_of_knows known
      exact ⟨language.1, ends language⟩
  | @territory word code known given =>
      have language := PluralRule.isAlphanum_of_knows known
      have territory := LocaleTag.isAlphanum_of_isTerritory given
      refine ⟨by simp, ?_, ?_⟩
      · cases word with
        | nil => exact absurd rfl language.1
        | cons first rest => exact (ends language).1
      · rw [getLast?_append_cons _ _ territory.1]
        exact (ends territory).2

theorem mem_cases (isName : LocaleName locale) {c : Char} (member : c ∈ locale) :
    c.isAlphanum = true ∨ c = '_' := by
  cases isName with
  | language known =>
      exact .inl (List.all_eq_true.mp (PluralRule.isAlphanum_of_knows known).2 c member)
  | territory known given =>
      rcases List.mem_append.mp member with inLanguage | behind
      · exact .inl (List.all_eq_true.mp (PluralRule.isAlphanum_of_knows known).2 c inLanguage)
      · refine (List.mem_cons.mp behind).elim .inr fun inTerritory => .inl ?_
        exact List.all_eq_true.mp (LocaleTag.isAlphanum_of_isTerritory given).2 c inTerritory

end LocaleName

namespace Detection

/-- What stands behind each separator of a name. -/
def tails : List Char → List (List Char)
  | [] => []
  | c :: rest => if isSeparator c then rest :: tails rest else tails rest

/-- The end of a name reads on into the locale behind it: with the locale it has
at most three parts, and it has no word or its first one is a language with a
plural rule. -/
def readsOn (tail locale : List Char) : Bool :=
  decide ((LocaleTag.splitParts tail).length + (LocaleTag.splitParts locale).length ≤ 3) &&
    (LocaleTag.words tail).head?.all PluralRule.knows

/-- Behind no separator a name reads on into the locale behind it. -/
def StandsApart (name locale : List Char) : Prop :=
  ∀ tail ∈ tails name, readsOn tail locale = false

instance (name locale : List Char) : Decidable (StandsApart name locale) :=
  inferInstanceAs (Decidable (∀ tail ∈ tails name, _))

variable {name locale : List Char}

theorem standsApart_cons_iff {c : Char} {rest : List Char} :
    StandsApart (c :: rest) locale ↔
      (isSeparator c && readsOn rest locale) = false ∧ StandsApart rest locale := by
  unfold StandsApart
  rw [tails]
  cases isSeparator c <;> simp

theorem isLocale_of_localeName (isName : LocaleName locale) : isLocale locale = true := by
  obtain ⟨word, others, parts, few, nonempty, known⟩ := isName.exists_parts
  obtain ⟨-, first, last⟩ := isName.visible
  have untrimmed : trim locale = locale := by
    rw [trim, trimStart_eq_self first, trimEnd_eq_self last]
  rw [isLocale, Bool.and_eq_true, decide_eq_true_eq, PluralRule.isSome_ofLocale?, untrimmed, parts]
  refine ⟨by rw [List.length_cons]; omega, word, others.filter (!·.isEmpty), ?_, known⟩
  exact List.filter_cons_of_pos (by simpa using nonempty)

/-- The end of a name together with a locale is a locale just if it reads on
into it. -/
theorem isLocale_append (isName : LocaleName locale) (tail : List Char) :
    isLocale (tail ++ '_' :: locale) = readsOn tail locale := by
  obtain ⟨word, others, parts, -, nonempty, known⟩ := isName.exists_parts
  obtain ⟨present, -, last⟩ := isName.visible
  have front : trimStart (tail ++ '_' :: locale) = trimStart tail ++ '_' :: locale := by
    rw [trimStart, List.dropWhile_append, ← trimStart]
    split
    · next nothing =>
        rw [List.isEmpty_iff.mp nothing]
        rfl
    · rfl
  have trimmed : trim (tail ++ '_' :: locale) = trimStart tail ++ '_' :: locale := by
    rw [trim, front]
    refine trimEnd_eq_self fun c given => last c ?_
    rwa [getLast?_append_cons _ _ present] at given
  have kept : (LocaleTag.splitParts locale).filter (!·.isEmpty) =
      word :: others.filter (!·.isEmpty) := by
    rw [parts]
    exact List.filter_cons_of_pos (by simpa using nonempty)
  rw [Bool.eq_iff_iff, isLocale, readsOn, Bool.and_eq_true, Bool.and_eq_true, decide_eq_true_eq,
    decide_eq_true_eq, PluralRule.isSome_ofLocale?, trimmed, LocaleTag.splitParts_append,
    LocaleTag.splitParts_append, List.length_append, List.filter_append, kept, ← LocaleTag.words]
  refine and_congr_right fun _ => ?_
  cases LocaleTag.words tail with
  | nil => simp [known]
  | cons first rest => simp

theorem splitAtLocale_append (isName : LocaleName locale) (apart : StandsApart name locale) :
    splitAtLocale (name ++ '_' :: locale) = some (name, locale) := by
  induction name with
  | nil =>
      have separator : isSeparator '_' = true := rfl
      rw [List.nil_append, splitAtLocale, separator, isLocale_of_localeName isName]
      rfl
  | cons c rest ih =>
      obtain ⟨here, behind⟩ := standsApart_cons_iff.mp apart
      rw [List.cons_append, splitAtLocale, isLocale_append isName, here, if_neg Bool.false_ne_true,
        ih behind]
      rfl

/-- A name that does not stand apart is cut off earlier, in front of a longer
locale. -/
theorem exists_longer_locale (isName : LocaleName locale) (joined : ¬ StandsApart name locale) :
    ∃ front longer, splitAtLocale (name ++ '_' :: locale) = some (front, longer) ∧
      locale.length < longer.length := by
  induction name with
  | nil => exact absurd (by simp [StandsApart, tails]) joined
  | cons c rest ih =>
      rw [List.cons_append, splitAtLocale, isLocale_append isName]
      by_cases here : (isSeparator c && readsOn rest locale) = true
      · refine ⟨[], _, if_pos here, ?_⟩
        rw [List.length_append, List.length_cons]
        omega
      · rw [if_neg here]
        have behind : ¬ StandsApart rest locale := fun apart =>
          joined (standsApart_cons_iff.mpr ⟨(Bool.not_eq_true _).mp here, apart⟩)
        obtain ⟨front, longer, cut, more⟩ := ih behind
        exact ⟨c :: front, longer, by rw [cut]; rfl, more⟩

/-- A file of a project with a locale. -/
def localeFile (name locale : List Char) : String :=
  String.ofList (name ++ '_' :: locale ++ ".ts".toList)

theorem stem?_localeFile (plain : '/' ∉ name) (isName : LocaleName locale) (dir : String) :
    Path.stem? (Path.join dir (localeFile name locale)) =
      some (String.ofList (name ++ '_' :: locale)) := by
  have mark : '_' ∈ name ++ '_' :: locale ++ ".ts".toList := by simp
  have isFileName : Path.IsName (name ++ '_' :: locale ++ ".ts".toList) := by
    refine ⟨?_, ?_, ?_⟩
    · intro slash
      simp only [List.mem_append, List.mem_cons] at slash
      rcases slash with (inName | same | inLocale) | inExtension
      · exact plain inName
      · cases same
      · exact absurd (isName.mem_cases inLocale) (by decide)
      · exact absurd inExtension (by decide)
    · rw [Path.isVoid, Bool.or_eq_false_iff, beq_eq_false_iff_ne, beq_eq_false_iff_ne]
      constructor <;> intro same <;> rw [same] at mark <;> exact absurd mark (by decide)
    · intro same
      rw [same] at mark
      exact absurd mark (by decide)
  exact Path.stem?_join isFileName (by simp) (by decide) dir

/-- The project and the locale are told from the name of the file, the locale
where the text gives no language. -/
def SplitsOff (dir : String) (name locale : List Char) : Prop :=
  project (Path.join dir (localeFile name locale)) = String.ofList name ∧
    ∀ text, rootLanguage? (Xml.events text).events = none →
      language (Path.join dir (localeFile name locale)) text = String.ofList locale

theorem language_localeFile (plain : '/' ∉ name) (isName : LocaleName locale) (dir : String)
    {front found : List Char}
    (cut : splitAtLocale (name ++ '_' :: locale) = some (front, found)) {text : String}
    (unusable : rootLanguage? (Xml.events text).events = none) :
    language (Path.join dir (localeFile name locale)) text = String.ofList found := by
  rw [language, unusable, nameLocale?, stem?_localeFile plain isName dir]
  simp [splitName, cut]

/-- A name that stands apart from the locale behind it is split off, in whatever
folder the file lies. -/
theorem splitsOff_of_apart (dir : String) (nonempty : name ≠ []) (plain : '/' ∉ name)
    (isName : LocaleName locale) (apart : StandsApart name locale) : SplitsOff dir name locale := by
  have cut := splitAtLocale_append isName apart
  refine ⟨?_, fun text unusable => language_localeFile plain isName dir cut unusable⟩
  unfold project
  dsimp only
  rw [stem?_localeFile plain isName dir, Option.getD_some, String.toList_ofList, splitName, cut]
  cases name with
  | nil => exact absurd rfl nonempty
  | cons c rest => rfl

/-- A name that is split off stands apart: otherwise a longer locale would be
the language of a text that gives none. -/
theorem standsApart_of_splitsOff {dir : String} (plain : '/' ∉ name) (isName : LocaleName locale)
    (splits : SplitsOff dir name locale) : StandsApart name locale := by
  refine Decidable.byContradiction fun joined => ?_
  obtain ⟨front, longer, cut, more⟩ := exists_longer_locale isName joined
  have unusable : rootLanguage? (Xml.events "").events = none := by decide +kernel
  have told := splits.2 "" unusable
  rw [language_localeFile plain isName dir cut unusable, String.ofList_inj] at told
  rw [told] at more
  exact absurd more (Nat.lt_irrefl _)

/-- A name and the locale behind it are told apart just if the name stands apart
from the locale, in whatever folder the file lies.  So the files of a project
with all such locales get the same project. -/
theorem splitsOff_iff (dir : String) (nonempty : name ≠ []) (plain : '/' ∉ name)
    (isName : LocaleName locale) :
    (SplitsOff dir name locale ↔ StandsApart name locale) ∧
      ∀ otherDir other, LocaleName other → StandsApart name locale → StandsApart name other →
        project (Path.join otherDir (localeFile name other)) =
          project (Path.join dir (localeFile name locale)) := by
  refine ⟨⟨standsApart_of_splitsOff plain isName,
    splitsOff_of_apart dir nonempty plain isName⟩, ?_⟩
  intro otherDir other otherIsName apart otherApart
  have here := splitsOff_of_apart dir nonempty plain isName apart
  have there := splitsOff_of_apart otherDir nonempty plain otherIsName otherApart
  rw [there.1, here.1]

/-- The words of a project may be languages, if too many parts follow them. -/
theorem splitsOff_manyParts :
    LocaleName "pt_BR".toList ∧ StandsApart "my.de_app-x".toList "pt_BR".toList ∧
      SplitsOff "/ws/i18n" "my.de_app-x".toList "pt_BR".toList := by
  have isName : LocaleName ("pt".toList ++ '_' :: "BR".toList) :=
    .territory (by decide +kernel) (by decide)
  have apart : StandsApart "my.de_app-x".toList "pt_BR".toList := by decide +kernel
  exact ⟨isName, apart, (splitsOff_iff "/ws/i18n" (by decide) (by decide) isName).1.mpr apart⟩

/-- Not every name is told apart from the locale behind it: a longer locale
counts. -/
theorem not_splitsOff_longerLocale :
    ¬ ∀ (dir : String) (name locale : List Char), name ≠ [] → '/' ∉ name → LocaleName locale →
      SplitsOff dir name locale := by
  intro splits
  have isName : LocaleName "br".toList := .language (by decide +kernel)
  have told := (splits "/ws" "bitcoin_pt".toList _ (by decide) (by decide) isName).1
  exact absurd told (by decide +kernel)

end Detection

end CatalogServer
