import CatalogServer.Locale.Tag
import CatalogServer.Text.SortedMap

/-!
# Plural forms

Languages fall into families by the way a count selects the form of a text.
A family fixes both the number of forms and the form of each count.
-/

namespace CatalogServer

/-- A family of languages with the same plural rule, named after one of
them. -/
inductive PluralRule where
  | japanese
  | english
  | french
  /-- A form for counts that end in one. -/
  | icelandic
  | latvian
  | irish
  | czech
  | macedonian
  | lithuanian
  | russian
  | polish
  | romanian
  | tagalog
  | slovenian
  | maltese
  | welsh
  | arabic
  deriving DecidableEq, Repr

namespace PluralRule

def languageTable : List (PluralRule × List String) := [
  (.japanese, [
    "bi", "bo", "dz", "fa", "fj", "gn", "hu", "id", "ja", "jv", "km", "ko", "lo", "ms",
    "my", "na", "om", "su", "th", "tr", "tt", "vi", "yo", "za", "zh"]),
  (.english, [
    "af", "am", "as", "az", "bg", "bn", "ca", "da", "de", "el", "en", "eo", "es", "et",
    "eu", "fi", "fo", "fy", "gl", "gu", "ha", "he", "hi", "ia", "it", "ka", "kk", "kl",
    "kn", "ks", "ku", "ky", "lb", "ml", "mn", "mr", "nb", "ne", "nl", "nn", "no", "oc",
    "or", "pa", "ps", "pt", "qu", "rm", "so", "sq", "sv", "sw", "ta", "te", "tk", "tn",
    "ug", "ur", "uz", "xh", "yi", "zu"]),
  (.french, ["br", "fil", "fr", "hy", "ti", "wa"]),
  (.icelandic, ["is"]),
  (.latvian, ["lv"]),
  (.irish, ["ga"]),
  (.czech, ["cs", "sk"]),
  (.macedonian, ["mk"]),
  (.lithuanian, ["lt"]),
  (.russian, ["be", "bs", "hr", "ru", "sr", "uk"]),
  (.polish, ["pl"]),
  (.romanian, ["mo", "ro"]),
  (.tagalog, ["tl"]),
  (.slovenian, ["sl"]),
  (.maltese, ["mt"]),
  (.welsh, ["cy"]),
  (.arabic, ["ar"])]

/-- The family of a locale.  Brazilian Portuguese treats zero like one. -/
def ofTag? (tag : LocaleTag) : Option PluralRule :=
  if tag.language == "pt" && tag.territory == some "BR" then
    some .french
  else
    (languageTable.find? fun (_, languages) => languages.contains tag.language).map (·.1)

/-- The family of the locale that a text names. -/
def ofLocale? (locale : String) : Option PluralRule :=
  (LocaleTag.parse? locale).bind ofTag?

def formCount : PluralRule → Nat
  | .japanese => 1
  | .english | .french | .icelandic => 2
  | .latvian | .irish | .czech | .macedonian | .lithuanian | .russian | .polish
  | .romanian | .tagalog => 3
  | .slovenian | .maltese | .welsh => 4
  | .arabic => 6

/-- The last two digits are not those of a teen. -/
def isNoTeen (count : Nat) : Bool :=
  !(10 ≤ count % 100 && count % 100 < 20)

/-- The count ends in one, but not in eleven. -/
def endsInOne (count : Nat) : Bool :=
  count % 10 == 1 && count % 100 != 11

/-- The last digit is two, three or four, and the count is no teen. -/
def endsInFew (count : Nat) : Bool :=
  2 ≤ count % 10 && count % 10 ≤ 4 && isNoTeen count

def formIndex (rule : PluralRule) (count : Nat) : Nat :=
  match rule with
  | .japanese => 0
  | .english => if count == 1 then 0 else 1
  | .french => if count ≤ 1 then 0 else 1
  | .icelandic => if endsInOne count then 0 else 1
  | .latvian => if endsInOne count then 0 else if count != 0 then 1 else 2
  | .irish => if count == 1 then 0 else if count == 2 then 1 else 2
  | .czech => if count == 1 then 0 else if 2 ≤ count && count ≤ 4 then 1 else 2
  | .macedonian => if count % 10 == 1 then 0 else if count % 10 == 2 then 1 else 2
  | .lithuanian =>
      if endsInOne count then 0
      else if 2 ≤ count % 10 && isNoTeen count then 1
      else 2
  | .russian => if endsInOne count then 0 else if endsInFew count then 1 else 2
  | .polish => if count == 1 then 0 else if endsInFew count then 1 else 2
  | .romanian =>
      if count == 1 then 0
      else if count == 0 || (1 ≤ count % 100 && count % 100 ≤ 19) then 1
      else 2
  | .tagalog =>
      if count ≤ 1 then 0
      else if count % 10 == 4 || count % 10 == 6 || count % 10 == 9 then 1
      else 2
  | .slovenian =>
      if count % 100 == 1 then 0
      else if count % 100 == 2 then 1
      else if count % 100 == 3 || count % 100 == 4 then 2
      else 3
  | .maltese =>
      if count == 1 then 0
      else if count == 0 || (1 ≤ count % 100 && count % 100 ≤ 10) then 1
      else if 11 ≤ count % 100 && count % 100 ≤ 19 then 2
      else 3
  | .welsh =>
      if count == 1 then 0
      else if count == 2 then 1
      else if count == 8 || count == 11 then 2
      else 3
  | .arabic =>
      if count == 0 then 0
      else if count == 1 then 1
      else if count == 2 then 2
      else if 3 ≤ count % 100 && count % 100 ≤ 10 then 3
      else if 11 ≤ count % 100 then 4
      else 5

end PluralRule

/-- Numbers of forms set by the user, by locale or language. -/
abbrev FormCounts := Text.SortedMap String Nat

/-- Number of forms that a locale needs: the number set for exactly this
spelling, or else for its language, or else that of its family. -/
def expectedFormCount? (overrides : FormCounts) (locale : String) : Option Nat :=
  match overrides.get? locale with
  | some count => some count
  | none =>
      let forLanguage := (LocaleTag.parse? locale).bind fun tag =>
        overrides.get? tag.language
      match forLanguage with
      | some count => some count
      | none => (PluralRule.ofLocale? locale).map PluralRule.formCount

end CatalogServer
