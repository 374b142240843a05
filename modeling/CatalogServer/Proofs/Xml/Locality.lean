import CatalogServer.Proofs.Xml.Pieces

/-!
# What stands behind a piece

Markup is recognised by its own characters: whatever stands behind it, the
same characters are the same markup.  Character data ends at the next markup,
so it is enough that something else ends it as well.
-/

namespace CatalogServer.Xml

open Text

/-- The first characters of a text decide whether a short text is among them
at the start. -/
theorem isPrefixOf_append_congr {word front : List Char} (short : word.length ≤ front.length)
    (behind other : List Char) :
    word.isPrefixOf (front ++ behind) = word.isPrefixOf (front ++ other) := by
  have front_iff (rest : List Char) : word <+: front ++ rest ↔ word <+: front := by
    constructor
    · intro initial
      exact List.prefix_of_prefix_length_le initial (List.prefix_append _ _) short
    · intro initial
      exact initial.trans (List.prefix_append _ _)
  rw [Bool.eq_iff_iff, List.isPrefixOf_iff_prefix, List.isPrefixOf_iff_prefix, front_iff,
    front_iff]

theorem splitAtDelimiter_behind {delimiter text before after : List Char}
    (split : splitAtDelimiter delimiter text = some (before, after)) (marked : delimiter ≠ [])
    (other : List Char) :
    splitAtDelimiter delimiter (before ++ delimiter ++ other) = some (before, other) := by
  induction text generalizing before with
  | nil =>
      simp only [splitAtDelimiter, List.isEmpty_iff, marked, if_false, reduceCtorEq] at split
  | cons c rest ih =>
      rw [splitAtDelimiter] at split
      split at split
      case isTrue =>
        simp only [Option.some.injEq, Prod.mk.injEq] at split
        obtain ⟨rfl, -⟩ := split
        cases delimiter with
        | nil => exact absurd rfl marked
        | cons mark marks =>
            have initial : (mark :: marks).isPrefixOf (mark :: (marks ++ other)) = true := by
              rw [List.isPrefixOf_iff_prefix]
              exact List.prefix_append (mark :: marks) other
            rw [List.nil_append, List.cons_append, splitAtDelimiter, if_pos initial]
            simp
      case isFalse later =>
        simp only [Option.map_eq_some_iff, Prod.mk.injEq, Prod.exists] at split
        obtain ⟨before', after', found, rfl, rfl⟩ := split
        have whole := eq_of_splitAtDelimiter found
        have short : delimiter.length ≤ (c :: (before' ++ delimiter)).length := by
          simp only [List.length_cons, List.length_append]
          omega
        have still : ¬delimiter.isPrefixOf (c :: (before' ++ delimiter ++ other)) = true := by
          rw [whole, ← List.cons_append, isPrefixOf_append_congr short after' other] at later
          exact later
        rw [List.append_assoc, List.cons_append, ← List.append_assoc, splitAtDelimiter,
          if_neg still, ih found]
        rfl

theorem splitDoctype_behind {depth : Nat} {text content after : List Char}
    (split : splitDoctype depth text = some (content, after)) (other : List Char) :
    splitDoctype depth (content ++ '>' :: other) = some (content, other) := by
  induction text generalizing depth content with
  | nil => simp [splitDoctype] at split
  | cons c rest ih =>
      rw [splitDoctype] at split
      split at split
      case isTrue closes =>
        simp only [Option.some.injEq, Prod.mk.injEq] at split
        obtain ⟨rfl, -⟩ := split
        simp only [Bool.and_eq_true, beq_iff_eq] at closes
        simp [splitDoctype, closes.2]
      case isFalse inside =>
        simp only [Option.map_eq_some_iff, Prod.mk.injEq, Prod.exists] at split
        obtain ⟨content', after', found, rfl, rfl⟩ := split
        rw [List.cons_append, splitDoctype, if_neg inside]
        simp only [ih found]
        rfl

theorem splitTag_behind {text content after : List Char}
    (split : splitTag none text = some (content, after)) (other : List Char) :
    splitTag none (content ++ '>' :: other) = some (content, other) := by
  have closed : isClosed content := by
    rw [isClosed, quoteBehind_of_splitTag split]
    rfl
  exact splitTag_closed closed other

/-- The same markup in front of another rest. -/
def Markup.withRest (rest : List Char) : Markup → Markup
  | .event what taken _ => .event what taken rest
  | .endTag name taken _ => .endTag name taken rest
  | .fault error => .fault error
  | .faultBehind error distance => .faultBehind error distance

/-- The characters that markup takes end with an angle bracket, and they are
the same markup in front of any rest. -/
def Local (lead : List Char) (scans : List Char → Markup) : Prop :=
  ∀ text taken after, (scans text).parts? = some (taken, after) →
    ∃ inner, taken = lead ++ inner ∧ inner.getLast? = some '>' ∧
      ∀ other, scans (inner ++ other) = (scans text).withRest other

theorem getLast_append {inner : List Char} {last : Char} (ends : inner.getLast? = some last)
    (lead : List Char) : (lead ++ inner).getLast? = some last := by
  rw [List.getLast?_append, ends]
  rfl

theorem local_scanComment : Local ['!', '-'] scanComment := by
  intro text taken after parts
  cases text with
  | nil => simp [scanComment, Markup.parts?] at parts
  | cons c rest =>
      rw [scanComment] at parts ⊢
      split at parts
      · simp [Markup.parts?] at parts
      · next body behind found =>
          split at parts
          · next dash =>
              simp only [Markup.parts?, Option.some.injEq, Prod.mk.injEq] at parts
              obtain ⟨rfl, rfl⟩ := parts
              refine ⟨c :: body ++ "-->".toList, rfl, getLast_append rfl (c :: body), ?_⟩
              intro other
              have split := splitAtDelimiter_behind found (by decide) other
              rw [List.append_assoc, List.cons_append, ← List.append_assoc, scanComment]
              simp only [split, if_pos dash]
              rfl
          · simp [Markup.parts?] at parts

theorem local_scanCdata : Local ['!', '['] scanCdata := by
  intro text taken after parts
  rw [scanCdata] at parts
  split at parts
  · simp [Markup.parts?] at parts
  · next body behind found =>
      split at parts
      · next keyword =>
          simp only [Markup.parts?, Option.some.injEq, Prod.mk.injEq] at parts
          obtain ⟨rfl, rfl⟩ := parts
          refine ⟨body ++ "]]>".toList, rfl, by simp, ?_⟩
          intro other
          have split := splitAtDelimiter_behind found (by decide) other
          simp only [scanCdata, split, if_pos keyword, found]
          rfl
      · simp [Markup.parts?] at parts

theorem local_scanDoctype : Local ['!'] scanDoctype := by
  intro text taken after parts
  rw [scanDoctype] at parts
  split at parts
  · simp [Markup.parts?] at parts
  · next body behind found =>
      split at parts
      · next keyword =>
          split at parts
          · simp [Markup.parts?] at parts
          · next named =>
              simp only [Markup.parts?, Option.some.injEq, Prod.mk.injEq] at parts
              obtain ⟨rfl, rfl⟩ := parts
              refine ⟨body ++ ['>'], rfl, by simp, ?_⟩
              intro other
              have split := splitDoctype_behind found other
              rw [List.append_assoc, List.singleton_append]
              simp only [scanDoctype, split, if_pos keyword, if_neg named, found]
              rfl
      · simp [Markup.parts?] at parts

theorem local_scanInstruction : Local ['?'] scanInstruction := by
  intro text taken after parts
  unfold scanInstruction at parts
  split at parts
  · simp [Markup.parts?] at parts
  · next notClosed =>
      split at parts
      · simp [Markup.parts?] at parts
      · next body behind found =>
          have whole := eq_of_splitAtDelimiter found
          have recognised (other : List Char) :
              scanInstruction (body ++ "?>".toList ++ other) =
                if body.takeWhile (!isMarkupBlank ·) == "xml".toList then
                  .event .declaration ('?' :: body ++ "?>".toList) other
                else .event .instruction ('?' :: body ++ "?>".toList) other := by
            have split := splitAtDelimiter_behind found (by decide) other
            unfold scanInstruction
            split
            · next closed =>
                cases body with
                | nil => cases closed
                | cons first inner =>
                    cases closed
                    exact absurd whole (notClosed _)
            · simp only [split]
          have takes : taken = '?' :: body ++ "?>".toList := by
            dsimp only at parts
            split at parts <;>
            · simp only [Markup.parts?, Option.some.injEq, Prod.mk.injEq] at parts
              exact parts.1.symm
          refine ⟨body ++ "?>".toList, takes, by simp, ?_⟩
          intro other
          rw [whole, recognised other, recognised behind]
          split <;> rfl

theorem local_scanEndTag : Local ['/'] scanEndTag := by
  intro text taken after parts
  rw [scanEndTag] at parts
  split at parts
  · simp [Markup.parts?] at parts
  · next content behind found =>
      simp only [Markup.parts?, Option.some.injEq, Prod.mk.injEq] at parts
      obtain ⟨rfl, rfl⟩ := parts
      refine ⟨content ++ ['>'], rfl, by simp, ?_⟩
      intro other
      have split := splitTag_behind found other
      rw [List.append_assoc, List.singleton_append]
      simp only [scanEndTag, split, found]
      rfl

theorem local_scanStartTag : Local [] scanStartTag := by
  intro text taken after parts
  rw [scanStartTag] at parts
  split at parts
  · simp [Markup.parts?] at parts
  · next content behind found =>
      have takes : taken = content ++ ['>'] := by
        split at parts <;>
        · simp only [Markup.parts?, Option.some.injEq, Prod.mk.injEq] at parts
          exact parts.1.symm
      refine ⟨content ++ ['>'], takes, by simp, ?_⟩
      intro other
      have split := splitTag_behind found other
      rw [List.append_assoc, List.singleton_append]
      simp only [scanStartTag, split, found]
      split <;> rfl

theorem exists_cons_of_append {first : Char} {inner rest after : List Char}
    (whole : first :: rest = inner ++ after) (closes : inner.getLast? = some '>') :
    ∃ others, inner = first :: others := by
  cases inner with
  | nil => cases closes
  | cons c others =>
      cases whole
      exact ⟨others, rfl⟩

theorem scanMarkup_withRest {text taken after : List Char}
    (parts : (scanMarkup text).parts? = some (taken, after)) (other : List Char) :
    scanMarkup (taken ++ other) = (scanMarkup text).withRest other := by
  have whole := parts_scanMarkup parts
  unfold scanMarkup at parts
  split at parts
  · obtain ⟨inner, rfl, -, recognised⟩ := local_scanComment _ _ _ parts
    exact recognised other
  · obtain ⟨inner, rfl, -, recognised⟩ := local_scanCdata _ _ _ parts
    exact recognised other
  · obtain ⟨inner, rfl, closes, recognised⟩ := local_scanDoctype _ _ _ parts
    obtain ⟨others, rfl⟩ := exists_cons_of_append (List.cons.inj whole).2 closes
    exact recognised other
  · obtain ⟨inner, rfl, closes, recognised⟩ := local_scanDoctype _ _ _ parts
    obtain ⟨others, rfl⟩ := exists_cons_of_append (List.cons.inj whole).2 closes
    exact recognised other
  · simp [Markup.parts?] at parts
  · obtain ⟨inner, rfl, -, recognised⟩ := local_scanInstruction _ _ _ parts
    exact recognised other
  · obtain ⟨inner, rfl, -, recognised⟩ := local_scanEndTag _ _ _ parts
    exact recognised other
  · next notMark notInstruction notEnd =>
      obtain ⟨inner, rfl, closes, recognised⟩ := local_scanStartTag _ _ _ parts
      cases text with
      | nil => simp [scanStartTag, splitTag, Markup.parts?] at parts
      | cons first rest =>
          obtain ⟨others, rfl⟩ := exists_cons_of_append whole closes
          have starts (behind : List Char) : startsElement (first :: behind) := by
            simp only [startsElement, Bool.and_eq_true, bne_iff_ne, ne_eq]
            refine ⟨⟨?_, ?_⟩, ?_⟩
            · rintro rfl
              exact notMark _ rfl
            · rintro rfl
              exact notInstruction _ rfl
            · rintro rfl
              exact notEnd _ rfl
          rw [scanMarkup_of_startsElement (starts rest)]
          rw [List.cons_append, scanMarkup_of_startsElement (starts _)]
          exact recognised other

theorem Local.getLast {lead text taken after : List Char} {scans : List Char → Markup}
    (isLocal : Local lead scans) (parts : (scans text).parts? = some (taken, after)) :
    taken.getLast? = some '>' := by
  obtain ⟨inner, rfl, closes, -⟩ := isLocal text taken after parts
  exact getLast_append closes lead

theorem getLast_of_parts {text taken after : List Char}
    (parts : (scanMarkup text).parts? = some (taken, after)) : taken.getLast? = some '>' := by
  unfold scanMarkup at parts
  split at parts
  · exact local_scanComment.getLast parts
  · exact local_scanCdata.getLast parts
  · exact local_scanDoctype.getLast parts
  · exact local_scanDoctype.getLast parts
  · simp [Markup.parts?] at parts
  · exact local_scanInstruction.getLast parts
  · exact local_scanEndTag.getLast parts
  · exact local_scanStartTag.getLast parts

theorem ne_closing_of_scanMarkup {text taken after : List Char} {event : Event}
    (recognised : scanMarkup text = .event event taken after) : event ≠ .closing := by
  rintro rfl
  unfold scanMarkup scanComment scanCdata scanDoctype scanInstruction scanEndTag scanStartTag
    at recognised
  repeat' split at recognised
  all_goals cases recognised

theorem ne_text_of_scanMarkup {text taken after : List Char} {event : Event}
    (recognised : scanMarkup text = .event event taken after) (raw : List Char) :
    event ≠ .text raw := by
  rintro rfl
  unfold scanMarkup scanComment scanCdata scanDoctype scanInstruction scanEndTag scanStartTag
    at recognised
  repeat' split at recognised
  all_goals cases recognised

/-- Character data goes up to the next markup. -/
theorem Takes.ends_of_text {opened behind : List (List Char)} {piece after raw : List Char}
    (takes : Takes opened piece (.text raw) behind after) : '<' ∉ raw ∧ Boundary after := by
  cases takes with
  | markup recognised => exact absurd rfl (ne_text_of_scanMarkup recognised raw)
  | text _ data boundary => exact ⟨data, boundary⟩

theorem Takes.brackets {opened behind : List (List Char)} {piece after : List Char}
    {event : Event} (takes : Takes opened piece event behind after)
    (markup : ∀ raw, event ≠ .text raw) :
    (∃ inner, piece = '<' :: inner) ∧ piece.getLast? = some '>' := by
  cases takes with
  | @markup _ taken _ _ recognised =>
      have parts := congrArg Markup.parts? recognised
      exact ⟨⟨taken, rfl⟩, getLast_append (getLast_of_parts parts) ['<']⟩
  | @endTag _ taken _ _ recognised =>
      have parts := congrArg Markup.parts? recognised
      exact ⟨⟨taken, rfl⟩, getLast_append (getLast_of_parts parts) ['<']⟩
  | text => exact absurd rfl (markup _)

/-- The first piece of a text is still the first one when something else stands
behind it that ends character data wherever the old text did. -/
theorem Takes.behind {opened behind : List (List Char)} {piece after : List Char}
    {event : Event} (takes : Takes opened piece event behind after) {other : List Char}
    (boundary : Boundary after → Boundary other) : Takes opened piece event behind other := by
  cases takes with
  | markup recognised =>
      have parts := congrArg Markup.parts? recognised
      refine .markup ?_
      rw [scanMarkup_withRest parts, recognised]
      rfl
  | endTag recognised =>
      have parts := congrArg Markup.parts? recognised
      refine .endTag ?_
      rw [scanMarkup_withRest parts, recognised]
      rfl
  | text nonempty data ends => exact .text nonempty data (boundary ends)

theorem Takes.boundary {opened behind : List (List Char)} {piece after : List Char}
    {event : Event} (takes : Takes opened piece event behind after)
    (boundary : Boundary (piece ++ after)) (other : List Char) : Boundary (piece ++ other) := by
  cases takes with
  | markup => exact .inr ⟨_, rfl⟩
  | endTag => exact .inr ⟨_, rfl⟩
  | text nonempty data =>
      cases piece with
      | nil => exact absurd rfl nonempty
      | cons c rest =>
          rcases boundary with empty | ⟨others, starts⟩
          · cases empty
          · cases starts
            exact absurd List.mem_cons_self data

end CatalogServer.Xml
