import CatalogServer.Proofs.Catalog.KeyTable

/-!
# The text shown for a source text

A source text is shown in the words of the first message that serves for it: a
finished message with this source in a context of the given name whose target has
text.  Where no message serves the source itself is shown.

Any form and any of its variants counts as text, but what is shown is the first
variant of the first form.  So something is shown exactly if the target of the
message that serves begins with text; a target that has its text further behind
shows nothing, and the source is not fallen back on.
-/

namespace CatalogServer

namespace Target

variable {target : Target}

/-- Some variant of some form has text. -/
def HasText (target : Target) : Prop :=
  ∃ form ∈ target.forms, ∃ text ∈ form.texts, text ≠ ""

/-- The first variant of the first form has text. -/
def BeginsWithText (target : Target) : Prop :=
  ∃ form ∈ target.forms.head?, ∃ text ∈ form.texts.head?, text ≠ ""

instance : Decidable target.HasText :=
  inferInstanceAs (Decidable (∃ form ∈ target.forms, ∃ text ∈ form.texts, text ≠ ""))

theorem isEmpty_eq_false_iff : target.isEmpty = false ↔ target.HasText := by
  simp [isEmpty, FormText.isEmpty, HasText]

theorem display_ne_empty_iff : target.display ≠ "" ↔ target.BeginsWithText := by
  unfold display BeginsWithText
  cases target.forms.head? with
  | none => simp
  | some form =>
      simp only [Option.map_some, Option.getD_some, FormText.primary, Option.mem_some,
        exists_eq_left']
      cases form.texts.head? with
      | none => simp
      | some text => simp

theorem beginsWithText_of_plain {text : String} (single : target.text = .single (.plain text))
    (filled : target.HasText) : target.BeginsWithText := by
  simpa [HasText, BeginsWithText, forms, single, FormText.texts] using filled

end Target

/-- A message serves for a source text in contexts of a name. -/
structure MessageEntry.Serves (entry : MessageEntry) (context source : String) : Prop where
  named : entry.context.name = context
  worded : entry.message.source = source
  finished : entry.message.target.status = .finished
  filled : entry.message.target.HasText

theorem MessageEntry.serves_iff {entry : MessageEntry} {context source : String} :
    entry.Serves context source ↔ entry.context.name = context ∧
      entry.message.source = source ∧ entry.message.target.status = .finished ∧
      entry.message.target.HasText :=
  ⟨fun ⟨named, worded, finished, filled⟩ => ⟨named, worded, finished, filled⟩,
    fun ⟨named, worded, finished, filled⟩ => ⟨named, worded, finished, filled⟩⟩

instance (entry : MessageEntry) (context source : String) :
    Decidable (entry.Serves context source) :=
  decidable_of_iff _ MessageEntry.serves_iff.symm

namespace Catalog

variable {catalog : Catalog} {context source : String} {entry : MessageEntry}

/-- A message is the first in document order that serves for a source text. -/
structure Supplies (catalog : Catalog) (context source : String) (entry : MessageEntry) :
    Prop where
  member : entry ∈ catalog.entries
  serves : entry.Serves context source
  first : ∀ other ∈ catalog.entries, other.index.Before entry.index →
    ¬ other.Serves context source

/-- A text can be shown for a source text: it is not empty, and it is the source
itself or the displayed text of a finished message with this source. -/
structure Shows (catalog : Catalog) (context source text : String) : Prop where
  nonempty : text ≠ ""
  origin : text = source ∨ ∃ entry ∈ catalog.entries, entry.context.name = context ∧
    entry.message.source = source ∧ entry.message.target.status = .finished ∧
    entry.message.target.display = text

theorem map_message_filter_entries (catalog : Catalog) (picks : Context → Bool) :
    (catalog.entries.filter fun entry => picks entry.context).map (·.message) =
      (catalog.contexts.filter picks).flatMap (·.messages) := by
  have ofContext (number : Nat) (context : Context) (start : Nat) (messages : List Message) :
      ((entriesOfContext number context start messages).filter
          fun entry => picks entry.context).map (·.message) =
        if picks context then messages else [] := by
    induction messages generalizing start with
    | nil => simp [entriesOfContext]
    | cons first rest ih =>
        rw [entriesOfContext, List.filter_cons]
        dsimp only
        by_cases picked : picks context = true
        · rw [if_pos picked, if_pos picked, List.map_cons, ih, if_pos picked]
        · rw [if_neg picked, if_neg picked, ih, if_neg picked]
  have ofContexts (number : Nat) (contexts : List Context) :
      ((entriesOfContexts number contexts).filter fun entry => picks entry.context).map
          (·.message) =
        (contexts.filter picks).flatMap (·.messages) := by
    induction contexts generalizing number with
    | nil => rfl
    | cons first rest ih =>
        rw [entriesOfContexts, List.filter_append, List.map_append, ofContext, ih, List.filter_cons]
        split
        · rw [List.flatMap_cons]
        · rw [List.nil_append]
  exact ofContexts 0 catalog.contexts

theorem find?_candidates (catalog : Catalog) (context source : String) :
    ((catalog.contexts.filter (·.name == context)).flatMap (·.messages)).find?
        (fun message => message.source == source && message.target.status == .finished &&
          !message.target.isEmpty) =
      (catalog.entries.find? fun entry => decide (entry.Serves context source)).map
        (·.message) := by
  rw [← map_message_filter_entries, List.find?_map, List.find?_filter]
  congr 2
  funext entry
  rw [decide_eq_decide]
  simp [MessageEntry.serves_iff, Target.isEmpty_eq_false_iff, and_assoc]

/-- The text is that of the first message that serves, or else the source. -/
theorem lookupText_cases (catalog : Catalog) (context source : String) :
    (∃ entry, catalog.Supplies context source entry ∧
        catalog.lookupText context source = entry.message.target.display) ∨
      (∀ entry ∈ catalog.entries, ¬ entry.Serves context source) ∧
        catalog.lookupText context source = source := by
  simp only [lookupText, find?_candidates]
  cases found : catalog.entries.find? fun entry => decide (entry.Serves context source) with
  | none =>
      refine .inr ⟨fun entry member => ?_, rfl⟩
      simpa using List.find?_eq_none.mp found entry member
  | some entry =>
      obtain ⟨member, serves, others⟩ := find?_entries_eq_some_iff.mp found
      refine .inl ⟨entry, ⟨member, of_decide_eq_true serves, ?_⟩, rfl⟩
      exact fun other otherMem before => of_decide_eq_false (others other otherMem before)

theorem Supplies.eq {other : MessageEntry} (supplies : catalog.Supplies context source entry)
    (too : catalog.Supplies context source other) : entry = other := by
  rcases MessageIndex.before_trichotomy entry.index other.index with before | same | behind
  · exact absurd supplies.serves (too.first entry supplies.member before)
  · exact eq_of_index_eq supplies.member too.member same
  · exact absurd too.serves (supplies.first other too.member behind)

/-- For every source text a text is shown, exactly if the target of the message
that serves for it begins with text; and so it does if it has no variants and no
plural forms. -/
theorem shows_lookupText_iff (catalog : Catalog) (context : String) {source : String}
    (given : source ≠ "") :
    (catalog.Shows context source (catalog.lookupText context source) ↔
        ∀ entry, catalog.Supplies context source entry → entry.message.target.BeginsWithText) ∧
      ∀ entry text, catalog.Supplies context source entry →
        entry.message.target.text = .single (.plain text) →
        entry.message.target.BeginsWithText := by
  refine ⟨?_, fun entry text supplies single =>
    Target.beginsWithText_of_plain single supplies.serves.filled⟩
  rcases catalog.lookupText_cases context source with ⟨entry, supplies, shown⟩ | ⟨unserved, shown⟩
  · rw [shown]
    constructor
    · intro shows other too
      rw [← supplies.eq too]
      exact Target.display_ne_empty_iff.mp shows.nonempty
    · intro begins
      obtain ⟨named, worded, finished, -⟩ := supplies.serves
      exact ⟨Target.display_ne_empty_iff.mpr (begins entry supplies),
        .inr ⟨entry, supplies.member, named, worded, finished, rfl⟩⟩
  · rw [shown]
    refine iff_of_true ⟨given, .inl rfl⟩ fun entry supplies => ?_
    exact absurd supplies.serves (unserved entry supplies.member)

/-- A catalog with two contexts of one name; the first message has text but is not
finished, the second has its text in the first of two forms. -/
def halfFilledCatalog : Catalog :=
  { contexts :=
      [{ name := "n"
         messages := [{ source := "s", target := ⟨.unfinished, .single (.plain "a")⟩ }] },
        { name := "n"
          messages :=
            [{ source := "s"
               target := ⟨.finished, .plural [.lengthVariants ["b", ""], .plain ""]⟩ }] }] }

theorem shows_halfFilledCatalog :
    "s" ≠ "" ∧ halfFilledCatalog.lookupText "n" "s" = "b" ∧
      halfFilledCatalog.Shows "n" "s" "b" := by
  have given : "s" ≠ "" := by decide
  have shown : halfFilledCatalog.lookupText "n" "s" = "b" := by decide
  have begins : ∀ entry ∈ halfFilledCatalog.entries, entry.message.target.display ≠ "" := by decide
  refine ⟨given, shown, ?_⟩
  rw [← shown]
  refine (shows_lookupText_iff halfFilledCatalog "n" given).1.mpr fun entry supplies => ?_
  exact Target.display_ne_empty_iff.mp (begins entry supplies.member)

/-- A catalog with a finished message whose text stands in its second form. -/
def emptyFirstFormCatalog : Catalog :=
  { contexts :=
      [{ name := "n"
         messages :=
          [{ source := "s", numerus := true
             target := ⟨.finished, .plural [.plain "", .plain "a"]⟩ }] }] }

/-- Nothing is shown for a source text whose target has an empty first form. -/
theorem not_shows_emptyFirstFormCatalog :
    ¬ ∀ (catalog : Catalog) (context source : String), source ≠ "" →
      catalog.Shows context source (catalog.lookupText context source) := by
  intro shows
  have blank : emptyFirstFormCatalog.lookupText "n" "s" = "" := by decide
  exact (shows emptyFirstFormCatalog "n" "s" (by decide)).nonempty blank

end Catalog

end CatalogServer
