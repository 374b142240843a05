import CatalogServer.Check.Marker
import CatalogServer.Proofs.Text.Ascending
import Mathlib.Algebra.Ring.Parity
import Mathlib.Data.List.DropRight

/-!
# What the scanners of markers find

Both scanners run over a text from the left and take several characters at
once, so what they find might depend on where they come to stop.  It does not.
The placeholders of a text are the numbers that are read at its percent signs,
at each of them by itself, and the accelerator is the first character that
stands right behind an odd run of ampersands and is no blank.
-/

namespace CatalogServer.Marker

open Text

/-- A text begins with a number of one or two digits, the first of them not
zero.  A second digit right behind the first belongs to the number. -/
inductive BeginsWith : List Char → Nat → Prop where
  | digit {value : Nat} {rest : List Char} (positive : 0 < value) (small : value < 10)
      (ends : ∀ c ∈ rest.head?, c.isDigit = false) :
      BeginsWith (value.digitChar :: rest) value
  | digits {tens ones : Nat} {rest : List Char} (positive : 0 < tens) (small : tens < 10)
      (unit : ones < 10) :
      BeginsWith (tens.digitChar :: ones.digitChar :: rest) (tens * 10 + ones)

/-- The text behind a percent sign gives a number, with or without an `L` in
front of it. -/
def Gives (behind : List Char) (number : Nat) : Prop :=
  BeginsWith behind number ∨ ∃ rest, behind = 'L' :: rest ∧ BeginsWith rest number

/-- A number is read at one of the percent signs of a text. -/
def ReadIn (text : List Char) (number : Nat) : Prop :=
  ∃ behind, '%' :: behind <:+ text ∧ Gives behind number

/-- A character is marked as the accelerator by the text in front of it: the
longest run of ampersands at the end of that text has odd length, so that the
last of them is not escaped, and the character itself is neither an ampersand
nor a blank. -/
structure IsMarked (front : List Char) (c : Char) : Prop where
  odd : Odd (front.rtakeWhile (· == '&')).length
  other : c ≠ '&'
  visible : isBlank c = false

/-- No character of a text is marked. -/
def NoneMarked (text : List Char) : Prop :=
  ∀ front c behind, text = front ++ c :: behind → ¬IsMarked front c

/-- A character of a text is marked, and none in front of it is. -/
def FirstMarked (text : List Char) (c : Char) : Prop :=
  ∃ front behind, text = front ++ c :: behind ∧ IsMarked front c ∧ NoneMarked front

section Placeholders

variable {c : Char} {text rest front behind : List Char} {number value : Nat}

theorem BeginsWith.isDigit_head (begins : BeginsWith (c :: rest) number) : c.isDigit = true := by
  cases begins with
  | digit positive small ends => rw [Nat.isDigit_digitChar, decide_eq_true small]
  | digits positive small unit => rw [Nat.isDigit_digitChar, decide_eq_true small]

theorem digit?_digitChar (small : value < 10) : digit? value.digitChar = some value := by
  have isDigit : value.digitChar.isDigit = true := by
    rw [Nat.isDigit_digitChar, decide_eq_true small]
  rw [digit?, if_pos isDigit]
  exact congrArg some (Nat.toNat_digitChar_sub_48_of_lt_ten small)

theorem digit?_eq_none_iff : digit? c = none ↔ c.isDigit = false := by
  unfold digit?
  split <;> simp_all

theorem eq_digitChar_of_digit? (read : digit? c = some value) :
    value < 10 ∧ c = value.digitChar := by
  unfold digit? at read
  split at read
  · next isDigit =>
      obtain rfl := Option.some.inj read
      have range : 48 ≤ c.toNat ∧ c.toNat ≤ 57 := by
        simpa [Char.isDigit, UInt32.le_iff_toNat_le] using isDigit
      have zero : '0'.toNat = 48 := rfl
      have small : c.toNat - '0'.toNat < 10 := by omega
      refine ⟨small, Char.toNat_inj.mp ?_⟩
      rw [Nat.toNat_digitChar_of_lt_ten small]
      omega
  · cases read

/-- The text behind the `L` that may stand in front of a number. -/
def dropMark (text : List Char) : List Char :=
  match text with
  | 'L' :: rest => rest
  | _ => text

/-- The number that a text begins with, and what is left behind it. -/
def numberAt (text : List Char) : Option Nat × List Char :=
  match text with
  | [] => (none, [])
  | first :: rest =>
      match digit? first with
      | none | some 0 => (none, text)
      | some tens =>
          match rest.head?.bind digit? with
          | some ones => (some (tens * 10 + ones), rest.drop 1)
          | none => (some tens, rest)

theorem placeholderAt_eq (text : List Char) : placeholderAt text = numberAt (dropMark text) :=
  rfl

theorem numberAt_digit (positive : 0 < value) (small : value < 10)
    (ends : ∀ c ∈ rest.head?, c.isDigit = false) :
    numberAt (value.digitChar :: rest) = (some value, rest) := by
  have single : rest.head?.bind digit? = none := by
    rw [Option.bind_eq_none_iff]
    exact fun c first => digit?_eq_none_iff.mpr (ends c first)
  cases value with
  | zero => exact absurd positive (Nat.lt_irrefl 0)
  | succ value => simp only [numberAt, digit?_digitChar small, single]

theorem numberAt_digits {tens ones : Nat} (positive : 0 < tens) (small : tens < 10)
    (unit : ones < 10) :
    numberAt (tens.digitChar :: ones.digitChar :: rest) = (some (tens * 10 + ones), rest) := by
  cases tens with
  | zero => exact absurd positive (Nat.lt_irrefl 0)
  | succ tens =>
      simp only [numberAt, digit?_digitChar small, List.head?_cons, Option.bind_some,
        digit?_digitChar unit, List.drop_one, List.tail_cons]

theorem numberAt_cases (text : List Char) :
    numberAt text = (none, text) ∨
      ∃ number digits rest, BeginsWith text number ∧ text = digits ++ rest ∧
        (∀ c ∈ digits, c.isDigit = true) ∧ numberAt text = (some number, rest) := by
  cases text with
  | nil => exact .inl rfl
  | cons first rest =>
      cases read : digit? first with
      | none => exact .inl (by simp only [numberAt, read])
      | some tens =>
          obtain ⟨small, rfl⟩ := eq_digitChar_of_digit? read
          rcases Nat.eq_zero_or_pos tens with rfl | positive
          · exact .inl (by simp only [numberAt, read])
          · right
            cases behind : rest.head?.bind digit? with
            | none =>
                have ends : ∀ c ∈ rest.head?, c.isDigit = false := fun c next =>
                  digit?_eq_none_iff.mp (Option.bind_eq_none_iff.mp behind c next)
                refine ⟨tens, [tens.digitChar], rest, .digit positive small ends, rfl, ?_,
                  numberAt_digit positive small ends⟩
                simpa using small
            | some ones =>
                obtain ⟨second, next, readSecond⟩ := Option.bind_eq_some_iff.mp behind
                obtain ⟨rest, rfl⟩ := List.head?_eq_some_iff.mp next
                obtain ⟨unit, rfl⟩ := eq_digitChar_of_digit? readSecond
                refine ⟨tens * 10 + ones, [tens.digitChar, ones.digitChar], rest,
                  .digits positive small unit, rfl, ?_, numberAt_digits positive small unit⟩
                simpa using ⟨small, unit⟩

theorem numberAt_fst_eq_some_iff : (numberAt text).1 = some number ↔ BeginsWith text number := by
  constructor
  · intro read
    rcases numberAt_cases text with nothing | ⟨_, _, _, begins, -, -, taken⟩
    · rw [nothing] at read
      cases read
    · rw [taken] at read
      obtain rfl := Option.some.inj read
      exact begins
  · rintro (⟨positive, small, ends⟩ | ⟨positive, small, unit⟩)
    · rw [numberAt_digit positive small ends]
    · rw [numberAt_digits positive small unit]

theorem gives_iff : Gives text number ↔ BeginsWith (dropMark text) number := by
  unfold Gives dropMark
  split
  · next rest =>
      constructor
      · rintro (begins | ⟨_, same, begins⟩)
        · exact absurd begins.isDigit_head (by decide)
        · obtain rfl := List.tail_eq_of_cons_eq same
          exact begins
      · exact fun begins => .inr ⟨rest, rfl, begins⟩
  · next unmarked =>
      constructor
      · rintro (begins | ⟨rest, marked, -⟩)
        · exact begins
        · exact absurd marked (unmarked rest)
      · exact .inl

theorem placeholderAt_fst_eq_some_iff :
    (placeholderAt text).1 = some number ↔ Gives text number := by
  rw [placeholderAt_eq, numberAt_fst_eq_some_iff, gives_iff]

theorem exists_taken (text : List Char) :
    ∃ taken, '%' ∉ taken ∧ text = taken ++ (placeholderAt text).2 := by
  obtain ⟨mark, noSign, marked⟩ : ∃ mark, '%' ∉ mark ∧ text = mark ++ dropMark text := by
    unfold dropMark
    split
    · exact ⟨['L'], by decide, rfl⟩
    · exact ⟨[], by decide, rfl⟩
  rw [placeholderAt_eq]
  rcases numberAt_cases (dropMark text) with nothing | ⟨_, digits, rest, -, whole, isDigit, taken⟩
  · exact ⟨mark, noSign, by rw [nothing]; exact marked⟩
  · refine ⟨mark ++ digits, ?_, ?_⟩
    · rw [List.mem_append, not_or]
      exact ⟨noSign, fun sign => absurd (isDigit _ sign) (by decide)⟩
    · rw [taken, List.append_assoc, ← whole]
      exact marked

theorem not_readIn_nil : ¬ReadIn [] number := by
  rintro ⟨behind, suffix, -⟩
  cases List.suffix_nil.mp suffix

theorem readIn_cons_iff :
    ReadIn (c :: rest) number ↔ c = '%' ∧ Gives rest number ∨ ReadIn rest number := by
  simp only [ReadIn, List.suffix_cons_iff, List.cons.injEq, or_and_right, exists_or]
  refine or_congr_left ⟨?_, ?_⟩
  · rintro ⟨_, ⟨rfl, rfl⟩, gives⟩
    exact ⟨rfl, gives⟩
  · rintro ⟨rfl, gives⟩
    exact ⟨rest, ⟨rfl, rfl⟩, gives⟩

theorem readIn_append_iff {part : List Char} (noSign : '%' ∉ part) :
    ReadIn (part ++ rest) number ↔ ReadIn rest number := by
  induction part with
  | nil => rfl
  | cons c part ih =>
      rw [List.mem_cons, not_or] at noSign
      rw [List.cons_append, readIn_cons_iff, ih noSign.2]
      exact or_iff_right fun sign => noSign.1 sign.1.symm

/-- What the scanner reads at a percent sign and what it leaves behind that
sign are all there is to read. -/
theorem readIn_sign_iff :
    ReadIn ('%' :: rest) number ↔
      (placeholderAt rest).1 = some number ∨ ReadIn (placeholderAt rest).2 number := by
  obtain ⟨taken, noSign, whole⟩ := exists_taken rest
  have left : ReadIn rest number ↔ ReadIn (placeholderAt rest).2 number := by
    conv_lhs => rw [whole]
    exact readIn_append_iff noSign
  rw [readIn_cons_iff, placeholderAt_fst_eq_some_iff, left]
  simp

theorem mem_placeholders_iff : number ∈ placeholders text ↔ ReadIn text number := by
  fun_induction placeholders text with
  | case1 => simpa using not_readIn_nil
  | case2 c rest isSign found other given ih =>
      obtain rfl := beq_iff_eq.mp isSign
      rw [mem_insertAscending, ih, readIn_sign_iff, given, Option.some_inj, eq_comm]
  | case3 c rest isSign found nothing ih =>
      obtain rfl := beq_iff_eq.mp isSign
      rw [ih, readIn_sign_iff, nothing]
      simp [found]
  | case4 c rest noSign ih =>
      rw [ih, readIn_cons_iff]
      exact (or_iff_right fun sign => noSign (beq_iff_eq.mpr sign.1)).symm

theorem pairwise_placeholders (text : List Char) : (placeholders text).Pairwise (· < ·) := by
  fun_induction placeholders text with
  | case1 => exact .nil
  | case2 c rest isSign found number given ih => exact pairwise_insertAscending number ih
  | case3 c rest isSign found nothing ih => exact ih
  | case4 c rest noSign ih => exact ih

theorem BeginsWith.bounds (begins : BeginsWith text number) : 1 ≤ number ∧ number ≤ 99 := by
  cases begins <;> omega

theorem ReadIn.bounds (read : ReadIn text number) : 1 ≤ number ∧ number ≤ 99 := by
  obtain ⟨behind, -, gives⟩ := read
  exact (gives_iff.mp gives).bounds

/-- A number ends in front of a percent sign, whatever follows. -/
theorem beginsWith_append_sign_iff :
    BeginsWith (front ++ '%' :: behind) number ↔ BeginsWith front number := by
  rw [← numberAt_fst_eq_some_iff, ← numberAt_fst_eq_some_iff]
  suffices same : (numberAt (front ++ '%' :: behind)).1 = (numberAt front).1 by rw [same]
  -- A number has two digits at most, so it is decided by the first two characters.
  have sign : digit? '%' = none := rfl
  match front with
  | [] => rfl
  | [first] =>
      simp only [numberAt, List.cons_append, List.nil_append, List.head?_cons, Option.bind_some,
        sign]
      split <;> rfl
  | first :: second :: front =>
      simp only [numberAt, List.cons_append, List.head?_cons, Option.bind_some]
      split
      · rfl
      · rfl
      · split <;> rfl

theorem dropMark_append_sign :
    dropMark (front ++ '%' :: behind) = dropMark front ++ '%' :: behind := by
  cases front with
  | nil => rfl
  | cons c front =>
      by_cases mark : c = 'L'
      · subst mark
        rfl
      · simp [dropMark, mark]

theorem gives_append_sign_iff : Gives (front ++ '%' :: behind) number ↔ Gives front number := by
  rw [gives_iff, gives_iff, dropMark_append_sign, beginsWith_append_sign_iff]

/-- A percent sign cuts a text: what is read in front of it and from it on is
all that is read. -/
theorem readIn_append_sign_iff :
    ReadIn (front ++ '%' :: behind) number ↔
      ReadIn front number ∨ ReadIn ('%' :: behind) number := by
  induction front with
  | nil => rw [List.nil_append, or_iff_right not_readIn_nil]
  | cons c front ih =>
      rw [List.cons_append, readIn_cons_iff, ih, gives_append_sign_iff, ← or_assoc,
        ← readIn_cons_iff]

/-- The scanner lists exactly the numbers that are read at the percent signs of
a text, in increasing order and each once.  They lie between 1 and 99.  No
placeholder hides another: wherever a percent sign stands, the placeholders are
those of the text in front of it and those of the text from it on. -/
theorem placeholders_exact (text : List Char) :
    (placeholders text).Pairwise (· < ·) ∧
      (∀ number, number ∈ placeholders text ↔ ReadIn text number) ∧
      (∀ number ∈ placeholders text, 1 ≤ number ∧ number ≤ 99) ∧
      ∀ front behind, text = front ++ '%' :: behind → ∀ number,
        number ∈ placeholders text ↔
          number ∈ placeholders front ∨ number ∈ placeholders ('%' :: behind) := by
  refine ⟨pairwise_placeholders text, fun number => mem_placeholders_iff, ?_, ?_⟩
  · intro number member
    exact (mem_placeholders_iff.mp member).bounds
  · rintro front behind rfl number
    rw [mem_placeholders_iff, mem_placeholders_iff, mem_placeholders_iff, readIn_append_sign_iff]

/-- Signs in a row, a mark without a number and a third digit hide nothing. -/
theorem placeholders_crowdedText :
    45 ∈ placeholders "%L%1%%23%L456 %0".toList ∧ (1 ≤ 45 ∧ 45 ≤ 99) ∧
      "%L%1%%23%L456 %0".toList = "%L%1%".toList ++ '%' :: "23%L456 %0".toList ∧
      (45 ∈ placeholders "%L%1%".toList ∨ 45 ∈ placeholders "%23%L456 %0".toList) := by
  obtain ⟨-, -, bounded, cut⟩ := placeholders_exact "%L%1%%23%L456 %0".toList
  have listed : 45 ∈ placeholders "%L%1%%23%L456 %0".toList := by decide +kernel
  have whole : "%L%1%%23%L456 %0".toList = "%L%1%".toList ++ '%' :: "23%L456 %0".toList := by decide
  exact ⟨listed, bounded 45 listed, whole, (cut _ _ whole 45).mp listed⟩

end Placeholders

section Accelerators

variable {c d : Char} {text front : List Char}

/-- An ampersand behind an even run makes it odd, and every other character
ends a run. -/
theorem odd_run_concat_iff :
    Odd ((front ++ [c]).rtakeWhile (· == '&')).length ↔
      c = '&' ∧ ¬Odd (front.rtakeWhile (· == '&')).length := by
  rw [List.rtakeWhile_concat]
  split
  · next ampersand =>
      rw [List.length_append, List.length_singleton, Nat.odd_add_one]
      exact (and_iff_right (beq_iff_eq.mp ampersand)).symm
  · next other =>
      have ends : c ≠ '&' := fun same => other (beq_iff_eq.mpr same)
      simp [ends]

theorem noneMarked_nil : NoneMarked [] := by
  intro front c behind whole
  cases front <;> cases whole

theorem noneMarked_concat_iff :
    NoneMarked (front ++ [c]) ↔ NoneMarked front ∧ ¬IsMarked front c := by
  constructor
  · intro unmarked
    refine ⟨fun earlier d rest whole => ?_, unmarked front c [] rfl⟩
    exact unmarked earlier d (rest ++ [c]) (by rw [whole]; simp)
  · rintro ⟨unmarked, last⟩ earlier d rest whole
    rcases List.eq_nil_or_concat rest with rfl | ⟨inner, final, rfl⟩
    · obtain ⟨rfl, same⟩ := List.append_inj' whole rfl
      obtain ⟨rfl, -⟩ := List.cons.inj same
      exact last
    · rw [List.concat_eq_append, ← List.cons_append, ← List.append_assoc] at whole
      exact unmarked earlier d inner (List.append_inj' whole rfl).1

theorem NoneMarked.ampersand (unmarked : NoneMarked front) : NoneMarked (front ++ ['&']) :=
  noneMarked_concat_iff.mpr ⟨unmarked, fun marked => marked.other rfl⟩

theorem FirstMarked.not_noneMarked (first : FirstMarked text c) : ¬NoneMarked text := by
  obtain ⟨front, behind, whole, marked, -⟩ := first
  exact fun unmarked => unmarked front c behind whole marked

/-- A part at the front of a text with nothing marked ends in front of every
character that is marked. -/
theorem NoneMarked.length_le {part behind rest : List Char} (unmarked : NoneMarked part)
    (marked : IsMarked front c) (whole : front ++ c :: behind = part ++ d :: rest) :
    part.length ≤ front.length := by
  rcases List.append_eq_append_iff.mp whole with ⟨between, rfl, same⟩ | ⟨between, rfl, -⟩
  · cases between with
    | nil => simp
    | cons e between =>
        obtain ⟨rfl, -⟩ := List.cons.inj same
        exact absurd marked (unmarked front c between rfl)
  · simp

theorem FirstMarked.eq (first : FirstMarked text c) (other : FirstMarked text d) : c = d := by
  obtain ⟨front, behind, rfl, marked, unmarked⟩ := first
  obtain ⟨otherFront, otherBehind, whole, otherMarked, otherUnmarked⟩ := other
  have sameLength : front.length = otherFront.length :=
    Nat.le_antisymm (unmarked.length_le otherMarked whole.symm)
      (otherUnmarked.length_le marked whole)
  exact (List.cons.inj (List.append_inj whole sameLength).2).1

/-- Behind an even run and with nothing marked so far, the scanner comes to the
first marked character, or to the end if there is none. -/
theorem accelerator?_cases (even : ¬Odd (front.rtakeWhile (· == '&')).length)
    (unmarked : NoneMarked front) (text : List Char) :
    accelerator? text = none ∧ NoneMarked (front ++ text) ∨
      ∃ c, accelerator? text = some c ∧ FirstMarked (front ++ text) c := by
  -- Along the scan `front` grows by what is taken.  An even run at its end is
  -- the invariant: the first ampersand that is taken makes it odd, and whatever
  -- is taken together with it makes it even again.
  fun_induction accelerator? text generalizing front with
  | case1 => exact .inl ⟨rfl, by rwa [List.append_nil]⟩
  | case2 next rest escaped ih =>
      have oddBehind := odd_run_concat_iff.mpr ⟨rfl, even⟩
      have both : NoneMarked (front ++ ['&'] ++ [next]) := by
        refine noneMarked_concat_iff.mpr ⟨unmarked.ampersand, fun marked => ?_⟩
        rw [Bool.or_eq_true, beq_iff_eq] at escaped
        rcases escaped with same | blank
        · exact marked.other same
        · exact absurd blank (by simp [marked.visible])
      have behind := ih (fun odd => (odd_run_concat_iff.mp odd).2 oddBehind) both
      rwa [List.append_assoc, List.append_assoc] at behind
  | case3 next rest free =>
      have oddBehind := odd_run_concat_iff.mpr ⟨rfl, even⟩
      rw [Bool.or_eq_true, beq_iff_eq, not_or, Bool.not_eq_true] at free
      exact .inr ⟨next, rfl, front ++ ['&'], rest, by simp, ⟨oddBehind, free.1, free.2⟩,
        unmarked.ampersand⟩
  | case4 c rest lone ih =>
      have both : NoneMarked (front ++ [c]) :=
        noneMarked_concat_iff.mpr ⟨unmarked, fun marked => even marked.odd⟩
      -- Taken alone, a character is an ampersand at the end of the text only.
      cases rest with
      | nil => exact .inl ⟨rfl, both⟩
      | cons next rest =>
          have behind := ih (fun odd => lone next rest (odd_run_concat_iff.mp odd).1 rfl) both
          rwa [List.append_assoc] at behind

/-- The accelerator of a text is the first character that is marked, and a text
without one has no marked character. -/
theorem accelerator?_exact (text : List Char) :
    (∀ c, accelerator? text = some c ↔ FirstMarked text c) ∧
      (accelerator? text = none ↔ NoneMarked text) := by
  have outcome := @accelerator?_cases [] (by decide) noneMarked_nil text
  rcases outcome with ⟨found, unmarked⟩ | ⟨first, found, isFirst⟩
  · refine ⟨fun c => ?_, iff_of_true found unmarked⟩
    exact iff_of_false (by simp [found]) fun isFirst => isFirst.not_noneMarked unmarked
  · refine ⟨fun c => ?_, iff_of_false (by simp [found]) isFirst.not_noneMarked⟩
    rw [found, Option.some_inj]
    constructor
    · rintro rfl
      exact isFirst
    · exact isFirst.eq

example : accelerator? "&& & &&&Quit &Now".toList = some 'Q' := by decide

end Accelerators

end CatalogServer.Marker
