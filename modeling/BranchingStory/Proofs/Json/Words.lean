import BranchingStory.Json.Printer
import BranchingStory.Json.Token
import Mathlib.Data.List.TakeWhile

/-!
# Numbers as words

The text of a number is one word. An integer that fits into 64 bits is written in decimal digits
that are read back as the same integer.
-/

namespace BranchingStory

namespace Json

/-- The characters can stand together in a word. -/
def IsWord (word : List Char) : Prop := word ≠ [] ∧ ∀ c ∈ word, isWordChar c = true

/-- Word characters from the first to the last are a word. -/
theorem isWord_of_all {c : Char} {word : List Char} (h : (c :: word).all isWordChar = true) :
    IsWord (c :: word) :=
  ⟨List.cons_ne_nil c word, List.all_eq_true.1 h⟩

/-- Digits stand in words. -/
theorem isWordChar_of_isDigit {c : Char} (h : c.isDigit = true) : isWordChar c = true := by
  simp [isWordChar, Char.isAlphanum, h]

/-- The decimal digits of a number are digits. -/
theorem isDigit_of_mem_toDigits {n : Nat} {c : Char} (h : c ∈ Nat.toDigits 10 n) :
    c.isDigit = true :=
  Nat.isDigit_of_mem_toDigits (by decide) (by decide) h

/-- The decimal digits of a number are a word. -/
theorem isWord_toDigits (n : Nat) : IsWord (Nat.toDigits 10 n) :=
  ⟨Nat.toDigits_ne_nil, fun _ hc => isWordChar_of_isDigit (isDigit_of_mem_toDigits hc)⟩

/-- A sign before a word leaves a word. -/
theorem IsWord.minus {word : List Char} (h : IsWord word) : IsWord ('-' :: word) :=
  ⟨List.cons_ne_nil _ _, List.forall_mem_cons.2 ⟨by decide, h.2⟩⟩

/-- A word is written for every integer. -/
theorem isWord_writeInt (i : Int) : IsWord (writeInt i) := by
  unfold writeInt
  split
  · exact (isWord_toDigits _).minus
  · exact isWord_toDigits _

end Json

namespace Binary64

open Json

/-- In positional form there are digits and a point, if the digits are digits. -/
theorem isWord_positionalText {keepsFraction : Bool} {digits : List Char} {place : Int}
    (h : ∀ c ∈ digits, c.isDigit = true) : IsWord (positionalText keepsFraction digits place) := by
  have hdigits : ∀ c ∈ digits, isWordChar c = true := fun c hc => isWordChar_of_isDigit (h c hc)
  have hpoint : isWordChar '.' = true := by decide
  have hzero : isWordChar '0' = true := by decide
  have hzeros : ∀ n, ∀ c ∈ List.replicate n '0', isWordChar c = true := by
    intro n c hc
    rw [List.eq_of_mem_replicate hc]
    exact hzero
  unfold positionalText
  split
  · next p =>
    split
    · exact ⟨List.cons_ne_nil _ _,
        List.forall_mem_cons.2 ⟨hzero, List.forall_mem_cons.2 ⟨hpoint, hdigits⟩⟩⟩
    · split
      · next hp hlength =>
        refine ⟨fun hnil => ?_, fun c hc => ?_⟩
        · have hlen := congrArg List.length hnil
          simp only [List.length_append, List.length_replicate, List.length_nil] at hlen
          omega
        · rcases List.mem_append.1 hc with hc | hc
          · rcases List.mem_append.1 hc with hc | hc
            · exact hdigits c hc
            · exact hzeros _ c hc
          · split at hc
            · simp only [List.mem_cons, List.not_mem_nil, or_false] at hc
              rcases hc with rfl | rfl
              · exact hpoint
              · exact hzero
            · cases hc
      · refine ⟨by simp, fun c hc => ?_⟩
        rcases List.mem_append.1 hc with hc | hc
        · exact hdigits c (List.mem_of_mem_take hc)
        · rcases List.mem_cons.1 hc with rfl | hc
          · exact hpoint
          · exact hdigits c (List.mem_of_mem_drop hc)
  · next p =>
    refine ⟨List.cons_ne_nil _ _, ?_⟩
    simp only [List.forall_mem_cons, List.forall_mem_append]
    exact ⟨hzero, hpoint, hzeros _, hdigits⟩

/-- With an exponent there are digits, a point, a letter and a sign, if the digits are digits. -/
theorem isWord_exponentText {digits : List Char} {exponent : Int}
    (h : ∀ c ∈ digits, c.isDigit = true) : IsWord (exponentText digits exponent) := by
  have hpoint : ∀ c ∈ digits.take 1 ++ '.' :: digits.drop 1, isWordChar c = true := by
    intro c hc
    rcases List.mem_append.1 hc with hc | hc
    · exact isWordChar_of_isDigit (h c (List.mem_of_mem_take hc))
    · rcases List.mem_cons.1 hc with rfl | hc
      · decide
      · exact isWordChar_of_isDigit (h c (List.mem_of_mem_drop hc))
  have hsign : isWordChar (if exponent < 0 then '-' else '+') = true := by
    split <;> decide
  unfold exponentText
  refine ⟨by simp, ?_⟩
  simp only [List.forall_mem_append, List.forall_mem_cons]
  refine ⟨?_, by decide, hsign, (isWord_toDigits _).2⟩
  split
  · exact hpoint
  · exact fun c hc => isWordChar_of_isDigit (h c hc)

/-- A word is written for every finite number. -/
theorem isWord_text (style : Style) (x : Binary64) : IsWord (style.text x) := by
  have hmagnitude : IsWord (style.magnitudeText x) := by
    have hkept : ∀ n, ∀ c ∈ (stripZeros (Nat.toDigits 10 n)).1, c.isDigit = true := by
      intro n c hc
      have hc := (List.dropWhile_sublist _).mem (List.mem_reverse.1 hc)
      exact isDigit_of_mem_toDigits (List.mem_reverse.1 hc)
    unfold Style.magnitudeText
    split
    · split <;> exact isWord_of_all rfl
    · simp only
      split
      · exact isWord_positionalText (hkept _)
      · exact isWord_exponentText (hkept _)
  unfold Style.text
  split
  · exact hmagnitude.minus
  · exact hmagnitude

end Binary64

namespace Json

/-- A word is written for every number. -/
theorem Number.isWord_write (n : Number) : IsWord n.write := by
  cases n with
  | integer i => exact isWord_writeInt i
  | float x =>
    rw [Number.write]
    split
    · exact x.isWord_text _
    · exact isWord_of_all rfl

/-- The decimal digits of a number stand for it. -/
theorem digitsValue_toDigits (n : Nat) : digitsValue (Nat.toDigits 10 n) = n :=
  Nat.ofDigitChars_eq_foldl.symm.trans Nat.ofDigitChars_ten_toDigits

/-- The decimal digits of a positive number do not begin with a zero. -/
theorem exists_toDigits_of_pos {n : Nat} (h : 0 < n) :
    ∃ d rest, Nat.toDigits 10 n = d :: rest ∧ d ≠ '0' := by
  induction n using Nat.strongRecOn with
  | ind n ih =>
    rw [Nat.toDigits_eq_if (by decide)]
    split
    · exact ⟨_, [], rfl, fun hd => by rw [Nat.digitChar_eq_zero] at hd; omega⟩
    · obtain ⟨d, rest, hrest, hd⟩ := ih (n / 10) (by omega) (by omega)
      exact ⟨d, _, by rw [hrest, List.cons_append], hd⟩

/-- The decimal digits of a number have no leading zero but that of zero alone. -/
theorem isWhole_toDigits (n : Nat) : isWhole (Nat.toDigits 10 n) = true := by
  rcases Nat.eq_zero_or_pos n with rfl | hn
  · rw [Nat.toDigits_zero]
    rfl
  · obtain ⟨d, rest, hdigits, hd⟩ := exists_toDigits_of_pos hn
    rw [hdigits]
    unfold isWhole
    split
    · next he => cases he
    · rfl
    · next he =>
      cases he
      exact bne_iff_ne.2 hd

/-- Decimal digits without a sign are read as they are. -/
theorem unsignedNumeral?_toDigits (negative : Bool) (n : Nat) :
    unsignedNumeral? negative (Nat.toDigits 10 n) =
      some ⟨negative, Nat.toDigits 10 n, [], none⟩ := by
  have hdigits : ∀ c ∈ Nat.toDigits 10 n, c.isDigit = true := fun c => isDigit_of_mem_toDigits
  have htake : (Nat.toDigits 10 n).takeWhile Char.isDigit = Nat.toDigits 10 n :=
    List.takeWhile_eq_self_iff.2 hdigits
  have hdrop : (Nat.toDigits 10 n).dropWhile Char.isDigit = [] :=
    List.dropWhile_eq_nil_iff.2 hdigits
  simp only [unsignedNumeral?, htake, hdrop, isWhole_toDigits]
  rfl

/-- The text of an integer is the numeral of its sign and its digits. -/
theorem numeral?_writeInt (i : Int) :
    numeral? (writeInt i) = some ⟨decide (i < 0), Nat.toDigits 10 i.natAbs, [], none⟩ := by
  unfold writeInt
  split
  · next hneg =>
    rw [numeral?, unsignedNumeral?_toDigits, decide_eq_true hneg]
  · next hneg =>
    rw [decide_eq_false hneg, ← unsignedNumeral?_toDigits]
    unfold numeral?
    split
    · next rest htext =>
      have hminus : '-'.isDigit = true := isDigit_of_mem_toDigits (htext ▸ List.mem_cons_self)
      cases hminus
    · rfl

/-- The numeral of an integer within 64 bits, signed or not, stands for it. -/
theorem value?_digits {i : Int} (hmin : Int64.minValue.toInt ≤ i) (hmax : i < UInt64.size) :
    Numeral.value? ⟨decide (i < 0), Nat.toDigits 10 i.natAbs, [], none⟩ = some (.integer i) := by
  have hsign : (if decide (i < 0) = true then -(i.natAbs : Int) else i.natAbs) = i := by
    split
    · next h =>
      rw [decide_eq_true_eq] at h
      omega
    · next h =>
      rw [decide_eq_true_eq] at h
      omega
  have hzero : ¬ (decide (i < 0) = true ∧ i.natAbs = 0) := by
    rw [decide_eq_true_eq]
    omega
  simp only [Numeral.value?, digitsValue_toDigits, hsign, List.isEmpty_nil, Option.isNone_none,
    Bool.and_self, if_true]
  exact if_pos ⟨hmin, hmax, hzero⟩

/-- A numeral is no literal. -/
theorem wordToken?_of_numeral? {word : List Char} {n : Numeral} (h : numeral? word = some n) :
    wordToken? word = some (.number n.value?) := by
  have hne : ∀ literal, numeral? literal = none → word ≠ literal := by
    rintro _ hnone rfl
    rw [hnone] at h
    cases h
  rw [wordToken?, if_neg (hne _ (by decide)), if_neg (hne _ (by decide)),
    if_neg (hne _ (by decide)), h, Option.map_some]

/-- An integer within 64 bits, signed or not, is read back from its digits. -/
theorem wordToken?_writeInt {i : Int} (hmin : Int64.minValue.toInt ≤ i) (hmax : i < UInt64.size) :
    wordToken? (writeInt i) = some (.number (some (.integer i))) := by
  rw [wordToken?_of_numeral? (numeral?_writeInt i), value?_digits hmin hmax]

end Json

end BranchingStory
