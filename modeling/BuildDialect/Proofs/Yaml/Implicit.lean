import BuildDialect.Proofs.Yaml.Reading
import BuildDialect.Yaml.Implicit
import Mathlib.Data.List.TakeWhile

/-!
Words as plain scalars. A word is a text, unless it is one of those that stand for a truth value or
for nothing.
-/
namespace BuildDialect.Yaml.Implicit

theorem isDigit_word {c : Char} (h : isWordChar c) : c.isDigit = false := by
  have hcode := toNat_of_isWordChar h
  rw [Bool.eq_false_iff]
  intro hdigit
  simp only [Char.isDigit, Bool.and_eq_true, decide_eq_true_eq, ge_iff_le,
    UInt32.le_iff_toNat_le] at hdigit
  have hlow : 48 ≤ c.toNat := hdigit.1
  have hhigh : c.toNat ≤ 57 := hdigit.2
  omega

theorem stretches_word {separator : Char} (hseparator : isWordChar separator = false)
    {word : List Char} (h : ∀ c ∈ word, isWordChar c) : stretches separator word = [word] := by
  induction word with
  | nil => rfl
  | cons c rest ih =>
    obtain ⟨hc, hrest⟩ := List.forall_mem_cons.mp h
    have hne : c ≠ separator := ne_of_isWordChar hc hseparator
    rw [stretches, if_neg hne, ih hrest]

variable {word : List Char} (h : IsWord word)

include h

theorem exists_first : ∃ c rest, word = c :: rest ∧ isWordChar c := by
  obtain ⟨c, rest, rfl⟩ := List.exists_cons_of_ne_nil h.nonempty
  exact ⟨c, rest, rfl, h.chars c List.mem_cons_self⟩

theorem afterSign_word : afterSign word = word := by
  obtain ⟨c, rest, rfl, hc⟩ := exists_first h
  have hplus := ne_of_isWordChar hc (by decide : isWordChar '+' = false)
  have hminus := ne_of_isWordChar hc (by decide : isWordChar '-' = false)
  unfold afterSign
  split
  · rename_i heq
    exact absurd (List.cons.inj heq).1 hplus
  · rename_i heq
    exact absurd (List.cons.inj heq).1 hminus
  · rfl

theorem isReal_word : isReal word = false := by
  have hpoint : word.dropWhile (· != '.') = [] := by
    rw [List.dropWhile_eq_nil_iff]
    intro c hc
    simpa using ne_of_isWordChar (h.chars c hc) (by decide)
  rw [isReal, afterSign_word h]
  simp only [hpoint]

theorem isInteger_word : isInteger word = false := by
  obtain ⟨c, rest, hword, hc⟩ := exists_first h
  have hzero := ne_of_isWordChar hc (by decide : isWordChar '0' = false)
  have hdigits : isDigits word = false := by
    rw [hword, isDigits, isDigit_word hc, Bool.false_and]
  unfold isInteger
  rw [afterSign_word h, hword]
  split
  · rename_i heq
    exact absurd (List.cons.inj heq).1 hzero
  · rename_i heq
    exact absurd (List.cons.inj heq).1 hzero
  · rename_i heq
    exact absurd (List.cons.inj heq).1 hzero
  · rw [← hword, stretches_word (by decide) h.chars]
    dsimp only
    rw [hdigits, Bool.false_and]

theorem isMoment_word : isMoment word = false := by
  obtain ⟨c, rest, rfl, hc⟩ := exists_first h
  have hnumber : Stamp.number? 4 4 (c :: rest) = none := by
    unfold Stamp.number?
    rw [List.take_succ_cons, List.takeWhile_cons, isDigit_word hc]
    rfl
  unfold isMoment Stamp.ofText?
  rw [hnumber]
  rfl

/-- A word does not end in a line end, nor is it an indicator. -/
theorem tagOf_word (htruth : isTruth word = false) (hnull : isNull word = false) :
    tagOf (.ofChars word) = .text := by
  have hne {text : List Char} (c : Char) (hc : c ∈ text) (hother : isWordChar c = false) :
      word ≠ text := by
    rintro rfl
    rw [h.chars c hc] at hother
    cases hother
  have hend : ∀ c ∈ word, (c == '\n') = false := by
    intro c hc
    simpa using ne_of_isWordChar (h.chars c hc) (by decide)
  have hhead : (word.head? == some '\n') = false := by
    obtain ⟨c, rest, rfl, hc⟩ := exists_first h
    exact hend c List.mem_cons_self
  have hlast : (word.getLast? == some '\n') = false := by
    cases hword : word.getLast? with
    | none => rfl
    | some c => exact hend c (List.mem_of_getLast? hword)
  have hmerge : (word == ['<', '<']) = false := by
    simpa using hne '<' List.mem_cons_self (by decide)
  have hvalue : (word == ['=']) = false := by
    simpa using hne '=' List.mem_cons_self (by decide)
  have hindicator : [['!'], ['&'], ['*']].contains word = false := by
    have hmark : word ≠ ['!'] := hne '!' List.mem_cons_self (by decide)
    have hanchor : word ≠ ['&'] := hne '&' List.mem_cons_self (by decide)
    have halias : word ≠ ['*'] := hne '*' List.mem_cons_self (by decide)
    simp [hmark, hanchor, halias]
  rw [tagOf, RawText.mapM_char?_ofChars]
  dsimp only
  rw [tagOfChars, hhead, hlast]
  simp only [Bool.false_eq_true, if_false, htruth, isReal_word h, isInteger_word h, hmerge, hnull,
    isMoment_word h, hvalue, hindicator]

end BuildDialect.Yaml.Implicit
