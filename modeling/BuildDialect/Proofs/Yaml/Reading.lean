import BuildDialect.Yaml.Plain
import Mathlib.Tactic.Set

/-!
Reading words. In a text that can be taken in as a whole no reader fails for want of characters, and
a word is read as a plain scalar up to the colon or the line end that follows it.
-/
namespace BuildDialect.Yaml

variable {σ α β : Type}

theorem bind_ok {first : StateT σ (Except Fault) α} {next : α → StateT σ (Except Fault) β}
    {s after : σ} {value : α} (h : first s = .ok (value, after)) :
    (first >>= next) s = next value after := by
  change (first s >>= fun result => next result.1 result.2) = _
  rw [h]
  rfl

theorem get_ok (s : σ) : (get : StateT σ (Except Fault) σ) s = .ok (s, s) := rfl

theorem set_ok (s after : σ) : (set after : StateT σ (Except Fault) PUnit) s = .ok (⟨⟩, after) :=
  rfl

def isWordChar (c : Char) : Bool :=
  c.isAlpha || c == '_'

/-- A word character is none that has another meaning. -/
theorem ne_of_isWordChar {c other : Char} (h : isWordChar c) (hother : isWordChar other = false) :
    c ≠ other := by
  rintro rfl
  rw [h] at hother
  cases hother

theorem toNat_of_isWordChar {c : Char} (h : isWordChar c) :
    65 ≤ c.toNat ∧ c.toNat ≤ 90 ∨ 97 ≤ c.toNat ∧ c.toNat ≤ 122 ∨ c.toNat = 95 := by
  have hranges : (decide (c.val ≥ 65 ∧ c.val ≤ 90) ||
      (decide (c.val ≥ 97) && decide (c.val ≤ 122)) || c == '_') = true := h
  simp only [Bool.or_eq_true, Bool.and_eq_true, decide_eq_true_eq, beq_iff_eq, ge_iff_le,
    UInt32.le_iff_toNat_le, or_assoc] at hranges
  rcases hranges with hupper | hlower | rfl
  · exact Or.inl hupper
  · exact Or.inr (Or.inl hlower)
  · exact Or.inr (Or.inr rfl)

theorem isBreak_word {c : Char} (h : isWordChar c) : isBreak c = false := by
  have hline := ne_of_isWordChar h (by decide : isWordChar '\n' = false)
  have hnext := ne_of_isWordChar h (by decide : isWordChar '\x85' = false)
  have hsep := ne_of_isWordChar h (by decide : isWordChar '\u2028' = false)
  have hpar := ne_of_isWordChar h (by decide : isWordChar '\u2029' = false)
  simp [isBreak, hline, hnext, hsep, hpar]

theorem isWhite_word {c : Char} (h : isWordChar c) : isWhite c = false := by
  have hspace := ne_of_isWordChar h (by decide : isWordChar ' ' = false)
  have htab := ne_of_isWordChar h (by decide : isWordChar '\t' = false)
  simp [isWhite, hspace, htab]

structure IsWord (text : List Char) : Prop where
  nonempty : text ≠ []
  chars : ∀ c ∈ text, isWordChar c

namespace Mark

def along (m : Mark) (text : List Char) : Mark :=
  text.foldl after m

theorem after_line (m : Mark) : m.after '\n' = ⟨m.index + 1, m.line + 1, 0⟩ := rfl

theorem after_ascii (m : Mark) {c : Char} (hbreak : isBreak c = false) (hascii : c.toNat < 0x80) :
    m.after c = ⟨m.index + 1, m.line, m.column + 1⟩ := by
  have hne : c ≠ byteOrderMark := by
    rintro rfl
    revert hascii
    decide
  simp [after, hbreak, hne]

theorem along_word (m : Mark) {word : List Char} (h : ∀ c ∈ word, isWordChar c) :
    m.along word = ⟨m.index + word.length, m.line, m.column + word.length⟩ := by
  induction word generalizing m with
  | nil => rfl
  | cons c rest ih =>
    have hc := h c List.mem_cons_self
    have hne := ne_of_isWordChar hc (by decide : isWordChar byteOrderMark = false)
    have hafter : m.after c = ⟨m.index + 1, m.line, m.column + 1⟩ := by
      simp [after, isBreak_word hc, hne]
    change (m.after c).along rest = _
    rw [hafter, ih _ fun d hd => h d (List.mem_cons_of_mem _ hd), List.length_cons]
    simp only [Mark.mk.injEq, true_and]
    omega

end Mark

namespace Cursor

theorem advance_append {c : Cursor} {text rest : List Char} (h : c.rest = text ++ rest) :
    c.advance text.length = { c with mark := c.mark.along text, rest } := by
  induction text generalizing c with
  | nil =>
    obtain ⟨mark, _, size, limit⟩ := c
    cases h
    rfl
  | cons char text ih =>
    have hrest : c.rest = char :: (text ++ rest) := h
    rw [List.length_cons, advance, hrest]
    exact ih rfl

theorem advance_one {c : Cursor} {char : Char} {rest : List Char} (h : c.rest = char :: rest) :
    c.advance 1 = { c with mark := c.mark.after char, rest } := by
  have happend : c.rest = [char] ++ rest := h
  exact advance_append happend

theorem advance_limit (c : Cursor) (n : Nat) : (c.advance n).limit = c.limit := by
  induction n generalizing c with
  | zero => rfl
  | succ n ih =>
    unfold advance
    split
    · rfl
    · exact ih _

theorem takeWhile_append {c : Cursor} {p : Char → Bool} {text rest : List Char}
    (h : c.rest = text ++ rest) (htext : ∀ char ∈ text, p char)
    (hrest : ∀ char ∈ rest.head?, p char = false) :
    c.takeWhile p = (text, { c with mark := c.mark.along text, rest }) := by
  have htaken : c.rest.takeWhile p = text := by
    rw [h, List.takeWhile_append_of_pos htext]
    cases rest with
    | nil => simp
    | cons char rest => simp [hrest char rfl]
  unfold takeWhile
  dsimp only
  rw [htaken, advance_append h]

end Cursor

namespace Reader

variable {c : Cursor}

section

variable (h : c.limit = none)

include h

theorem need_ok (n : Nat) : need n c = .ok ((), c) := by
  unfold need
  rw [bind_ok (get_ok c), h]
  rfl

theorem peek_ok : peek c = .ok (c.peek, c) := by
  unfold peek
  rw [bind_ok (need_ok h 1)]
  rfl

theorem peekAt_ok (n : Nat) : peekAt n c = .ok (c.peekAt n, c) := by
  unfold peekAt
  rw [bind_ok (need_ok h _)]
  rfl

theorem advance_ok (n : Nat) : advance n c = .ok ((), c.advance n) := by
  have hmoved : (modify fun c : Cursor => c.advance n : Reader Unit) c =
      .ok ((), c.advance n) := rfl
  unfold advance
  rw [bind_ok hmoved, need_ok ((c.advance_limit n).trans h)]

theorem takeWhile_ok (p : Char → Bool) : takeWhile p c = .ok (c.takeWhile p) := by
  have htaken : (modifyGet fun c : Cursor => c.takeWhile p : Reader (List Char)) c =
      .ok (c.takeWhile p) := rfl
  have hlimit : (c.takeWhile p).2.limit = none := (c.advance_limit _).trans h
  unfold takeWhile
  rw [bind_ok htaken]
  change (need 1 >>= fun _ => pure (c.takeWhile p).1) (c.takeWhile p).2 = _
  rw [bind_ok (need_ok hlimit 1)]
  rfl

theorem takeBreak?_none (hpeek : ∀ char ∈ c.peek, isBreak char = false) :
    takeBreak? c = .ok (none, c) := by
  unfold takeBreak?
  rw [bind_ok (peek_ok h)]
  cases hchar : c.peek with
  | none => rfl
  | some char =>
    simp only [hpeek char hchar, Bool.false_eq_true, if_false]
    rfl

theorem takeBreak?_line {rest : List Char} (hrest : c.rest = '\n' :: rest) :
    takeBreak? c = .ok (some '\n', { c with mark := c.mark.after '\n', rest }) := by
  have hpeek : c.peek = some '\n' := by rw [Cursor.peek, hrest, List.head?_cons]
  unfold takeBreak?
  rw [bind_ok (peek_ok h), hpeek]
  change (advance 1 >>= fun _ => pure (some (contentBreak '\n'))) c = _
  rw [bind_ok (advance_ok h 1), Cursor.advance_one hrest]
  rfl

theorem atSeparator_false (hmarks : c.atMarks = false) : atSeparator c = .ok (false, c) := by
  have hseparator : c.atSeparator = false := by rw [Cursor.atSeparator, hmarks, Bool.false_and]
  unfold atSeparator
  rw [bind_ok (need_ok h 3), bind_ok (get_ok c), hmarks]
  change (pure c.atSeparator : Reader Bool) c = _
  rw [hseparator]
  rfl

end

/-- Line ends and indentation are over where a line goes on at once. -/
def LineStart (rest : List Char) : Prop :=
  (∀ char ∈ rest.head?, char ≠ ' ' ∧ isBreak char = false) ∧
    ∀ a b d tail, rest = a :: b :: d :: tail →
      ((a == '-' || a == '.') && b == a && d == a) = false

section

variable (h : c.limit = none)

theorem LineStart.atMarks (hstart : LineStart c.rest) : c.atMarks = false := by
  unfold Cursor.atMarks
  split
  · exact hstart.2 _ _ _ _ ‹_›
  · rfl

include h

theorem takeWhile_spaces (hstart : ∀ char ∈ c.rest.head?, char ≠ ' ') :
    takeWhile (· == ' ') c = .ok ([], c) := by
  have hnone : c.takeWhile (· == ' ') = ([], c) :=
    Cursor.takeWhile_append rfl (List.forall_mem_nil _) fun char hchar => by
      simpa using hstart char hchar
  rw [takeWhile_ok h, hnone]

theorem plainGap_none (hstart : ∀ char ∈ c.rest.head?, char ≠ ' ' ∧ isBreak char = false)
    (fuel : Nat) : plainGap fuel c = .ok (([], false), c) := by
  have hspaces := takeWhile_spaces h fun char hchar => (hstart char hchar).1
  have hbreak := takeBreak?_none h fun char hchar => (hstart char hchar).2
  unfold plainGap
  rw [bind_ok hspaces, bind_ok hbreak]
  rfl

theorem plainBreaks_none (hstart : LineStart c.rest) {fuel : Nat} (hfuel : 0 < fuel) :
    plainBreaks [] fuel c = .ok (some [], c) := by
  obtain ⟨fuel, rfl⟩ : ∃ n, fuel = n + 1 := ⟨fuel - 1, by omega⟩
  have hspaces := takeWhile_spaces h fun char hchar => (hstart.1 char hchar).1
  have hbreak := takeBreak?_none h fun char hchar => (hstart.1 char hchar).2
  unfold plainBreaks skipWhile
  rw [bind_assoc, bind_ok hspaces, pure_bind, bind_ok hbreak]
  rfl

/-- A line end inside a plain scalar counts as a space, unless the scalar is over with it. -/
theorem plainGap_line {rest : List Char} (hrest : c.rest = '\n' :: rest) (hstart : LineStart rest)
    {fuel : Nat} (hfuel : 0 < fuel) :
    plainGap fuel c = .ok (([' '], true), { c with mark := c.mark.after '\n', rest }) := by
  have hspaces := takeWhile_spaces h (by simp [hrest])
  set after : Cursor := { c with mark := c.mark.after '\n', rest }
  have hlimit : after.limit = none := h
  have hafter : LineStart after.rest := hstart
  have hseparator := atSeparator_false hlimit hafter.atMarks
  have hbreaks := plainBreaks_none hlimit hafter hfuel
  unfold plainGap
  rw [bind_ok hspaces, bind_ok (takeBreak?_line h hrest)]
  dsimp only
  rw [bind_ok hseparator, if_neg Bool.false_ne_true, bind_ok hbreaks]
  rfl

end

theorem stopsPlain_word {char : Char} (h : isWordChar char) (next : Option Char) :
    stopsPlain false char next = false := by
  have hcolon := ne_of_isWordChar h (by decide : isWordChar ':' = false)
  simp [stopsPlain, isWhite_word h, isBreak_word h, hcolon]

theorem plainLength_word {word rest : List Char} (h : ∀ char ∈ word, isWordChar char)
    (hrest : ∀ char tail, rest = char :: tail → stopsPlain false char tail.head?) (n : Nat) :
    plainLength false n (word ++ rest) = n + word.length := by
  induction word generalizing n with
  | nil =>
    cases rest with
    | nil => rfl
    | cons char tail =>
      have hstop := hrest char tail rfl
      rw [List.nil_append, plainLength, if_pos hstop]
      rfl
  | cons char word ih =>
    have hchar := stopsPlain_word (h char List.mem_cons_self) (word ++ rest).head?
    rw [List.cons_append, plainLength, hchar, if_neg Bool.false_ne_true,
      ih fun d hd => h d (List.mem_cons_of_mem _ hd), List.length_cons]
    omega

/-- A word is read, and then what is between it and what follows. -/
theorem plainAfter_word {word rest gap : List Char} {broke : Bool} {after : Cursor}
    (h : c.limit = none) (hword : IsWord word) (hrest : c.rest = word ++ rest)
    (hstop : ∀ char tail, rest = char :: tail → stopsPlain false char tail.head?) {fuel : Nat}
    (hgap : plainGap fuel { c with mark := c.mark.along word, rest } = .ok ((gap, broke), after))
    {indent : Int} (hover : gap = [] ∨ (after.column : Int) < indent) :
    plainAfter false indent [] [] false (fuel + 1) c = .ok ((word.reverse, broke), after) := by
  obtain ⟨first, tail, rfl⟩ := List.exists_cons_of_ne_nil hword.nonempty
  have hsize : plainLength false 0 c.rest = (first :: tail).length := by
    rw [hrest, plainLength_word hword.chars hstop, Nat.zero_add]
  have hpeek : c.peek = some first := by rw [Cursor.peek, hrest, List.cons_append, List.head?_cons]
  have hmark : first ≠ '#' :=
    ne_of_isWordChar (hword.chars first List.mem_cons_self) (by decide)
  have hcomment : (some first == some '#') = false := by simpa using hmark
  have htake : c.rest.take (first :: tail).length = first :: tail := by
    rw [hrest, List.take_left]
  unfold plainAfter
  rw [bind_ok (need_ok h 1), bind_ok (get_ok c)]
  dsimp only
  rw [hsize, hpeek, hcomment, if_neg Bool.false_ne_true, bind_ok (need_ok h _)]
  have hpositive : ((first :: tail).length == 0) = false := rfl
  rw [hpositive, if_neg Bool.false_ne_true, bind_ok (advance_ok h _), Cursor.advance_append hrest,
    bind_ok hgap, bind_ok (get_ok after), htake]
  have hends : (gap.isEmpty || after.peek == some '#' ||
      (!false && decide ((after.column : Int) < indent))) = true := by
    rcases hover with rfl | hcolumn
    · rfl
    · simp [hcolumn]
  simp only [hends, if_true]
  rw [List.reverseAux_eq]
  simp
  rfl

variable {word rest : List Char}

/-- A word before a colon. -/
theorem plain_key (h : c.limit = none) (hword : IsWord word) (hrest : c.rest = word ++ ':' :: rest)
    (hafter : endsIndicator rest.head?) (indent : Int) :
    plain false indent c =
      .ok ((.ofChars word, false), { c with mark := c.mark.along word, rest := ':' :: rest }) := by
  set after : Cursor := { c with mark := c.mark.along word, rest := ':' :: rest }
  have hlimit : after.limit = none := h
  have hgap : plainGap c.size after = .ok (([], false), after) :=
    plainGap_none hlimit (by simp [after, isBreak]) c.size
  have hstop : ∀ char tail, ':' :: rest = char :: tail → stopsPlain false char tail.head? := by
    intro char tail heq
    cases heq
    simp [stopsPlain, hafter]
  have hread := plainAfter_word h hword hrest hstop hgap (Or.inl rfl : _ ∨ _ < indent)
  unfold plain
  rw [bind_ok (get_ok c), bind_ok hread]
  dsimp only
  rw [List.reverse_reverse]
  rfl

/-- A word at the end of a line, after which a line starts that is not indented so deep. -/
theorem plain_line (h : c.limit = none) (hword : IsWord word)
    (hrest : c.rest = word ++ '\n' :: rest) (hstart : LineStart rest) (hsize : 0 < c.size)
    {indent : Int} (hindent : 0 < indent) :
    plain false indent c = .ok ((.ofChars word, true),
      { c with mark := (c.mark.along word).after '\n', rest }) := by
  set middle : Cursor := { c with mark := c.mark.along word, rest := '\n' :: rest }
  have hlimit : middle.limit = none := h
  have hgap : plainGap c.size middle = .ok (([' '], true), _) :=
    plainGap_line hlimit rfl hstart hsize
  have hstop : ∀ char tail, '\n' :: rest = char :: tail → stopsPlain false char tail.head? := by
    intro char tail heq
    cases heq
    rfl
  have hread := plainAfter_word h hword hrest hstop hgap (Or.inr hindent)
  unfold plain
  rw [bind_ok (get_ok c), bind_ok hread]
  dsimp only
  rw [List.reverse_reverse]
  rfl

end Reader
end BuildDialect.Yaml
