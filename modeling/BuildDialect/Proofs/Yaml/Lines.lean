import BuildDialect.Proofs.Yaml.Scanning

/-!
Scanning, line by line: which tokens are released for a key, for a value, for an item of a list that
is not indented, and for an empty list in brackets. After each of these nothing is held back.
-/
namespace BuildDialect.Yaml

open Scan

/-- From one state of the scanner to another so many steps are made, in which these tokens are
released. -/
def Releases (s : Scanner) (steps : Nat) (tokens : List Token) (after : Scanner) : Prop :=
  ∀ before fuel, Tokens.release before (fuel + steps) s =
    Tokens.release (tokens.reverse ++ before) fuel after

namespace Releases

variable {s middle after : Scanner} {m n : Nat} {a b : List Token}

theorem trans (h : Releases s m a middle) (next : Releases middle n b after) :
    Releases s (m + n) (a ++ b) after := by
  intro before fuel
  rw [← Nat.add_assoc, Nat.add_right_comm, h before (fuel + n), next, List.reverse_append,
    List.append_assoc]

theorem next_empty (hended : s.ended = false) (hheld : s.held = [])
    (h : Scan.next s = .ok ((), after)) : Releases s 1 [] after := by
  intro before fuel
  rw [Tokens.release, hended, if_neg Bool.false_ne_true, hheld]
  dsimp only
  rw [h]
  rfl

theorem next_held {token : Token} {held : List Token} (hended : s.ended = false)
    (hheld : s.held = token :: held) (hstale : dropStale s = .ok ((), s))
    (hfirst : s.firstHeld = some s.released) (h : Scan.next s = .ok ((), after)) :
    Releases s 1 [] after := by
  have hequal : (s.firstHeld == some s.released) = true := by rw [hfirst, beq_self_eq_true]
  intro before fuel
  rw [Tokens.release, hended, if_neg Bool.false_ne_true, hheld]
  dsimp only
  rw [hstale]
  dsimp only
  rw [if_pos hequal, h]
  rfl

theorem release {token : Token} {held : List Token} {b : Scanner} (hended : s.ended = false)
    (hheld : s.held = token :: held) (hstale : dropStale s = .ok ((), b))
    (hcandidates : b.candidates = []) :
    Releases s 1 [token] { b with held, released := b.released + 1 } := by
  have hfirst : (b.firstHeld == some b.released) = false := by
    rw [Scanner.firstHeld, hcandidates]
    rfl
  intro before fuel
  rw [Tokens.release, hended, if_neg Bool.false_ne_true, hheld]
  dsimp only
  rw [hstale]
  dsimp only
  rw [hfirst, if_neg Bool.false_ne_true]
  rfl

/-- Without a candidate nothing is held back. -/
theorem flush {held : List Token} (hended : s.ended = false) (hcandidates : s.candidates = [])
    (hheld : s.held = held) : Releases s held.length held
      { s with held := [], released := s.released + held.length } := by
  induction held generalizing s with
  | nil =>
    obtain ⟨_, _, _, _, _, _, _, _, _⟩ := s
    cases hheld
    exact fun before fuel => rfl
  | cons token rest ih =>
    have hfirst := release hended hheld (dropStale_none hcandidates) hcandidates
    have hrest := ih (s := { s with held := rest, released := s.released + 1 }) hended hcandidates
      rfl
    have hall := hfirst.trans hrest
    simp only [List.length_cons, List.singleton_append] at hall ⊢
    rwa [Nat.add_comm rest.length 1, ← Nat.add_assoc]

end Releases

/-- Nothing is held back, and no bracket is open. -/
structure Paused (s : Scanner) (indent : Int) (outer : List Int) : Prop where
  limit : s.cursor.limit = none
  size : 0 < s.cursor.size
  level : s.level = 0
  held : s.held = []
  candidates : s.candidates = []
  ended : s.ended = false
  indent : s.indent = indent
  outer : s.outer = outer

structure StartsLine (s : Scanner) (rest : List Char) : Prop where
  plain : s.cursor.peek ≠ some byteOrderMark
  gap : ∃ mark broke, gap false false s.cursor.mark s.cursor.rest = (mark, rest, broke) ∧
    mark.column = 0 ∧ (s.allowsKey || broke) = true

variable {s : Scanner} {indent : Int} {outer : List Int} {word rest : List Char}

theorem Paused.inFlow (paused : Paused s indent outer) : s.inFlow = false := by
  simp [Scanner.inFlow, paused.level]

theorem Paused.line (paused : Paused s indent outer) (line : StartsLine s rest) :
    ∃ a, toNextToken s = .ok ((), a) ∧ Paused a indent outer ∧ a.cursor.rest = rest ∧
      a.cursor.mark.column = 0 ∧ a.allowsKey = true := by
  obtain ⟨mark, broke, hgap, hcolumn, hallows⟩ := line.gap
  have htoken := toNextToken_ok paused.limit line.plain hgap
  refine ⟨_, htoken, ⟨paused.limit, paused.size, paused.level, paused.held, paused.candidates,
    paused.ended, paused.indent, paused.outer⟩, rfl, hcolumn, ?_⟩
  simpa [paused.inFlow] using hallows

theorem toNextToken_here {c : Char} (hlimit : s.cursor.limit = none)
    (hrest : s.cursor.rest = c :: rest)
    (hbreak : isBreak c = false) (hspace : c ≠ ' ') (hcomment : c ≠ '#')
    (hmark : c ≠ byteOrderMark) : toNextToken s = .ok ((), s) := by
  have hpeek : s.cursor.peek ≠ some byteOrderMark := by
    rw [Cursor.peek, hrest, List.head?_cons]
    simpa using hmark
  have hgap : gap false false s.cursor.mark s.cursor.rest =
      (s.cursor.mark, s.cursor.rest, false) := by
    rw [hrest]
    exact gap_here hbreak hspace hcomment
  have htoken := toNextToken_ok hlimit hpeek hgap
  simpa using htoken

theorem toNextToken_space {c : Char} (hlimit : s.cursor.limit = none)
    (hrest : s.cursor.rest = ' ' :: c :: rest) (hbreak : isBreak c = false) (hspace : c ≠ ' ')
    (hcomment : c ≠ '#') : toNextToken s = .ok ((), { s with
      cursor := { s.cursor with mark := s.cursor.mark.after ' ', rest := c :: rest } }) := by
  have hpeek : s.cursor.peek ≠ some byteOrderMark := by
    rw [Cursor.peek, hrest, List.head?_cons]
    decide
  have hgap : gap false false s.cursor.mark s.cursor.rest =
      (s.cursor.mark.after ' ', c :: rest, false) := by
    rw [hrest, gap_space]
    exact gap_here hbreak hspace hcomment
  have htoken := toNextToken_ok hlimit hpeek hgap
  simpa using htoken

theorem next_word {a : Scanner} {text : RawText} {broke : Bool} {cursor : Cursor}
    {more : List Char} (htoken : toNextToken s = .ok ((), a)) (ha : Paused a indent outer)
    (hword : IsWord word) (hrest : a.cursor.rest = word ++ more) (hindent : indent ≤ 0)
    (hread : Reader.plain false (indent + 1) a.cursor = .ok ((text, broke), cursor)) :
    Scan.next s = .ok ((), { a with
      cursor
      held := [.scalar text true]
      allowsKey := broke
      candidates := if a.allowsKey then [a.candidate] else [] }) := by
  obtain ⟨first, tail, hfirst⟩ := List.exists_cons_of_ne_nil hword.nonempty
  have hletter : isWordChar first := hword.chars first (hfirst ▸ List.mem_cons_self)
  have hpeek : a.cursor.peek = some first := by
    rw [Cursor.peek, hrest, hfirst, List.cons_append, List.head?_cons]
  have hcolumn : a.indent ≤ a.column := by
    rw [ha.indent, Scanner.column]
    omega
  have hplain : Reader.plain a.inFlow (a.indent + 1) a.cursor = .ok ((text, broke), cursor) := by
    rwa [ha.inFlow, ha.indent]
  rw [next_of htoken (dropStale_none ha.candidates) hcolumn hpeek, dispatch_word hletter,
    plainScalar_ok ha.candidates hplain, ha.held]
  rfl

/-- A word that is a candidate for a key is held back, and its colon comes next. -/
structure AtColon (s : Scanner) (indent : Int) (outer : List Int) (token : Token)
    (rest : List Char) (k : Candidate) : Prop where
  limit : s.cursor.limit = none
  size : 0 < s.cursor.size
  rest : s.cursor.rest = ':' :: rest
  level : s.level = 0
  held : s.held = [token]
  ended : s.ended = false
  indent : s.indent = indent
  outer : s.outer = outer
  candidates : s.candidates = [k]
  fresh : s.isStale k = false
  candidateLevel : k.level = 0
  number : k.number = s.released
  column : k.mark.column = 0

/-- A word at the start of a line is a candidate for a key. -/
theorem Paused.atColon (paused : Paused s indent outer) (hword : IsWord word)
    (hlength : word.length ≤ 1024) (line : StartsLine s (word ++ ':' :: rest))
    (hafter : endsIndicator rest.head?) (hindent : indent ≤ 0) :
    ∃ b k, Releases s 1 [] b ∧ AtColon b indent outer (.scalar (.ofChars word) true) rest k := by
  obtain ⟨a, htoken, ha, hrest, hcolumn, hallows⟩ := paused.line line
  have hread := Reader.plain_key ha.limit hword hrest hafter (indent + 1)
  have hnext := next_word htoken ha hword hrest hindent hread
  refine ⟨_, a.candidate, .next_empty paused.ended paused.held hnext, ?_⟩
  rw [hallows, if_pos rfl]
  refine ⟨ha.limit, ha.size, rfl, ha.level, rfl, ha.ended, ha.indent, ha.outer, rfl, ?_,
    ha.level, ?_, hcolumn⟩
  · simp only [Scanner.isStale, Scanner.candidate, Mark.along_word _ hword.chars]
    simp
    omega
  · rw [Scanner.candidate, ha.held]
    rfl

theorem AtColon.next_eq {token : Token} {k : Candidate} {after : Scanner}
    (h : AtColon s indent outer token rest k) (hafter : endsIndicator rest.head?)
    (hindent : indent ≤ 0) (hvalue : valueIndicator s = .ok ((), after)) :
    Releases s 1 [] after := by
  have hstale : dropStale s = .ok ((), s) := by
    have hdrop := dropStale_ok (s := s) fun c hc hc' => by
      rw [h.candidates, List.mem_singleton] at hc
      rw [hc, h.fresh] at hc'
      cases hc'
    have hkept : s.candidates.filter (fun c => !s.isStale c) = s.candidates := by
      rw [h.candidates]
      simp [h.fresh]
    rwa [hkept] at hdrop
  have htoken : toNextToken s = .ok ((), s) :=
    toNextToken_here h.limit h.rest (by decide) (by decide) (by decide) (by decide)
  have hcolumn : s.indent ≤ s.column := by
    rw [h.indent, Scanner.column]
    omega
  have hpeek : s.cursor.peek = some ':' := by rw [Cursor.peek, h.rest, List.head?_cons]
  have hfirst : s.firstHeld = some s.released := by
    rw [Scanner.firstHeld, h.candidates, ← h.number]
    rfl
  have hnext := next_of htoken hstale hcolumn hpeek
  rw [dispatch_colon h.limit h.level h.rest hafter, hvalue] at hnext
  exact .next_held h.ended h.held hstale hfirst hnext

section Keys

variable (hword : IsWord word) (hlength : word.length ≤ 1024)
  (line : StartsLine s (word ++ ':' :: rest)) (hafter : endsIndicator rest.head?)

include hword hlength line hafter

/-- The first key of a mapping that starts at the first column. -/
theorem Paused.firstKey (paused : Paused s (-1) []) :
    ∃ after, Releases s 6 [.blockMappingStart, .key, .scalar (.ofChars word) true, .value] after ∧
      Paused after 0 [-1] ∧ after.cursor.rest = rest ∧ after.allowsKey = false := by
  obtain ⟨b, k, hfirst, hcolon⟩ := paused.atColon hword hlength line hafter (by decide)
  have hindent : b.indent < k.mark.column := by
    rw [hcolon.indent, hcolon.column]
    decide
  have hvalue := valueIndicator_opens hcolon.limit hcolon.level hcolon.rest hcolon.candidates
    hcolon.candidateLevel hcolon.held hcolon.number hindent
  have hsecond := hcolon.next_eq hafter (by decide) hvalue
  refine ⟨_, (hfirst.trans hsecond).trans (.flush hcolon.ended rfl rfl),
    ⟨hcolon.limit, hcolon.size, hcolon.level, rfl, rfl, hcolon.ended, ?_, ?_⟩, rfl, rfl⟩
  · simp only [hcolon.column]
    rfl
  · simp only [hcolon.indent, hcolon.outer]

/-- A further key. -/
theorem Paused.key (paused : Paused s 0 outer) :
    ∃ after, Releases s 5 [.key, .scalar (.ofChars word) true, .value] after ∧
      Paused after 0 outer ∧ after.cursor.rest = rest ∧ after.allowsKey = false := by
  obtain ⟨b, k, hfirst, hcolon⟩ := paused.atColon hword hlength line hafter (by decide)
  have hindent : k.mark.column ≤ b.indent := by
    rw [hcolon.indent, hcolon.column]
    decide
  have hvalue := valueIndicator_goesOn hcolon.limit hcolon.level hcolon.rest hcolon.candidates
    hcolon.candidateLevel hcolon.held hcolon.number hindent
  have hsecond := hcolon.next_eq hafter (by decide) hvalue
  exact ⟨_, (hfirst.trans hsecond).trans (.flush hcolon.ended rfl rfl),
    ⟨hcolon.limit, hcolon.size, hcolon.level, rfl, rfl, hcolon.ended, hcolon.indent, hcolon.outer⟩,
    rfl, rfl⟩

end Keys

theorem startsLine_of_line (hrest : s.cursor.rest = rest) (hcolumn : s.cursor.mark.column = 0)
    (hallows : s.allowsKey = true)
    (hstart : ∀ c ∈ rest.head?, c ≠ byteOrderMark ∧ isBreak c = false ∧ c ≠ ' ' ∧ c ≠ '#') :
    StartsLine s rest := by
  refine ⟨?_, s.cursor.mark, false, ?_, hcolumn, by rw [hallows, Bool.true_or]⟩
  · intro h
    rw [Cursor.peek, hrest] at h
    exact (hstart _ h).1 rfl
  · rw [hrest]
    cases rest with
    | nil => rfl
    | cons c rest =>
      obtain ⟨-, hbreak, hspace, hcomment⟩ := hstart c rfl
      exact gap_here hbreak hspace hcomment

theorem startsLine_of_break (hrest : s.cursor.rest = '\n' :: rest)
    (hstart : ∀ c ∈ rest.head?, isBreak c = false ∧ c ≠ ' ' ∧ c ≠ '#') : StartsLine s rest := by
  refine ⟨?_, s.cursor.mark.after '\n', true, ?_, rfl, Bool.or_true _⟩
  · rw [Cursor.peek, hrest, List.head?_cons]
    decide
  · rw [hrest, gap_line]
    cases rest with
    | nil => rfl
    | cons c rest =>
      obtain ⟨hbreak, hspace, hcomment⟩ := hstart c rfl
      exact gap_here hbreak hspace hcomment

/-- What does not start at the level of indentation need not be a key. -/
theorem candidate_free (h : s.indent ≠ s.column) : s.candidate.required = false := by
  have hne : (s.indent == s.column) = false := beq_eq_false_iff_ne.mpr h
  rw [Scanner.candidate, hne, Bool.and_false]

section Values

variable (paused : Paused s 0 outer) (hword : IsWord word) (hline : Reader.LineStart rest)
  (hstart : ∀ c ∈ rest.head?, c ≠ byteOrderMark ∧ c ≠ '#')

include paused hword hline hstart

/-- A word after a space, at the end of its line. It cannot be a key any more. -/
theorem Paused.value (hrest : s.cursor.rest = ' ' :: word ++ '\n' :: rest) :
    ∃ after, Releases s 2 [.scalar (.ofChars word) true] after ∧ Paused after 0 outer ∧
      StartsLine after rest := by
  obtain ⟨first, tail, hfirst⟩ := List.exists_cons_of_ne_nil hword.nonempty
  have hletter : isWordChar first := hword.chars first (hfirst ▸ List.mem_cons_self)
  set a : Scanner := { s with
    cursor := { s.cursor with mark := s.cursor.mark.after ' ', rest := word ++ '\n' :: rest } }
    with ha'
  have htoken : toNextToken s = .ok ((), a) := by
    rw [hfirst] at hrest
    rw [toNextToken_space paused.limit hrest (isBreak_word hletter)
      (ne_of_isWordChar hletter (by decide)) (ne_of_isWordChar hletter (by decide)), ha', hfirst]
    rfl
  have ha : Paused a 0 outer := ⟨paused.limit, paused.size, paused.level, paused.held,
    paused.candidates, paused.ended, paused.indent, paused.outer⟩
  have hread := Reader.plain_line ha.limit hword rfl hline ha.size (by decide : (0 : Int) < 0 + 1)
  have hnext := next_word htoken ha hword rfl (by decide) hread
  have hmark : a.cursor.mark = ⟨s.cursor.mark.index + 1, s.cursor.mark.line,
      s.cursor.mark.column + 1⟩ := s.cursor.mark.after_ascii (c := ' ') (by decide) (by decide)
  have hoff : a.indent ≠ a.column := by
    rw [ha.indent, Scanner.column, Cursor.column, hmark]
    dsimp only
    omega
  set b : Scanner := { a with
    cursor := { a.cursor with mark := (a.cursor.mark.along word).after '\n', rest }
    held := [.scalar (.ofChars word) true]
    allowsKey := true
    candidates := if a.allowsKey then [a.candidate] else [] } with hb
  have hstale : b.isStale a.candidate = true := by
    rw [Scanner.isStale, hb, Mark.along_word _ hword.chars, Scanner.candidate]
    simp [Mark.after_line]
  -- the line has ended, so the word is given up as a key and released as it is
  have hdrop : dropStale b = .ok ((), { b with candidates := [] }) := by
    refine dropStale_stale fun k hk => ?_
    rw [hb] at hk
    dsimp only at hk
    split_ifs at hk
    · rw [List.mem_singleton.mp hk]
      exact ⟨hstale, candidate_free hoff⟩
    · cases hk
  have hrelease := Releases.release (s := b) ha.ended rfl hdrop rfl
  refine ⟨_, (Releases.next_empty paused.ended paused.held hnext).trans hrelease, ⟨ha.limit,
    ha.size, ha.level, rfl, rfl, ha.ended, ha.indent, ha.outer⟩, ?_⟩
  refine startsLine_of_line rfl rfl rfl fun c hc => ?_
  exact ⟨(hstart c hc).1, (hline.1 c hc).2, (hline.1 c hc).1, (hstart c hc).2⟩

/-- An item of a list, at the end of its line. -/
theorem Paused.item (line : StartsLine s ('-' :: ' ' :: word ++ '\n' :: rest)) :
    ∃ after, Releases s 4 [.blockEntry, .scalar (.ofChars word) true] after ∧
      Paused after 0 outer ∧ StartsLine after rest := by
  obtain ⟨a, htoken, ha, hrest, hcolumn, hallows⟩ := paused.line line
  have hpeek : a.cursor.peek = some '-' := by
    rw [Cursor.peek, hrest, List.cons_append, List.head?_cons]
  have hindent : a.indent ≤ a.column := by
    rw [ha.indent, Scanner.column]
    omega
  have hentry := dispatch_entry ha.limit ha.level hrest ha.candidates hallows ha.indent hcolumn
  rw [ha.held, List.nil_append] at hentry
  have hnext := (next_of htoken (dropStale_none ha.candidates) hindent hpeek).trans hentry
  have hstep := (Releases.next_empty paused.ended paused.held hnext).trans
    (.flush ha.ended ha.candidates rfl)
  set b : Scanner := { a with
    cursor := { a.cursor with
      mark := a.cursor.mark.after '-'
      rest := ' ' :: (word ++ '\n' :: rest) }
    held := []
    released := a.released + 1
    allowsKey := true }
  have hb : Paused b 0 outer :=
    ⟨ha.limit, ha.size, ha.level, rfl, ha.candidates, ha.ended, ha.indent, ha.outer⟩
  obtain ⟨after, hvalue, hafter, hnextLine⟩ := hb.value hword hline hstart rfl
  exact ⟨after, hstep.trans hvalue, hafter, hnextLine⟩

end Values

/-- A list of no items in brackets, at the end of its line. -/
theorem Paused.brackets (paused : Paused s 0 outer) (hclosed : s.allowsKey = false)
    (hrest : s.cursor.rest = ' ' :: '[' :: ']' :: '\n' :: rest)
    (hstart : ∀ c ∈ rest.head?, isBreak c = false ∧ c ≠ ' ' ∧ c ≠ '#') :
    ∃ after, Releases s 4 [.flowSequenceStart, .flowSequenceEnd] after ∧
      Paused after 0 outer ∧ StartsLine after rest := by
  have htoken := toNextToken_space paused.limit hrest (by decide) (by decide) (by decide)
  set a : Scanner := { s with
    cursor := { s.cursor with
      mark := s.cursor.mark.after ' '
      rest := '[' :: ']' :: '\n' :: rest } }
  have hindent : a.indent ≤ a.column := by
    rw [paused.indent, Scanner.column]
    omega
  have hopening := dispatch_opening (s := a) paused.limit paused.candidates hclosed rfl
  rw [paused.held, List.nil_append] at hopening
  have hfirst := (next_of htoken (dropStale_none paused.candidates) hindent rfl).trans hopening
  have hopened := (Releases.next_empty paused.ended paused.held hfirst).trans
    (.flush paused.ended paused.candidates rfl)
  set b : Scanner := { a with
    cursor := { a.cursor with mark := a.cursor.mark.after '[', rest := ']' :: '\n' :: rest }
    level := s.level + 1
    held := []
    released := s.released + 1
    allowsKey := true }
  have hhere : toNextToken b = .ok ((), b) :=
    toNextToken_here paused.limit rfl (by decide) (by decide) (by decide) (by decide)
  have hcolumn : b.indent ≤ b.column := by
    change s.indent ≤ _
    rw [paused.indent, Scanner.column]
    omega
  have hclosing := dispatch_closing (s := b) paused.limit paused.candidates rfl
  have hsecond := (next_of hhere (dropStale_none paused.candidates) hcolumn rfl).trans hclosing
  have hlast := (Releases.next_empty (s := b) paused.ended rfl hsecond).trans
    (.flush paused.ended paused.candidates rfl)
  refine ⟨_, hopened.trans hlast, ⟨paused.limit, paused.size, ?_, rfl, paused.candidates,
    paused.ended, paused.indent, paused.outer⟩, ?_⟩
  · change s.level + 1 - 1 = 0
    rw [paused.level]
    rfl
  · exact startsLine_of_break rfl hstart

/-- The end of the text. -/
theorem Paused.finish (paused : Paused s 0 [-1]) (line : StartsLine s []) (before : List Token)
    (fuel : Nat) :
    Tokens.release before (fuel + 2) s = ⟨before.reverse ++ [.blockEnd, .streamEnd], none⟩ := by
  obtain ⟨a, htoken, ha, hrest, -, -⟩ := paused.line line
  have hpeek : a.cursor.peek = none := by rw [Cursor.peek, hrest, List.head?_nil]
  have hnext := next_end htoken hpeek ha.candidates ha.level ha.indent ha.outer
  have hstep := Releases.next_empty paused.ended paused.held hnext
  rw [hstep before (fuel + 1), List.reverse_nil, List.nil_append, Tokens.release, if_pos rfl,
    ha.held, List.nil_append]

end BuildDialect.Yaml
