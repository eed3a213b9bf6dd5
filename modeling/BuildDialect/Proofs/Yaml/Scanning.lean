import BuildDialect.Proofs.Yaml.Reading
import BuildDialect.Yaml.Stream
import Mathlib.Data.List.TakeDrop

/-!
Scanning, token by token: what the next step of a scanner comes to at a word, at a colon, at a
hyphen, at brackets and at the end of the text.
-/
namespace BuildDialect.Yaml

namespace Scan

variable {s : Scanner}

theorem read_ok {α : Type} {reader : Reader α} {value : α} {cursor : Cursor}
    (h : reader s.cursor = .ok (value, cursor)) :
    read reader s = .ok (value, { s with cursor }) := by
  unfold read
  rw [h]

theorem modify_ok (step : Scanner → Scanner) :
    (modify step : Scan Unit) s = .ok ((), step s) := rfl

theorem expect_ok {fits : Bool} (h : fits = true) : expect fits s = .ok ((), s) := by
  rw [expect, h, if_pos rfl]
  rfl

theorem dropStale_ok (h : ∀ k ∈ s.candidates, s.isStale k → k.required = false) :
    dropStale s =
      .ok ((), { s with candidates := s.candidates.filter fun k => !s.isStale k }) := by
  have hnone : (!(s.candidates.any fun k => s.isStale k && k.required)) = true := by
    rw [Bool.not_eq_true', List.any_eq_false]
    intro k hk
    by_cases hstale : s.isStale k
    · simp [h k hk hstale]
    · simp [hstale]
  unfold dropStale
  rw [bind_ok (get_ok s), bind_ok (expect_ok hnone)]
  rfl

/-- Candidates that have become stale are dropped, as long as none of them has to be a key. -/
theorem dropStale_stale (h : ∀ k ∈ s.candidates, s.isStale k = true ∧ k.required = false) :
    dropStale s = .ok ((), { s with candidates := [] }) := by
  have hdrop := dropStale_ok fun k hk _ => (h k hk).2
  have hnone : s.candidates.filter (fun k => !s.isStale k) = [] := by
    rw [List.filter_eq_nil_iff]
    intro k hk
    simp [(h k hk).1]
  rwa [hnone] at hdrop

theorem dropStale_none (h : s.candidates = []) : dropStale s = .ok ((), s) := by
  obtain ⟨_, _, _, _, _, _, _, _, _⟩ := s
  cases h
  exact dropStale_ok (List.forall_mem_nil _)

theorem dropCandidate_none (h : s.candidates = []) : dropCandidate s = .ok ((), s) := by
  obtain ⟨_, _, _, _, _, _, _, _, _⟩ := s
  cases h
  rfl

/-- A block goes on where the text is not indented less than it. -/
theorem endBlocks_keep {column : Int} (h : s.indent ≤ column) :
    endBlocks column s = .ok ((), s) := by
  have hspan : (s.indent :: s.outer).span (fun indent => decide (column < indent)) =
      ([], s.indent :: s.outer) := by
    rw [List.span_eq_takeWhile_dropWhile]
    simp [h]
  unfold endBlocks
  rw [bind_ok (get_ok s)]
  cases hflow : s.inFlow with
  | true => rfl
  | false =>
    simp only [Bool.not_false, if_true, hspan]
    simp
    rfl

theorem toNextToken_ok {mark : Mark} {rest : List Char} {broke : Bool}
    (hlimit : s.cursor.limit = none) (hpeek : s.cursor.peek ≠ some byteOrderMark)
    (hgap : gap false false s.cursor.mark s.cursor.rest = (mark, rest, broke)) :
    toNextToken s = .ok ((), { s with
      cursor := { s.cursor with mark, rest }
      allowsKey := s.allowsKey || (broke && !s.inFlow) }) := by
  have hmark : (s.cursor.peek == some byteOrderMark) = false := by simpa using hpeek
  unfold toNextToken
  rw [bind_ok (get_ok s)]
  simp only [hmark, Bool.and_false, Bool.false_eq_true, if_false, hgap]
  rw [bind_ok (set_ok s _)]
  have hneed := Reader.need_ok (c := { s.cursor with mark, rest }) hlimit 1
  exact read_ok hneed

section Gap

variable {broke comment : Bool} {m : Mark} {rest : List Char}

theorem gap_here {c : Char} (hbreak : isBreak c = false) (hspace : c ≠ ' ') (hcomment : c ≠ '#') :
    gap false broke m (c :: rest) = (m, c :: rest, broke) := by
  simp [gap, hbreak, hspace, hcomment]

theorem gap_space : gap false broke m (' ' :: rest) = gap false broke (m.after ' ') rest := by
  rw [gap, if_neg (by decide), if_pos (by decide)]

theorem gap_line : gap comment broke m ('\n' :: rest) = gap false true (m.after '\n') rest := by
  rw [gap, if_pos (by decide)]

theorem gap_inside {text : List Char} (h : ∀ c ∈ text, isBreak c = false) :
    gap true broke m (text ++ '\n' :: rest) = gap false true ((m.along text).after '\n') rest := by
  induction text generalizing m with
  | nil => exact gap_line
  | cons c text ih =>
    have hc := h c List.mem_cons_self
    rw [List.cons_append, gap, hc, if_neg Bool.false_ne_true, if_pos (by simp),
      ih fun d hd => h d (List.mem_cons_of_mem _ hd)]
    rfl

/-- A comment takes the rest of its line. -/
theorem gap_comment {text : List Char} (h : ∀ c ∈ text, isBreak c = false) :
    gap false broke m ('#' :: text ++ '\n' :: rest) =
      gap false true ((m.along ('#' :: text)).after '\n') rest := by
  rw [List.cons_append, gap, if_neg (by decide), if_neg (by decide), if_pos (by decide),
    gap_inside h]
  rfl

end Gap

/-- A step of a scanner that does not end a block and gives up no candidate. -/
theorem next_of {a : Scanner} {c : Char} (htoken : toNextToken s = .ok ((), a))
    (hstale : dropStale a = .ok ((), a)) (hindent : a.indent ≤ a.column)
    (hpeek : a.cursor.peek = some c) : next s = dispatch c a := by
  unfold next
  rw [bind_ok htoken, bind_ok hstale, bind_ok (get_ok a), bind_ok (endBlocks_keep hindent),
    bind_ok (get_ok a), hpeek]

theorem beq_false_of_isWordChar {c other : Char} (h : isWordChar c)
    (hother : isWordChar other = false) : (c == other) = false :=
  beq_false_of_ne (ne_of_isWordChar h hother)

theorem isIndicator_word {c : Char} (h : isWordChar c) : isIndicator c = false := by
  have hnone : "-?:,[]\x7b\x7d#&*!|>\x27\x22%@\x60".toList.any isWordChar = false := by decide
  have hne : ∀ other ∈ "-?:,[]\x7b\x7d#&*!|>\x27\x22%@\x60".toList, c ≠ other := by
    intro other hother
    refine ne_of_isWordChar h ?_
    exact Bool.eq_false_iff.mpr (List.any_eq_false.mp hnone other hother)
  have hnot : c ∉ "-?:,[]\x7b\x7d#&*!|>\x27\x22%@\x60".toList := fun hc => hne c hc rfl
  unfold isIndicator
  rw [isWhite_word h, isBreak_word h, Bool.eq_false_iff.mpr fun hc =>
    hnot (List.contains_iff_mem.mp hc)]
  rfl

theorem dispatch_word {c : Char} (h : isWordChar c) : dispatch c s = plainScalar s := by
  have hne (other : Char) (hother : isWordChar other = false) : (c == other) = false :=
    beq_false_of_isWordChar h hother
  unfold dispatch plainOrNothing
  rw [bind_ok (get_ok s)]
  simp only [hne '%' (by decide), hne '-' (by decide), hne '.' (by decide), hne '[' (by decide),
    hne '\x7b' (by decide), hne ']' (by decide), hne '\x7d' (by decide), hne ',' (by decide),
    hne '?' (by decide), hne ':' (by decide), hne '*' (by decide), hne '&' (by decide),
    hne '!' (by decide), hne '|' (by decide), hne '>' (by decide),
    hne Quoted.single (by decide), hne Quoted.double (by decide), isIndicator_word h,
    Bool.false_and, Bool.false_eq_true, if_false]

end Scan

/-- The candidate that a node would be which starts here. -/
def Scanner.candidate (s : Scanner) : Candidate :=
  ⟨s.level, s.released + s.held.length, !s.inFlow && s.indent == s.column, s.cursor.mark⟩

namespace Scan

variable {s : Scanner}

theorem addCandidate_ok (h : s.candidates = []) : addCandidate s =
    .ok ((), { s with candidates := if s.allowsKey then [s.candidate] else [] }) := by
  obtain ⟨_, _, _, _, _, _, allows, _, _⟩ := s
  cases h
  cases allows with
  | true => rfl
  | false => rfl

theorem plainScalar_ok {text : RawText} {broke : Bool} {cursor : Cursor} (h : s.candidates = [])
    (hread : Reader.plain s.inFlow (s.indent + 1) s.cursor = .ok ((text, broke), cursor)) :
    plainScalar s = .ok ((), { s with
      cursor
      held := s.held ++ [.scalar text true]
      allowsKey := broke
      candidates := if s.allowsKey then [s.candidate] else [] }) := by
  set a : Scanner := { s with candidates := if s.allowsKey then [s.candidate] else [] } with ha
  have hplain : read (Reader.plain a.inFlow (a.indent + 1)) a =
      .ok ((text, broke), { a with cursor }) := read_ok hread
  unfold plainScalar
  rw [bind_ok (addCandidate_ok h), bind_ok (get_ok a), bind_ok hplain]
  rfl

theorem insert_ok {number : Nat} (h : number = s.released) (token : Token) :
    insert number token s = .ok ((), { s with held := token :: s.held }) := by
  have hzero : number - s.released = 0 := by omega
  unfold insert
  rw [modify_ok, hzero, List.take_zero, List.drop_zero, List.nil_append]

theorem openBlock_ok {column : Int} (h : s.indent < column) (opening : Scan Unit) :
    openBlock column opening s =
      opening { s with indent := column, outer := s.indent :: s.outer } := by
  unfold openBlock
  rw [bind_ok (get_ok s), if_pos h, bind_ok (set_ok s _)]

theorem openBlock_none {column : Int} (h : column ≤ s.indent) (opening : Scan Unit) :
    openBlock column opening s = .ok ((), s) := by
  unfold openBlock
  rw [bind_ok (get_ok s), if_neg (by omega)]
  rfl

section

variable {rest : List Char} (hlimit : s.cursor.limit = none)

include hlimit

theorem advance_ok {c : Char} (hrest : s.cursor.rest = c :: rest) :
    read (Reader.advance 1) s =
      .ok ((), { s with cursor := { s.cursor with mark := s.cursor.mark.after c, rest } }) := by
  refine read_ok ?_
  rw [Reader.advance_ok hlimit, Cursor.advance_one hrest]

theorem indicatorOr_ok {c : Char} {token : Scan Unit} (hrest : s.cursor.rest = c :: rest)
    (hafter : endsIndicator rest.head?) : indicatorOr c token s = token s := by
  have hpeek : s.cursor.peekAt 1 = rest.head? := by
    rw [Cursor.peekAt, hrest, List.getElem?_cons_succ, List.head?_eq_getElem?]
  unfold indicatorOr
  rw [bind_ok (read_ok (Reader.peekAt_ok hlimit 1)), hpeek, if_pos hafter]

theorem dispatch_colon (hlevel : s.level = 0) (hrest : s.cursor.rest = ':' :: rest)
    (hafter : endsIndicator rest.head?) : dispatch ':' s = valueIndicator s := by
  have hflow : s.inFlow = false := by simp [Scanner.inFlow, hlevel]
  have hvalue : indicatorOr ':' valueIndicator s = valueIndicator s :=
    indicatorOr_ok hlimit hrest hafter
  rw [← hvalue]
  unfold dispatch
  rw [bind_ok (get_ok s)]
  simp [hflow]

section

variable {k : Candidate} {token : Token} (hlevel : s.level = 0)
  (hrest : s.cursor.rest = ':' :: rest) (hcandidates : s.candidates = [k]) (hk : k.level = 0)
  (hheld : s.held = [token]) (hnumber : k.number = s.released)

include hlevel hrest hcandidates hk hheld hnumber

/-- A colon makes a key of the only candidate. -/
theorem valueIndicator_key {b : Scanner}
    (hblock : openBlock k.mark.column (insert k.number .blockMappingStart)
      { s with held := [.key, token], candidates := [] } = .ok ((), b))
    (hcursor : b.cursor = s.cursor) :
    valueIndicator s = .ok ((), { b with
      cursor := { s.cursor with mark := s.cursor.mark.after ':', rest }
      held := b.held ++ [.value]
      allowsKey := false }) := by
  have hflow : s.inFlow = false := by simp [Scanner.inFlow, hlevel]
  have hfind : s.candidates.find? (fun k => k.level == s.level) = some k := by
    simp [hcandidates, hk, hlevel]
  have hfilter : s.candidates.filter (fun k => k.level != s.level) = [] := by
    simp [hcandidates, hk, hlevel]
  set a : Scanner := { s with candidates := [] }
  have hkey : insert k.number .key a = .ok ((), { a with held := [.key, token] }) := by
    rw [insert_ok (s := a) hnumber]
    simp only [a, hheld]
  have hlimit' : ({ b with allowsKey := false } : Scanner).cursor.limit = none := by
    rw [hcursor]
    exact hlimit
  have hrest' : ({ b with allowsKey := false } : Scanner).cursor.rest = ':' :: rest := by
    rw [hcursor]
    exact hrest
  have hadvance := advance_ok hlimit' hrest'
  unfold valueIndicator
  rw [bind_ok (get_ok s), hfind]
  dsimp only
  rw [bind_ok (modify_ok _), hfilter, bind_ok hkey, hflow]
  simp only [Bool.not_false, if_true]
  rw [bind_ok hblock]
  change (read (Reader.advance 1) >>= fun _ => push .value) { b with allowsKey := false } = _
  rw [bind_ok hadvance, push, modify_ok, hcursor]

/-- The colon after the first key of a mapping, which opens a block for it. -/
theorem valueIndicator_opens (hindent : s.indent < k.mark.column) :
    valueIndicator s = .ok ((), { s with
      cursor := { s.cursor with mark := s.cursor.mark.after ':', rest }
      held := [.blockMappingStart, .key, token, .value]
      indent := k.mark.column
      outer := s.indent :: s.outer
      allowsKey := false
      candidates := [] }) := by
  set a : Scanner := { s with held := [.key, token], candidates := [] }
  set b : Scanner := { a with indent := k.mark.column, outer := s.indent :: s.outer }
  have hopens := openBlock_ok (s := a) hindent (insert k.number .blockMappingStart)
  have hblock := hopens.trans (insert_ok (s := b) hnumber .blockMappingStart)
  exact valueIndicator_key hlimit hlevel hrest hcandidates hk hheld hnumber hblock rfl

/-- The colon after a further key. -/
theorem valueIndicator_goesOn (hindent : k.mark.column ≤ s.indent) :
    valueIndicator s = .ok ((), { s with
      cursor := { s.cursor with mark := s.cursor.mark.after ':', rest }
      held := [.key, token, .value]
      allowsKey := false
      candidates := [] }) := by
  set a : Scanner := { s with held := [.key, token], candidates := [] }
  have hblock := openBlock_none (s := a) hindent (insert k.number .blockMappingStart)
  exact valueIndicator_key hlimit hlevel hrest hcandidates hk hheld hnumber hblock rfl

end

/-- A hyphen at the start of a line, in the block of a mapping that starts there too. -/
theorem dispatch_entry (hlevel : s.level = 0) (hrest : s.cursor.rest = '-' :: ' ' :: rest)
    (hcandidates : s.candidates = []) (hallows : s.allowsKey = true) (hindent : s.indent = 0)
    (hcolumn : s.cursor.mark.column = 0) :
    dispatch '-' s = .ok ((), { s with
      cursor := { s.cursor with mark := s.cursor.mark.after '-', rest := ' ' :: rest }
      held := s.held ++ [.blockEntry]
      allowsKey := true }) := by
  have hflow : s.inFlow = false := by simp [Scanner.inFlow, hlevel]
  have hmarks : s.cursor.atMarks = false := by
    unfold Cursor.atMarks
    rw [hrest]
    cases rest <;> rfl
  have hcolumn' : s.column = 0 := by
    rw [Scanner.column, Cursor.column, hcolumn]
    rfl
  have hseparator := read_ok (Reader.atSeparator_false hlimit hmarks)
  have hblock : openBlock s.column (push .blockSequenceStart) s = .ok ((), s) :=
    openBlock_none (by omega) _
  set a : Scanner := { s with allowsKey := true }
  have hadvance := advance_ok (s := a) hlimit hrest
  have hentry : blockEntry s = .ok ((), { a with
      cursor := { s.cursor with mark := s.cursor.mark.after '-', rest := ' ' :: rest }
      held := s.held ++ [.blockEntry] }) := by
    unfold blockEntry
    rw [bind_ok (get_ok s), hflow]
    simp only [Bool.not_false, if_true]
    rw [bind_ok (expect_ok hallows), bind_ok hblock, allowKey, bind_ok (modify_ok _),
      bind_ok (dropCandidate_none (s := a) hcandidates), bind_ok hadvance]
    rfl
  unfold dispatch
  rw [bind_ok (get_ok s)]
  change separatorOr .documentStart (indicatorOr '-' blockEntry) s = _
  unfold separatorOr
  rw [bind_ok (get_ok s), hcolumn']
  simp only [beq_self_eq_true, if_true]
  rw [bind_ok hseparator, if_neg Bool.false_ne_true, indicatorOr_ok hlimit hrest rfl, hentry]

theorem dispatch_opening (hcandidates : s.candidates = []) (hallows : s.allowsKey = false)
    (hrest : s.cursor.rest = '[' :: rest) :
    dispatch '[' s = .ok ((), { s with
      cursor := { s.cursor with mark := s.cursor.mark.after '[', rest }
      level := s.level + 1
      held := s.held ++ [.flowSequenceStart]
      allowsKey := true }) := by
  have hcandidate : addCandidate s = .ok ((), { s with candidates := [] }) := by
    rw [addCandidate_ok hcandidates, hallows, if_neg Bool.false_ne_true]
  set a : Scanner := { s with level := s.level + 1, allowsKey := true, candidates := [] }
  have hadvance := advance_ok (s := a) hlimit hrest
  unfold dispatch
  rw [bind_ok (get_ok s)]
  change openFlow .flowSequenceStart s = _
  unfold openFlow
  rw [bind_ok hcandidate, bind_ok (modify_ok _), bind_ok hadvance, push, modify_ok, hcandidates]

theorem dispatch_closing (hcandidates : s.candidates = []) (hrest : s.cursor.rest = ']' :: rest) :
    dispatch ']' s = .ok ((), { s with
      cursor := { s.cursor with mark := s.cursor.mark.after ']', rest }
      level := s.level - 1
      held := s.held ++ [.flowSequenceEnd]
      allowsKey := false }) := by
  set a : Scanner := { s with level := s.level - 1, allowsKey := false }
  have hadvance := advance_ok (s := a) hlimit hrest
  unfold dispatch
  rw [bind_ok (get_ok s)]
  change closeFlow .flowSequenceEnd s = _
  unfold closeFlow
  rw [bind_ok (dropCandidate_none hcandidates), bind_ok (modify_ok _), bind_ok hadvance, push,
    modify_ok]

end

/-- The end of a text in a block that starts at the first column. -/
theorem next_end {a : Scanner} (htoken : toNextToken s = .ok ((), a)) (hpeek : a.cursor.peek = none)
    (hcandidates : a.candidates = []) (hlevel : a.level = 0) (hindent : a.indent = 0)
    (houter : a.outer = [-1]) :
    next s = .ok ((), { a with
      held := a.held ++ [.blockEnd, .streamEnd]
      indent := -1
      outer := []
      allowsKey := false
      candidates := []
      ended := true }) := by
  have hflow : a.inFlow = false := by simp [Scanner.inFlow, hlevel]
  have hkeep : endBlocks a.column a = .ok ((), a) := by
    refine endBlocks_keep ?_
    rw [hindent, Scanner.column]
    omega
  have hblocks : endBlocks (-1) a =
      .ok ((), { a with held := a.held ++ [.blockEnd], indent := -1, outer := [] }) := by
    unfold endBlocks
    rw [bind_ok (get_ok a), hflow, hindent, houter]
    rfl
  unfold next
  rw [bind_ok htoken, bind_ok (dropStale_none hcandidates), bind_ok (get_ok a), bind_ok hkeep,
    bind_ok (get_ok a), hpeek]
  dsimp only
  set b : Scanner :=
    { a with held := a.held ++ [.blockEnd], indent := -1, outer := [] } with hb
  unfold streamEnd
  rw [bind_ok hblocks, bind_ok (dropCandidate_none (s := b) hcandidates), bind_ok (modify_ok _),
    push, modify_ok, hb]
  simp

end Scan
end BuildDialect.Yaml
