import BuildDialect.Proofs.Yaml.Content
import BuildDialect.Proofs.Yaml.Intake
import BuildDialect.Proofs.Yaml.Lines

/-!
A mapping of a word and a list of words, as it is written line by line after comments. Main
statement: reading such a text gives the words, however many there are.
-/
namespace BuildDialect.Yaml

open Scan

/-- Nothing but comments and empty lines. -/
inductive IsPreface : List Char → Prop
  | nil : IsPreface []
  | line {rest : List Char} (h : IsPreface rest) : IsPreface ('\n' :: rest)
  | comment {text rest : List Char} (htext : ∀ c ∈ text, isBreak c = false)
      (h : IsPreface rest) : IsPreface ('#' :: text ++ '\n' :: rest)

/-- After a preface a line starts. -/
theorem IsPreface.gap {front : List Char} (h : IsPreface front) (rest : List Char) (m : Mark)
    (hm : m.column = 0) (broke : Bool) : ∃ mark passed, mark.column = 0 ∧
      Scan.gap false broke m (front ++ rest) = Scan.gap false passed mark rest := by
  induction h generalizing m broke with
  | nil => exact ⟨m, broke, hm, rfl⟩
  | @line next h ih =>
    obtain ⟨mark, passed, hcolumn, hgap⟩ := ih (m.after '\n') rfl true
    exact ⟨mark, passed, hcolumn, gap_line.trans hgap⟩
  | @comment text next htext h ih =>
    obtain ⟨mark, passed, hcolumn, hgap⟩ := ih ((m.along ('#' :: text)).after '\n') rfl true
    refine ⟨mark, passed, hcolumn, ?_⟩
    rw [List.append_assoc]
    exact (gap_comment htext).trans hgap

/-- A list of words, each on a line of its own after a hyphen. -/
def itemLines (words : List (List Char)) : List Char :=
  words.flatMap fun word => '-' :: ' ' :: word ++ ['\n']

def listText : List (List Char) → List Char
  | [] => [' ', '[', ']', '\n']
  | word :: words => '\n' :: itemLines (word :: words)

def listing (key word listKey : List Char) (words : List (List Char)) : List Char :=
  key ++ ':' :: (' ' :: word ++ '\n' :: (listKey ++ ':' :: listText words))

theorem itemLines_cons (word : List Char) (words : List (List Char)) :
    itemLines (word :: words) = '-' :: ' ' :: word ++ '\n' :: itemLines words := by
  simp [itemLines]

theorem length_le_itemLines (words : List (List Char)) :
    words.length ≤ (itemLines words).length := by
  induction words with
  | nil => exact Nat.zero_le _
  | cons word words ih =>
    rw [itemLines_cons]
    simp only [List.length_append, List.length_cons]
    omega

theorem length_le_listText (words : List (List Char)) : words.length ≤ (listText words).length := by
  cases words with
  | nil => exact Nat.zero_le _
  | cons word words =>
    have hitems := length_le_itemLines (word :: words)
    exact Nat.le_succ_of_le hitems

/-- A text at whose start a plain scalar in the line before is over. -/
structure Begins (rest : List Char) : Prop where
  lineStart : Reader.LineStart rest
  plain : ∀ c ∈ rest.head?, c ≠ byteOrderMark ∧ c ≠ '#'

theorem begins_word {word : List Char} (h : IsWord word) (rest : List Char) :
    Begins (word ++ rest) := by
  obtain ⟨first, tail, rfl⟩ := List.exists_cons_of_ne_nil h.nonempty
  have hletter : isWordChar first := h.chars first List.mem_cons_self
  have hne (other : Char) (hother : isWordChar other = false) : first ≠ other :=
    ne_of_isWordChar hletter hother
  refine ⟨⟨?_, ?_⟩, ?_⟩
  · intro c hc
    cases hc
    exact ⟨hne ' ' (by decide), isBreak_word hletter⟩
  · intro a b d more heq
    obtain rfl : first = a := (List.cons.inj heq).1
    simp [hne '-' (by decide), hne '.' (by decide)]
  · intro c hc
    cases hc
    exact ⟨hne byteOrderMark (by decide), hne '#' (by decide)⟩

theorem begins_items (words : List (List Char)) : Begins (itemLines words) := by
  cases words with
  | nil =>
    refine ⟨⟨?_, ?_⟩, ?_⟩
    · intro c hc
      cases hc
    · intro a b d more heq
      cases heq
    · intro c hc
      cases hc
  | cons word words =>
    rw [itemLines_cons]
    refine ⟨⟨?_, ?_⟩, ?_⟩
    · intro c hc
      cases hc
      decide
    · intro a b d more heq
      obtain ⟨hfirst, hsecond⟩ := List.cons.inj heq
      have hspace : (b == a) = false := by
        rw [← hfirst, ← (List.cons.inj hsecond).1]
        decide
      rw [hspace, Bool.and_false, Bool.false_and]
    · intro c hc
      cases hc
      decide

variable {s : Scanner} {outer : List Int} {words : List (List Char)}

/-- The items of a list, one after the other. -/
theorem Paused.items (paused : Paused s 0 outer) (hwords : ∀ word ∈ words, IsWord word)
    (line : StartsLine s (itemLines words)) :
    ∃ after, Releases s (4 * words.length) (Compose.entries (words.map .ofChars)) after ∧
      Paused after 0 outer ∧ StartsLine after [] := by
  induction words generalizing s with
  | nil => exact ⟨s, fun _ _ => rfl, paused, line⟩
  | cons word words ih =>
    obtain ⟨hword, hothers⟩ := List.forall_mem_cons.mp hwords
    have hnext := begins_items words
    rw [itemLines_cons] at line
    obtain ⟨middle, hitem, hmiddle, hline⟩ :=
      paused.item hword hnext.lineStart hnext.plain line
    obtain ⟨after, hitems, hafter, hend⟩ := ih hmiddle hothers hline
    refine ⟨after, ?_, hafter, hend⟩
    have hsteps : 4 * (word :: words).length = 4 + 4 * words.length := by
      rw [List.length_cons]
      omega
    rw [hsteps]
    exact hitem.trans hitems

theorem Paused.list (paused : Paused s 0 outer) (hwords : ∀ word ∈ words, IsWord word)
    (hclosed : s.allowsKey = false) (hrest : s.cursor.rest = listText words) :
    ∃ steps after, steps ≤ 4 * words.length + 4 ∧
      Releases s steps (Compose.listTokens (words.map .ofChars)) after ∧ Paused after 0 outer ∧
      StartsLine after [] := by
  cases words with
  | nil =>
    obtain ⟨after, hbrackets, hafter, hline⟩ :=
      paused.brackets hclosed hrest fun c hc => by cases hc
    exact ⟨4, after, Nat.le_refl 4, hbrackets, hafter, hline⟩
  | cons word words =>
    have hbegins := begins_items (word :: words)
    have hhere : gap false true (s.cursor.mark.after '\n') (itemLines (word :: words)) =
        (s.cursor.mark.after '\n', itemLines (word :: words), true) := by
      rw [itemLines_cons]
      exact gap_here (by decide) (by decide) (by decide)
    have line : StartsLine s (itemLines (word :: words)) := by
      refine ⟨?_, s.cursor.mark.after '\n', true, ?_, rfl, Bool.or_true _⟩
      · rw [Cursor.peek, hrest]
        change some '\n' ≠ _
        decide
      · rw [hrest]
        exact gap_line.trans hhere
    obtain ⟨after, hitems, hafter, hend⟩ := paused.items hwords line
    exact ⟨_, after, Nat.le_add_right _ 4, hitems, hafter, hend⟩

/-- A character of a text that is taken in as it is. -/
def isUsual (c : Char) : Bool :=
  isAllowed c && c != '\r' && c != byteOrderMark

theorem isUsual_word {c : Char} (h : isWordChar c) : isUsual c = true := by
  have hreturn := ne_of_isWordChar h (by decide : isWordChar '\r' = false)
  have hmark := ne_of_isWordChar h (by decide : isWordChar byteOrderMark = false)
  have hcode := toNat_of_isWordChar h
  have hascii : ' ' ≤ c ∧ c ≤ '~' := by
    have hlow : 32 ≤ c.toNat := by omega
    have hhigh : c.toNat ≤ 126 := by omega
    exact ⟨hlow, hhigh⟩
  simp [isUsual, isAllowed, hascii, hreturn, hmark]

section

variable {front key word listKey : List Char} (hkey : IsWord key) (hword : IsWord word)
  (hlistKey : IsWord listKey) (hwords : ∀ word ∈ words, IsWord word)

include hkey hword hlistKey hwords

theorem isUsual_listing : ∀ c ∈ listing key word listKey words, isUsual c := by
  have hchars {word : List Char} (h : IsWord word) : ∀ c ∈ word, isUsual c :=
    fun c hc => isUsual_word (h.chars c hc)
  have hitems (words : List (List Char)) (h : ∀ word ∈ words, IsWord word) :
      ∀ c ∈ itemLines words, isUsual c := by
    intro c hc
    obtain ⟨word, hmem, hc⟩ := List.mem_flatMap.mp hc
    simp only [List.cons_append, List.mem_cons, List.mem_append, List.not_mem_nil, or_false] at hc
    rcases hc with rfl | rfl | hc | rfl
    · decide
    · decide
    · exact hchars (h word hmem) c hc
    · decide
  have hlist : ∀ c ∈ listText words, isUsual c := by
    intro c hc
    cases words with
    | nil =>
      have hall : (listText []).all isUsual := by decide
      exact List.all_eq_true.mp hall c hc
    | cons word words =>
      rcases List.mem_cons.mp hc with rfl | hc
      · decide
      · exact hitems _ hwords c hc
  intro c hc
  simp only [listing, List.cons_append, List.mem_cons, List.mem_append] at hc
  rcases hc with hc | rfl | rfl | hc | rfl | hc | rfl | hc
  · exact hchars hkey c hc
  · decide
  · decide
  · exact hchars hword c hc
  · decide
  · exact hchars hlistKey c hc
  · decide
  · exact hlist c hc

variable (hfront : IsPreface front) (husual : ∀ c ∈ front, isUsual c)

include hfront husual

theorem startsLine_listing : StartsLine
    (.start ⟨front ++ listing key word listKey words, none⟩) (listing key word listKey words) := by
  obtain ⟨mark, passed, hcolumn, hgap⟩ := hfront.gap (listing key word listKey words) ⟨0, 0, 0⟩
    rfl false
  obtain ⟨first, tail, hlisting⟩ :
      ∃ first tail, listing key word listKey words = first :: tail := by
    obtain ⟨first, tail, rfl⟩ := List.exists_cons_of_ne_nil hkey.nonempty
    exact ⟨first, _, rfl⟩
  have hbegins : Begins (listing key word listKey words) := begins_word hkey _
  have hhere : gap false passed mark (listing key word listKey words) =
      (mark, listing key word listKey words, passed) := by
    rw [hlisting] at hbegins ⊢
    have hfirst := hbegins.lineStart.1 first rfl
    exact gap_here hfirst.2 hfirst.1 (hbegins.plain first rfl).2
  refine ⟨?_, mark, passed, hgap.trans hhere, hcolumn, rfl⟩
  intro hpeek
  have hmark : isUsual byteOrderMark := by
    rcases List.mem_append.mp (List.mem_of_head? hpeek) with hmem | hmem
    · exact husual _ hmem
    · exact isUsual_listing hkey hword hlistKey hwords _ hmem
  revert hmark
  decide

variable (hlength : key.length ≤ 1024) (hlistLength : listKey.length ≤ 1024)

include hlength hlistLength

/-- The tokens of such a text. -/
theorem Tokens.ofIntake_listing : Tokens.ofIntake ⟨front ++ listing key word listKey words, none⟩ =
    ⟨Compose.mappingTokens (.ofChars key) (.ofChars word) (.ofChars listKey)
      (words.map .ofChars), none⟩ := by
  set text := front ++ listing key word listKey words with htext
  set s := Scanner.start ⟨text, none⟩
  have hlong : words.length + 4 ≤ text.length := by
    have hitems := length_le_listText words
    rw [htext, listing]
    simp only [List.length_append, List.length_cons]
    omega
  have hsize : 0 < s.cursor.size := by
    change 0 < text.length
    omega
  have paused : Paused s (-1) [] := ⟨rfl, hsize, rfl, rfl, rfl, rfl, rfl, rfl⟩
  have line := startsLine_listing hkey hword hlistKey hwords hfront husual
  obtain ⟨atWord, hfirst, hatWord, hatRest, -⟩ := paused.firstKey hkey hlength line rfl
  have hnext : Begins (listKey ++ ':' :: listText words) := begins_word hlistKey _
  obtain ⟨atKey, hvalue, hatKey, hline⟩ :=
    hatWord.value hword hnext.lineStart hnext.plain hatRest
  have hends : endsIndicator (listText words).head? = true := by
    cases words with
    | nil => rfl
    | cons word words => rfl
  obtain ⟨atList, hsecond, hatList, hlistRest, hclosed⟩ :=
    hatKey.key hlistKey hlistLength hline hends
  obtain ⟨steps, after, hsteps, hlist, hafter, hend⟩ := hatList.list hwords hclosed hlistRest
  have hall := ((hfirst.trans hvalue).trans hsecond).trans hlist
  obtain ⟨fuel, hfuel⟩ : ∃ fuel, 6 * (text.length + 2) = fuel + 2 + (6 + 2 + 5 + steps) :=
    ⟨6 * (text.length + 2) - 15 - steps, by omega⟩
  unfold Tokens.ofIntake
  change Tokens.release [] (6 * (text.length + 2)) s = _
  rw [hfuel, hall, hafter.finish hend, List.append_nil, List.reverse_reverse]
  rfl

/-- The value of such a text, if none of the words stands for something else than a text. -/
theorem read_listing (htext : ∀ text ∈ key :: word :: listKey :: words,
      Implicit.tagOf (.ofChars text) = .text) :
    read 3 (Utf8.encode (front ++ listing key word listKey words)) =
      .ok (.mapping [(.text (.ofChars key), .text (.ofChars word)),
        (.text (.ofChars listKey), .list ((words.map .ofChars).map .text))]) := by
  simp only [List.forall_mem_cons] at htext
  obtain ⟨hkeyTag, hwordTag, hlistTag, htags⟩ := htext
  have hchars : ∀ c ∈ front ++ listing key word listKey words, isUsual c := by
    intro c hc
    rcases List.mem_append.mp hc with hc | hc
    · exact husual c hc
    · exact isUsual_listing hkey hword hlistKey hwords c hc
  have hallowed : ∀ c ∈ front ++ listing key word listKey words, isAllowed c := by
    intro c hc
    have hc := hchars c hc
    simp only [isUsual, Bool.and_eq_true] at hc
    exact hc.1.1
  have hline : '\r' ∉ front ++ listing key word listKey words := by
    intro hmem
    have husual := hchars _ hmem
    revert husual
    decide
  have htexts : AreTexts (Compose.items 8 (words.map .ofChars)) (words.map .ofChars) := by
    refine areTexts_items ?_ 8
    intro text hmem
    obtain ⟨word, hword, rfl⟩ := List.mem_map.mp hmem
    exact htags word hword
  have hdocument : Document.ofIntake ⟨front ++ listing key word listKey words, none⟩ =
      .ok (some (.ofFields (.ofChars key) (.ofChars word) (.ofChars listKey)
        (Compose.items 8 (words.map .ofChars))
        ((Compose.mappingTokens (.ofChars key) (.ofChars word) (.ofChars listKey)
          (words.map .ofChars)).length - 2))) := by
    rw [Document.ofIntake,
      Tokens.ofIntake_listing hkey hword hlistKey hwords hfront husual hlength hlistLength,
      Document.ofTokens_mapping, hkeyTag, hwordTag, hlistTag]
    rfl
  unfold read
  rw [Intake.ofBytes_encode hallowed hline, hdocument]
  change (Document.examine _ >>= fun found => pure (Document.value _ found 3 _)) = _
  rw [examine_ofFields _ _ _ _ htexts]
  change Except.ok (Document.value _ .ofFields 3 _) = _
  rw [value_ofFields _ _ _ _ htexts]

end

end BuildDialect.Yaml
