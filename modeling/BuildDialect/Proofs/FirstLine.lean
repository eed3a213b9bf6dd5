import BuildDialect.Proofs.Detection
import BuildDialect.Session.Reply
import Mathlib.Data.List.DropRight

/-!
The first line of a file. A line is read with its end, which is then taken off; and because no line
end can hide in the bytes of another character, what is read of a file goes no further than its
first byte that ends a line.
-/
namespace BuildDialect

open Process

namespace Line

/-- What ends a line, and the text after it. A carriage return takes the line feed after it along,
and the last line of a text may have no end. -/
inductive Ending : List Char → List Char → Prop
  | none : Ending [] []
  | feed (rest : List Char) : Ending ['\n'] rest
  | both (rest : List Char) : Ending ['\r', '\n'] rest
  | carriage {rest : List Char} (h : rest.head? ≠ some '\n') : Ending ['\r'] rest

/-- Bytes that are the same up to and including the first one that ends a line. -/
inductive SharesFirst : List UInt8 → List UInt8 → Prop
  | intro {front : List UInt8} {e : UInt8} (plain : ∀ b ∈ front, isEndByte b = false)
      (ends : isEndByte e) (back other : List UInt8) :
      SharesFirst (front ++ e :: back) (front ++ e :: other)

theorem isEnd_iff {c : Char} : isEnd c ↔ c = '\n' ∨ c = '\r' := by
  rw [isEnd, Bool.or_eq_true, beq_iff_eq, beq_iff_eq]

theorem Ending.isEnd {ending rest : List Char} (h : Ending ending rest) :
    ∀ c ∈ ending, Line.isEnd c := by
  cases h <;> simp [isEnd_iff]

/-- A text goes on after its first line with the end of that line. -/
theorem exists_ending (text : List Char) : ∃ ending rest,
    text = text.takeWhile (fun c => !isEnd c) ++ (ending ++ rest) ∧ Ending ending rest := by
  have hsplit := List.takeWhile_append_dropWhile (p := fun c => !isEnd c) (l := text)
  have hhead := List.head?_dropWhile_not (fun c => !isEnd c) text
  cases hdrop : text.dropWhile fun c => !isEnd c with
  | nil =>
    rw [hdrop] at hsplit
    exact ⟨[], [], hsplit.symm, .none⟩
  | cons e back =>
    rw [hdrop] at hhead hsplit
    have hend : isEnd e := by simpa using hhead
    rcases isEnd_iff.mp hend with rfl | rfl
    · exact ⟨['\n'], back, hsplit.symm, .feed back⟩
    · by_cases hfeed : back.head? = some '\n'
      · obtain ⟨rest, rfl⟩ := List.head?_eq_some_iff.mp hfeed
        exact ⟨['\r', '\n'], rest, hsplit.symm, .both rest⟩
      · exact ⟨['\r'], back, hsplit.symm, .carriage hfeed⟩

/-- Taking all line ends off at the right leaves a line that was read with its end. -/
theorem rdropWhile_append {line ending : List Char} (hline : ∀ c ∈ line, ¬ isEnd c)
    (hending : ∀ c ∈ ending, isEnd c) : (line ++ ending).rdropWhile isEnd = line := by
  induction ending using List.reverseRecOn with
  | nil =>
    rw [List.append_nil, List.rdropWhile_eq_self_iff]
    exact fun hne => hline _ (List.getLast_mem hne)
  | append_singleton ending c ih =>
    have hlast := hending c (by simp)
    have hrest : ∀ c ∈ ending, isEnd c := fun c hc => hending c (List.mem_append_left _ hc)
    rw [← List.append_assoc, List.rdropWhile_concat_pos _ _ _ hlast, ih hrest]

namespace SharesFirst

variable {bytes other : List UInt8}

theorem cut_eq (h : SharesFirst bytes other) : cut bytes = cut other := by
  cases h with
  | intro plain ends back other =>
    rw [cut_append plain, cut_append plain, cut, cut, List.takeWhile_cons_of_neg (by simpa),
      List.takeWhile_cons_of_neg (by simpa)]

theorem ne_nil (h : SharesFirst bytes other) : bytes ≠ [] ∧ other ≠ [] := by
  cases h
  simp

end SharesFirst
end Line

namespace BuildFile

theorem firstLine?_eq_none_iff {bytes : List UInt8} : firstLine? bytes = none ↔ bytes = [] := by
  rw [firstLine?_eq]
  split_ifs with h <;> simp [h]

/-- The first line is what the bytes before the first one that ends a line are read as. -/
theorem firstLine?_eq_some_iff {bytes : List UInt8} {line : String} :
    firstLine? bytes = some line ↔ bytes ≠ [] ∧ Utf8.Reads (Line.cut bytes) line.toList := by
  rw [firstLine?_eq, Utf8.reads_iff]
  split_ifs with h
  · simp [h]
  · rw [Option.some.injEq, ← String.toList_inj, String.toList_ofList]
    simp [h]

theorem firstLine?_shared {bytes other : List UInt8} (h : Line.SharesFirst bytes other) :
    firstLine? bytes = firstLine? other := by
  rw [firstLine?_eq, firstLine?_eq, if_neg h.ne_nil.1, if_neg h.ne_nil.2, h.cut_eq]

theorem markerName?_shared {bytes other : List UInt8} (h : Line.SharesFirst bytes other) :
    markerName? bytes = markerName? other := by
  rw [markerName?, markerName?, firstLine?_shared h]

/-- The text of a file goes on after its first line with the end of that line. -/
theorem firstLine?_ending {bytes : List UInt8} {line : String} (h : firstLine? bytes = some line) :
    ∃ ending rest, Utf8.Reads bytes (line.toList ++ (ending ++ rest)) ∧
      Line.Ending ending rest := by
  obtain ⟨ending, rest, htext, hending⟩ := Line.exists_ending (Utf8.decode bytes)
  rw [Line.takeWhile_decode, Utf8.reads_iff.mp (firstLine?_eq_some_iff.mp h).2] at htext
  exact ⟨ending, rest, Utf8.reads_iff.mpr htext, hending⟩

theorem not_isEnd_of_firstLine? {bytes : List UInt8} {line : String}
    (h : firstLine? bytes = some line) : ∀ c ∈ line.toList, ¬ Line.isEnd c := by
  intro c hc
  rw [← Utf8.reads_iff.mp (firstLine?_eq_some_iff.mp h).2] at hc
  simpa using Line.not_isEnd_of_mem_decode hc

end BuildFile

def Action.answer {α : Type} (action : Action α) (w : World) : Answer α :=
  ⟨(action.outcome w).1, (action.outcome w).2.since w⟩

variable {path : Path} {bytes other : List UInt8} {w u : World}

theorem outcome_readFirstLine (readable : w.files.read path = .ok bytes) :
    (readFirstLine path).outcome w = (.ok (BuildFile.firstLine? bytes), w) := by
  unfold readFirstLine
  rw [outcome_bind, Action.outcome_ask, readable]
  rfl

/-- Bytes after the first line have no effect on any of the three questions about a file. -/
structure SameAnswers (path : Path) (w u : World) : Prop where
  firstLine : (readFirstLine path).answer u = (readFirstLine path).answer w
  marker : (readMarker path).answer u = (readMarker path).answer w
  dialect : ∀ default, (selectDialect path default).answer u = (selectDialect path default).answer w

theorem sameAnswers_of_shared (readable : w.files.read path = .ok bytes)
    (readable' : u.files.read path = .ok other) (shared : Line.SharesFirst bytes other) :
    SameAnswers path w u := by
  have hsame (v : World) : v.since v = [] := World.since_eq (List.append_nil _).symm
  have hsince (v : World) (events : Trace) : (v.extend events).since v = events :=
    World.since_eq rfl
  refine ⟨?_, ?_, fun default => ?_⟩
  · simp only [Action.answer, outcome_readFirstLine readable, outcome_readFirstLine readable',
      BuildFile.firstLine?_shared shared, hsame]
  · simp only [Action.answer, outcome_readMarker readable, outcome_readMarker readable',
      BuildFile.markerName?_shared shared, hsame]
  · simp only [Action.answer, outcome_selectDialect readable, outcome_selectDialect readable',
      BuildFile.markerName?_shared shared]
    cases BuildFile.markerName? other with
    | none => simp only [hsince]
    | some name =>
      dsimp only
      cases Dialect.ofName? name with
      | none => simp only [hsame]
      | some dialect => simp only [hsince]

structure FirstLineRead (path : Path) (bytes : List UInt8) (w : World) : Prop where
  /-- Whatever the bytes are, there is no fault. -/
  settled : ∃ line?, (readFirstLine path).outcome w = (.ok line?, w)
  none_iff : ((readFirstLine path).outcome w).1 = .ok none ↔ bytes = []
  some_iff : ∀ line, ((readFirstLine path).outcome w).1 = .ok (some line) ↔
    bytes ≠ [] ∧ Utf8.Reads (Line.cut bytes) line.toList
  /-- Only the end of the line is missing from it, and no other character at its right. -/
  unended : ∀ line, ((readFirstLine path).outcome w).1 = .ok (some line) →
    (∀ c ∈ line.toList, c ≠ '\n' ∧ c ≠ '\r') ∧
    ∃ ending rest, Utf8.Reads bytes (line.toList ++ (ending ++ rest)) ∧
      Line.Ending ending rest ∧ (line.toList ++ ending).rdropWhile Line.isEnd = line.toList
  /-- What follows the first byte that ends a line has no effect. -/
  shared : ∀ other, Line.SharesFirst bytes other → ∀ u : World,
    u.files.read path = .ok other → SameAnswers path w u

/-- The first line of a file is read off the bytes before the first one that ends a line. -/
theorem readFirstLine_read (readable : w.files.read path = .ok bytes) :
    FirstLineRead path bytes w := by
  have houtcome := outcome_readFirstLine readable
  have hline (line? : Option String) : ((readFirstLine path).outcome w).1 = .ok line? ↔
      BuildFile.firstLine? bytes = line? := by
    rw [houtcome, Except.ok.injEq]
  refine ⟨⟨_, houtcome⟩, ?_, fun line => ?_, fun line h => ?_, fun other shared u hu => ?_⟩
  · rw [hline, BuildFile.firstLine?_eq_none_iff]
  · rw [hline, BuildFile.firstLine?_eq_some_iff]
  · rw [hline] at h
    have hplain := BuildFile.not_isEnd_of_firstLine? h
    obtain ⟨ending, rest, hreads, hending⟩ := BuildFile.firstLine?_ending h
    refine ⟨fun c hc => ?_, ending, rest, hreads, hending,
      Line.rdropWhile_append hplain hending.isEnd⟩
    rw [← not_or, ← Line.isEnd_iff]
    exact hplain c hc
  · exact sameAnswers_of_shared readable hu shared

/-- A character that is cut short by a carriage return, and another one by the end of the file. -/
def BuildFile.severedBytes : List UInt8 := [0x20, 0xF0, 0x9F, 0x98, 0x0D, 0x0D, 0x0A, 0xE2, 0x82]

theorem readFirstLine_read_sample :
    let path : Path := ⟨"BUCK"⟩
    let w := { World.fresh with
      files := FileTree.fresh.put (FileTree.locate ["work", "home", "BUCK"])
        (.file BuildFile.severedBytes) }
    w.files.read path = .ok BuildFile.severedBytes ∧
      FirstLineRead path BuildFile.severedBytes w ∧
      ((readFirstLine path).outcome w).1 = .ok (some " \uFFFD") :=
  ⟨by decide, readFirstLine_read (by decide), by rfl⟩

end BuildDialect
