import BuildDialect.Proofs.Detection

/-!
Marker lines that are written and read again. A name may hold any character that ends no line; it
comes back as it was written, whatever bytes follow the line.
-/
namespace BuildDialect

open Process

namespace Line

/-- Bytes at which a line is over: one of its ends, or none at the end of the file. -/
inductive Over : List UInt8 → Prop
  | nothing : Over []
  | feed (rest : List UInt8) : Over (0x0A :: rest)
  | both (rest : List UInt8) : Over (0x0D :: 0x0A :: rest)
  | carriage (rest : List UInt8) : Over (0x0D :: rest)

theorem Over.cut_eq {after : List UInt8} (h : Over after) : cut after = [] := by
  cases h <;> rfl

/-- No byte of a character ends a line but those of the line ends themselves. -/
theorem isEndByte_of_mem_encode {text : List Char} (plain : ∀ c ∈ text, c ≠ '\n' ∧ c ≠ '\r')
    {b : UInt8} (h : b ∈ Utf8.encode text) : isEndByte b = false := by
  by_contra hend
  obtain ⟨hascii, hchar⟩ := isEndByte_ascii (Bool.not_eq_false _ ▸ hend)
  have hmem := Utf8.mem_decode_ascii hascii h
  rw [Utf8.decode_encode] at hmem
  obtain ⟨hfeed, hcarriage⟩ := plain _ hmem
  rw [isEnd, Bool.or_eq_true, beq_iff_eq, beq_iff_eq] at hchar
  exact hchar.elim hfeed hcarriage

end Line

namespace BuildFile

def markerLine (name : String) : List UInt8 :=
  Utf8.encode (marker ++ name).toList

theorem markerLine_eq (name : String) :
    markerLine name = markerBytes ++ Utf8.encode name.toList := by
  rw [markerLine, String.toList_append, Utf8.encode, List.flatMap_append, ← Utf8.encode,
    ← Utf8.encode, Utf8.encode_ascii marker_ascii]
  rfl

theorem markerName?_markerLine {name : String} (plain : ∀ c ∈ name.toList, c ≠ '\n' ∧ c ≠ '\r')
    {after : List UInt8} (ended : Line.Over after) :
    markerName? (markerLine name ++ after) = some name := by
  have hcut : Line.cut (Utf8.encode name.toList ++ after) = Utf8.encode name.toList := by
    rw [Line.cut_append fun b => Line.isEndByte_of_mem_encode plain, ended.cut_eq, List.append_nil]
  refine markerName?_eq_some_iff.mpr ⟨Utf8.encode name.toList ++ after, ?_, ?_⟩
  · rw [markerLine_eq, List.append_assoc]
  · rw [hcut, Utf8.decode_encode, String.ofList_toList]

end BuildFile

variable {path : Path} {name : String} {after : List UInt8} {w : World}

/-- A build file asks for a name, which is read as it is and has to be that of a dialect. -/
structure AsksFor (path : Path) (name : String) (w : World) : Prop where
  read : (readMarker path).outcome w = (.ok (some name), w)
  known : ∀ dialect : Dialect, name = dialect.name → ∀ default,
    ((selectDialect path default).outcome w).1 = .ok dialect
  unknown : (∀ dialect : Dialect, name ≠ dialect.name) → ∀ default,
    (selectDialect path default).outcome w = (.error (.unrecognized path name), w)

/-- Reading a marker undoes writing it. -/
theorem asksFor_markerLine (plain : ∀ c ∈ name.toList, c ≠ '\n' ∧ c ≠ '\r')
    (ended : Line.Over after)
    (readable : w.files.read path = .ok (BuildFile.markerLine name ++ after)) :
    AsksFor path name w := by
  have hname := BuildFile.markerName?_markerLine plain ended
  refine ⟨?_, fun dialect hdialect default => ?_, fun unknown default => ?_⟩
  · rw [outcome_readMarker readable, hname]
  · rw [hdialect] at hname
    obtain ⟨record, hselect⟩ := @outcome_selectDialect_asked w path _ (some dialect) readable
      (hdialect ▸ hname) default
    rw [hselect]
    rfl
  · exact outcome_selectDialect_unknown readable hname unknown default

/-- A name with a byte order mark, blanks, a replacement character and one that takes four bytes. -/
def BuildFile.oddName : String := "\uFEFF \t\uFFFD\x0B😀 "

theorem asksFor_markerLine_sample :
    let path : Path := ⟨"BUCK"⟩
    let after : List UInt8 := [0x0D, 0x0A, 0xFF, 0x0A]
    let w := { World.fresh with
      files := FileTree.fresh.put (FileTree.locate ["work", "home", "BUCK"])
        (.file (BuildFile.markerLine BuildFile.oddName ++ after)) }
    (∀ c ∈ BuildFile.oddName.toList, c ≠ '\n' ∧ c ≠ '\r') ∧ Line.Over after ∧
      w.files.read path = .ok (BuildFile.markerLine BuildFile.oddName ++ after) ∧
      AsksFor path BuildFile.oddName w := by
  intro path after w
  have hall : BuildFile.oddName.toList.all (fun c => c ≠ '\n' ∧ c ≠ '\r') = true := by decide
  have plain : ∀ c ∈ BuildFile.oddName.toList, c ≠ '\n' ∧ c ≠ '\r' := fun c hc =>
    of_decide_eq_true (List.all_eq_true.mp hall c hc)
  have readable : w.files.read path = .ok (BuildFile.markerLine BuildFile.oddName ++ after) := by
    decide +kernel
  exact ⟨plain, .both _, readable, asksFor_markerLine plain (.both _) readable⟩

end BuildDialect
