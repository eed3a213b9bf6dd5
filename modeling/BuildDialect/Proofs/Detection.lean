import BuildDialect.Detection
import BuildDialect.Proofs.Parser.Round
import BuildDialect.Proofs.Text.Ascii
import Mathlib.Data.List.TakeWhile

/-!
The dialect of a build file, by its bytes. The text of the file is decoded before it is looked at;
but a marker, a name and the end of a line are ASCII, so each of them is there in the text just if
it is there in the bytes.
-/
namespace BuildDialect

open Process

namespace Line

def isEndByte (b : UInt8) : Bool :=
  b == 0x0A || b == 0x0D

/-- The bytes before the first one that ends a line. -/
def cut (bytes : List UInt8) : List UInt8 :=
  bytes.takeWhile fun b => !isEndByte b

theorem isEnd_ascii {c : Char} (h : isEnd c) :
    c.toNat < 0x80 ∧ isEndByte (UInt8.ofNat c.toNat) := by
  rw [isEnd, Bool.or_eq_true, beq_iff_eq, beq_iff_eq] at h
  rcases h with rfl | rfl <;> decide

theorem isEndByte_ascii {b : UInt8} (h : isEndByte b) :
    b.toNat < 0x80 ∧ isEnd (Char.ofNat b.toNat) := by
  rw [isEndByte, Bool.or_eq_true, beq_iff_eq, beq_iff_eq] at h
  rcases h with rfl | rfl <;> decide

theorem cut_append {front : List UInt8} (h : ∀ b ∈ front, isEndByte b = false)
    (back : List UInt8) : cut (front ++ back) = front ++ cut back :=
  List.takeWhile_append_of_pos fun b hb => by rw [h b hb]; rfl

theorem cut_eq_append_iff {front : List UInt8} (h : ∀ b ∈ front, isEndByte b = false)
    {bytes line : List UInt8} :
    cut bytes = front ++ line ↔ ∃ rest, bytes = front ++ rest ∧ cut rest = line := by
  constructor
  · intro hcut
    have hsplit := List.takeWhile_append_dropWhile (p := fun b => !isEndByte b) (l := bytes)
    change cut bytes ++ _ = bytes at hsplit
    rw [hcut, List.append_assoc] at hsplit
    rw [← hsplit, cut_append h, List.append_cancel_left_eq] at hcut
    exact ⟨_, hsplit.symm, hcut⟩
  · rintro ⟨rest, rfl, rfl⟩
    exact cut_append h rest

theorem cut_cases (bytes : List UInt8) : cut bytes = bytes ∨
    ∃ e back, bytes = cut bytes ++ e :: back ∧ isEndByte e := by
  have hsplit := List.takeWhile_append_dropWhile (p := fun b => !isEndByte b) (l := bytes)
  cases hdrop : bytes.dropWhile fun b => !isEndByte b with
  | nil =>
    rw [hdrop, List.append_nil] at hsplit
    exact Or.inl hsplit
  | cons e back =>
    rw [hdrop] at hsplit
    refine Or.inr ⟨e, back, hsplit.symm, ?_⟩
    have hhead := List.head?_dropWhile_not (fun b => !isEndByte b) bytes
    rw [hdrop] at hhead
    simpa using hhead

theorem isEndByte_of_mem_cut {bytes : List UInt8} {b : UInt8} (h : b ∈ cut bytes) :
    isEndByte b = false := by
  simpa using List.mem_takeWhile_imp h

theorem not_isEnd_of_mem_decode {bytes : List UInt8} {c : Char} (h : c ∈ Utf8.decode (cut bytes)) :
    (!isEnd c) = true := by
  rw [Bool.not_eq_true']
  by_contra hend
  obtain ⟨hascii, hbyte⟩ := isEnd_ascii (Bool.not_eq_false _ ▸ hend)
  have hmem := (Utf8.reads_decode _).mem_ascii h hascii
  rw [isEndByte_of_mem_cut hmem] at hbyte
  cases hbyte

/-- The first line of a decoded text is the decoded first line. -/
theorem takeWhile_decode (bytes : List UInt8) :
    (Utf8.decode bytes).takeWhile (fun c => !isEnd c) = Utf8.decode (cut bytes) := by
  have hplain : ∀ c ∈ Utf8.decode (cut bytes), (!isEnd c) = true :=
    fun c => not_isEnd_of_mem_decode
  rcases cut_cases bytes with h | ⟨e, back, h, he⟩
  · rw [h] at hplain ⊢
    exact List.takeWhile_eq_self_iff.mpr hplain
  · obtain ⟨hascii, hend⟩ := isEndByte_ascii he
    conv_lhs => rw [h]
    rw [Utf8.decode_append_ascii hascii, List.takeWhile_append_of_pos hplain,
      List.takeWhile_cons_of_neg (by simp [hend]), List.append_nil]

end Line

theorem afterOpening?_eq_some_iff {opening text rest : List Char} :
    afterOpening? opening text = some rest ↔ text = opening ++ rest := by
  induction opening generalizing text with
  | nil => simp [afterOpening?]
  | cons o opening ih =>
    cases text with
    | nil => simp [afterOpening?]
    | cons c text =>
      rw [afterOpening?]
      by_cases h : o = c
      · simp [h, ih]
      · simp [h, Ne.symm h]

namespace BuildFile

def markerBytes : List UInt8 := Utf8.ascii marker.toList

theorem marker_ascii : ∀ c ∈ marker.toList, c.toNat < 0x80 := by
  simp [marker]

theorem markerBytes_plain : ∀ b ∈ markerBytes, Line.isEndByte b = false := by
  simp [markerBytes, marker, Utf8.ascii, Line.isEndByte]

theorem firstLine?_eq (bytes : List UInt8) : firstLine? bytes =
    if bytes = [] then none else some (String.ofList (Utf8.decode (Line.cut bytes))) := by
  unfold firstLine?
  split_ifs with h
  · rw [h]
    rfl
  · cases hdecode : Utf8.decode bytes with
    | nil => exact absurd (Utf8.decode_eq_nil_iff.mp hdecode) h
    | cons c text => rw [Line.first?, ← hdecode, Line.takeWhile_decode, Option.map_some]

theorem requested?_eq_some_iff {line name : String} :
    requested? line = some name ↔ line.toList = marker.toList ++ name.toList := by
  unfold requested?
  rw [Option.map_eq_some_iff]
  constructor
  · rintro ⟨rest, hrest, rfl⟩
    rw [afterOpening?_eq_some_iff.mp hrest, String.toList_ofList]
  · intro h
    exact ⟨_, afterOpening?_eq_some_iff.mpr h, String.ofList_toList⟩

/-- The name in the marker line is what is decoded of the bytes between the marker and the end of
the line. -/
theorem markerName?_eq_some_iff {bytes : List UInt8} {name : String} :
    markerName? bytes = some name ↔ ∃ rest, bytes = markerBytes ++ rest ∧
      name = String.ofList (Utf8.decode (Line.cut rest)) := by
  unfold markerName?
  rw [firstLine?_eq]
  constructor
  · intro h
    split_ifs at h with hempty
    · cases h
    · have hline := requested?_eq_some_iff.mp h
      rw [String.toList_ofList, Utf8.decode_eq_append_iff marker_ascii] at hline
      obtain ⟨line, hcut, hname⟩ := hline
      obtain ⟨rest, rfl, rfl⟩ := (Line.cut_eq_append_iff markerBytes_plain).mp hcut
      exact ⟨rest, rfl, by rw [hname, String.ofList_toList]⟩
  · rintro ⟨rest, rfl, rfl⟩
    have hne : markerBytes ++ rest ≠ [] := List.append_ne_nil_of_left_ne_nil (by decide) _
    rw [if_neg hne, Option.bind_some, requested?_eq_some_iff, String.toList_ofList,
      String.toList_ofList, Line.cut_append markerBytes_plain,
      Utf8.decode_eq_append_iff marker_ascii]
    exact ⟨_, rfl, rfl⟩

theorem markerName?_eq_none_iff {bytes : List UInt8} :
    markerName? bytes = none ↔ ¬ markerBytes <+: bytes := by
  rw [Option.eq_none_iff_forall_ne_some]
  constructor
  · rintro h ⟨rest, rfl⟩
    exact h _ (markerName?_eq_some_iff.mpr ⟨rest, rfl, rfl⟩)
  · intro h name hname
    obtain ⟨rest, rfl, _⟩ := markerName?_eq_some_iff.mp hname
    exact h (List.prefix_append _ _)

theorem decode_eq_name_iff {bytes : List UInt8} {d : Dialect} :
    String.ofList (Utf8.decode bytes) = d.name ↔ bytes = Utf8.ascii d.name.toList := by
  have hname : ∀ c ∈ d.name.toList, c.toNat < 0x80 := by
    cases d <;> simp [Dialect.name]
  rw [← Utf8.decode_eq_ascii_iff hname, ← String.toList_inj, String.toList_ofList]

end BuildFile

theorem Action.outcome_ask {α : Type} (path : Path) (query : FileTree → Path → Except FileCause α)
    (w : World) : (Action.ask path query).outcome w =
      ((query w.files path).mapError fun cause => .file ⟨cause, path⟩, w) := by
  unfold Action.ask
  rw [outcome_bind, outcome_get]
  dsimp only
  cases query w.files path <;> rfl

namespace BuildFile

def unmarkedRecord (path : Path) (default : Dialect) : LogRecord :=
  ⟨.debug, .detection, "No syntax marker in " ++ path.text ++ s!", using default {default.name}"⟩

def markedRecord (path : Path) (dialect : Dialect) : LogRecord :=
  ⟨.debug, .detection, "Syntax marker in " ++ path.text ++ s!" requests {dialect.name}"⟩

theorem unmarkedRecord_ne (path : Path) (default dialect : Dialect) :
    unmarkedRecord path default ≠ markedRecord path dialect := by
  intro h
  have hhead := congrArg (fun r : LogRecord => r.message.head?) h
  simp only [unmarkedRecord, markedRecord, List.head?_append] at hhead
  cases hhead

end BuildFile

variable {w : World} {path : Path} {bytes : List UInt8}

theorem outcome_readMarker (readable : w.files.read path = .ok bytes) :
    (readMarker path).outcome w = (.ok (BuildFile.markerName? bytes), w) := by
  unfold readMarker
  rw [outcome_bind, Action.outcome_ask, readable]
  rfl

theorem outcome_selectDialect (readable : w.files.read path = .ok bytes) (default : Dialect) :
    (selectDialect path default).outcome w =
      match BuildFile.markerName? bytes with
      | none => (.ok default, w.extend [.logged (BuildFile.unmarkedRecord path default)])
      | some name =>
        match Dialect.ofName? name with
        | none => (.error (.unrecognized path name), w)
        | some dialect =>
          (.ok dialect, w.extend [.logged (BuildFile.markedRecord path dialect)]) := by
  unfold selectDialect
  rw [outcome_bind, outcome_readMarker readable]
  dsimp only
  cases BuildFile.markerName? bytes with
  | none => rfl
  | some name =>
    dsimp only
    cases Dialect.ofName? name <;> rfl

theorem outcome_selectDialect_asked {asked : Option Dialect}
    (readable : w.files.read path = .ok bytes)
    (hasked : BuildFile.markerName? bytes = asked.map Dialect.name) (default : Dialect) :
    ∃ record, (selectDialect path default).outcome w =
      (.ok (asked.getD default), w.extend [.logged record]) := by
  rw [outcome_selectDialect readable, hasked]
  cases asked with
  | none => exact ⟨_, rfl⟩
  | some dialect =>
    refine ⟨BuildFile.markedRecord path dialect, ?_⟩
    simp only [Option.map_some, Dialect.ofName?_name, Option.getD_some]

theorem outcome_selectDialect_unreadable {cause : FileCause}
    (unreadable : w.files.read path = .error cause) (default : Dialect) :
    (selectDialect path default).outcome w = (.error (.file ⟨cause, path⟩), w) := by
  unfold selectDialect readMarker
  rw [outcome_bind, outcome_bind, Action.outcome_ask, unreadable]
  rfl

theorem outcome_selectDialect_unknown {name : String} (readable : w.files.read path = .ok bytes)
    (hname : BuildFile.markerName? bytes = some name) (unknown : ∀ d : Dialect, name ≠ d.name)
    (default : Dialect) :
    (selectDialect path default).outcome w = (.error (.unrecognized path name), w) := by
  have hnone : Dialect.ofName? name = none :=
    Option.eq_none_iff_forall_ne_some.mpr fun d hd => unknown d (Dialect.ofName?_eq_some_iff.mp hd)
  rw [outcome_selectDialect readable, hname]
  dsimp only
  rw [hnone]

theorem World.extend_inj {w : World} {a b : Trace} : w.extend a = w.extend b ↔ a = b := by
  refine ⟨fun h => ?_, fun h => h ▸ rfl⟩
  have htrace := congrArg World.trace h
  exact List.append_cancel_left htrace

structure Decided (path : Path) (bytes : List UInt8) (default : Dialect) (w : World) : Prop where
  unmarked : (selectDialect path default).outcome w =
      (.ok default, w.extend [.logged (BuildFile.unmarkedRecord path default)]) ↔
    ¬ BuildFile.markerBytes <+: bytes
  named : ∀ rest, bytes = BuildFile.markerBytes ++ rest → ∀ dialect : Dialect,
    (((selectDialect path default).outcome w).1 = .ok dialect ↔
      Line.cut rest = Utf8.ascii dialect.name.toList)
  /-- A name that no dialect has is reported as it is read, and nothing is decided. -/
  refused : ∀ rest, bytes = BuildFile.markerBytes ++ rest →
    (∀ dialect : Dialect, Line.cut rest ≠ Utf8.ascii dialect.name.toList) →
    ∃ name, Utf8.Reads (Line.cut rest) name ∧
      (∀ dialect : Dialect, String.ofList name ≠ dialect.name) ∧
      (selectDialect path default).outcome w =
        (.error (.unrecognized path (String.ofList name)), w)

/-- The dialect of a build file is the default just if its bytes do not begin with those of the
marker; otherwise the bytes between the marker and the end of the line have to be a name. -/
theorem selectDialect_decided (readable : w.files.read path = .ok bytes) (default : Dialect) :
    Decided path bytes default w := by
  have houtcome := outcome_selectDialect readable default
  refine ⟨?_, fun rest hbytes dialect => ?_, fun rest hbytes hunknown => ?_⟩
  · rw [houtcome, ← BuildFile.markerName?_eq_none_iff]
    cases BuildFile.markerName? bytes with
    | none => simp
    | some name =>
      dsimp only
      cases Dialect.ofName? name with
      | none => simp
      | some dialect =>
        have hne := (BuildFile.unmarkedRecord_ne path default dialect).symm
        simp [World.extend_inj, hne]
  · have hmarker := BuildFile.markerName?_eq_some_iff.mpr ⟨rest, hbytes, rfl⟩
    rw [houtcome, hmarker, ← BuildFile.decode_eq_name_iff, ← Dialect.ofName?_eq_some_iff]
    dsimp only
    cases Dialect.ofName? (String.ofList (Utf8.decode (Line.cut rest))) <;> simp
  · have hmarker := BuildFile.markerName?_eq_some_iff.mpr ⟨rest, hbytes, rfl⟩
    have hname : ∀ dialect : Dialect,
        String.ofList (Utf8.decode (Line.cut rest)) ≠ dialect.name :=
      fun dialect h => hunknown dialect (BuildFile.decode_eq_name_iff.mp h)
    have hrefused := outcome_selectDialect_unknown readable hmarker hname default
    exact ⟨_, Utf8.reads_decode _, hname, hrefused⟩

/-- A file whose marker line ends within a character. -/
def BuildFile.brokenBytes : List UInt8 := BuildFile.markerBytes ++ [0x53, 0xE2, 0x82, 0x0A, 0xFF]

theorem selectDialect_decided_sample :
    let path : Path := ⟨"BUCK"⟩
    let w := { World.fresh with
      files := FileTree.fresh.put (FileTree.locate ["work", "home", "BUCK"])
        (.file BuildFile.brokenBytes) }
    w.files.read path = .ok BuildFile.brokenBytes ∧
      Decided path BuildFile.brokenBytes .skylark w ∧
      ((selectDialect path .skylark).outcome w).1 = .error (.unrecognized path "S\uFFFD") :=
  ⟨by decide, selectDialect_decided (by decide) .skylark, by rfl⟩

end BuildDialect
