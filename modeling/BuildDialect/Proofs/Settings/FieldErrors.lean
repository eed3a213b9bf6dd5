import BuildDialect.Proofs.Settings.Acceptance
import Mathlib.Data.List.Sort

/-!
What is wrong with the value of one field of settings, as it is reported. A field is described by
its errors in the order in which they stand; a field without errors is fine. A name that cannot be
written in UTF-8 is not described.
-/
namespace BuildDialect

/-- A text is torn: half of a surrogate pair stands in it alone. -/
def RawText.Torn (text : RawText) : Prop :=
  ∃ offset, CodePoint.half offset ∈ text

structure Violation.Entry where
  kind : String
  location : List Violation.Step
  message : String
  deriving DecidableEq, Repr

def Violation.entry (violation : Violation) : Violation.Entry :=
  ⟨violation.kind, violation.location, violation.message⟩

theorem RawText.any_isHalf_iff {text : RawText} :
    text.any CodePoint.isHalf = true ↔ text.Torn := by
  rw [List.any_eq_true]
  constructor
  · rintro ⟨point, hmem, hhalf⟩
    cases point with
    | char c => cases hhalf
    | half offset => exact ⟨offset, hmem⟩
  · rintro ⟨offset, hmem⟩
    exact ⟨_, hmem, rfl⟩

theorem RawText.not_torn_ofString (s : String) : ¬ (ofString s).Torn := by
  rintro ⟨offset, hmem⟩
  obtain ⟨c, _, hc⟩ := List.mem_map.mp hmem
  cases hc

theorem RawText.exists_ofString {text : RawText} (h : ¬ text.Torn) : ∃ s, text = ofString s := by
  induction text with
  | nil => exact ⟨"", rfl⟩
  | cons point rest ih =>
    obtain ⟨s, rfl⟩ := ih fun ⟨offset, hmem⟩ => h ⟨offset, List.mem_cons_of_mem _ hmem⟩
    cases point with
    | half offset => exact absurd ⟨offset, List.mem_cons_self⟩ h
    | char c => exact ⟨.ofList (c :: s.toList), by simp [ofString, ofChars]⟩

theorem RawText.ofString_append (s t : String) : ofString (s ++ t) = ofString s ++ ofString t := by
  simp [ofString, ofChars]

theorem RawText.shown_ofString (s : String) : (ofString s).shown = s := by
  have hchars : (ofString s).map (fun point => point.char?.getD '\uFFFD') = s.toList := by
    unfold ofString ofChars
    rw [List.map_map]
    exact List.map_id _
  rw [shown, hchars, String.ofList_toList]

namespace Settings

open Value Violation

/-- A value that no dialect goes by. -/
def Foreign (value : Value) : Prop :=
  ∀ d, ¬ Names value d

/-- All texts among items are names of dialects. -/
def Familiar (items : List Value) : Prop :=
  ∀ t, .text t ∈ items → ¬ Foreign (.text t)

def unknownEntry (field name : String) : Entry where
  kind := "value_error"
  location := [.field field]
  message :=
    "Value error, " ++ s!"Unknown syntax \x27{name}\x27. Known syntaxes: PYTHON_DSL, SKYLARK"

def foreignEntry (location : List Step) : Entry where
  kind := "enum"
  location := location
  message := "Input should be \x27PYTHON_DSL\x27 or \x27SKYLARK\x27"

inductive DefaultErrors : Value → List Entry → Prop
  | fine {value : Value} {d : Dialect} (h : Names value d) : DefaultErrors value []
  | text {s : String} (h : Foreign (.text (.ofString s))) :
      DefaultErrors (.text (.ofString s)) [unknownEntry defaultKey s]
  | other {value : Value} (hother : ∀ t, value ≠ .text t) (h : Foreign value) :
      DefaultErrors value [foreignEntry [.field defaultKey]]

inductive ItemError (position : Nat) : Value → Entry → Prop
  | torn {t : RawText} (h : t.Torn) : ItemError position (.text t)
      ⟨"string_unicode", [.field enabledKey, .position position],
        "Input should be a valid string, unable to parse raw data as a unicode string"⟩
  | foreign {item : Value} (h : ∀ t, item = .text t → ¬ t.Torn) :
      ItemError position item (foreignEntry [.field enabledKey, .position position])

/-- The items that are no dialects with their positions, from the first to the last. -/
structure Strays (items : List Value) (strays : List (Value × Nat)) : Prop where
  increasing : strays.Pairwise fun a b => a.2 < b.2
  mem_iff : ∀ item i, (item, i) ∈ strays ↔ items[i]? = some item ∧ Foreign item

/-- The errors of items: one for each that is no dialect, in the order of their positions. -/
def ItemErrors (items : List Value) (entries : List Entry) : Prop :=
  ∃ strays, Strays items strays ∧
    List.Forall₂ (fun stray entry => ItemError stray.2 stray.1 entry) strays entries

/-- The errors of the field of the enabled dialects. In a list, the first text that is no name hides
all others. -/
inductive EnabledErrors : Value → List Entry → Prop
  | unknown {before after : List Value} {s : String} (hbefore : Familiar before)
      (h : Foreign (.text (.ofString s))) :
      EnabledErrors (.list (before ++ .text (.ofString s) :: after)) [unknownEntry enabledKey s]
  | list {items : List Value} {entries : List Entry} (hfamiliar : Familiar items)
      (h : ItemErrors items entries) : EnabledErrors (.list items) entries
  | tuple {items : List Value} {entries : List Entry} (h : ItemErrors items entries) :
      EnabledErrors (.tuple items) entries
  | set {items : List Value} {entries : List Entry} (h : ItemErrors items entries) :
      EnabledErrors (.set items) entries
  | other {value : Value}
      (h : ∀ items, value ≠ .list items ∧ value ≠ .tuple items ∧ value ≠ .set items) :
      EnabledErrors value
        [⟨"list_type", [.field enabledKey], "Input should be a valid list"⟩]

/-- A value enumerates dialects: it lists them, or is a set of values that name them. -/
inductive Enumerates : Value → List Dialect → Prop
  | lists {value : Value} {dialects : List Dialect} (h : Lists value dialects) :
      Enumerates value dialects
  | set {items : List Value} {dialects : List Dialect} (h : List.Forall₂ Names items dialects) :
      Enumerates (.set items) dialects

theorem foreign_iff {value : Value} : Foreign value ↔ dialectOf? value = none := by
  rw [Option.eq_none_iff_forall_ne_some]
  exact forall_congr' fun d => not_congr dialectOf?_eq_some_iff.symm

theorem foreign_of_torn {t : RawText} (torn : t.Torn) : Foreign (.text t) := by
  intro d h
  cases h
  exact RawText.not_torn_ofString _ torn

theorem unknownText?_eq_some_iff {value : Value} {t : RawText} :
    unknownText? value = some t ↔ value = .text t ∧ Foreign (.text t) := by
  rw [foreign_iff]
  cases value with
  | text u =>
    simp only [unknownText?, dialectOf?, Option.isNone_iff_eq_none, Value.text.injEq]
    constructor
    · intro h
      split at h
      · cases h
        exact ⟨rfl, ‹_›⟩
      · cases h
    · rintro ⟨rfl, h⟩
      rw [if_pos h]
  | _ => simp [unknownText?]

theorem unknownText?_eq_none_iff {value : Value} :
    unknownText? value = none ↔ ∀ t, value = .text t → ¬ Foreign (.text t) := by
  rw [Option.eq_none_iff_forall_ne_some]
  refine forall_congr' fun t => ?_
  rw [ne_eq, unknownText?_eq_some_iff, not_and]

theorem findSome?_unknownText?_eq_none_iff {items : List Value} :
    items.findSome? unknownText? = none ↔ Familiar items := by
  rw [List.findSome?_eq_none_iff]
  constructor
  · intro h t hmem
    exact unknownText?_eq_none_iff.mp (h _ hmem) t rfl
  · intro h item hmem
    refine unknownText?_eq_none_iff.mpr ?_
    rintro t rfl
    exact h t hmem

theorem findSome?_unknownText?_eq_some_iff {items : List Value} {t : RawText} :
    items.findSome? unknownText? = some t ↔ ∃ before after,
      items = before ++ .text t :: after ∧ Familiar before ∧ Foreign (.text t) := by
  rw [List.findSome?_eq_some_iff]
  constructor
  · rintro ⟨before, item, after, rfl, hitem, hbefore⟩
    obtain ⟨rfl, h⟩ := unknownText?_eq_some_iff.mp hitem
    have hnone := List.findSome?_eq_none_iff.mpr hbefore
    exact ⟨before, after, rfl, findSome?_unknownText?_eq_none_iff.mp hnone, h⟩
  · rintro ⟨before, after, rfl, hbefore, h⟩
    have hnone := findSome?_unknownText?_eq_none_iff.mpr hbefore
    exact ⟨before, _, after, rfl, unknownText?_eq_some_iff.mpr ⟨rfl, h⟩,
      List.findSome?_eq_none_iff.mp hnone⟩

theorem names_or_foreign (value : Value) : (∃ d, Names value d) ∨
    (∃ t, value = .text t ∧ Foreign (.text t)) ∨ (∀ t, value ≠ .text t) ∧ Foreign value := by
  by_cases hforeign : Foreign value
  · by_cases htext : ∃ t, value = .text t
    · obtain ⟨t, rfl⟩ := htext
      exact .inr (.inl ⟨t, rfl, hforeign⟩)
    · exact .inr (.inr ⟨not_exists.mp htext, hforeign⟩)
  · exact .inl (not_forall_not.mp hforeign)

def Writable (violations : List Violation) : Prop :=
  violations.findSome? unwritable? = none

theorem writable_append_iff {before after : List Violation} :
    Writable (before ++ after) ↔ Writable before ∧ Writable after := by
  unfold Writable
  rw [List.findSome?_append, Option.or_eq_none_iff]

theorem writable_unknownName_iff {field : String} {t : RawText} :
    Writable [unknownName field t] ↔ ¬ t.Torn := by
  rw [← RawText.any_isHalf_iff]
  cases h : t.any CodePoint.isHalf with
  | true => simp [Writable, unwritable?, h]
  | false => simp [Writable, unwritable?, h]

def Reports (violations : List Violation) (entries : List Entry) : Prop :=
  Writable violations ∧ violations.map entry = entries

theorem reports_nil_iff {entries : List Entry} : Reports [] entries ↔ entries = [] :=
  ⟨fun h => h.2.symm, fun h => ⟨rfl, h.symm⟩⟩

theorem reports_append_iff {before after : List Violation} {entries : List Entry} :
    Reports (before ++ after) entries ↔
      ∃ these those, Reports before these ∧ Reports after those ∧ these ++ those = entries := by
  unfold Reports
  rw [writable_append_iff, List.map_append]
  constructor
  · rintro ⟨⟨hbefore, hafter⟩, h⟩
    exact ⟨_, _, ⟨hbefore, rfl⟩, ⟨hafter, rfl⟩, h⟩
  · rintro ⟨_, _, ⟨hbefore, rfl⟩, ⟨hafter, rfl⟩, h⟩
    exact ⟨⟨hbefore, hafter⟩, h⟩

theorem shown_unknownNameText (name : String) : (unknownNameText (.ofString name)).shown =
    s!"Unknown syntax \x27{name}\x27. Known syntaxes: PYTHON_DSL, SKYLARK" := by
  have hnames : Dialect.knownNames = "PYTHON_DSL, SKYLARK" := by decide +kernel
  have hknown : s!"\x27. Known syntaxes: {Dialect.knownNames}" =
      "\x27. Known syntaxes: PYTHON_DSL, SKYLARK" := by
    rw [hnames]
    decide +kernel
  rw [unknownNameText, hknown, ← RawText.ofString_append, ← RawText.ofString_append,
    RawText.shown_ofString]
  rfl

theorem entry_unknownName (field name : String) :
    (unknownName field (.ofString name)).entry = unknownEntry field name := by
  have hentry : (unknownName field (.ofString name)).entry = ⟨"value_error", [.field field],
      "Value error, " ++ (unknownNameText (.ofString name)).shown⟩ := rfl
  rw [hentry, shown_unknownNameText]
  rfl

theorem entry_notDialect (field : String) (position : Option Nat) :
    (notDialect field position).entry =
      foreignEntry (location (.notDialect field position)) := by
  have hmessage : message (.notDialect field position) =
      "Input should be \x27PYTHON_DSL\x27 or \x27SKYLARK\x27" := by
    change "Input should be " ++ " or ".intercalate (Dialect.all.map fun d => Quoted.quote d.name) =
      _
    decide +kernel
  rw [entry, hmessage]
  rfl

theorem reports_unknownName_iff {field : String} {t : RawText} {entries : List Entry} :
    Reports [unknownName field t] entries ↔
      ∃ s, t = .ofString s ∧ entries = [unknownEntry field s] := by
  rw [Reports, writable_unknownName_iff]
  constructor
  · rintro ⟨whole, rfl⟩
    obtain ⟨s, rfl⟩ := RawText.exists_ofString whole
    rw [List.map_singleton, entry_unknownName]
    exact ⟨s, rfl, rfl⟩
  · rintro ⟨s, rfl, rfl⟩
    rw [List.map_singleton, entry_unknownName]
    exact ⟨RawText.not_torn_ofString s, rfl⟩

def violationsIn {α : Type} : Except (List Violation) α → List Violation
  | .ok _ => []
  | .error violations => violations

theorem readDefault_unknown {t : RawText} (h : Foreign (.text t)) :
    readDefault (.text t) = .error [.unknownName defaultKey t] := by
  rw [readDefault, unknownText?_eq_some_iff.mpr ⟨rfl, h⟩]

theorem readDefault_other {value : Value} (hother : ∀ t, value ≠ .text t) (h : Foreign value) :
    readDefault value = .error [.notDialect defaultKey none] := by
  have hunknown := unknownText?_eq_none_iff.mpr fun t ht => absurd ht (hother t)
  rw [readDefault, hunknown, foreign_iff.mp h]

theorem defaultErrors_iff {value : Value} {entries : List Entry} :
    DefaultErrors value entries ↔ Reports (violationsIn (readDefault value)) entries := by
  constructor
  · intro h
    cases h with
    | fine h =>
      rw [readDefault_eq_ok_iff.mpr h]
      exact reports_nil_iff.mpr rfl
    | text h =>
      rw [readDefault_unknown h]
      exact reports_unknownName_iff.mpr ⟨_, rfl, rfl⟩
    | other hother h =>
      rw [readDefault_other hother h]
      exact ⟨rfl, congrArg (fun e => [e]) (entry_notDialect _ _)⟩
  · intro h
    rcases names_or_foreign value with ⟨d, hd⟩ | ⟨t, rfl, hforeign⟩ | ⟨hother, hforeign⟩
    · rw [readDefault_eq_ok_iff.mpr hd] at h
      rw [reports_nil_iff.mp h]
      exact .fine hd
    · rw [readDefault_unknown hforeign] at h
      obtain ⟨s, rfl, rfl⟩ := reports_unknownName_iff.mp h
      exact .text hforeign
    · rw [readDefault_other hother hforeign] at h
      rw [← h.2, violationsIn, List.map_singleton, entry_notDialect]
      exact .other hother hforeign

theorem readDefault_isWritable_iff {value : Value} :
    Writable (violationsIn (readDefault value)) ↔ ∀ t, value = .text t → ¬ t.Torn := by
  rcases names_or_foreign value with ⟨d, hd⟩ | ⟨t, rfl, hforeign⟩ | ⟨hother, hforeign⟩
  · rw [readDefault_eq_ok_iff.mpr hd]
    refine ⟨?_, fun _ => rfl⟩
    rintro - t rfl torn
    exact foreign_of_torn torn d hd
  · rw [readDefault_unknown hforeign, violationsIn, writable_unknownName_iff]
    simp
  · rw [readDefault_other hother hforeign]
    exact ⟨fun _ t ht => absurd ht (hother t), fun _ => rfl⟩

theorem Strays.unique {items : List Value} {strays others : List (Value × Nat)}
    (h : Strays items strays) (h' : Strays items others) : strays = others := by
  have : Std.Irrefl fun a b : Value × Nat => a.2 < b.2 := ⟨fun a => Nat.lt_irrefl a.2⟩
  have : Std.Antisymm fun a b : Value × Nat => a.2 < b.2 :=
    ⟨fun _ _ hab hba => absurd hab (Nat.lt_asymm hba)⟩
  -- the positions put the members in order, so it is enough that these are the same
  refine h.increasing.eq_of_mem_iff h'.increasing ?_
  rintro ⟨item, i⟩
  rw [h.mem_iff, h'.mem_iff]

theorem strays_filter (items : List Value) :
    Strays items (items.zipIdx.filter fun stray => (dialectOf? stray.1).isNone) := by
  constructor
  · have hpositions : (items.zipIdx.map Prod.snd).Pairwise (· < ·) := by
      rw [List.zipIdx_map_snd]
      exact List.pairwise_lt_range'
    exact (List.pairwise_map.mp hpositions).filter _
  · intro item i
    rw [List.mem_filter, List.mem_zipIdx_iff_getElem?, Option.isNone_iff_eq_none, foreign_iff]

theorem itemViolations_eq_map (items : List Value) (position : Nat) :
    itemViolations position items =
      ((items.zipIdx position).filter fun stray => (dialectOf? stray.1).isNone).map
        fun stray => itemViolation stray.2 stray.1 := by
  induction items generalizing position with
  | nil => rfl
  | cons item rest ih =>
    rw [itemViolations, List.zipIdx_cons]
    cases h : dialectOf? item with
    | some d => simp [ih, h]
    | none => simp [ih, h]

theorem unwritable?_itemViolation (position : Nat) (item : Value) :
    unwritable? (itemViolation position item) = none := by
  unfold itemViolation
  split
  · split <;> rfl
  · rfl

theorem itemError_iff {position : Nat} {item : Value} {e : Entry} :
    ItemError position item e ↔ (itemViolation position item).entry = e := by
  have hforeign : (notDialect enabledKey (some position)).entry =
      foreignEntry [.field enabledKey, .position position] := entry_notDialect _ _
  constructor
  · intro h
    cases h with
    | torn h =>
      rw [itemViolation, if_pos (RawText.any_isHalf_iff.mpr h)]
      rfl
    | foreign h =>
      unfold itemViolation
      split
      · rw [if_neg fun hhalf => h _ rfl (RawText.any_isHalf_iff.mp hhalf), hforeign]
      · exact hforeign
  · rintro rfl
    unfold itemViolation
    split
    · rename_i t
      split
      · exact .torn (RawText.any_isHalf_iff.mp ‹_›)
      · rw [hforeign]
        refine .foreign fun u hu torn => ?_
        cases hu
        exact absurd (RawText.any_isHalf_iff.mpr torn) ‹_›
    · rw [hforeign]
      exact .foreign fun t ht => absurd ht (by grind)

theorem forall₂_itemError_iff {strays : List (Value × Nat)} {entries : List Entry} :
    List.Forall₂ (fun stray e => ItemError stray.2 stray.1 e) strays entries ↔
      (strays.map fun stray => itemViolation stray.2 stray.1).map entry = entries := by
  simp only [itemError_iff]
  rw [List.map_map, ← List.forall₂_eq_eq_eq, List.forall₂_map_left_iff]
  rfl

theorem itemViolations_isWritable (items : List Value) : Writable (itemViolations 0 items) := by
  rw [Writable, itemViolations_eq_map, List.findSome?_eq_none_iff, List.forall_mem_map]
  exact fun stray _ => unwritable?_itemViolation stray.2 stray.1

theorem itemErrors_iff {items : List Value} {entries : List Entry} :
    ItemErrors items entries ↔ Reports (itemViolations 0 items) entries := by
  have hwritable := itemViolations_isWritable items
  unfold Reports ItemErrors
  rw [itemViolations_eq_map] at hwritable ⊢
  rw [← forall₂_itemError_iff]
  constructor
  · rintro ⟨strays, hstrays, h⟩
    cases hstrays.unique (strays_filter items)
    exact ⟨hwritable, h⟩
  · rintro ⟨_, h⟩
    exact ⟨_, strays_filter items, h⟩

theorem readEnabled_unknown {before after : List Value} {t : RawText} (hbefore : Familiar before)
    (h : Foreign (.text t)) : readEnabled (.list (before ++ .text t :: after)) =
      .error [.unknownName enabledKey t] := by
  have hunknown : (before ++ .text t :: after).findSome? unknownText? = some t :=
    findSome?_unknownText?_eq_some_iff.mpr ⟨before, after, rfl, hbefore, h⟩
  simp only [readEnabled, hunknown]

theorem readEnabled_familiar {items : List Value} (h : Familiar items) :
    readEnabled (.list items) = readItems items := by
  simp only [readEnabled, findSome?_unknownText?_eq_none_iff.mpr h]

theorem readEnabled_other {value : Value}
    (h : ∀ items, value ≠ .list items ∧ value ≠ .tuple items ∧ value ≠ .set items) :
    readEnabled value = .error [.notList enabledKey] := by
  cases value with
  | list items => exact absurd rfl (h items).1
  | tuple items => exact absurd rfl (h items).2.1
  | set items => exact absurd rfl (h items).2.2
  | _ => rfl

theorem violationsIn_readItems (items : List Value) :
    violationsIn (readItems items) = itemViolations 0 items := by
  unfold readItems
  cases itemViolations 0 items with
  | nil => rfl
  | cons violation rest => rfl

theorem familiar_or_unknown (items : List Value) : Familiar items ∨ ∃ before t after,
    items = before ++ .text t :: after ∧ Familiar before ∧ Foreign (.text t) := by
  cases h : items.findSome? unknownText? with
  | none => exact .inl (findSome?_unknownText?_eq_none_iff.mp h)
  | some t =>
    obtain ⟨before, after, hsplit⟩ := findSome?_unknownText?_eq_some_iff.mp h
    exact .inr ⟨before, t, after, hsplit⟩

theorem enabledErrors_iff {value : Value} {entries : List Entry} :
    EnabledErrors value entries ↔ Reports (violationsIn (readEnabled value)) entries := by
  constructor
  · intro h
    cases h with
    | unknown hbefore h =>
      rw [readEnabled_unknown hbefore h]
      exact reports_unknownName_iff.mpr ⟨_, rfl, rfl⟩
    | list hfamiliar h =>
      rw [readEnabled_familiar hfamiliar, violationsIn_readItems]
      exact itemErrors_iff.mp h
    | tuple h =>
      rw [readEnabled, violationsIn_readItems]
      exact itemErrors_iff.mp h
    | set h =>
      rw [readEnabled, violationsIn_readItems]
      exact itemErrors_iff.mp h
    | other h =>
      rw [readEnabled_other h]
      exact ⟨rfl, rfl⟩
  · intro h
    cases value with
    | list items =>
      rcases familiar_or_unknown items with hfamiliar | ⟨before, t, after, rfl, hbefore, hforeign⟩
      · rw [readEnabled_familiar hfamiliar, violationsIn_readItems] at h
        exact .list hfamiliar (itemErrors_iff.mpr h)
      · rw [readEnabled_unknown hbefore hforeign] at h
        obtain ⟨s, rfl, rfl⟩ := reports_unknownName_iff.mp h
        exact .unknown hbefore hforeign
    | tuple items =>
      rw [readEnabled, violationsIn_readItems] at h
      exact .tuple (itemErrors_iff.mpr h)
    | set items =>
      rw [readEnabled, violationsIn_readItems] at h
      exact .set (itemErrors_iff.mpr h)
    | _ =>
      cases h.2
      exact .other fun items => ⟨Value.noConfusion, Value.noConfusion, Value.noConfusion⟩

theorem readEnabled_isWritable_iff {value : Value} :
    Writable (violationsIn (readEnabled value)) ↔
      ∀ before t after, value = .list (before ++ .text t :: after) → Familiar before →
        ¬ t.Torn := by
  cases value with
  | list items =>
    constructor
    · rintro h before t after heq hbefore torn
      cases heq
      rw [readEnabled_unknown hbefore (foreign_of_torn torn), violationsIn,
        writable_unknownName_iff] at h
      exact h torn
    · intro h
      rcases familiar_or_unknown items with hfamiliar | ⟨before, t, after, rfl, hbefore, hforeign⟩
      · rw [readEnabled_familiar hfamiliar, violationsIn_readItems]
        exact itemViolations_isWritable items
      · rw [readEnabled_unknown hbefore hforeign, violationsIn, writable_unknownName_iff]
        exact h before t after rfl hbefore
  | tuple items =>
    rw [readEnabled, violationsIn_readItems]
    exact ⟨fun _ _ _ _ heq => Value.noConfusion heq, fun _ => itemViolations_isWritable items⟩
  | set items =>
    rw [readEnabled, violationsIn_readItems]
    exact ⟨fun _ _ _ _ heq => Value.noConfusion heq, fun _ => itemViolations_isWritable items⟩
  | _ => exact ⟨fun _ _ _ _ heq => Value.noConfusion heq, fun _ => rfl⟩

theorem readEnabled_eq_ok_iff_enumerates {value : Value} {dialects : List Dialect} :
    readEnabled value = .ok dialects ↔ Enumerates value dialects := by
  constructor
  · intro h
    cases value with
    | list items => exact .lists (.list (readEnabled_list_eq_ok_iff.mp h))
    | tuple items => exact .lists (.tuple (readItems_eq_ok_iff.mp h))
    | set items => exact .set (readItems_eq_ok_iff.mp h)
    | _ => cases h
  · intro h
    cases h with
    | lists h =>
      cases h with
      | list h => exact readEnabled_list_eq_ok_iff.mpr h
      | tuple h => exact readItems_eq_ok_iff.mpr h
    | set h => exact readItems_eq_ok_iff.mpr h

theorem readDefault_ne_error_nil (value : Value) : readDefault value ≠ .error [] := by
  rcases names_or_foreign value with ⟨d, hd⟩ | ⟨t, rfl, hforeign⟩ | ⟨hother, hforeign⟩
  · simp [readDefault_eq_ok_iff.mpr hd]
  · simp [readDefault_unknown hforeign]
  · simp [readDefault_other hother hforeign]

theorem readItems_ne_error_nil (items : List Value) : readItems items ≠ .error [] := by
  unfold readItems
  cases itemViolations 0 items with
  | nil => simp
  | cons violation rest => simp

theorem readEnabled_ne_error_nil (value : Value) : readEnabled value ≠ .error [] := by
  cases value with
  | list items =>
    rcases familiar_or_unknown items with hfamiliar | ⟨before, t, after, rfl, hbefore, hforeign⟩
    · rw [readEnabled_familiar hfamiliar]
      exact readItems_ne_error_nil items
    · simp [readEnabled_unknown hbefore hforeign]
  | tuple items => exact readItems_ne_error_nil items
  | set items => exact readItems_ne_error_nil items
  | _ => simp [readEnabled]

end Settings
end BuildDialect
