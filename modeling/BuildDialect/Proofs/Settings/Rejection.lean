import BuildDialect.Fault
import BuildDialect.Proofs.Settings.FieldErrors
import BuildDialect.Proofs.Settings.Rereading
import Mathlib.Data.String.Basic

/-!
What is reported of a mapping that is rejected for settings: what is wrong with its fields, or,
where these are fine, the first rule on both that is broken. Mappings in which the name that would
have to be reported is torn are left out.
-/
namespace BuildDialect.Settings

open Value Violation

def notEnabledText (default : Dialect) (enabled : List Dialect) : String :=
  s!"Value error, default_build_file_syntax {default.name} is not in enabled_syntaxes " ++
    s!"{Quoted.listing (enabled.map Dialect.name)}."

/-- The error about the first rule that settings break. -/
inductive Broken (s : Settings) : Entry → Prop
  | nothingEnabled (h : s.enabled = []) : Broken s
      ⟨"value_error", [], "Value error, enabled_syntaxes must contain at least one syntax."⟩
  | repeated {names : List String} (hsome : names ≠ []) (sorted : names.Pairwise (· < ·))
      (mem_iff : ∀ name, name ∈ names ↔ ∃ d : Dialect, d.name = name ∧ 1 < s.enabled.count d) :
      Broken s ⟨"value_error", [],
        s!"Value error, enabled_syntaxes lists {Quoted.listing names} more than once."⟩
  | defaultNotEnabled (hsome : s.enabled ≠ []) (hnodup : s.enabled.Nodup)
      (h : s.defaultDialect ∉ s.enabled) :
      Broken s ⟨"value_error", [], notEnabledText s.defaultDialect s.enabled⟩

/-- The errors that are reported of the pairs of a mapping: those of both fields, or if there are
none, that about the rules on both. -/
inductive Listed (pairs : List (Value × Value)) : List Entry → Prop
  | fields {these those : List Entry} (hdefault : Stands DefaultErrors [] pairs defaultKey these)
      (henabled : Stands EnabledErrors [] pairs enabledKey those) (h : these ++ those ≠ []) :
      Listed pairs (these ++ those)
  | rules {s : Settings} {entry : Entry}
      (hdefault : Stands Names .pythonDsl pairs defaultKey s.defaultDialect)
      (henabled : Stands Enumerates Dialect.all pairs enabledKey s.enabled) (h : Broken s entry) :
      Listed pairs [entry]

/-- The first text in a field that is no name of a dialect is torn. A torn text in a tuple or a set
is no such name, since only lists are searched for them. -/
inductive TornName (pairs : List (Value × Value)) : Prop
  | default {t : RawText} (holds : Holds pairs defaultKey (.text t)) (torn : t.Torn) :
      TornName pairs
  | enabled {before after : List Value} {t : RawText}
      (holds : Holds pairs enabledKey (.list (before ++ .text t :: after)))
      (hbefore : Familiar before) (torn : t.Torn) : TornName pairs

section Fields

variable {pairs : List (Value × Value)} {entries : List Entry}

theorem stands_defaultErrors_iff : Stands DefaultErrors [] pairs defaultKey entries ↔
    Reports (violationsIn (defaultField pairs)) entries := by
  unfold defaultField
  cases h : field? pairs defaultKey with
  | none => rw [stands_missing_iff (field?_eq_none_iff.mp h), violationsIn, reports_nil_iff]
  | some value => rw [stands_given_iff (field?_eq_some_iff.mp h), defaultErrors_iff]

theorem stands_enabledErrors_iff : Stands EnabledErrors [] pairs enabledKey entries ↔
    Reports (violationsIn (enabledField pairs)) entries := by
  unfold enabledField
  cases h : field? pairs enabledKey with
  | none => rw [stands_missing_iff (field?_eq_none_iff.mp h), violationsIn, reports_nil_iff]
  | some value => rw [stands_given_iff (field?_eq_some_iff.mp h), enabledErrors_iff]

theorem enabledField_eq_ok_iff_enumerates {dialects : List Dialect} :
    enabledField pairs = .ok dialects ↔
      Stands Enumerates Dialect.all pairs enabledKey dialects := by
  unfold enabledField
  cases h : field? pairs enabledKey with
  | none => simp [stands_missing_iff (field?_eq_none_iff.mp h), standard, eq_comm]
  | some value =>
    simp [stands_given_iff (field?_eq_some_iff.mp h), readEnabled_eq_ok_iff_enumerates]

theorem defaultField_isWritable_iff : Writable (violationsIn (defaultField pairs)) ↔
    ∀ t, Holds pairs defaultKey (.text t) → ¬ t.Torn := by
  unfold defaultField
  cases h : field? pairs defaultKey with
  | none => simp [Writable, violationsIn, ← field?_eq_some_iff, h]
  | some value => simp [readDefault_isWritable_iff, ← field?_eq_some_iff, h]

theorem enabledField_isWritable_iff : Writable (violationsIn (enabledField pairs)) ↔
    ∀ before t after, Holds pairs enabledKey (.list (before ++ .text t :: after)) →
      Familiar before → ¬ t.Torn := by
  unfold enabledField
  cases h : field? pairs enabledKey with
  | none => simp [Writable, violationsIn, ← field?_eq_some_iff, h]
  | some value => simp [readEnabled_isWritable_iff, ← field?_eq_some_iff, h]

theorem defaultField_ne_error_nil : defaultField pairs ≠ .error [] := by
  unfold defaultField
  cases field? pairs defaultKey with
  | none => simp
  | some value => exact readDefault_ne_error_nil value

theorem enabledField_ne_error_nil : enabledField pairs ≠ .error [] := by
  unfold enabledField
  cases field? pairs enabledKey with
  | none => simp
  | some value => exact readEnabled_ne_error_nil value

theorem violationsIn_eq_nil_iff {α : Type} {read : Except (List Violation) α}
    (h : read ≠ .error []) : violationsIn read = [] ↔ ∃ a, read = .ok a := by
  cases read with
  | ok a => simp [violationsIn]
  | error violations =>
    have hsome : violations ≠ [] := fun hnil => h (hnil ▸ rfl)
    simp [violationsIn, hsome]

def fieldViolations (pairs : List (Value × Value)) : List Violation :=
  violationsIn (defaultField pairs) ++ violationsIn (enabledField pairs)

theorem fieldViolations_eq_nil_iff : fieldViolations pairs = [] ↔
    ∃ s : Settings, defaultField pairs = .ok s.defaultDialect ∧
      enabledField pairs = .ok s.enabled := by
  -- a field that cannot be read has a violation, so that none means that both are read
  rw [fieldViolations, List.append_eq_nil_iff, violationsIn_eq_nil_iff defaultField_ne_error_nil,
    violationsIn_eq_nil_iff enabledField_ne_error_nil]
  constructor
  · rintro ⟨⟨d, hdefault⟩, dialects, henabled⟩
    exact ⟨⟨d, dialects⟩, hdefault, henabled⟩
  · rintro ⟨s, hdefault, henabled⟩
    exact ⟨⟨_, hdefault⟩, _, henabled⟩

theorem ofValue_mapping_of_fields (h : fieldViolations pairs ≠ []) :
    ofValue (.mapping pairs) = .error (fieldViolations pairs) := by
  unfold fieldViolations at h ⊢
  rw [ofValue]
  cases hdefault : defaultField pairs with
  | error these =>
    cases henabled : enabledField pairs with
    | error those => rfl
    | ok dialects => simp [violationsIn]
  | ok d =>
    cases henabled : enabledField pairs with
    | error those => rfl
    | ok dialects =>
      rw [hdefault, henabled] at h
      exact absurd rfl h

theorem ofValue_mapping_of_breach {s : Settings} {violation : Violation}
    (hdefault : defaultField pairs = .ok s.defaultDialect)
    (henabled : enabledField pairs = .ok s.enabled) (h : Breach s violation) :
    ofValue (.mapping pairs) = .error [violation] := by
  have hviolation := h.violation?
  simp only [ofValue, hdefault, henabled, hviolation]

theorem ofValue_mapping_eq_error_iff {violations : List Violation} :
    ofValue (.mapping pairs) = .error violations ↔
      (fieldViolations pairs = violations ∧ violations ≠ []) ∨
      ∃ s violation, defaultField pairs = .ok s.defaultDialect ∧
        enabledField pairs = .ok s.enabled ∧ Breach s violation ∧ violations = [violation] := by
  constructor
  · intro h
    by_cases hfields : fieldViolations pairs = []
    · obtain ⟨s, hdefault, henabled⟩ := fieldViolations_eq_nil_iff.mp hfields
      have hsound : ¬ Sound s := fun sound => by
        have hok := ofValue_mapping_eq_ok_iff.mpr
          ⟨hdefault, henabled, violation?_eq_none_iff.mpr sound⟩
        rw [h] at hok
        cases hok
      obtain ⟨violation, hbreach⟩ := exists_breach hsound
      rw [ofValue_mapping_of_breach hdefault henabled hbreach] at h
      cases h
      exact .inr ⟨s, violation, hdefault, henabled, hbreach, rfl⟩
    · rw [ofValue_mapping_of_fields hfields] at h
      cases h
      exact .inl ⟨rfl, hfields⟩
  · rintro (⟨rfl, hfields⟩ | ⟨s, violation, hdefault, henabled, hbreach, rfl⟩)
    · exact ofValue_mapping_of_fields hfields
    · exact ofValue_mapping_of_breach hdefault henabled hbreach

end Fields

theorem pairwise_repeated (enabled : List Dialect) :
    ((repeated enabled).map Dialect.name).Pairwise (· < ·) := by
  have hall : (Dialect.all.map Dialect.name).Pairwise (· < ·) :=
    List.pairwise_pair.mpr (by decide +kernel)
  exact hall.sublist (List.filter_sublist.map Dialect.name)

theorem mem_repeated_iff {enabled : List Dialect} {name : String} :
    name ∈ (repeated enabled).map Dialect.name ↔
      ∃ d : Dialect, d.name = name ∧ 1 < enabled.count d := by
  simp [repeated, Dialect.mem_all, and_comm]

theorem broken_iff {s : Settings} {e : Entry} :
    Broken s e ↔ ∃ violation, Breach s violation ∧ violation.entry = e := by
  constructor
  · intro h
    cases h with
    | nothingEnabled h => exact ⟨_, .nothingEnabled h, rfl⟩
    | @repeated names hsome sorted mem_iff =>
      have hnames : names = (repeated s.enabled).map Dialect.name := by
        refine sorted.eq_of_mem_iff (pairwise_repeated s.enabled) fun name => ?_
        rw [mem_iff, mem_repeated_iff]
      have hnodup : ¬ s.enabled.Nodup := fun hnodup => by
        rw [repeated_eq_nil_iff.mpr hnodup] at hnames
        exact hsome hnames
      have henabled : s.enabled ≠ [] := fun hnil => hnodup (hnil ▸ List.nodup_nil)
      exact ⟨_, .repeated henabled hnodup, by rw [hnames]; rfl⟩
    | defaultNotEnabled hsome hnodup h => exact ⟨_, .defaultNotEnabled hsome hnodup h, rfl⟩
  · rintro ⟨violation, h, rfl⟩
    cases h with
    | nothingEnabled h => exact .nothingEnabled h
    | repeated hsome h =>
      have hrepeated : (repeated s.enabled).map Dialect.name ≠ [] := fun hnil =>
        h (repeated_eq_nil_iff.mp (List.map_eq_nil_iff.mp hnil))
      exact .repeated hrepeated (pairwise_repeated s.enabled) fun name => mem_repeated_iff
    | defaultNotEnabled hsome hnodup h => exact .defaultNotEnabled hsome hnodup h

theorem Breach.isWritable {s : Settings} {violation : Violation} (h : Breach s violation) :
    Writable [violation] := by
  cases h with
  | nothingEnabled => rfl
  | repeated => rfl
  | defaultNotEnabled => rfl

def Refuses (value : Value) (fault : SettingsFault) : Prop :=
  ∃ violations, ofValue value = .error violations ∧ SettingsFault.ofViolations violations = fault

theorem refuses_invalid_iff {value : Value} {violations : List Violation} :
    Refuses value (.invalid violations) ↔
      ofValue value = .error violations ∧ Writable violations := by
  unfold Refuses SettingsFault.ofViolations Writable
  constructor
  · rintro ⟨violations, hvalue, h⟩
    split at h
    · cases h
    · cases h
      exact ⟨hvalue, ‹_›⟩
  · rintro ⟨hvalue, h⟩
    exact ⟨violations, hvalue, by rw [h]⟩

/-- The errors of a report on a value that is refused. -/
def Reported (value : Value) (entries : List Entry) : Prop :=
  ∃ violations, Refuses value (.invalid violations) ∧ violations.map entry = entries

section Rejection

variable {pairs : List (Value × Value)} {entries : List Entry}

theorem reported_iff {value : Value} : Reported value entries ↔
    ∃ violations, ofValue value = .error violations ∧ Reports violations entries := by
  simp only [Reported, refuses_invalid_iff, and_assoc, Reports]

theorem Reported.unique {value : Value} {others : List Entry} (h : Reported value entries)
    (h' : Reported value others) : entries = others := by
  obtain ⟨violations, hvalue, hreports⟩ := reported_iff.mp h
  obtain ⟨same, hsame, hothers⟩ := reported_iff.mp h'
  rw [hvalue] at hsame
  cases hsame
  rw [← hreports.2, ← hothers.2]

theorem reports_fieldViolations_iff : Reports (fieldViolations pairs) entries ↔
    ∃ these those, Stands DefaultErrors [] pairs defaultKey these ∧
      Stands EnabledErrors [] pairs enabledKey those ∧ these ++ those = entries := by
  simp only [fieldViolations, reports_append_iff, stands_defaultErrors_iff,
    stands_enabledErrors_iff]

theorem Reports.eq_nil_iff {violations : List Violation} (h : Reports violations entries) :
    violations = [] ↔ entries = [] := by
  rw [← h.2, List.map_eq_nil_iff]

theorem reported_mapping_iff : Reported (.mapping pairs) entries ↔ Listed pairs entries := by
  rw [reported_iff]
  constructor
  · rintro ⟨violations, hvalue, hreports⟩
    rcases ofValue_mapping_eq_error_iff.mp hvalue with
      ⟨rfl, hsome⟩ | ⟨s, violation, hdefault, henabled, hbreach, rfl⟩
    · obtain ⟨these, those, hthese, hthose, rfl⟩ := reports_fieldViolations_iff.mp hreports
      exact .fields hthese hthose fun hnil => hsome (hreports.eq_nil_iff.mpr hnil)
    · rw [← hreports.2]
      exact .rules (defaultField_eq_ok_iff.mp hdefault)
        (enabledField_eq_ok_iff_enumerates.mp henabled) (broken_iff.mpr ⟨violation, hbreach, rfl⟩)
  · intro h
    cases h with
    | fields hthese hthose hsome =>
      have hreports := reports_fieldViolations_iff.mpr ⟨_, _, hthese, hthose, rfl⟩
      have hfields : fieldViolations pairs ≠ [] := fun hnil => hsome (hreports.eq_nil_iff.mp hnil)
      exact ⟨_, ofValue_mapping_of_fields hfields, hreports⟩
    | rules hdefault henabled h =>
      obtain ⟨violation, hbreach, rfl⟩ := broken_iff.mp h
      have hvalue := ofValue_mapping_of_breach (defaultField_eq_ok_iff.mpr hdefault)
        (enabledField_eq_ok_iff_enumerates.mpr henabled) hbreach
      exact ⟨[violation], hvalue, hbreach.isWritable, rfl⟩

theorem fieldViolations_isWritable (whole : ¬ TornName pairs) :
    Writable (fieldViolations pairs) := by
  refine writable_append_iff.mpr ⟨?_, ?_⟩
  · rw [defaultField_isWritable_iff]
    exact fun t holds torn => whole (.default holds torn)
  · rw [enabledField_isWritable_iff]
    exact fun before t after holds hbefore torn => whole (.enabled holds hbefore torn)

/-- If no name is torn, there is a report on every mapping that is not accepted. -/
theorem exists_reported (whole : ¬ TornName pairs) (h : ∀ s, ofValue (.mapping pairs) ≠ .ok s) :
    ∃ entries, Reported (.mapping pairs) entries := by
  cases hvalue : ofValue (.mapping pairs) with
  | ok s => exact absurd hvalue (h s)
  | error violations =>
    have hwritable : Writable violations := by
      rcases ofValue_mapping_eq_error_iff.mp hvalue with
        ⟨rfl, _⟩ | ⟨s, violation, _, _, hbreach, rfl⟩
      · exact fieldViolations_isWritable whole
      · exact hbreach.isWritable
    exact ⟨_, reported_iff.mpr ⟨violations, hvalue, hwritable, rfl⟩⟩

end Rejection

/-- What becomes of a mapping that is not accepted: its errors are reported, and nothing else. -/
structure Rejected (pairs : List (Value × Value)) : Prop where
  rejected_iff : (∀ s, ofValue (.mapping pairs) ≠ .ok s) ↔ ∃ entries, Listed pairs entries
  reported_iff : ∀ entries, Reported (.mapping pairs) entries ↔ Listed pairs entries

theorem ofValue_rejected {pairs : List (Value × Value)} (whole : ¬ TornName pairs) :
    Rejected pairs := by
  refine ⟨⟨fun h => ?_, ?_⟩, fun _ => reported_mapping_iff⟩
  · obtain ⟨entries, hreported⟩ := exists_reported whole h
    exact ⟨entries, reported_mapping_iff.mp hreported⟩
  · rintro ⟨entries, h⟩ s hok
    obtain ⟨violations, hvalue, _⟩ := Settings.reported_iff.mp (reported_mapping_iff.mpr h)
    rw [hvalue] at hok
    cases hok

/-- A tuple is searched for dialects, not for names. -/
theorem ofValue_rejected_sample :
    let items : List Value := [.text (.ofString "SKYLARK"), .scalar .nothing, .text [.half 0]]
    let pairs : List (Value × Value) := [(.text (.ofString enabledKey), .tuple items),
      (.text (.ofString defaultKey), .text (.ofString "JSON"))]
    ¬ TornName pairs ∧
      Listed pairs [unknownEntry defaultKey "JSON",
        foreignEntry [.field enabledKey, .position 1],
        ⟨"string_unicode", [.field enabledKey, .position 2],
          "Input should be a valid string, unable to parse raw data as a unicode string"⟩] ∧
      Rejected pairs := by
  intro items pairs
  have hdefault : Holds pairs defaultKey (.text (.ofString "JSON")) := field?_eq_some_iff.mp rfl
  have henabled : Holds pairs enabledKey (.tuple items) := field?_eq_some_iff.mp rfl
  have whole : ¬ TornName pairs := by
    intro h
    cases h with
    | default holds torn =>
      cases holds.unique hdefault
      exact RawText.not_torn_ofString _ torn
    | enabled holds _ _ => cases holds.unique henabled
  have hvalue : ofValue (.mapping pairs) = .error [.unknownName defaultKey (.ofString "JSON"),
      .notDialect enabledKey (some 1), .noCharacters enabledKey 2] := by rfl
  have hreports : Reported (.mapping pairs) _ := reported_iff.mpr ⟨_, hvalue, rfl, rfl⟩
  have hrejected := ofValue_rejected whole
  refine ⟨whole, (hrejected.reported_iff _).mp ?_, hrejected⟩
  rw [List.map_cons, entry_unknownName, List.map_cons, entry_notDialect] at hreports
  exact hreports

example :
    let items : List Value :=
      [.text (.ofString "SKYLARK"), .scalar .nothing, .text (.ofString "JSON")]
    let value (enabled : Value) : Value := .mapping [(.text (.ofString enabledKey), enabled),
      (.text (.ofString defaultKey), .scalar (.integer 5))]
    ofValue (value (.tuple items)) = .error [.notDialect defaultKey none,
        .notDialect enabledKey (some 1), .notDialect enabledKey (some 2)] ∧
      ofValue (value (.list items)) = .error [.notDialect defaultKey none,
        .unknownName enabledKey (.ofString "JSON")] := by
  decide +kernel

/-- A torn text in a tuple is not reported as an item that is no dialect; and a set is read as a
list. -/
theorem reported_torn_and_set :
    let alone (value : Value) : Value := .mapping [(.text (.ofString enabledKey), value)]
    let torn : Value := .tuple [.text [.half 0]]
    let strange : Value := .set [.text (.ofString "JSON")]
    let noCharacters : Entry := ⟨"string_unicode", [.field enabledKey, .position 0],
      "Input should be a valid string, unable to parse raw data as a unicode string"⟩
    let noDialect : Entry := foreignEntry [.field enabledKey, .position 0]
    let noList : Entry := ⟨"list_type", [.field enabledKey], "Input should be a valid list"⟩
    (Reported (alone torn) [noCharacters] ∧ ¬ Reported (alone torn) [noDialect]) ∧
      Reported (alone strange) [noDialect] ∧ ¬ Reported (alone strange) [noList] := by
  intro alone torn strange noCharacters noDialect noList
  have htuple : ofValue (alone torn) = .error [.noCharacters enabledKey 0] := by rfl
  have hset : ofValue (alone strange) = .error [.notDialect enabledKey (some 0)] := by rfl
  have hcharacters : Reported (alone torn) [noCharacters] :=
    reported_iff.mpr ⟨_, htuple, rfl, rfl⟩
  have hdialect : Reported (alone strange) [noDialect] :=
    reported_iff.mpr ⟨_, hset, rfl, congrArg (fun e => [e]) (entry_notDialect _ _)⟩
  refine ⟨⟨hcharacters, fun h => ?_⟩, hdialect, fun h => ?_⟩
  · exact absurd (hcharacters.unique h) (by decide)
  · exact absurd (hdialect.unique h) (by decide)

end BuildDialect.Settings
