import BuildDialect.Settings.Validation
import BuildDialect.Settings.Written
import Mathlib.Data.List.Forall2
import Mathlib.Data.List.Nodup

/-!
Which values are accepted for settings, and what they stand for. A field that is missing stands for
the standard; the rules on both fields apply to what they stand for, not to what is given.
-/
namespace BuildDialect

theorem CodePoint.char?_eq_some_iff {point : CodePoint} {c : Char} :
    point.char? = some c ↔ point = .char c := by
  cases point <;> simp [char?]

theorem RawText.mapM_char?_eq_some_iff {text : RawText} {chars : List Char} :
    text.mapM CodePoint.char? = some chars ↔ text = ofChars chars := by
  constructor
  · intro h
    induction text generalizing chars with
    | nil => simp_all [ofChars]
    | cons point rest ih =>
      rw [List.mapM_cons, Option.bind_eq_bind, Option.bind_eq_some_iff] at h
      obtain ⟨c, hc, h⟩ := h
      rw [Option.bind_eq_bind, Option.bind_eq_some_iff] at h
      obtain ⟨tail, htail, h⟩ := h
      cases h
      rw [CodePoint.char?_eq_some_iff.mp hc, ih htail]
      rfl
  · rintro rfl
    exact mapM_char?_ofChars chars

theorem RawText.string?_eq_some_iff {text : RawText} {s : String} :
    text.string? = some s ↔ text = ofString s := by
  unfold string? ofString
  rw [Option.map_eq_some_iff]
  constructor
  · rintro ⟨chars, hchars, rfl⟩
    rw [mapM_char?_eq_some_iff.mp hchars, String.toList_ofList]
  · rintro rfl
    exact ⟨s.toList, mapM_char?_ofChars _, String.ofList_toList⟩

namespace Value

/-- Values as they come from JSON, except that dialects and tuples may stand in them too. The keys
of a mapping may be anything. -/
inductive IsJson : Value → Prop
  | nothing : IsJson (.scalar .nothing)
  | truth (b : Bool) : IsJson (.scalar (.truth b))
  | integer (n : Int) : IsJson (.scalar (.integer n))
  | real (x : Double) : IsJson (.scalar (.real x))
  | text (t : RawText) : IsJson (.text t)
  | dialect (d : Dialect) : IsJson (.dialect d)
  | list {items : List Value} (h : ∀ item ∈ items, IsJson item) : IsJson (.list items)
  | tuple {items : List Value} (h : ∀ item ∈ items, IsJson item) : IsJson (.tuple items)
  | mapping {pairs : List (Value × Value)} (h : ∀ pair ∈ pairs, IsJson pair.2) :
      IsJson (.mapping pairs)

/-- A value names a dialect: it is the dialect, or the text of its name. -/
inductive Names : Value → Dialect → Prop
  | dialect (d : Dialect) : Names (.dialect d) d
  | text (d : Dialect) : Names (.text (.ofString d.name)) d

/-- A value lists dialects: it is a list or a tuple of values that name them in order. -/
inductive Lists : Value → List Dialect → Prop
  | list {items : List Value} {dialects : List Dialect} (h : List.Forall₂ Names items dialects) :
      Lists (.list items) dialects
  | tuple {items : List Value} {dialects : List Dialect} (h : List.Forall₂ Names items dialects) :
      Lists (.tuple items) dialects

/-- The pairs of a mapping hold a value under a key: of those with that key, it is in the last. -/
def Holds (pairs : List (Value × Value)) (key : String) (value : Value) : Prop :=
  ∃ before after, pairs = before ++ (.text (.ofString key), value) :: after ∧
    ∀ pair ∈ after, pair.1 ≠ .text (.ofString key)

/-- What the field of a key stands for: what its value does, or the standard if there is none. -/
inductive Stands {α : Type} (means : Value → α → Prop) (standard : α)
    (pairs : List (Value × Value)) (key : String) : α → Prop
  | given {value : Value} {a : α} (holds : Holds pairs key value) (h : means value a) :
      Stands means standard pairs key a
  | missing (h : ∀ pair ∈ pairs, pair.1 ≠ .text (.ofString key)) :
      Stands means standard pairs key standard

theorem isText_iff {key : String} {value : Value} :
    value.isText key = true ↔ value = .text (.ofString key) := by
  cases value <;> simp [isText]

theorem field?_eq_some_iff {pairs : List (Value × Value)} {key : String} {value : Value} :
    field? pairs key = some value ↔ Holds pairs key value := by
  unfold field? Holds
  rw [Option.map_eq_some_iff]
  constructor
  · rintro ⟨⟨k, v⟩, hfind, rfl⟩
    obtain ⟨hkey, after, before, hsplit, hafter⟩ := List.find?_eq_some_iff_append.mp hfind
    cases isText_iff.mp hkey
    refine ⟨before.reverse, after.reverse, ?_, fun pair hpair heq => ?_⟩
    · rw [← List.reverse_reverse pairs, hsplit]
      simp
    · have hno := hafter pair (List.mem_reverse.mp hpair)
      rw [isText_iff.mpr heq] at hno
      cases hno
  · rintro ⟨before, after, rfl, hafter⟩
    refine ⟨(.text (.ofString key), value), ?_, rfl⟩
    refine List.find?_eq_some_iff_append.mpr
      ⟨isText_iff.mpr rfl, after.reverse, before.reverse, ?_, ?_⟩
    · simp
    · intro pair hpair
      have hno := hafter pair (List.mem_reverse.mp hpair)
      rw [Bool.not_eq_true', Bool.eq_false_iff]
      exact fun heq => hno (isText_iff.mp heq)

theorem field?_eq_none_iff {pairs : List (Value × Value)} {key : String} :
    field? pairs key = none ↔ ∀ pair ∈ pairs, pair.1 ≠ .text (.ofString key) := by
  unfold field?
  rw [Option.map_eq_none_iff, List.find?_eq_none]
  simp only [List.mem_reverse, isText_iff, ne_eq]

theorem Holds.unique {pairs : List (Value × Value)} {key : String} {value other : Value}
    (h : Holds pairs key value) (h' : Holds pairs key other) : value = other := by
  rw [← field?_eq_some_iff] at h h'
  rw [h] at h'
  exact Option.some.inj h'

theorem Holds.exists_key {pairs : List (Value × Value)} {key : String} {value : Value}
    (h : Holds pairs key value) : ∃ pair ∈ pairs, pair.1 = .text (.ofString key) := by
  obtain ⟨before, after, rfl, _⟩ := h
  exact ⟨_, List.mem_append_right _ List.mem_cons_self, rfl⟩

section Stands

variable {α : Type} {means : Value → α → Prop} {standard a : α} {pairs : List (Value × Value)}
  {key : String}

theorem stands_given_iff {value : Value} (holds : Holds pairs key value) :
    Stands means standard pairs key a ↔ means value a := by
  constructor
  · intro h
    cases h with
    | given holds' h => exact holds.unique holds' ▸ h
    | missing h =>
      obtain ⟨pair, hpair, hkey⟩ := holds.exists_key
      exact absurd hkey (h pair hpair)
  · exact .given holds

theorem stands_missing_iff (missing : ∀ pair ∈ pairs, pair.1 ≠ .text (.ofString key)) :
    Stands means standard pairs key a ↔ a = standard := by
  constructor
  · intro h
    cases h with
    | given holds h =>
      obtain ⟨pair, hpair, hkey⟩ := holds.exists_key
      exact absurd hkey (missing pair hpair)
    | missing h => rfl
  · rintro rfl
    exact .missing missing

end Stands

theorem IsJson.of_holds {pairs : List (Value × Value)} {key : String} {value : Value}
    (json : IsJson (.mapping pairs)) (holds : Holds pairs key value) : IsJson value := by
  obtain ⟨before, after, rfl, _⟩ := holds
  cases json with
  | mapping h => exact h (.text (.ofString key), value) (by simp)

end Value

namespace Settings

open Value

theorem named?_eq_some_iff {name : RawText} {d : Dialect} :
    named? name = some d ↔ name = .ofString d.name := by
  unfold named?
  rw [Option.bind_eq_some_iff]
  constructor
  · rintro ⟨s, hs, hd⟩
    rw [RawText.string?_eq_some_iff.mp hs, Dialect.ofName?_eq_some_iff.mp hd]
  · rintro rfl
    exact ⟨d.name, RawText.string?_ofString _, Dialect.ofName?_name d⟩

theorem dialectOf?_eq_some_iff {value : Value} {d : Dialect} :
    dialectOf? value = some d ↔ Names value d := by
  constructor
  · intro h
    cases value with
    | dialect d' =>
      cases h
      exact .dialect d
    | text t =>
      cases named?_eq_some_iff.mp h
      exact .text d
    | _ => cases h
  · intro h
    cases h with
    | dialect => rfl
    | text => exact named?_eq_some_iff.mpr rfl

theorem unknownText?_of_names {value : Value} {d : Dialect} (h : Names value d) :
    unknownText? value = none := by
  cases h with
  | dialect => rfl
  | text =>
    have hnamed : named? (.ofString d.name) = some d := named?_eq_some_iff.mpr rfl
    simp [unknownText?, hnamed]

theorem readDefault_eq_ok_iff {value : Value} {d : Dialect} :
    readDefault value = .ok d ↔ Names value d := by
  rw [← dialectOf?_eq_some_iff]
  constructor
  · intro h
    unfold readDefault at h
    split at h
    · cases h
    · rename_i hdialect
      cases h
      exact hdialect
    · cases h
  · intro h
    have hknown := unknownText?_of_names (dialectOf?_eq_some_iff.mp h)
    unfold readDefault
    rw [hknown, h]

theorem itemViolations_eq_nil_iff {items : List Value} (position : Nat) :
    itemViolations position items = [] ↔ ∀ item ∈ items, (dialectOf? item).isSome := by
  induction items generalizing position with
  | nil => simp [itemViolations]
  | cons item rest ih =>
    rw [itemViolations, List.forall_mem_cons]
    cases h : dialectOf? item with
    | none => simp
    | some d => simpa using ih (position + 1)

theorem filterMap_dialectOf?_iff {items : List Value} {dialects : List Dialect} :
    ((∀ item ∈ items, (dialectOf? item).isSome) ∧ items.filterMap dialectOf? = dialects) ↔
      List.Forall₂ Names items dialects := by
  induction items generalizing dialects with
  | nil =>
    rw [List.forall₂_nil_left_iff, List.filterMap_nil]
    exact ⟨fun h => h.2.symm, fun h => ⟨List.forall_mem_nil _, h.symm⟩⟩
  | cons item rest ih =>
    rw [List.forall_mem_cons, List.forall₂_cons_left_iff]
    cases h : dialectOf? item with
    | none =>
      have hno : ∀ d, ¬ Names item d := fun d hd => by
        rw [dialectOf?_eq_some_iff.mpr hd] at h
        cases h
      simp [hno]
    | some d =>
      rw [List.filterMap_cons_some h]
      constructor
      · rintro ⟨⟨_, hrest⟩, rfl⟩
        exact ⟨d, _, dialectOf?_eq_some_iff.mp h, ih.mp ⟨hrest, rfl⟩, rfl⟩
      · rintro ⟨d', tail, hd', htail, rfl⟩
        obtain ⟨hrest, hfilter⟩ := ih.mpr htail
        rw [dialectOf?_eq_some_iff.mpr hd'] at h
        cases h
        exact ⟨⟨rfl, hrest⟩, by rw [hfilter]⟩

theorem readItems_eq_ok_iff {items : List Value} {dialects : List Dialect} :
    readItems items = .ok dialects ↔ List.Forall₂ Names items dialects := by
  rw [← filterMap_dialectOf?_iff, ← itemViolations_eq_nil_iff 0]
  unfold readItems
  cases itemViolations 0 items with
  | nil => simp
  | cons violation rest => simp

theorem readEnabled_list_eq_ok_iff {items : List Value} {dialects : List Dialect} :
    readEnabled (.list items) = .ok dialects ↔ List.Forall₂ Names items dialects := by
  rw [← readItems_eq_ok_iff]
  cases hunknown : items.findSome? unknownText? with
  | none => simp only [readEnabled, hunknown]
  | some text =>
    simp only [readEnabled, hunknown, reduceCtorEq, false_iff]
    intro hitems
    obtain ⟨item, hitem, htext⟩ := List.exists_of_findSome?_eq_some hunknown
    have hsome := (filterMap_dialectOf?_iff.mpr (readItems_eq_ok_iff.mp hitems)).1 item hitem
    obtain ⟨d, hd⟩ := Option.isSome_iff_exists.mp hsome
    rw [unknownText?_of_names (dialectOf?_eq_some_iff.mp hd)] at htext
    cases htext

/-- A value from JSON is no set, which would be read as a list too. -/
theorem readEnabled_eq_ok_iff {value : Value} (json : IsJson value) {dialects : List Dialect} :
    readEnabled value = .ok dialects ↔ Lists value dialects := by
  constructor
  · intro h
    cases json with
    | list _ => exact .list (readEnabled_list_eq_ok_iff.mp h)
    | tuple _ => exact .tuple (readItems_eq_ok_iff.mp h)
    | _ => cases h
  · intro h
    cases h with
    | list h => exact readEnabled_list_eq_ok_iff.mpr h
    | tuple h => exact readItems_eq_ok_iff.mpr h

structure Sound (s : Settings) : Prop where
  nonempty : s.enabled ≠ []
  nodup : s.enabled.Nodup
  contained : s.defaultDialect ∈ s.enabled

theorem repeated_eq_nil_iff {enabled : List Dialect} : repeated enabled = [] ↔ enabled.Nodup := by
  unfold repeated
  rw [List.filter_eq_nil_iff, List.nodup_iff_count_le_one]
  constructor
  · intro h d
    have hd := h d (Dialect.mem_all d)
    rw [decide_eq_true_eq] at hd
    omega
  · intro h d _ hd
    have hle := h d
    rw [decide_eq_true_eq] at hd
    omega

theorem violation?_eq_none_iff {s : Settings} : violation? s = none ↔ Sound s := by
  unfold violation?
  constructor
  · intro h
    split_ifs at h with hempty hrepeated hcontained
    refine ⟨?_, ?_, ?_⟩
    · simpa using hempty
    · exact repeated_eq_nil_iff.mp (by simpa using hrepeated)
    · simpa using hcontained
  · rintro ⟨nonempty, nodup, contained⟩
    have hrepeated := repeated_eq_nil_iff.mpr nodup
    simp [nonempty, hrepeated, contained]

theorem defaultField_eq_ok_iff {pairs : List (Value × Value)} {d : Dialect} :
    defaultField pairs = .ok d ↔ Stands Names .pythonDsl pairs defaultKey d := by
  unfold defaultField
  cases h : field? pairs defaultKey with
  | none => simp [stands_missing_iff (field?_eq_none_iff.mp h), standard, eq_comm]
  | some value => simp [stands_given_iff (field?_eq_some_iff.mp h), readDefault_eq_ok_iff]

theorem enabledField_eq_ok_iff {pairs : List (Value × Value)} (json : IsJson (.mapping pairs))
    {dialects : List Dialect} :
    enabledField pairs = .ok dialects ↔ Stands Lists Dialect.all pairs enabledKey dialects := by
  unfold enabledField
  cases h : field? pairs enabledKey with
  | none => simp [stands_missing_iff (field?_eq_none_iff.mp h), standard, eq_comm]
  | some value =>
    have holds := field?_eq_some_iff.mp h
    simp [stands_given_iff holds, readEnabled_eq_ok_iff (json.of_holds holds)]

/-- A value describes settings: it is a mapping, its fields stand for the two parts, and these obey
the rules. -/
def Describes (value : Value) (s : Settings) : Prop :=
  ∃ pairs, value = .mapping pairs ∧ Stands Names .pythonDsl pairs defaultKey s.defaultDialect ∧
    Stands Lists Dialect.all pairs enabledKey s.enabled ∧ Sound s

theorem ofValue_mapping_eq_ok_iff {pairs : List (Value × Value)} {s : Settings} :
    ofValue (.mapping pairs) = .ok s ↔ defaultField pairs = .ok s.defaultDialect ∧
      enabledField pairs = .ok s.enabled ∧ violation? s = none := by
  rw [ofValue]
  cases hdefault : defaultField pairs with
  | error these => cases enabledField pairs <;> simp
  | ok d =>
    cases henabled : enabledField pairs with
    | error those => simp
    | ok dialects =>
      obtain ⟨d', dialects'⟩ := s
      dsimp only
      cases hviolation : violation? ⟨d, dialects⟩ with
      | none =>
        dsimp only
        constructor
        · intro h
          cases h
          exact ⟨rfl, rfl, hviolation⟩
        · rintro ⟨hd, hl, _⟩
          cases hd
          cases hl
          rfl
      | some violation =>
        dsimp only
        constructor
        · intro h
          cases h
        · rintro ⟨hd, hl, hnone⟩
          cases hd
          cases hl
          rw [hviolation] at hnone
          cases hnone

theorem ofValue_eq_ok_iff {value : Value} (json : IsJson value) {s : Settings} :
    ofValue value = .ok s ↔ Describes value s := by
  constructor
  · intro h
    cases value with
    | mapping pairs =>
      obtain ⟨hdefault, henabled, hnone⟩ := ofValue_mapping_eq_ok_iff.mp h
      exact ⟨pairs, rfl, defaultField_eq_ok_iff.mp hdefault,
        (enabledField_eq_ok_iff json).mp henabled, violation?_eq_none_iff.mp hnone⟩
    | _ => cases h
  · rintro ⟨pairs, rfl, hdefault, henabled, sound⟩
    exact ofValue_mapping_eq_ok_iff.mpr ⟨defaultField_eq_ok_iff.mpr hdefault,
      (enabledField_eq_ok_iff json).mpr henabled, violation?_eq_none_iff.mpr sound⟩

theorem ofValue_congr {pairs others : List (Value × Value)}
    (h : ∀ key ∈ [defaultKey, enabledKey], ∀ value,
      Holds pairs key value ↔ Holds others key value) :
    ofValue (.mapping pairs) = ofValue (.mapping others) := by
  have hfield : ∀ key ∈ [defaultKey, enabledKey], field? pairs key = field? others key := by
    intro key hkey
    refine Option.ext fun value => ?_
    rw [field?_eq_some_iff, field?_eq_some_iff, h key hkey value]
  have hdefault : defaultField pairs = defaultField others := by
    rw [defaultField, defaultField, hfield defaultKey (by simp)]
  have henabled : enabledField pairs = enabledField others := by
    rw [enabledField, enabledField, hfield enabledKey (by simp)]
  rw [ofValue, ofValue, hdefault, henabled]

theorem forall₂_names (dialects : List Dialect) :
    List.Forall₂ Names (dialects.map fun d => .text (.ofString d.name)) dialects := by
  induction dialects with
  | nil => exact .nil
  | cons d rest ih => exact .cons (.text d) ih

theorem stands_dump (s : Settings) : ∃ pairs, s.dump = .mapping pairs ∧
    Stands Names .pythonDsl pairs defaultKey s.defaultDialect ∧
      Stands Lists Dialect.all pairs enabledKey s.enabled := by
  refine ⟨_, rfl, .given ⟨[], _, rfl, ?_⟩ (.text _), .given ⟨[_], [], rfl, ?_⟩ (.list ?_)⟩
  · rw [List.forall_mem_singleton, ne_eq, Value.text.injEq]
    decide
  · exact List.forall_mem_nil _
  · exact forall₂_names s.enabled

theorem describes_dump {s : Settings} (sound : Sound s) : Describes s.dump s := by
  obtain ⟨pairs, hpairs, hdefault, henabled⟩ := stands_dump s
  exact ⟨pairs, hpairs, hdefault, henabled, sound⟩

theorem isJson_dump (s : Settings) : IsJson s.dump := by
  refine .mapping fun pair hpair => ?_
  rcases List.mem_cons.mp hpair with rfl | hpair
  · exact .text _
  · rw [List.mem_singleton.mp hpair]
    refine .list fun item hitem => ?_
    obtain ⟨d, _, rfl⟩ := List.mem_map.mp hitem
    exact .text _

/-- Settings that are dumped are checked again, and nothing else can be wrong with them. -/
theorem ofValue_dump (s : Settings) : ofValue s.dump =
    match violation? s with
    | none => .ok s
    | some violation => .error [violation] := by
  obtain ⟨pairs, hpairs, hdefault, henabled⟩ := stands_dump s
  have json := isJson_dump s
  rw [hpairs] at json ⊢
  have hdefaultField := defaultField_eq_ok_iff.mpr hdefault
  have henabledField := (enabledField_eq_ok_iff json).mpr henabled
  cases hviolation : violation? s with
  | none => simp only [ofValue, hdefaultField, henabledField, hviolation]
  | some violation => simp only [ofValue, hdefaultField, henabledField, hviolation]

structure Accepted (value : Value) : Prop where
  describes : ∀ s, ofValue value = .ok s ↔ Describes value s
  /-- Keys that are no field have no effect. -/
  others : ∀ pairs others, value = .mapping pairs →
    (∀ key ∈ [defaultKey, enabledKey], ∀ v, Holds pairs key v ↔ Holds others key v) →
    ofValue (.mapping others) = ofValue value
  dumped : ∀ s, ofValue value = .ok s → ofValue s.dump = .ok s

theorem ofValue_accepted {value : Value} (json : IsJson value) : Accepted value := by
  refine ⟨fun s => ofValue_eq_ok_iff json, ?_, fun s h => ?_⟩
  · rintro pairs others rfl h
    exact (ofValue_congr h).symm
  · obtain ⟨_, _, _, _, sound⟩ := (ofValue_eq_ok_iff json).mp h
    exact (ofValue_eq_ok_iff (isJson_dump s)).mpr (describes_dump sound)

theorem ofValue_accepted_sample :
    let items : List Value := [.text (.ofString "SKYLARK"), .dialect .pythonDsl]
    let value : Value := .mapping [(.text (.ofString defaultKey), .text (.ofString "SKYLARK")),
      (.text (.ofString "parsers"), .scalar .nothing), (.text (.ofString enabledKey), .tuple items)]
    IsJson value ∧ Accepted value ∧ ofValue value = .ok ⟨.skylark, [.skylark, .pythonDsl]⟩ := by
  intro items value
  have hitems : ∀ item ∈ items, IsJson item :=
    List.forall_mem_cons.mpr ⟨.text _, List.forall_mem_singleton.mpr (.dialect _)⟩
  have json : IsJson value :=
    .mapping (List.forall_mem_cons.mpr ⟨.text _, List.forall_mem_cons.mpr ⟨.nothing,
      List.forall_mem_singleton.mpr (.tuple hitems)⟩⟩)
  exact ⟨json, ofValue_accepted json, by rfl⟩

end Settings
end BuildDialect
