import BuildDialect.Report.Arguments
import Mathlib.Data.List.Basic

/-!
The request that is made with a settings file and build files. The word after the option is its
value only if it would be an argument by itself; the option does not make it one.
-/
namespace BuildDialect.Report

namespace Word

theorem spelled?_ne_argument {word : RawText} {value : Option RawText} {t : RawText} :
    spelled? word value ≠ some (.argument t) := by
  unfold spelled?
  rw [ne_eq, Option.map_eq_some_iff]
  rintro ⟨flag, _, h⟩
  cases h

theorem candidates_ne_argument {word : RawText} {c : RawText × Word} (h : c ∈ candidates word)
    (t : RawText) : c.2 ≠ .argument t := by
  unfold candidates at h
  split at h
  · obtain ⟨s, _, rfl⟩ := List.mem_map.mp h
    simp
  · obtain ⟨s, _, hs⟩ := List.mem_filterMap.mp h
    split_ifs at hs
    · cases hs
      simp
    · cases hs
      simp
  · cases h

theorem ofHyphened_argument {word t : RawText} (h : ofHyphened word = .ok (.argument t)) :
    t = word := by
  unfold ofHyphened at h
  dsimp only at h
  split at h
  · rename_i flagged hassigned
    cases h
    obtain ⟨parts, _, hspelled⟩ := Option.bind_eq_some_iff.mp hassigned
    exact absurd hspelled spelled?_ne_argument
  · rename_i flagged _ hcandidates
    cases h
    exact absurd rfl (candidates_ne_argument (hcandidates ▸ List.mem_singleton_self _) t)
  · split_ifs at h
    · cases h
      rfl
    · cases h
  · cases h

/-- A word that is an argument is one as it stands. -/
theorem ofText_argument {text t : RawText} (h : ofText text = .ok (.argument t)) : t = text := by
  unfold ofText at h
  split at h
  · split at h
    · rename_i flagged hspelled
      cases h
      exact absurd hspelled spelled?_ne_argument
    · exact ofHyphened_argument h
  · cases h
    rfl

def Plain (text : RawText) : Prop :=
  text.head? ≠ some (.char '-')

instance : DecidablePred Plain := fun text =>
  inferInstanceAs (Decidable (text.head? ≠ some (.char '-')))

theorem Plain.ofText {text : RawText} (plain : Plain text) :
    ofText text = .ok (.argument text) := by
  unfold Word.ofText
  split
  · exact absurd rfl plain
  · rfl

theorem Plain.ne_separator {text : RawText} (plain : Plain text) : text ≠ "--" := by
  rintro rfl
  exact plain rfl

theorem ofArguments_plain {texts : List RawText} (plain : ∀ text ∈ texts, Plain text) :
    ofArguments texts = .ok (texts.map .argument) := by
  induction texts with
  | nil => rfl
  | cons text rest ih =>
    have htext := plain text List.mem_cons_self
    have hrest := ih fun t ht => plain t (List.mem_cons_of_mem _ ht)
    rw [ofArguments, if_neg htext.ne_separator, htext.ofText, hrest]
    rfl

end Word

open Word

namespace Gathered

theorem gather_more {g : Gathered} {files : List RawText} (hfiles : g.files = some files)
    (growing : g.growing = true) (texts : List RawText) :
    g.gather (texts.map .argument) = .ok { g with files := some (files ++ texts) } := by
  induction texts generalizing g files with
  | nil => rw [List.append_nil, ← hfiles, List.map_nil, gather]
  | cons text rest ih =>
    have htake : g.take text = { g with files := some (files ++ [text]) } := by
      unfold take
      rw [hfiles]
      simp [growing]
    have hrest := @ih { g with files := some (files ++ [text]) } _ rfl growing
    rw [List.map_cons, gather, htake, hrest, List.append_assoc, List.singleton_append]

theorem gather_files {g : Gathered} (hfiles : g.files = none) {texts : List RawText}
    (hne : texts ≠ []) : g.gather (texts.map .argument) =
      .ok { g with files := some texts, growing := true } := by
  obtain ⟨text, rest, rfl⟩ := List.exists_cons_of_ne_nil hne
  have htake : g.take text = { g with files := some [text], growing := true } := by
    unfold take
    rw [hfiles]
  rw [List.map_cons, gather, htake, gather_more rfl rfl, List.singleton_append]

/-- What is gathered of the two options: two hyphens are no value, and only one option is given. -/
structure Orderly (g : Gathered) : Prop where
  value : g.config ≠ some (some (RawText.ofString "--"))
  alone : g.config.isSome → g.default = none

theorem Orderly.assign {g after : Gathered} {flag : Flag} {value : RawText} (hg : g.Orderly)
    (h : g.assign flag value = .ok after) : after.Orderly := by
  unfold Gathered.assign at h
  cases flag with
  | help => cases h
  | default =>
    dsimp only at h
    generalize (if value == "--" then none else value.string?.bind Dialect.ofName?) = dialect at h
    split_ifs at h with hchoice hconfig
    cases h
    exact ⟨hg.value, fun hsome => absurd hsome hconfig⟩
  | config =>
    dsimp only at h
    split_ifs at h with hdefault
    all_goals cases h
    all_goals refine ⟨?_, fun _ => by simpa using hdefault⟩
    · simp
    · simp_all

theorem Orderly.take {g : Gathered} (hg : g.Orderly) (text : RawText) : (g.take text).Orderly := by
  unfold Gathered.take
  split
  · exact ⟨hg.value, hg.alone⟩
  · split_ifs
    · exact ⟨hg.value, hg.alone⟩
    · exact ⟨hg.value, hg.alone⟩

theorem Orderly.gather {g after : Gathered} {words : List Word} (hg : g.Orderly)
    (h : g.gather words = .ok after) : after.Orderly := by
  fun_induction Gathered.gather g words with
  | case1 =>
    cases h
    exact hg
  | case2 g text rest ih => exact ih (hg.take text) h
  | case3 g rest hnone ih => exact ih ⟨hg.value, hg.alone⟩ h
  | case4 g rest hsome ih => exact ih (hg.take "--") h
  | case5 g text rest ih => exact ih ⟨hg.value, hg.alone⟩ h
  | case9 g flag short value rest hflag next hassign ih => exact ih (hg.assign hassign) h
  | case11 g flag short value rest hflag next hassign ih => exact ih (hg.assign hassign) h
  | case6 => cases h
  | case7 => cases h
  | case8 => cases h
  | case10 => cases h
  | case12 => cases h

theorem orderly_empty : empty.Orderly :=
  ⟨by simp [empty], fun _ => rfl⟩

end Gathered

namespace Request

def withConfig (config : RawText) (files : List RawText) : List RawText :=
  "--config" :: config :: files

variable {config : RawText} {files : List RawText}

/-- Options and then build files: what is asked for is what the options come to, on these files. -/
theorem ofArguments_options {arguments : List RawText} {options : List Word} {g : Gathered}
    (hwords : Word.ofArguments arguments = .ok (options ++ files.map .argument))
    (hoptions : Gathered.empty.gather (options ++ files.map .argument) =
      g.gather (files.map .argument))
    (hfiles : g.files = none) (hextras : g.extras = []) (hne : files ≠ [])
    (plain : ∀ file ∈ files, Plain file) :
    ofArguments arguments = .ok ⟨files, g.default.join, g.config.join⟩ := by
  have herase : files.erase "--" = files :=
    List.erase_of_not_mem fun h => (plain _ h).ne_separator rfl
  unfold ofArguments
  rw [hwords]
  dsimp only
  rw [hoptions, Gathered.gather_files hfiles hne]
  simp [Gathered.request, hextras, herase]

theorem ofArguments_withConfig (value : ofText config = .ok (.argument config))
    (hne : files ≠ []) (plain : ∀ file ∈ files, Plain file) :
    ofArguments (withConfig config files) = .ok ⟨files, none, some config⟩ := by
  have hseparator : config ≠ "--" := by
    rintro rfl
    cases value
  have hwords : Word.ofArguments (withConfig config files) =
      .ok ([.option .config false none, .argument config] ++ files.map .argument) := by
    rw [withConfig, Word.ofArguments, if_neg (by decide), Word.ofArguments, if_neg hseparator,
      value, ofArguments_plain plain]
    rfl
  have hassign : Gathered.empty.assign .config config =
      .ok { Gathered.empty with config := some (some config) } := by
    simp [Gathered.assign, Gathered.empty, hseparator]
  have hoptions : Gathered.empty.gather
      ([.option .config false none, .argument config] ++ files.map .argument) =
        Gathered.gather { Gathered.empty with config := some (some config) }
          (files.map .argument) := by
    simp only [List.cons_append, List.nil_append, Gathered.gather, hassign]
  exact ofArguments_options hwords hoptions rfl rfl hne plain

theorem ofArguments_missing {arguments : List RawText} {words : List Word}
    (hwords : Word.ofArguments arguments = .ok (.option .config false none :: words))
    (missing : ∀ t rest, words ≠ .argument t :: rest) :
    ofArguments arguments = .error (.misuse (.valueMissing .config)) := by
  have hgather : Gathered.empty.gather (.option .config false none :: words) =
      .error (.misuse (.valueMissing .config)) := by
    unfold Gathered.gather
    split <;> simp_all
  unfold ofArguments
  rw [hwords]
  dsimp only
  rw [hgather]

/-- What would not be an argument by itself is not taken for the value. -/
theorem ofArguments_withConfig_refused (refused : ofText config ≠ .ok (.argument config))
    (plain : ∀ file ∈ files, Plain file) :
    ∃ misuse, ofArguments (withConfig config files) = .error (.misuse misuse) := by
  have hwords : Word.ofArguments (withConfig config files) =
      (Word.ofArguments (config :: files)).map (.option .config false none :: ·) := by
    rw [withConfig, Word.ofArguments, if_neg (by decide)]
    cases Word.ofArguments (config :: files) <;> rfl
  rw [Word.ofArguments] at hwords
  by_cases hseparator : config = "--"
  · rw [if_pos hseparator] at hwords
    exact ⟨_, ofArguments_missing hwords (by simp)⟩
  · rw [if_neg hseparator, ofArguments_plain plain] at hwords
    cases hword : ofText config with
    | error misuse =>
      rw [hword] at hwords
      refine ⟨misuse, ?_⟩
      unfold ofArguments
      rw [hwords]
      rfl
    | ok word =>
      rw [hword] at hwords
      refine ⟨_, ofArguments_missing hwords fun t rest h => ?_⟩
      cases h
      cases ofText_argument hword
      exact refused hword

/-- Arguments that are accepted ask for a report on build files, and a settings file is named. If
several are, the last one counts. Two hyphens alone that are written as a value come to none. -/
def Names (arguments files : List RawText) (config : RawText) : Prop :=
  ∃ words gathered given value, Word.ofArguments arguments = .ok words ∧
    Gathered.empty.gather words = .ok gathered ∧
    gathered.request = .ok ⟨files, given, value⟩ ∧
    gathered.config.map (fun value => value.getD "--") = some config

/-- What arguments ask for that name a settings file. -/
theorem Names.ofArguments {arguments : List RawText} (h : Names arguments files config) :
    ofArguments arguments = .ok ⟨files, none, if config = "--" then none else some config⟩ := by
  obtain ⟨words, gathered, given, value, hwords, hgather, hrequest, hconfig⟩ := h
  have horderly := Gathered.orderly_empty.gather hgather
  have hfull : gathered.request = .ok ⟨files, gathered.default.join, gathered.config.join⟩ := by
    unfold Gathered.request at hrequest ⊢
    split at hrequest
    · cases hrequest
    · split_ifs at hrequest ⊢
      cases hrequest
      rfl
  have hdefault : gathered.default = none := by
    refine horderly.alone ?_
    cases hgathered : gathered.config with
    | none => simp [hgathered] at hconfig
    | some value => rfl
  have hvalue : gathered.config.join = if config = "--" then none else some config := by
    have hnever := horderly.value
    cases hgathered : gathered.config with
    | none => simp [hgathered] at hconfig
    | some value =>
      rw [hgathered] at hconfig hnever
      cases value with
      | none =>
        cases hconfig
        rfl
      | some text =>
        cases hconfig
        have htext : text ≠ "--" := fun h => hnever (h ▸ rfl)
        exact (if_neg htext).symm
  unfold Request.ofArguments
  rw [hwords]
  dsimp only
  rw [hgather]
  dsimp only
  rw [hfull, hdefault, hvalue]
  rfl

end Request
end BuildDialect.Report
