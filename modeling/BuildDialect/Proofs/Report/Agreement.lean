import BuildDialect.Proofs.Parser.Launch
import BuildDialect.Proofs.Report.Arguments
import BuildDialect.Proofs.Report.Lines
import BuildDialect.Proofs.Settings.Rereading

/-!
What the report says about build files, and what a dispatcher that was started from the same
settings does with them. Both go by the same verdict; but only the dispatcher looks whether the
dialect is enabled.
-/
namespace BuildDialect

open Process

namespace Dispatcher

def Working (factories : List (Dialect × Factory)) : Prop :=
  ∀ dialect, ∃ factory, factories.lookup dialect = some factory ∧
    ∀ position, ∃ parser, factory position = .ok parser

theorem Working.started {factories : List (Dialect × Factory)} (working : Working factories)
    (dialects : List Dialect) (position : Nat) :
    Startup.failed? factories position dialects = none ∧
      (Startup.given factories position dialects).map Prod.fst = dialects := by
  induction dialects generalizing position with
  | nil => exact ⟨rfl, rfl⟩
  | cons dialect rest ih =>
    obtain ⟨factory, hfactory, hworks⟩ := working dialect
    obtain ⟨parser, hparser⟩ := hworks position
    obtain ⟨hfailed, hgiven⟩ := ih (position + 1)
    simp only [Startup.failed?, Startup.given, hfactory, hparser]
    exact ⟨hfailed, by rw [List.map_cons, hgiven]⟩

theorem Working.provided {factories : List (Dialect × Factory)} (working : Working factories)
    (dialect : Dialect) : dialect ∈ factories.map Prod.fst := by
  obtain ⟨factory, hfactory, _⟩ := working dialect
  exact List.mem_map_of_mem (Registry.mem_of_lookup hfactory)

/-- Settings that obey the rules can be started from. -/
theorem Working.launched {factories : List (Dialect × Factory)} (working : Working factories)
    {settings : Settings} (sound : settings.Sound) (number : Nat) (name : String) (w : World) :
    (launch number name settings factories w).result =
      .ok (.dispatcher ⟨number, name, settings.defaultDialect⟩
        (Startup.given factories 0 settings.enabled)) := by
  obtain ⟨hfailed, hgiven⟩ := working.started settings.enabled 0
  have hnodup : ((Startup.given factories 0 settings.enabled).map Prod.fst).Nodup := by
    rw [hgiven]
    exact sound.nodup
  have hne : Startup.given factories 0 settings.enabled ≠ [] := by
    intro h
    rw [h] at hgiven
    exact sound.nonempty hgiven.symm
  have hstart : (Dispatcher.start number name settings factories).outcome w = _ :=
    (outcome_start_given (fun d _ => working.provided d) hfailed).trans (outcome_create _ _ _)
  rw [Registry.gather_of_nodup hnodup, Registry.ofEntries_dialects hnodup, if_neg hne, hgiven,
    if_pos sound.contained] at hstart
  rw [launch, hstart]

end Dispatcher

namespace Report

open Word Dispatcher

/-- What is said about build files agrees with what a dispatcher does with them: it is said of a
file which dialect it has just if the dispatcher selects it or finds that it lacks a parser for it,
and otherwise that the file is at fault. -/
structure Agrees (d : Dispatcher) (registry : List (Dialect × Parser)) (w : World)
    (file : RawText) (said : LogRecord) : Prop where
  found_iff : ∀ dialect, said = ⟨.info, .report, found dialect file⟩ ↔
    d.Selects registry ⟨file⟩ w dialect ∨ d.Lacks registry ⟨file⟩ w dialect
  failed_iff : said.level = .error ↔
    ∀ dialect, ¬ d.Selects registry ⟨file⟩ w dialect ∧ ¬ d.Lacks registry ⟨file⟩ w dialect
  /-- Where no two dialects share a parser, the parser alone says which dialect is selected. -/
  selects_iff : (registry.map Prod.snd).Nodup → ∀ dialect,
    (d.Selects registry ⟨file⟩ w dialect ↔ ∃ parser, (dialect, parser) ∈ registry ∧
      ((Parser.dispatcher d registry).choice ⟨file⟩ w).result = .ok parser)

theorem line_agrees {d : Dispatcher} {registry : List (Dialect × Parser)}
    (nodup : (registry.map Prod.fst).Nodup) (w : World) (file : RawText) :
    Agrees d registry w file (line w.files d.default file) := by
  refine ⟨fun dialect => ?_, ?_, fun apart dialect => selects_iff_result nodup apart⟩
  · rw [line_eq_found_iff, settles_iff nodup]
  · rw [line_level_iff]
    refine forall_congr' fun dialect => ?_
    rw [← not_or, settles_iff nodup]

/-- What a report on build files has to do with a dispatcher. -/
structure Agreement (config : RawText) (files : List RawText) (d : Dispatcher)
    (registry : List (Dialect × Parser)) (w : World) : Prop where
  /-- What would not be an argument by itself is not taken for the settings file. -/
  refused : ofText config ≠ .ok (.argument config) → ∃ message,
    answer (Request.withConfig config files) w = ⟨.ok ⟨2, "", message⟩, []⟩
  /-- One record for each file, and one more at the end if a file is at fault. -/
  reported : ofText config = .ok (.argument config) → ∃ code said closing,
    (answer (Request.withConfig config files) w).result = .ok ⟨code, "", ""⟩ ∧
      (answer (Request.withConfig config files) w).trace.reported = said ++ closing ∧
      (code = 0 ∧ closing = [] ∨ code = 1 ∧ ∃ last, closing = [last] ∧ last.level = .warning) ∧
      ∀ u : World, u.files = w.files → List.Forall₂ (Agrees d registry u) files said ∧
        (code = 0 ↔ ∀ file ∈ files, ∃ dialect,
          d.Selects registry ⟨file⟩ u dialect ∨ d.Lacks registry ⟨file⟩ u dialect)

variable {config : RawText} {files : List RawText} {settings : Settings} {w : World}
  {factories : List (Dialect × Factory)}

theorem failures_eq_zero_iff {d : Dispatcher} {registry : List (Dialect × Parser)}
    (nodup : (registry.map Prod.fst).Nodup) : failures w.files d.default files = 0 ↔
      ∀ file ∈ files, ∃ dialect,
        d.Selects registry ⟨file⟩ w dialect ∨ d.Lacks registry ⟨file⟩ w dialect := by
  simp only [failures, List.countP_eq_zero, decide_eq_true_eq, line_level_iff,
    settles_iff nodup, not_forall, not_not]

/-- Settings that can be loaded can be started from, and the report with their file agrees with the
dispatcher that is started, as long as the files stay as they are. -/
theorem answer_agrees (loaded : ((Settings.load ⟨config⟩).outcome w).1 = .ok settings)
    (named : config ≠ "") (given : files ≠ [])
    (plain : ∀ file ∈ files, Plain file ∧ Path.Passable ⟨file⟩)
    (working : Working factories) (number : Nat) (name : String) :
    ∃ registry, registry.map Prod.fst = settings.enabled ∧
      (∀ v, (launch number name settings factories v).result =
        .ok (.dispatcher ⟨number, name, settings.defaultDialect⟩ registry)) ∧
      Agreement config files ⟨number, name, settings.defaultDialect⟩ registry w := by
  have sound := (Settings.outcome_load_ok loaded).2
  obtain ⟨-, hgiven⟩ := working.started settings.enabled 0
  have nodup : ((Startup.given factories 0 settings.enabled).map Prod.fst).Nodup := by
    rw [hgiven]
    exact sound.nodup
  have hplain : ∀ file ∈ files, Plain file := fun file hfile => (plain file hfile).1
  refine ⟨_, hgiven, working.launched sound number name, ?_, ?_⟩
  · intro refused
    obtain ⟨misuse, hmisuse⟩ := Request.ofArguments_withConfig_refused refused hplain
    exact answer_refused hmisuse w
  · intro value
    have hrequest := Request.ofArguments_withConfig value given hplain
    have passable : ∀ file ∈ files, Path.Passable ⟨file⟩ := fun file hfile =>
      (plain file hfile).2
    obtain ⟨hresult, hreported⟩ := answer_loaded named loaded hrequest
    rw [counted_of_passable passable] at hresult hreported
    rw [reached_of_passable passable] at hreported
    refine ⟨_, _, _, hresult, hreported, ?_, fun u hu => ⟨?_, ?_⟩⟩
    · change _ ∧ summary _ _ = [] ∨ _ ∧ ∃ last, summary _ _ = [last] ∧ _
      unfold summary
      split_ifs
      · exact Or.inl ⟨rfl, rfl⟩
      · exact Or.inr ⟨rfl, _, rfl, rfl⟩
    · rw [List.forall₂_map_right_iff, List.forall₂_same, ← hu]
      intro file _
      exact line_agrees nodup u file
    · rw [← failures_eq_zero_iff nodup, hu]
      split_ifs with h <;> simp [h]

def Sample.single : Settings := ⟨.pythonDsl, [.pythonDsl]⟩

/-- A world with a settings file under two names, a build file that asks for a dialect that is not
enabled, and an empty one. -/
def Sample.narrow : World :=
  let written := FileItem.file (Utf8.encode Sample.single.written.toList)
  let marked := FileItem.file (BuildFile.markerBytes ++ Utf8.ascii Dialect.skylark.name.toList)
  { World.fresh with
    files := (((FileTree.fresh.put (FileTree.locate ["work", "home", "parser.yaml"]) written).put
      (FileTree.locate ["work", "home", "-c"]) written).put
        (FileTree.locate ["work", "home", "BUCK"]) marked).put
          (FileTree.locate ["work", "home", "TARGETS"]) (.file []) }

def Sample.leaf (n : Nat) (label : String) : Parser :=
  .delegate ⟨n, label, label, [], []⟩

def Sample.bothFactories : List (Dialect × Factory) :=
  [(.pythonDsl, fun _ => .ok (Sample.leaf 0 "a")),
    (.skylark, fun _ => .ok (Sample.leaf 1 "b"))]

theorem Sample.working : Working Sample.bothFactories := by
  intro dialect
  cases dialect with
  | pythonDsl => exact ⟨_, rfl, fun _ => ⟨_, rfl⟩⟩
  | skylark => exact ⟨_, rfl, fun _ => ⟨_, rfl⟩⟩

theorem Sample.sound : Sample.single.Sound :=
  ⟨by decide, by decide, by decide⟩

def Sample.settingsNames : List RawText := ["parser.yaml", "-c"]

theorem Sample.loaded : ∀ config ∈ Sample.settingsNames,
    ((Settings.load ⟨config⟩).outcome Sample.narrow).1 = .ok Sample.single := by
  have hplain : ∀ config ∈ Sample.settingsNames, Path.plain ⟨config⟩ = ⟨config⟩ := by
    decide +kernel
  have hfind : ∀ config ∈ Sample.settingsNames, Sample.narrow.files.find ⟨config⟩ =
      .ok (.file (Utf8.encode Sample.single.written.toList)) := by
    simp only [Sample.settingsNames, List.forall_mem_cons]
    exact ⟨by rfl, by rfl, List.forall_mem_nil _⟩
  intro config hconfig
  have hread : Sample.narrow.files.read ⟨config⟩ =
      .ok (Utf8.encode Sample.single.written.toList) := by
    unfold FileTree.read
    rw [hfind config hconfig]
    rfl
  have hfile : Settings.ofFile Sample.narrow.files ⟨config⟩ = .ok Sample.single := by
    rw [Settings.ofFile, FileTree.holds, hfind config hconfig]
    dsimp only
    rw [hread]
    exact Settings.ofBytes_written_sound _ Sample.sound
  rw [Settings.outcome_load, hplain config hconfig, hfile]

def Sample.torn : RawText := [.half 0]

/-- The dispatcher has no parser for a dialect that is not enabled, and the report names it all the
same; there is no report on a settings file whose name looks like an option; and a path that never
reaches the system ends a report before files that the dispatcher has a parser for. -/
theorem answer_disagrees :
    let w := Sample.narrow
    let registry := [(Dialect.pythonDsl, Sample.leaf 0 "a")]
    let dispatcher := Parser.dispatcher ⟨2, "h", .pythonDsl⟩ registry
    (∀ config ∈ Sample.settingsNames,
      ((Settings.load ⟨config⟩).outcome w).1 = .ok Sample.single) ∧
      (launch 2 "h" Sample.single Sample.bothFactories w).result = .ok dispatcher ∧
      (dispatcher.choice ⟨"BUCK"⟩ w).result = .error (.unregistered .skylark) ∧
      (answer ["--config", "parser.yaml", "BUCK"] w).result = .ok ⟨0, "", ""⟩ ∧
      (answer ["--config", "parser.yaml", "BUCK"] w).trace.reported =
        [⟨.info, .report, found .skylark "BUCK"⟩] ∧
      (dispatcher.choice ⟨"TARGETS"⟩ w).result = .ok (Sample.leaf 0 "a") ∧
      (∃ message, answer ["--config", "-c", "TARGETS"] w = ⟨.ok ⟨2, "", message⟩, []⟩) ∧
      (answer ["--config", "parser.yaml", Sample.torn, "TARGETS"] w).result =
        .error (.file ⟨.unencodable, ⟨Sample.torn⟩⟩) ∧
      (answer ["--config", "parser.yaml", Sample.torn, "TARGETS"] w).trace.reported = [] := by
  intro w registry dispatcher
  have hmarked : w.files.verdict ⟨"BUCK"⟩ .pythonDsl = .ok .skylark := by rfl
  have hempty : w.files.verdict ⟨"TARGETS"⟩ .pythonDsl = .ok .pythonDsl := by rfl
  have hline : line w.files Sample.single.defaultDialect "BUCK" =
      ⟨.info, .report, found .skylark "BUCK"⟩ := line_eq_found_iff.mpr hmarked
  have hcounted : counted w.files Sample.single.defaultDialect ["BUCK"] = .ok 0 := by
    rw [counted_cons (by decide), hline]
    rfl
  have loaded := Sample.loaded "parser.yaml" (by decide)
  have hrequest : Request.ofArguments ["--config", "parser.yaml", "BUCK"] =
      .ok ⟨["BUCK"], none, some "parser.yaml"⟩ :=
    Request.ofArguments_withConfig (by decide) (by decide) (by decide)
  have htorn : Request.ofArguments ["--config", "parser.yaml", Sample.torn, "TARGETS"] =
      .ok ⟨[Sample.torn, "TARGETS"], none, some "parser.yaml"⟩ :=
    Request.ofArguments_withConfig (by decide) (by decide) (by decide)
  obtain ⟨hresult, hreported⟩ := answer_loaded (by decide) loaded hrequest
  obtain ⟨hstopped, hnothing⟩ := answer_loaded (by decide) loaded htorn
  have hrefused : Word.ofText "-c" ≠ .ok (.argument "-c") := by decide
  obtain ⟨misuse, hmisuse⟩ := @Request.ofArguments_withConfig_refused "-c" ["TARGETS"] hrefused
    (by decide)
  obtain ⟨records, -, hbuck⟩ :=
    Registry.choice_verdict ⟨2, "h", .pythonDsl⟩ registry ⟨"BUCK"⟩ w
  obtain ⟨others, -, htargets⟩ :=
    Registry.choice_verdict ⟨2, "h", .pythonDsl⟩ registry ⟨"TARGETS"⟩ w
  rw [hmarked] at hbuck
  rw [hempty] at htargets
  refine ⟨Sample.loaded, Sample.working.launched Sample.sound 2 "h" w, ?_, ?_, ?_, ?_,
    answer_refused hmisuse w, hstopped, hnothing⟩
  · rw [hbuck]
    rfl
  · exact hresult.trans (congrArg exit hcounted)
  · rw [hreported]
    exact congrArg₂ (· :: closing 1 ·) hline hcounted
  · rw [htargets]
    rfl

theorem answer_agrees_sample :
    let files : List RawText := ["BUCK", "TARGETS"]
    ((Settings.load ⟨"parser.yaml"⟩).outcome Sample.narrow).1 = .ok Sample.single ∧
      (∀ file ∈ files, Plain file ∧ Path.Passable ⟨file⟩) ∧
      ∃ registry, registry.map Prod.fst = Sample.single.enabled ∧
        (∀ v, (launch 2 "h" Sample.single Sample.bothFactories v).result =
          .ok (.dispatcher ⟨2, "h", .pythonDsl⟩ registry)) ∧
        Agreement "parser.yaml" files ⟨2, "h", .pythonDsl⟩ registry Sample.narrow := by
  intro files
  have hplain : ∀ file ∈ files, Plain file ∧ Path.Passable ⟨file⟩ := by decide
  have loaded := Sample.loaded "parser.yaml" (by decide)
  exact ⟨loaded, hplain, answer_agrees loaded (by decide) (by decide) hplain Sample.working 2 "h"⟩

end Report
end BuildDialect
