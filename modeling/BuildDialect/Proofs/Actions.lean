import BuildDialect.Proofs.Parser.Round
import BuildDialect.Proofs.Process
import BuildDialect.Parser.Routing
import BuildDialect.Report.Basic

/-!
What the actions leave alone that are no operation on a parser as a whole. They read and write
files, write to the log and count, but no dispatcher does anything that it records.
-/
namespace BuildDialect

open Process

/-- An invariant that depends only on what dispatchers have recorded. -/
def RecordsOnly (I : World → Prop) : Prop :=
  ∀ w w', (∀ n, w'.record n = w.record n) → I w → I w'

/-- An invariant on which neither files bear, nor how delegates answer, nor events that are no visit
of a dispatcher. -/
structure Steady (I : World → Prop) : Prop where
  extend : ∀ w event, (∀ n, Trace.visitsBy n [event] = []) → I w → I (w.extend [event])
  files : ∀ w files, I w → I { w with files }
  script : ∀ w script, I w → I { w with script }

variable {I : World → Prop}

theorem RecordsOnly.steady (hI : RecordsOnly I) : Steady I where
  extend := fun w _ h => hI w _ fun n => w.extend_record n (h n)
  files := fun w _ => hI w _ fun _ => rfl
  script := fun w _ => hI w _ fun _ => rfl

theorem Action.keeps_ask {α : Type} (path : Path) (query : FileTree → Path → Except FileCause α) :
    Keeps I (ask path query) fun _ => True := by
  refine .bind .get fun w _ => ?_
  cases query w.files path with
  | ok value => exact .pure True.intro
  | error cause => exact .throw _

theorem keeps_readFirstLine (path : Path) : Keeps I (readFirstLine path) fun _ => True :=
  .bind (Action.keeps_ask path _) fun _ _ => .pure True.intro

theorem keeps_readMarker (path : Path) : Keeps I (readMarker path) fun _ => True :=
  .bind (Action.keeps_ask path _) fun _ _ => .pure True.intro

theorem Parser.askEach_eq_map (query : Query) (path : Path) (counter : Option String)
    (registry : List (Dialect × Parser)) :
    askEach query path counter registry =
      registry.map fun e => (e.1, e.2.ask query path counter) := by
  induction registry with
  | nil => rfl
  | cons e rest ih => rw [askEach, ih, List.map_cons]

section

variable (hI : Steady I)

include hI

namespace Action

theorem keeps_emit {event : Event} (h : ∀ n, Trace.visitsBy n [event] = []) :
    Keeps I (emit event) fun _ => True :=
  .modify fun w => hI.extend w event h

theorem keeps_log (level : Level) (source : Source) (message : RawText) :
    Keeps I (log level source message) fun _ => True :=
  keeps_emit hI fun _ => rfl

theorem keeps_change (path : Path) (step : FileTree → Path → Except FileCause FileTree) :
    Keeps I (change path step) fun _ => True :=
  .bind (keeps_ask path step) fun _ _ => .modify fun w => hI.files w _

theorem keeps_makeDirectories (path : PlainPath) :
    Keeps I (makeDirectories path) fun _ => True := by
  refine .bind .get fun w _ => ?_
  rcases w.files.makeDirectories path with ⟨result, files⟩
  refine .bind (.modify fun w => hI.files w _) fun _ _ => ?_
  cases result with
  | ok value => exact .pure True.intro
  | error fault => exact .throw _

end Action

theorem keeps_selectDialect (path : Path) (default : Dialect) :
    Keeps I (selectDialect path default) fun _ => True := by
  refine .bind (keeps_readMarker path) fun name _ => ?_
  cases name with
  | none => exact .bind (Action.keeps_log hI _ _ _) fun _ _ => .pure True.intro
  | some name =>
    dsimp only
    cases Dialect.ofName? name with
    | none => exact .throw _
    | some dialect => exact .bind (Action.keeps_log hI _ _ _) fun _ _ => .pure True.intro

namespace Settings

theorem keeps_load (path : Path) : Keeps I (load path) fun _ => True := by
  unfold load
  refine .bind (Action.keeps_ask _ _) fun holds _ => ?_
  cases holds with
  | true =>
    exact .bind (Action.keeps_ask _ _) fun _ _ => .bind .settle fun _ _ =>
      .bind (Action.keeps_log hI _ _ _) fun _ _ => .pure True.intro
  | false => exact .throw_bind _

theorem keeps_save (settings : Settings) (path : Path) :
    Keeps I (settings.save path) fun _ => True :=
  .bind (Action.keeps_makeDirectories hI _) fun _ _ =>
    .bind (Action.keeps_change hI _ _) fun _ _ => Action.keeps_log hI _ _ _

end Settings

namespace Report

theorem keeps_reportFile (default : Dialect) (file : RawText) :
    Keeps I (reportFile default file) fun _ => True := by
  unfold reportFile
  refine .bind (keeps_selectDialect hI _ default).attempt fun result _ => ?_
  split
  · exact .bind (Action.keeps_log hI _ _ _) fun _ _ => .pure True.intro
  · exact .bind (Action.keeps_log hI _ _ _) fun _ _ => .pure True.intro
  · split_ifs
    · exact .throw_bind _
    · exact .bind (Action.keeps_log hI _ _ _) fun _ _ => .pure True.intro

theorem keeps_reportFiles (default : Dialect) (files : List RawText) :
    Keeps I (reportFiles default files) fun _ => True := by
  induction files with
  | nil => exact .pure True.intro
  | cons file rest ih =>
    exact .bind (keeps_reportFile hI default file) fun _ _ =>
      .bind ih fun _ _ => .pure True.intro

theorem keeps_defaultOf (request : Request) : Keeps I (defaultOf request) fun _ => True := by
  unfold defaultOf
  split
  · split_ifs
    · exact .pure True.intro
    · exact .bind (Settings.keeps_load hI _) fun _ _ => .pure True.intro
  · exact .pure True.intro

theorem keeps_run (arguments : List RawText) : Keeps I (run arguments) fun _ => True := by
  unfold run
  split
  · exact .pure True.intro
  · exact .pure True.intro
  · refine .bind (keeps_defaultOf hI _) fun default _ => ?_
    refine .bind (keeps_reportFiles hI default _) fun failures _ => ?_
    split_ifs
    · exact .pure True.intro
    · exact .bind (Action.keeps_log hI _ _ _) fun _ _ => .pure True.intro

end Report

theorem Registry.keeps_choose {α : Type} (registry : List (Dialect × α)) (default : Dialect)
    (path : Path) : Keeps I (choose registry default path) fun entry =>
      ∃ dialect, (dialect, entry) ∈ registry := by
  unfold choose
  refine .bind (keeps_selectDialect hI path default) fun dialect _ => ?_
  split
  · exact .throw _
  · rename_i entry hentry
    exact .bind (Action.keeps_log hI _ _ _) fun _ _ => .pure ⟨dialect, mem_of_lookup hentry⟩

theorem Parser.keeps_forBuildFile (p : Parser) (path : Path) :
    Keeps I (p.forBuildFile path) fun _ => True := by
  cases p with
  | delegate d => exact .throw _
  | dispatcher d registry => exact (Registry.keeps_choose hI _ _ _).trivial

end

section

variable (hI : RecordsOnly I)

include hI

theorem Action.keeps_count (counter : String) (delta : Int) :
    Keeps I (count counter delta) fun _ => True := by
  refine .bind .get fun w _ => ?_
  cases w.counters counter with
  | none => exact .throw _
  | some value =>
    exact .bind (.modify fun w => hI w _ fun _ => rfl) fun _ _ => .pure True.intro

/-- Asking a delegate about a build file. -/
theorem Delegate.keeps_ask (d : Delegate) (query : Query) (path : Path) (counter : Option String) :
    Keeps I (d.ask query path counter) fun _ => True := by
  unfold Delegate.ask
  refine .bind (Action.keeps_emit hI.steady fun _ => rfl) fun _ _ => .bind .get fun w _ => ?_
  have hgiven (rules : List Rule) : Keeps I (pure rules : Action (List Rule)) fun _ => True :=
    .pure True.intro
  split
  · exact .throw _
  · cases counter with
    | none => cases query <;> exact hgiven _
    | some name =>
      refine .bind (Action.keeps_ask _ _) fun _ _ => .bind (Action.keeps_count hI _ _) fun _ _ => ?_
      cases query <;> exact hgiven _

theorem Parser.keeps_ask (p : Parser) (query : Query) (path : Path) (counter : Option String) :
    Keeps I (p.ask query path counter) fun _ => True := by
  induction p with
  | delegate d => exact d.keeps_ask hI query path counter
  | dispatcher d registry ih =>
    rw [ask, askEach_eq_map]
    refine .bind (Registry.keeps_choose hI.steady _ _ _) fun action haction => ?_
    obtain ⟨dialect, hmem⟩ := haction
    obtain ⟨e, he, heq⟩ := List.mem_map.mp hmem
    cases heq
    exact ih e he

end

end BuildDialect
