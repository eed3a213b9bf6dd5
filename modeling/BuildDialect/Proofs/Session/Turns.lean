import BuildDialect.Proofs.Actions
import BuildDialect.Session.Run

/-!
What the commands of a session leave alone that make no parser and carry out no operation on one.
The parsers stay as they are, and no dispatcher does anything that it records; and where nothing is
counted, no counter changes either.
-/
namespace BuildDialect

open Process

/-- An invariant that depends only on the parsers and on what dispatchers have recorded. -/
def ParsersOnly (J : Session → Prop) : Prop :=
  ∀ s s' : Session, s'.parsers = s.parsers → s'.made = s.made →
    (∀ n, s'.world.record n = s.world.record n) → J s → J s'

/-- An invariant on which neither settings bear, nor what the world may do without harm to a steady
invariant of its own. -/
structure Session.Steady (J : Session → Prop) : Prop where
  act : ∀ s : Session, BuildDialect.Steady fun w => J { s with world := w }
  settings : ∀ (s : Session) settings, J s → J { s with settings }

theorem ParsersOnly.records {J : Session → Prop} (hJ : ParsersOnly J) (s : Session) :
    RecordsOnly fun w => J { s with world := w } :=
  fun _ _ h => hJ _ _ rfl rfl h

theorem ParsersOnly.steady {J : Session → Prop} (hJ : ParsersOnly J) : Session.Steady J where
  act := fun s => (hJ.records s).steady
  settings := fun s _ => hJ s _ rfl rfl fun _ => rfl

namespace Turn

variable {J : Session → Prop} {α : Type}

theorem outcome_act (action : Action α) (s : Session) :
    (act action).outcome s =
      ((action.outcome s.world).1, { s with world := (action.outcome s.world).2 }) := rfl

theorem keeps_act {action : Action α} {post : α → Prop}
    (h : ∀ s, J s → Keeps (fun w => J { s with world := w }) action post) :
    Keeps J (act action) post :=
  fun s hs => h s hs s.world hs

theorem keeps_named {name : String} {thing : Option α} {post : α → Prop}
    (h : ∀ value, thing = some value → post value) : Keeps J (named name thing) post := by
  cases thing with
  | none => exact .throw _
  | some value => exact .pure (h value rfl)

theorem keeps_held {name : String} {post : Parser → Prop}
    (h : ∀ s : Session, J s → ∀ p, s.parsers name = some p → post p) :
    Keeps J (parser name) post :=
  .bind .get fun s hs => keeps_named (h s hs)

theorem keeps_settings (name : String) : Keeps J (settings name) fun _ => True :=
  .bind .get fun _ _ => keeps_named fun _ _ => True.intro

theorem keeps_counter (name : String) : Keeps J (counter name) fun _ => True :=
  .bind .get fun _ _ => keeps_named fun _ _ => True.intro

theorem keeps_number (outcome : Except CountFault Int) :
    Keeps J (number outcome) fun _ => True := by
  cases outcome with
  | ok n => exact .pure True.intro
  | error fault => exact .throw _

theorem keeps_profile (name : String) : Keeps J (profile name) fun _ => True := by
  refine .bind (keeps_held fun _ _ _ _ => True.intro) fun p _ => ?_
  cases p with
  | delegate d => exact .throw _
  | dispatcher d registry => exact .pure True.intro

theorem keeps_offered {Q : Parser → Prop}
    (h : ∀ s : Session, J s → ∀ name p, s.parsers name = some p → Q p) (offers : List Offer) :
    Keeps J (offered offers) fun entries => ∀ e ∈ entries, Q e.2 := by
  induction offers with
  | nil => exact .pure fun _ he => absurd he List.not_mem_nil
  | cons offer rest ih =>
    rw [offered]
    refine .bind (keeps_held fun s hs => h s hs offer.parser) fun p hp => ?_
    exact .bind ih fun entries hentries => .pure (List.forall_mem_cons.mpr ⟨hp, hentries⟩)

/-- What holds of the parsers that are named holds of those that the factories give. -/
theorem keeps_factories {Q : Parser → Prop} (makings : List (Dialect × Making))
    (h : ∀ making ∈ makings, ∀ name, making.2 = .give name →
      ∀ s : Session, J s → ∀ p, s.parsers name = some p → Q p) :
    Keeps J (factories makings) fun fs => ∀ f ∈ fs, ∀ position p, f.2 position = .ok p → Q p := by
  induction makings with
  | nil => exact .pure fun _ hf => absurd hf List.not_mem_nil
  | cons making rest ih =>
    have hrest := ih fun making hm => h making (List.mem_cons_of_mem _ hm)
    obtain ⟨dialect, making⟩ := making
    cases making with
    | give name =>
      refine .bind (keeps_held (h _ List.mem_cons_self name rfl)) fun p hp => ?_
      refine .bind hrest fun fs hfs => .pure (List.forall_mem_cons.mpr ⟨?_, hfs⟩)
      intro position q hq
      exact Except.ok.inj hq ▸ hp
    | fail fault =>
      exact .bind hrest fun fs hfs =>
        .pure (List.forall_mem_cons.mpr ⟨(fun _ _ hq => by cases hq), hfs⟩)

section

variable (hJ : Session.Steady J)

include hJ

theorem keeps_act_of {action : Action α} {post : α → Prop}
    (h : ∀ I, Steady I → Keeps I action post) : Keeps J (act action) post :=
  keeps_act fun s _ => h _ (hJ.act s)

theorem keeps_keepSettings (name : Option String) (settings : Settings) :
    Keeps J (keepSettings name settings) fun _ => True := by
  cases name with
  | none => exact .pure True.intro
  | some name => exact .modify fun s => hJ.settings s _

theorem keeps_schedule (number : Nat) (operation : Operation) (fault : Option Fault) :
    Keeps J (schedule number operation fault) fun _ => True :=
  .modify fun s => (hJ.act s).script s.world _

theorem keeps_scheduleAll (number : Nat) (failures : List (Operation × Fault)) :
    Keeps J (scheduleAll number failures) fun _ => True := by
  induction failures with
  | nil => exact .pure True.intro
  | cons failure rest ih =>
    rw [scheduleAll]
    exact .bind (keeps_schedule hJ _ _ _) fun _ _ => ih

theorem keeps_change (path : Path) (step : FileTree → Path → Except FileCause FileTree) :
    Keeps J (act (Action.change path step)) fun _ => True :=
  keeps_act_of hJ fun _ hI => Action.keeps_change hI path step

theorem keeps_makeDirectories (path : PlainPath) :
    Keeps J (act (Action.makeDirectories path)) fun _ => True :=
  keeps_act_of hJ fun _ hI => Action.keeps_makeDirectories hI path

theorem keeps_selectDialect (path : Path) (default : Dialect) :
    Keeps J (act (selectDialect path default)) fun _ => True :=
  keeps_act_of hJ fun _ hI => BuildDialect.keeps_selectDialect hI path default

theorem keeps_load (path : Path) (name : Option String) : Keeps J (load path name) fun _ => True :=
  .bind (keeps_act_of hJ fun _ hI => Settings.keeps_load hI path) fun _ _ =>
    .bind (keeps_keepSettings hJ name _) fun _ _ => .pure True.intro

theorem keeps_save (name : String) (path : Path) : Keeps J (save name path) fun _ => True :=
  .bind (keeps_settings name) fun settings _ =>
    .bind (keeps_act_of hJ fun _ hI => Settings.keeps_save hI settings path) fun _ _ =>
      .bind (keeps_act_of hJ fun _ _ => Action.keeps_ask _ _) fun _ _ => .pure True.intro

theorem keeps_detect (content : List UInt8) (default : Dialect) :
    Keeps J (detect content default) fun _ => True :=
  .bind (keeps_change hJ _ _) fun _ _ =>
    .bind (keeps_act_of hJ fun _ hI =>
      (BuildDialect.keeps_selectDialect hI buildFilePath default).attempt) fun _ _ =>
      .bind (keeps_act_of hJ fun _ _ => keeps_readFirstLine _) fun _ _ =>
        .bind (keeps_act_of hJ fun _ _ => keeps_readMarker _) fun _ _ => .pure True.intro

end

theorem keeps_keepCounter (hJ : ParsersOnly J) (name : String) (value : Int) :
    Keeps J (keepCounter name value) fun _ => True :=
  .modify fun s => hJ s _ rfl rfl fun _ => rfl

theorem keeps_count (hJ : ParsersOnly J) (name : String) (delta : Int) :
    Keeps J (act (Action.count name delta)) fun _ => True :=
  keeps_act fun s _ => Action.keeps_count (hJ.records s) name delta

theorem keeps_ask (hJ : ParsersOnly J) (name : String) (query : Query) (path : Path)
    (counted : Option String) : Keeps J (ask name query path counted) fun _ => True := by
  unfold ask
  refine .bind (keeps_held fun _ _ _ _ => True.intro) fun p _ => ?_
  have hask : Keeps J (act (p.ask query path counted)) fun _ => True :=
    keeps_act fun s _ => p.keeps_ask (hJ.records s) query path counted
  cases counted with
  | none => exact .bind hask fun _ _ => .pure True.intro
  | some counter =>
    exact .bind (keeps_counter counter) fun _ _ => .bind hask fun _ _ =>
      .bind (keeps_counter counter) fun _ _ => .bind (keeps_number _) fun _ _ => .pure True.intro

end Turn

/-- A property of commands that holds of a block if it holds of all commands in it. -/
theorem Command.induction {motive : Command → Prop}
    (plain : ∀ command, (∀ name body ending, command ≠ .block name body ending) → motive command)
    (block : ∀ name body ending, (∀ command ∈ body, motive command) →
      motive (.block name body ending)) (command : Command) : motive command := by
  cases command with
  | block name body ending =>
    exact block name body ending fun command hmem => Command.induction plain block command
  | _ => exact plain _ fun _ _ _ h => by cases h
termination_by sizeOf command
decreasing_by
  have hlt := List.sizeOf_lt_of_mem hmem
  simp
  omega

/-- Whether a command neither makes a parser nor carries out an operation on one. -/
def Command.isQuiet : Command → Bool
  | .delegate _ | .dispatcher .. | .start .. | .perform .. | .block .. => false
  | _ => true

def Command.isCounting : Command → Bool
  | .counter .. | .add .. | .ask .. => true
  | _ => false

/-- A quiet command that is not about a counter keeps what is steady. -/
theorem Command.keeps_run_still {J : Session → Prop} (hJ : Session.Steady J) (command : Command)
    (quiet : command.isQuiet) (still : ¬ command.isCounting) :
    Keeps J command.run fun _ => True := by
  cases command with
  | dialectNamed name => exact .pure True.intro
  | firstLine path =>
    exact .bind (Turn.keeps_act_of hJ fun _ _ => keeps_readFirstLine path) fun _ _ =>
      .pure True.intro
  | markerName path =>
    exact .bind (Turn.keeps_act_of hJ fun _ _ => keeps_readMarker path) fun _ _ => .pure True.intro
  | select path default =>
    exact .bind (Turn.keeps_selectDialect hJ path default) fun _ _ => .pure True.intro
  | detect content default =>
    exact .bind (Turn.keeps_detect hJ content default) fun _ _ => .pure True.intro
  | write path content =>
    exact .bind (.bind (Turn.keeps_makeDirectories hJ _) fun _ _ => Turn.keeps_change hJ _ _)
      fun _ _ => .pure True.intro
  | makeDirectory path =>
    exact .bind (Turn.keeps_makeDirectories hJ _) fun _ _ => .pure True.intro
  | remove path => exact .bind (Turn.keeps_change hJ _ _) fun _ _ => .pure True.intro
  | validate value name =>
    rw [run]
    split
    · exact .throw _
    · exact .bind (Turn.keeps_keepSettings hJ name _) fun _ _ => .pure True.intro
  | load path name => exact .bind (Turn.keeps_load hJ path name) fun _ _ => .pure True.intro
  | loadContent content name =>
    exact .bind (Turn.keeps_change hJ _ _) fun _ _ =>
      .bind (Turn.keeps_load hJ settingsPath name) fun _ _ => .pure True.intro
  | adjust name default enabled =>
    exact .bind (Turn.keeps_settings name) fun _ _ =>
      .bind (Turn.keeps_keepSettings hJ _ _) fun _ _ => .pure True.intro
  | save name path => exact .bind (Turn.keeps_save hJ name path) fun _ _ => .pure True.intro
  | compare first second =>
    exact .bind (Turn.keeps_settings first) fun _ _ =>
      .bind (Turn.keeps_settings second) fun _ _ => .pure True.intro
  | schedule name operation fault =>
    refine .bind (Turn.keeps_held fun _ _ _ _ => True.intro) fun p _ => ?_
    cases p with
    | dispatcher d registry => exact .throw _
    | delegate d =>
      exact .bind (Turn.keeps_schedule hJ d.number operation fault) fun _ _ => .pure True.intro
  | describe name => exact .bind (Turn.keeps_profile name) fun _ _ => .pure True.intro
  | route name path =>
    exact .bind (Turn.keeps_held fun _ _ _ _ => True.intro) fun p _ =>
      .bind (Turn.keeps_act_of hJ fun _ hI => p.keeps_forBuildFile hI path) fun _ _ =>
        .pure True.intro
  | explain fault => exact .pure True.intro
  | report arguments =>
    exact .bind (Turn.keeps_act_of hJ fun _ hI => Report.keeps_run hI arguments) fun _ _ =>
      .pure True.intro
  | counter name value => exact absurd rfl still
  | add name delta => exact absurd rfl still
  | ask name query path counted => exact absurd rfl still
  | delegate plan => cases quiet
  | dispatcher name offers default => cases quiet
  | start name settings factories => cases quiet
  | perform name operation => cases quiet
  | block name body ending => cases quiet

/-- A quiet command keeps what depends only on the parsers and on what they have recorded. -/
theorem Command.keeps_run {J : Session → Prop} (hJ : ParsersOnly J) (command : Command)
    (quiet : command.isQuiet) : Keeps J command.run fun _ => True := by
  by_cases counting : command.isCounting
  · cases command with
    | counter name value =>
      exact .bind (Turn.keeps_number _) fun _ _ =>
        .bind (Turn.keeps_keepCounter hJ name _) fun _ _ => .pure True.intro
    | add name delta =>
      exact .bind (Turn.keeps_counter name) fun _ _ => .bind (Turn.keeps_number _) fun _ _ =>
        .bind (Turn.keeps_count hJ name _) fun _ _ =>
          .bind (Turn.keeps_number _) fun _ _ => .bind (Turn.keeps_counter name) fun _ _ =>
            .pure True.intro
    | ask name query path counted => exact Turn.keeps_ask hJ name query path counted
    | _ => cases counting
  · exact command.keeps_run_still hJ.steady quiet counting

end BuildDialect
