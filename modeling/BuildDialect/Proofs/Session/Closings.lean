import BuildDialect.Proofs.Parser.Frame
import BuildDialect.Proofs.Parser.Startup
import BuildDialect.Proofs.Session.Turns

/-!
Which parsers a command may close. An invariant of the world that depends only on what dispatchers
record, and that a report keeps, is kept by a command if it is kept by the closes of these parsers.
-/
namespace BuildDialect

open Process

namespace Command

mutual

/-- The parsers that a command may close: the one that it names, those of its factories if a start
fails, and those that the commands in a block close. -/
def closings (s : Session) : Command → List Parser
  | .perform name .close => (s.parsers name).toList
  | .start _ _ makings =>
    makings.flatMap fun making =>
      match making.2 with
      | .give name => (s.parsers name).toList
      | .fail _ => []
  | .block name body _ => (s.parsers name).toList ++ closingsOf s body
  | _ => []

def closingsOf (s : Session) : List Command → List Parser
  | [] => []
  | command :: rest => command.closings s ++ closingsOf (command.run.outcome s).2 rest

end

end Command

/-- A session whose world satisfies an invariant. -/
def Session.In (I : World → Prop) (s : Session) : Prop := I s.world

variable {I : World → Prop}

theorem RecordsOnly.session (hI : RecordsOnly I) : ParsersOnly (Session.In I) :=
  fun _ _ _ _ h hs => hI _ _ h hs

theorem Steady.session (hI : Steady I) : Session.Steady (Session.In I) where
  act := fun _ => hI
  settings := fun _ _ hs => hs

namespace Turn

theorem keeps_read_held (name : String) (s : Session) :
    Keeps (· = s) (parser name) fun p => s.parsers name = some p :=
  keeps_held fun _ hs _ hp => hs ▸ hp

theorem keeps_act_in {α : Type} {action : Action α} {post : α → Prop}
    (h : Keeps I action post) : Keeps (Session.In I) (act action) post :=
  fun s hs => h s.world hs

theorem keeps_newNumber_in : Keeps (Session.In I) newNumber fun _ => True :=
  .bind .get fun _ _ => .bind (.modify fun _ hs => hs) fun _ _ => .pure True.intro

theorem keeps_keepParser_in (name : String) (p : Parser) :
    Keeps (Session.In I) (keepParser name p) fun _ => True :=
  .modify fun _ hs => hs

/-- Making a dispatcher keeps what is kept by the action that makes it. -/
theorem keeps_make_in (name : String) {action : Nat → Action Parser}
    (h : ∀ number, Keeps I (action number) fun _ => True) :
    Keeps (Session.In I) (do
      let number ← newNumber
      let p ← act (action number)
      keepParser name p
      return p) fun _ => True := by
  refine .bind keeps_newNumber_in fun number _ => ?_
  refine .bind (keeps_act_in (h number)) fun p _ => ?_
  exact .bind (keeps_keepParser_in name p) fun _ _ => .pure True.intro

variable (hI : Steady I)

include hI

theorem keeps_delegate_in (plan : DelegatePlan) :
    Keeps (Session.In I) (delegate plan) fun _ => True :=
  .bind keeps_newNumber_in fun _ _ =>
    .bind (keeps_keepParser_in plan.name _) fun _ _ =>
      keeps_scheduleAll hI.session _ plan.failures

theorem keeps_dispatcher_in (name : String) (offers : List Offer) (default : Dialect) :
    Keeps (Session.In I) (dispatcher name offers default) fun _ => True := by
  unfold dispatcher
  have hoffered : Keeps (Session.In I) (offered offers) fun entries =>
      ∀ e ∈ entries, True := keeps_offered (fun _ _ _ _ _ => True.intro) offers
  refine .bind hoffered fun entries _ => keeps_make_in name fun number => ?_
  exact (Dispatcher.keeps_create hI _ entries).trivial

theorem start_in {Q : Parser → Prop} {s : Session} (name : String) (from? : Option String)
    (makings : List (Dialect × Making))
    (hQ : ∀ p, Q p → Keeps I (p.perform .close) fun _ => True) (hs : s.In I)
    (h : ∀ p ∈ (Command.start name from? makings).closings s, Q p) :
    ((start name from? makings).outcome s).2.In I := by
  have hgiven : Keeps (· = s) (factories makings) fun factories =>
      ∀ f ∈ factories, ∀ position p, f.2 position = .ok p → Q p := by
    refine keeps_factories makings fun making hmaking given hgive s' hs' p hp => h p ?_
    rw [Command.closings, List.mem_flatMap]
    refine ⟨making, hmaking, ?_⟩
    rw [hgive]
    exact Option.mem_toList.mpr (hs' ▸ hp)
  have hstart (settings : Settings) : ((do
      let factories ← factories makings
      let number ← newNumber
      let p ← act (Dispatcher.start number name settings (Registry.gather factories))
      keepParser name p
      return p).outcome s).2.In I := by
    refine hgiven.bind_read hs fun factories hfactories => ?_
    refine (keeps_make_in name (fun number => ?_) s hs).1
    exact (Dispatcher.keeps_start hI hQ
      (fun f hf => hfactories f (Registry.mem_of_mem_gather hf)) number name settings).trivial
  unfold start
  cases from? with
  | none => exact hstart .standard
  | some from? => exact (keeps_settings from?).bind_read hs fun settings _ => hstart settings

end Turn

namespace Command

variable {Q : Parser → Prop} {s : Session}
  (hQ : ∀ p, Q p → Keeps I (p.perform .close) fun _ => True)
  (hreport : ∀ p : Parser, Keeps I (p.perform .reportProfile) fun _ => True)

include hQ hreport

/-- A command that makes a parser, or carries out an operation on one. -/
theorem busy_in (hI : Steady I) {command : Command}
    (plain : ∀ name body ending, command ≠ .block name body ending) (busy : ¬ command.isQuiet)
    (hs : s.In I) (h : ∀ p ∈ command.closings s, Q p) : (command.run.outcome s).2.In I := by
  cases command with
  | delegate plan =>
    have hdelegate := (Turn.keeps_delegate_in hI plan s hs).1
    exact bind_after hdelegate fun _ => hdelegate
  | dispatcher name offers default =>
    have hdispatcher := (Turn.keeps_dispatcher_in hI name offers default s hs).1
    exact bind_after hdispatcher fun _ => hdispatcher
  | start name from? makings =>
    have hstart := Turn.start_in hI name from? makings hQ hs h
    exact bind_after hstart fun _ => hstart
  | perform name operation =>
    refine (Turn.keeps_read_held name s).bind_read hs fun p hp => ?_
    have hperform : Keeps I (p.perform operation) fun _ => True := by
      cases operation with
      | reportProfile => exact hreport p
      | close =>
        refine hQ p (h p ?_)
        rw [closings]
        exact Option.mem_toList.mpr hp
    have hafter := (Turn.keeps_act_in hperform s hs).1
    exact bind_after hafter fun _ => hafter
  | block name body ending => exact absurd rfl (plain name body ending)
  | _ => exact absurd rfl busy

omit hQ hreport in
theorem body_in {body : List Command}
    (each : ∀ command ∈ body, ∀ s : Session, s.In I → (∀ p ∈ command.closings s, Q p) →
      (command.run.outcome s).2.In I)
    (hs : s.In I) (h : ∀ p ∈ closingsOf s body, Q p) : ((runBody body).outcome s).2.In I := by
  induction body generalizing s with
  | nil => exact hs
  | cons command rest ih =>
    rw [closingsOf] at h
    have hfirst := each command List.mem_cons_self s hs fun p hp => h p (List.mem_append_left _ hp)
    have hrest := ih (fun command hc => each command (List.mem_cons_of_mem _ hc)) hfirst
      fun p hp => h p (List.mem_append_right _ hp)
    rw [runBody]
    refine bind_after hfirst fun answer => ?_
    dsimp only
    split
    · exact hfirst
    · exact bind_after hrest fun _ => hrest

/-- A command keeps what the closes of the parsers keep that it may close. -/
theorem run_in (hI : RecordsOnly I) (command : Command) (hs : s.In I)
    (h : ∀ p ∈ command.closings s, Q p) : (command.run.outcome s).2.In I := by
  induction command using Command.induction generalizing s with
  | plain command plain =>
    by_cases quiet : command.isQuiet
    · exact (keeps_run hI.session command quiet s hs).1
    · exact busy_in hQ hreport hI.steady plain quiet hs h
  | block name body ending each =>
    rw [run]
    rw [closings] at h
    refine (Turn.keeps_read_held name s).bind_read hs fun p hp => ?_
    have hbody := body_in each hs fun p hp => h p (List.mem_append_right _ hp)
    have hclose := hQ p (h p (List.mem_append_left _ (Option.mem_toList.mpr hp)))
    have hleft := (Turn.keeps_act_in hclose.attempt _ hbody).1
    exact bind_after hbody fun _ => bind_after hleft fun _ => hleft

end Command

/-- A dispatcher counts the same parsers as closed after a command that closes no parser in which
it occurs. -/
theorem Command.run_closed (command : Command) {n : Nat} {s : Session}
    (h : ∀ p ∈ command.closings s, n ∉ p.numbers) :
    (command.run.outcome s).2.world.closed n = s.world.closed n := by
  have hI : RecordsOnly fun w => w.closed n = s.world.closed n :=
    fun _ _ hrecord hw => (congrArg Prod.fst (hrecord n)).trans hw
  refine run_in (fun p hp w hw => ?_) (fun p w hw => ?_) hI command rfl h
  · exact ⟨(p.perform_closed .close hp w).trans hw, fun _ _ => True.intro⟩
  · exact ⟨(p.report_closed n w).trans hw, fun _ _ => True.intro⟩

end BuildDialect
