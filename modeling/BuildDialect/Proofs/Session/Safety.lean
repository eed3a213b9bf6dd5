import BuildDialect.Proofs.Session.Known
import BuildDialect.Proofs.Session.Turns

/-!
Every command leaves a session in which all is in order. Commands may make new dispatchers, so more
are known after a command than before; those that were known stay so.
-/
namespace BuildDialect

open Process

theorem Session.Sound.parsersOnly (known : List Node) : ParsersOnly (Session.Sound known) := by
  intro s s' hparsers hmade hrecord h
  refine ⟨World.Sound.recordsOnly known _ _ hrecord h.world, ?_, ?_⟩
  · rw [hparsers]
    exact h.named
  · rw [hmade]
    exact h.made

/-- A turn leaves a session in order, in which more dispatchers may be known. -/
def Turn.Safe {α : Type} (known : List Node) (turn : Turn α) (post : List Node → α → Prop) : Prop :=
  ∀ s : Session, s.Sound known → ∃ more, known ⊆ more ∧ (turn.outcome s).2.Sound more ∧
    ∀ value, (turn.outcome s).1 = .ok value → post more value

namespace Turn.Safe

variable {α β : Type} {known : List Node}

/-- No more dispatchers are known after a turn that makes none. -/
theorem stays {turn : Turn α} {post : α → Prop} (h : Keeps (Session.Sound known) turn post) :
    Safe known turn fun more value => more = known ∧ post value :=
  fun s hs => ⟨known, List.Subset.refl _, (h s hs).1, fun value hv => ⟨rfl, (h s hs).2 value hv⟩⟩

theorem of_keeps {turn : Turn α} {post : α → Prop}
    (h : Keeps (Session.Sound known) turn post) : Safe known turn fun _ => post :=
  fun s hs => ⟨known, List.Subset.refl _, h s hs⟩

theorem pure (value : α) : Safe known (pure value : Turn α) fun _ _ => True :=
  of_keeps (.pure True.intro)

theorem bind {turn : Turn α} {mid : List Node → α → Prop} {next : α → Turn β}
    {post : List Node → β → Prop} (h : Safe known turn mid)
    (hnext : ∀ more value, known ⊆ more → mid more value → Safe more (next value) post) :
    Safe known (turn >>= next) post := by
  intro s hs
  obtain ⟨more, hmore, hafter, hvalue⟩ := h s hs
  rw [outcome_bind]
  rcases hr : turn.outcome s with ⟨fault | value, after⟩
  · rw [hr] at hafter
    exact ⟨more, hmore, hafter, fun _ hv => by cases hv⟩
  · rw [hr] at hafter hvalue
    obtain ⟨most, hmost, hfinal⟩ := hnext more value hmore (hvalue value rfl) after hafter
    exact ⟨most, List.Subset.trans hmore hmost, hfinal⟩

theorem bind_keeps {turn : Turn α} {mid : α → Prop} {next : α → Turn β}
    {post : List Node → β → Prop} (h : Keeps (Session.Sound known) turn mid)
    (hnext : ∀ value, mid value → Safe known (next value) post) :
    Safe known (turn >>= next) post := by
  refine (stays h).bind ?_
  rintro more value - ⟨rfl, hvalue⟩
  exact hnext value hvalue

theorem answer {turn : Turn α} {post : List Node → α → Prop} (h : Safe known turn post) :
    Safe known turn.answer fun _ _ => True := by
  intro s hs
  obtain ⟨more, hmore, hafter, _⟩ := h s hs
  exact ⟨more, hmore, hafter, fun _ _ => True.intro⟩

end Turn.Safe

namespace Turn

variable {known : List Node}

theorem keeps_known (name : String) :
    Keeps (Session.Sound known) (parser name) fun p => p.Among known :=
  keeps_held fun _ hs p hp => hs.named name p hp

theorem keeps_act_sound {α : Type} {action : Action α} {post : α → Prop}
    (h : Keeps (World.Sound known) action post) : Keeps (Session.Sound known) (act action) post :=
  fun s hs => ⟨hs.act (h s.world hs.world).1, (h s.world hs.world).2⟩

theorem keeps_newNumber : Keeps (Session.Sound known) newNumber fun number =>
    ∀ a ∈ known, a.1.number ≠ number := by
  intro s hs
  refine ⟨⟨hs.world, hs.named, fun a ha => Nat.lt_succ_of_lt (hs.made a ha)⟩, ?_⟩
  intro number hnumber a ha heq
  have hmade : s.made = number := Except.ok.inj hnumber
  have hlt := hs.made a ha
  omega

theorem keeps_delegate (plan : DelegatePlan) :
    Keeps (Session.Sound known) (delegate plan) fun _ => True := by
  refine .bind keeps_newNumber fun number _ => ?_
  refine .bind (.modify fun s hs => hs.keep plan.name (.delegate known _)) fun _ _ => ?_
  exact keeps_scheduleAll (Session.Sound.parsersOnly known).steady number plan.failures

end Turn

/-- A dispatcher that is made under a new number is known from then on. -/
theorem Turn.Safe.make {known : List Node} (name : String) {action : Nat → Action Parser}
    (h : ∀ number, Keeps (World.Sound known) (action number) fun p => ∃ d entries registry,
      d.number = number ∧ (∀ e ∈ entries, e.2.Among known) ∧
        Registry.ofEntries entries d.default = .ok registry ∧ p = .dispatcher d registry) :
    Safe known (do
      let number ← newNumber
      let p ← act (action number)
      keepParser name p
      return p) fun _ _ => True := by
  intro s hs
  obtain ⟨hnew, hunknown⟩ := keeps_newNumber s hs
  have hnumber := hunknown s.made rfl
  obtain ⟨hworld, hvalue⟩ := h s.made s.world hs.world
  have hafter := hnew.act hworld
  rw [outcome_bind]
  change ∃ more, known ⊆ more ∧ (((act (action s.made)) >>= fun p => do
    keepParser name p
    return p).outcome { s with made := s.made + 1 }).2.Sound more ∧ ∀ value, _ → True
  rw [outcome_bind, outcome_act]
  rcases hr : (action s.made).outcome s.world with ⟨fault | p, w⟩
  · rw [hr] at hafter
    exact ⟨known, List.Subset.refl _, hafter, fun _ _ => True.intro⟩
  · rw [hr] at hafter hvalue
    obtain ⟨d, entries, registry, hd, parts, accepted, rfl⟩ := hvalue p rfl
    rw [← hd] at hnumber
    have hmade : d.number < s.made + 1 := hd ▸ Nat.lt_succ_self s.made
    have hcons : Session.Sound ((d, registry) :: known) _ := hafter.cons hnumber hmade
    exact ⟨(d, registry) :: known, List.subset_cons_self _ _,
      hcons.keep name (.dispatcher accepted parts hnumber), fun _ _ => True.intro⟩

namespace Turn

variable {known : List Node}

theorem safe_dispatcher (name : String) (offers : List Offer) (default : Dialect) :
    Safe known (dispatcher name offers default) fun _ _ => True := by
  unfold dispatcher
  have hoffered : Keeps (Session.Sound known) (offered offers) fun entries =>
      ∀ e ∈ entries, e.2.Among known := keeps_offered (fun _ hs => hs.named) offers
  refine .bind_keeps hoffered fun entries hentries => ?_
  refine .make name fun number => ?_
  refine (Dispatcher.keeps_create (World.Sound.recordsOnly known).steady _ entries).mono ?_
  rintro p ⟨registry, accepted, rfl⟩
  exact ⟨_, entries, registry, rfl, hentries, accepted, rfl⟩

theorem safe_start (name : String) (from? : Option String) (makings : List (Dialect × Making)) :
    Safe known (start name from? makings) fun _ _ => True := by
  unfold start
  have hstart (settings : Settings) : Safe known (do
      let factories ← factories makings
      let number ← newNumber
      let p ← act (Dispatcher.start number name settings (Registry.gather factories))
      keepParser name p
      return p) fun _ _ => True := by
    have hgiven : Keeps (Session.Sound known) (Turn.factories makings) fun factories =>
        ∀ f ∈ factories, ∀ position p, f.2 position = .ok p → p.Among known :=
      keeps_factories makings fun _ _ given _ s hs p hp => hs.named given p hp
    refine .bind_keeps hgiven fun factories hfactories => .make name fun number => ?_
    refine (Dispatcher.keeps_start (World.Sound.recordsOnly known).steady
      (fun p hp => World.Sound.keeps_perform hp .close)
      (fun f hf => hfactories f (Registry.mem_of_mem_gather hf)) number name settings).mono ?_
    rintro p ⟨entries, registry, parts, accepted, rfl⟩
    exact ⟨_, entries, registry, rfl, parts, accepted, rfl⟩
  cases from? with
  | none => exact hstart .standard
  | some from? => exact .bind_keeps (keeps_settings from?) fun settings _ => hstart settings

end Turn

namespace Command

variable {known : List Node}

/-- A command that is no block leaves a session in order. -/
theorem safe_plain (command : Command)
    (plain : ∀ name body ending, command ≠ .block name body ending) :
    Turn.Safe known command.run fun _ _ => True := by
  by_cases quiet : command.isQuiet
  · exact .of_keeps (keeps_run (Session.Sound.parsersOnly known) command quiet)
  · cases command with
    | delegate plan =>
      exact .of_keeps (.bind (Turn.keeps_delegate plan) fun _ _ => .pure True.intro)
    | dispatcher name offers default =>
      exact .bind (Turn.safe_dispatcher name offers default) fun _ _ _ _ => .pure _
    | start name from? makings =>
      exact .bind (Turn.safe_start name from? makings) fun _ _ _ _ => .pure _
    | perform name operation =>
      refine .bind_keeps (Turn.keeps_known name) fun p hp => ?_
      have hperform := Turn.keeps_act_sound (World.Sound.keeps_perform hp operation)
      exact .of_keeps (.bind hperform fun _ _ => .pure True.intro)
    | block name body ending => exact absurd rfl (plain name body ending)
    | _ => exact absurd rfl quiet

theorem safe_body {body : List Command}
    (each : ∀ command ∈ body, ∀ known, Turn.Safe known command.run fun _ _ => True) :
    Turn.Safe known (runBody body) fun _ _ => True := by
  induction body generalizing known with
  | nil => exact .pure _
  | cons command rest ih =>
    have hrest (known : List Node) : Turn.Safe known (runBody rest) fun _ _ => True :=
      ih fun command hc => each command (List.mem_cons_of_mem _ hc)
    rw [runBody]
    refine .bind (each command List.mem_cons_self known).answer fun more answer _ _ => ?_
    dsimp only
    split
    · exact .pure _
    · exact .bind (hrest more) fun _ _ _ _ => .pure _

/-- Every command leaves a session in order. -/
theorem safe_run (command : Command) (known : List Node) :
    Turn.Safe known command.run fun _ _ => True := by
  induction command using Command.induction generalizing known with
  | plain command plain => exact command.safe_plain plain
  | block name body ending each =>
    rw [run]
    refine .bind_keeps (Turn.keeps_known name) fun p hp => ?_
    refine .bind (safe_body each) fun more steps hmore _ => ?_
    have hclose := World.Sound.keeps_perform (hp.mono hmore) .close
    exact .of_keeps (.bind (Turn.keeps_act_sound hclose.attempt) fun _ _ => .pure True.intro)

end Command

namespace Session

def close (s : Session) (p : Parser) : Session :=
  { s with world := ((p.perform .close).outcome s.world).2 }

def rescript (s : Session) (script : Script) : Session :=
  { s with world := { s.world with script } }

/-- A session leads to another by commands, while the delegates change how they answer as they
like. A block may be entered, and be left after steps of its own: its parser is then closed. -/
inductive Leads : Session → Session → Prop
  | refl (s : Session) : Leads s s
  | perform {s t : Session} (before : Leads s t) (command : Command) :
      Leads s (t.perform command).2
  | rescript {s t : Session} (before : Leads s t) (script : Script) : Leads s (t.rescript script)
  | leave {s t u : Session} {name : String} {p : Parser} (before : Leads s t)
      (entered : t.parsers name = some p) (inside : Leads t u) : Leads s (u.close p)

theorem Leads.sound {s t : Session} (h : s.Leads t) {known : List Node} (hs : s.Sound known) :
    ∃ more, known ⊆ more ∧ t.Sound more := by
  induction h generalizing known with
  | refl s => exact ⟨known, List.Subset.refl _, hs⟩
  | @perform s t before command ih =>
    obtain ⟨more, hmore, ht⟩ := ih hs
    obtain ⟨most, hmost, hafter, _⟩ := command.safe_run more t ht
    exact ⟨most, List.Subset.trans hmore hmost, hafter⟩
  | @rescript s t before script ih =>
    obtain ⟨more, hmore, ht⟩ := ih hs
    have hafter := Sound.parsersOnly more t (t.rescript script) rfl rfl (fun _ => rfl) ht
    exact ⟨more, hmore, hafter⟩
  | leave before entered inside ih ih' =>
    obtain ⟨more, hmore, ht⟩ := ih hs
    obtain ⟨most, hmost, hu⟩ := ih' ht
    have hp := (ht.named _ _ entered).mono hmost
    exact ⟨most, List.Subset.trans hmore hmost,
      hu.act (World.Sound.keeps_perform hp .close _ hu.world).1⟩

end Session

end BuildDialect
