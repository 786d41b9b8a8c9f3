import PuzzleShell.Proofs.Command.Ordinary

/-!
# What the commands of a layer may do

No command moves the session to the other layer by itself.  It can only ask for that, and a layer
has no command that asks for the layer it is in.  In the deep layer there is nothing that could
start a tool.
-/

namespace PuzzleShell

/-- Whether a turn belongs to a layer; in the deep one no tool is active. -/
def Turn.Within (layer : Layer) (turn : Turn) : Prop :=
  turn.session.layer = layer ∧ (layer = .deep → turn.tool = none)

/-- A turn that has left the tree and the layer of another one alone. -/
structure Turn.Aside (turn after : Turn) : Prop where
  tree : after.tree = turn.tree
  layer : after.session.layer = turn.session.layer

/-- A property of turns that concerns neither the player's identity nor questions nor tools. -/
structure Turn.Impersonal (Holds : Turn → Prop) : Prop where
  player : ∀ turn user cwd failures, Holds turn →
    Holds { turn with
      session := { turn.session with user := user, cwd := cwd, escalationFailures := failures } }
  asked : ∀ turn asked, Holds turn → Holds { turn with asked := asked }
  tool : ∀ turn tool, Holds turn → Holds { turn with tool := some tool }

def Output.Shown (output : Output) : Prop :=
  output = .silent ∨ ∃ text, output = .text text

def Output.Fits (layer : Layer) : Output → Prop
  | .connect _ => layer = .standard
  | .disconnect => layer = .deep
  | _ => True

abbrev Action.FitsLayer (layer : Layer) (action : Action Output) : Prop :=
  action.Keeps (Turn.Within layer) (Output.Fits layer)

def Command.Fits (layer : Layer) (command : Command) : Prop :=
  ∀ backend words, (command.run backend words).FitsLayer layer

theorem Turn.lasting_within (layer : Layer) : Turn.Lasting (Turn.Within layer) :=
  ⟨fun _ _ within => within, fun _ _ within => within, fun _ _ within => within⟩

theorem Output.Plain.fits {layer : Layer} {output : Output} (plain : output.Plain) :
    output.Fits layer := by
  cases output with
  | text _ | silent | clear => trivial
  | connect _ | disconnect | flagChecked _ _ => exact plain.elim

/-- The way into the deep layer is only found in the standard one. -/
theorem Output.Outward.fits {output : Output} (outward : output.Outward) :
    output.Fits .standard := by
  cases output with
  | text _ | silent | clear => trivial
  | connect _ => rfl
  | disconnect | flagChecked _ _ => exact outward.elim

namespace Command

open Action.Keeps

variable {layer : Layer} {command : Command}

theorem Ordinary.fits (ordinary : command.Ordinary) : command.Fits layer :=
  fun backend words =>
    (ordinary _ (Turn.lasting_within layer) backend words).mono fun _ => Output.Plain.fits

/-- Only the standard layer has tools. -/
theorem Starts.fits (starts : command.Starts) : command.Fits .standard := by
  intro backend words
  refine (starts _ (Turn.lasting_within .standard) (fun turn tool within => ?_) backend words).mono
    fun _ => Output.Outward.fits
  refine ⟨within.1, fun deep => ?_⟩
  cases deep

/-- The way out of the deep layer is only found there. -/
theorem fits_exit : exit.Fits layer := by
  intro backend words
  refine look.bind fun turn within => ?_
  split
  next isDeep =>
    refine ends ?_
    rw [Session.isDeep, decide_eq_true_eq, within.1] at isDeep
    exact isDeep
  · exact ends trivial

theorem fits_submit : Command.submit.Fits layer := by
  intro backend words
  unfold Command.submit
  dsimp only
  split
  · exact misuse _
  · refine (ofExcept _).bind fun verdict _ => ?_
    split
    · exact (alter fun _ within => within).bind fun _ _ => ends trivial
    · exact ends trivial

/-- The commands that both layers have. -/
theorem fits_of_mem_shared (member : command ∈ navigation ++ files ++ challenge) :
    command.Fits layer := by
  rcases ordinary_of_mem_shared member with ordinary | rfl | rfl
  · exact ordinary.fits
  · exact fits_exit
  · exact fits_submit

/-- The commands that only the standard layer has. -/
theorem fits_of_mem_standard (member : command ∈ codec ++ privilege ++ network) :
    command.Fits .standard := by
  rcases ordinary_or_starts_of_mem_standard member with ordinary | starts
  · exact ordinary.fits
  · exact starts.fits

end Command

namespace Tool

open Action.Keeps

variable {Holds : Turn → Prop}

theorem keeps_refuse (impersonal : Turn.Impersonal Holds) (backend : Backend) (message : String) :
    (refuse backend message).Keeps Holds Output.Shown := by
  refine look.bind fun turn holds => ?_
  have kept : Holds
      { turn with session := (turn.session.recordFailure backend.config.maxFailures).2 } := by
    rw [Session.recordFailure]
    split <;> exact impersonal.player turn _ _ _ holds
  exact (leave kept).bind fun _ _ => ends (Or.inr ⟨_, rfl⟩)

/-- Whatever is typed into a tool, it only concerns the tool and who the player is. -/
theorem keeps_advance_of (impersonal : Turn.Impersonal Holds) (backend : Backend) (line : String)
    (tool : Tool) : (tool.advance backend line).Keeps Holds Output.Shown := by
  cases tool with
  | login name =>
      cases name with
      | none =>
          unfold advance
          dsimp only
          split
          · exact keeps_refuse impersonal backend _
          · exact (alter fun turn => impersonal.tool turn _).bind fun _ _ => ends (Or.inl rfl)
      | some name =>
          unfold advance logIn
          dsimp only
          split
          · exact keeps_refuse impersonal backend _
          · exact (alter fun turn => impersonal.player turn _ _ _).bind fun _ _ =>
              ends (Or.inr ⟨_, rfl⟩)
  | sudoPassword command =>
      refine user.bind fun name _ => ?_
      split
      · exact ends (Or.inr ⟨_, rfl⟩)
      · exact keeps_refuse impersonal backend _
  | sshPassword target => exact keeps_refuse impersonal backend _
  | payload =>
      unfold advance reply
      dsimp only
      split
      · refine (inquire (fun turn _ => impersonal.asked turn _) _).bind fun text _ => ?_
        exact ends (Or.inr ⟨_, rfl⟩)
      · exact ends (Or.inr ⟨_, rfl⟩)

/-- A tool has nothing to do with the tree and the layers. -/
theorem keeps_advance (backend : Backend) (line : String) (tool : Tool) (start : Turn) :
    (tool.advance backend line).Keeps start.Aside Output.Shown := by
  refine keeps_advance_of ⟨?_, ?_, ?_⟩ backend line tool
  · exact fun _ _ _ _ aside => ⟨aside.tree, aside.layer⟩
  · exact fun _ _ aside => ⟨aside.tree, aside.layer⟩
  · exact fun _ _ aside => ⟨aside.tree, aside.layer⟩

theorem fits_advance (backend : Backend) (line : String) (tool : Tool) :
    Action.FitsLayer .standard (tool.advance backend line) := by
  intro turn within
  obtain ⟨aside, shown⟩ := keeps_advance backend line tool turn turn ⟨rfl, rfl⟩
  refine ⟨⟨aside.layer.trans within.1, fun deep => ?_⟩, fun output answered => ?_⟩
  · cases deep
  · rcases shown output answered with rfl | ⟨text, rfl⟩ <;> trivial

end Tool

namespace Registry

variable {layer : Layer}

/-- What is found in a registry was put into it. -/
theorem mem_of_find?_ofList {commands : List Command} {name : String} {command : Command}
    (found : (ofList commands).find? name = some command) : command ∈ commands := by
  have known : ∀ (commands : List Command) (registry : Registry) name,
      Roster.get? name (commands.foldl register registry).commands = some command →
        command ∈ commands ∨ Roster.get? name registry.commands = some command := by
    intro commands
    induction commands with
    | nil => exact fun registry name found => Or.inr found
    | cons first rest ih =>
        intro registry name found
        rcases ih (registry.register first) name found with later | before
        · exact Or.inl (List.mem_cons_of_mem _ later)
        · rw [register, Roster.get?_put] at before
          split at before
          · cases before
            exact Or.inl List.mem_cons_self
          · exact Or.inr before
  rcases known commands empty _ found with member | absent
  · exact member
  · cases absent

/-- Everything that the registry of a layer holds is a command of that layer. -/
theorem fits_of_find? {name : String} {command : Command}
    (found : (ofLayer layer).find? name = some command) : command.Fits layer := by
  cases layer with
  | standard =>
      have member := mem_of_find?_ofList found
      rw [List.append_assoc, List.append_assoc, List.mem_append, ← List.append_assoc] at member
      rcases member with shared | further
      · exact Command.fits_of_mem_shared shared
      · exact Command.fits_of_mem_standard further
  | deep => exact Command.fits_of_mem_shared (mem_of_find?_ofList found)

theorem snd_perform (name : String) (action : Action Output) (turn : Turn) :
    (perform name action turn).2 = (action.run.run turn).2 := by
  unfold perform
  rcases action.run.run turn with ⟨outcome, after⟩
  cases outcome with
  | ok output => rfl
  | error failure => cases failure <;> rfl

/-- A mistake is answered by a text, so what holds of texts and of the output holds of both. -/
theorem answers_perform {Answers : Output → Prop} {name : String} {action : Action Output}
    {turn : Turn} (text : ∀ message, Answers (.text message))
    (answers : ∀ output, (action.run.run turn).1 = .ok output → Answers output) :
    Answers (perform name action turn).1 := by
  unfold perform
  rcases ran : action.run.run turn with ⟨outcome, after⟩
  rw [ran] at answers
  cases outcome with
  | ok output => exact answers output rfl
  | error failure => cases failure <;> exact text _

theorem fits_perform {name : String} {action : Action Output}
    (fits : action.FitsLayer layer) {turn : Turn} (within : turn.Within layer) :
    (perform name action turn).2.Within layer ∧ (perform name action turn).1.Fits layer := by
  obtain ⟨kept, answered⟩ := fits turn within
  rw [snd_perform]
  exact ⟨kept, answers_perform (fun _ => trivial) answered⟩

theorem fits_run (backend : Backend) {turn : Turn} (within : turn.Within layer)
    (words : List String) :
    ((ofLayer layer).run backend turn words).2.Within layer ∧
      ((ofLayer layer).run backend turn words).1.Fits layer := by
  cases words with
  | nil => exact ⟨within, trivial⟩
  | cons name words =>
      simp only [run]
      by_cases reserved : isHelp name = true
      · rw [if_pos reserved]
        exact ⟨within, trivial⟩
      · rw [if_neg reserved]
        have reset : Turn.Within layer (withStreak turn 0) := within
        cases found : (ofLayer layer).find? name with
        | none => exact ⟨within, trivial⟩
        | some command => exact fits_perform (fits_of_find? found backend words) reset

theorem fits_dispatch (backend : Backend) (line : String) {turn : Turn}
    (within : turn.Within layer) :
    ((ofLayer layer).dispatch backend line turn).2.Within layer ∧
      ((ofLayer layer).dispatch backend line turn).1.Fits layer := by
  unfold dispatch
  split
  · exact ⟨within, trivial⟩
  next words _ => exact fits_run backend within words

/-- A line of input leaves the session in its layer and is answered as it may be there. -/
theorem fits_submit (backend : Backend) (line : String) {turn : Turn}
    (within : turn.Within layer) :
    ((ofLayer layer).submit backend line turn).2.Within layer ∧
      ((ofLayer layer).submit backend line turn).1.Fits layer := by
  unfold submit
  cases active : turn.tool with
  | none => exact fits_dispatch backend line within
  | some tool =>
      cases layer with
      | standard =>
          have emptied : Turn.Within .standard { turn with tool := none } :=
            ⟨within.1, fun _ => rfl⟩
          exact fits_perform (tool.fits_advance backend line) emptied
      | deep =>
          rw [within.2 rfl] at active
          cases active

/-- Also while a tool is active, wherever that may be, a line is answered as it may be there. -/
theorem fits_answer (backend : Backend) (line : String) {turn : Turn}
    (stays : turn.session.layer = layer) :
    ((ofLayer layer).submit backend line turn).1.Fits layer := by
  cases active : turn.tool with
  | none => exact (fits_submit backend line ⟨stays, fun _ => active⟩).2
  | some tool =>
      unfold submit
      rw [active]
      refine answers_perform (fun _ => trivial) fun output answered => ?_
      have shown := (tool.keeps_advance backend line _ _ ⟨rfl, rfl⟩).2 output answered
      rcases shown with rfl | ⟨text, rfl⟩ <;> trivial

end Registry

end PuzzleShell
