import PuzzleShell.Proofs.Command.Layers
import PuzzleShell.Proofs.Command.Steps

/-!
# What a command does to a turn

A command works in small steps, or it is one of the four that carry contents: moving, copying,
encoding and unpacking.  Each of those does one thing to the tree, with what it found there when
the command was typed.
-/

namespace PuzzleShell

inductive Command.Effect (backend : Backend) : Command → List String → Turn → Turn → Prop where
  | steps {command : Command} {words : List String} {turn after : Turn}
      (steps : turn.Steps backend after) : Effect backend command words turn after
  | move {source target : String} {turn : Turn} :
      Effect backend mv [source, target] turn
        { turn with
          tree :=
            (turn.tree.rename (turn.path source) (turn.path target) turn.session.user).2 }
  | copy {words : List String} {letters : List Char} {source target : String} {turn : Turn}
      (operands : Options.split ['r', 'R'] words = .ok (letters, [source, target])) :
      Effect backend cp words turn
        { turn with
          tree :=
            (turn.tree.copy (turn.path source) (turn.path target) turn.session.user
              (!letters.isEmpty)).2 }
  | encode {source target : String} {turn : Turn} {content result : Content} {asked : List String}
      (held : turn.tree.content (turn.path source) turn.session.user = .ok content)
      (encoded : (encodeContent backend.content content).outcome = .ok result) :
      Effect backend base64 [source, target] turn
        { turn with
          asked := asked
          tree := (turn.tree.write (turn.path target) result turn.session.user).2 }
  | decode {option source target : String} {turn : Turn} {content result : Content}
      {asked : List String} (asksDecode : option = "-d" ∨ option = "--decode")
      (held : turn.tree.content (turn.path source) turn.session.user = .ok content)
      (decoded : (decodeContent backend.content content).outcome = .ok result) :
      Effect backend base64 [option, source, target] turn
        { turn with
          asked := asked
          tree := (turn.tree.write (turn.path target) result turn.session.user).2 }
  | unpack {words operands : List String} {directory : Option String} {archive : String}
      {turn : Turn} {content : Content} {entries : List (String × Content)} {tree : Tree}
      (options : Options.withValue "-d" words = some (operands, directory))
      (last : operands.getLast? = some archive)
      (held : turn.tree.content (turn.path archive) turn.session.user = .ok content)
      (packed : archiveEntries? content = some entries)
      (extracted : extract (turn.path (directory.getD ".")) turn.session.user entries turn.tree =
        .ok tree) :
      Effect backend unzip words turn { turn with tree := tree }

namespace Command

open PuzzleShell.Action

variable {backend : Backend} {command : Command} {words : List String} {turn after : Turn}
  {Answers : Output → Prop}

def Acts (Answers : Output → Prop) (command : Command) : Prop :=
  ∀ backend words turn,
    Effect backend command words turn ((command.run backend words).run.run turn).2 ∧
      ∀ output, ((command.run backend words).run.run turn).1 = .ok output → Answers output

theorem Plain.acts {command : Command} (plain : command.Plain) : command.Acts Output.Stays := by
  intro backend words turn
  obtain ⟨steps, stays⟩ := plain backend words turn turn .refl
  exact ⟨.steps steps, stays⟩

/-- An action that ends in a failure does not answer. -/
theorem acts_error {failure : Failure} (effect : Effect backend command words turn after) :
    Effect backend command words turn after ∧
      ∀ output, (.error failure : Except Failure Output) = .ok output → Answers output := by
  refine ⟨effect, ?_⟩
  rintro output ⟨⟩

theorem acts_ok {answer : Output} (effect : Effect backend command words turn after)
    (answers : Answers answer) :
    Effect backend command words turn after ∧
      ∀ output, (.ok answer : Except Failure Output) = .ok output → Answers output := by
  refine ⟨effect, ?_⟩
  rintro output ⟨⟩
  exact answers

theorem stays_silent : Output.silent.Stays := fun _ => Output.noConfusion

theorem stays_text (text : String) : (Output.text text).Stays := fun _ => Output.noConfusion

/-- A change of the tree is the whole effect, whether it comes off or not. -/
theorem acts_change {α : Type} (work : Tree → Tree.Change α) (after : Turn)
    (effect : Effect backend command words turn { after with tree := (work after.tree).2 }) :
    Effect backend command words turn
        ((Action.change work >>= fun _ => return Output.silent : Action Output).run.run after).2 ∧
      ∀ output,
        ((Action.change work >>= fun _ => return Output.silent : Action Output).run.run after).1 =
          .ok output → output.Stays := by
  rw [run_bind, run_change]
  cases (work after.tree).1 with
  | error fault => exact acts_error effect
  | ok value => exact acts_ok effect stays_silent

theorem acts_mv : mv.Acts Output.Stays := by
  intro backend words turn
  unfold mv
  dsimp only
  split
  next source target =>
    rw [run_bind_of_ok (run_resolve source turn), run_bind_of_ok (run_resolve target turn),
      run_bind_of_ok (run_user turn)]
    exact acts_change _ turn .move
  · exact acts_error (.steps .refl)

theorem acts_cp : cp.Acts Output.Stays := by
  intro backend words turn
  unfold cp Options.read
  dsimp only
  rcases operands : Options.split ['r', 'R'] words with cause | ⟨letters, operand⟩
  · exact acts_error (.steps .refl)
  · simp only [run_bind_of_ok (run_pure _ turn)]
    split
    next source target =>
      rw [run_bind_of_ok (run_resolve source turn), run_bind_of_ok (run_resolve target turn),
        run_bind_of_ok (run_user turn)]
      exact acts_change _ turn (.copy operands)
    · exact acts_error (.steps .refl)

/-- Encoding or decoding asks the oracle, and then writes the result if there is a place for it. -/
theorem acts_recode (decode : Bool) (input : String) (output : Option String)
    (written : ∀ target content result asked, output = some target →
      turn.tree.content (turn.path input) turn.session.user = .ok content →
      ((if decode then decodeContent else encodeContent) backend.content content).outcome =
        .ok result →
      Effect backend base64 words turn { turn with
        asked := asked
        tree := (turn.tree.write (turn.path target) result turn.session.user).2 }) :
    Effect backend base64 words turn ((recode backend decode input output).run.run turn).2 ∧
      ∀ answer, ((recode backend decode input output).run.run turn).1 = .ok answer →
        answer.Stays := by
  unfold recode
  simp only [run_bind, run_resolve, run_get, run_ofExcept]
  rw [← Turn.path]
  rcases held : turn.tree.content (turn.path input) turn.session.user with fault | content
  · exact acts_error (.steps .refl)
  · have made := fun target result asked there => written target content result asked there held
    simp only [ended, run_inquire]
    generalize (if decode = true then decodeContent else encodeContent) backend.content content =
      inquiry at made ⊢
    obtain ⟨asked, outcome⟩ := inquiry
    cases outcome with
    | error fault =>
        exact acts_error (.steps (.single (.ask asked)))
    | ok result =>
        cases output with
        | none =>
            simp only [run_bind, run_inquire]
            generalize result.render backend.content = inquiry
            obtain ⟨further, outcome⟩ := inquiry
            have asks := (Relation.ReflTransGen.single (Turn.Step.ask asked)).tail
              (@Turn.Step.ask backend { turn with asked := turn.asked ++ asked } further)
            cases outcome with
            | error fault =>
                exact acts_error (.steps asks)
            | ok text =>
                exact acts_ok (.steps asks) (stays_text text)
        | some target =>
            dsimp only
            rw [run_bind_of_ok (run_resolve target _)]
            exact acts_change _ _ (made target result (turn.asked ++ asked) rfl rfl)

theorem acts_base64 : base64.Acts Output.Stays := by
  intro backend words turn
  unfold base64
  dsimp only
  by_cases asksDecode :
      (decide (words.head? = some "-d") || decide (words.head? = some "--decode")) = true
  · cases words with
    | nil => cases asksDecode
    | cons option rest =>
        have named : option = "-d" ∨ option = "--decode" := by simpa using asksDecode
        simp only [asksDecode, if_true, List.tail_cons]
        split
        · refine acts_recode true _ none ?_
          rintro target content result asked ⟨⟩
        next input output =>
          refine acts_recode true input (some output) ?_
          rintro target content result asked ⟨⟩ held decoded
          exact .decode named held decoded
        · exact acts_error (.steps .refl)
  · simp only [asksDecode]
    rcases words with _ | ⟨input, _ | ⟨output, _ | ⟨more, rest⟩⟩⟩
    · exact acts_error (.steps .refl)
    · refine acts_recode false input none ?_
      rintro target content result asked ⟨⟩
    · refine acts_recode false input (some output) ?_
      rintro target content result asked ⟨⟩ held encoded
      exact .encode held encoded
    · exact acts_error (.steps .refl)

theorem acts_unzip : unzip.Acts Output.Stays := by
  intro backend words turn
  unfold unzip
  dsimp only
  rcases options : Options.withValue "-d" words with _ | ⟨operands, directory⟩
  · exact acts_error (.steps .refl)
  rcases last : operands.getLast? with _ | archive
  · simp only [last]
    exact acts_error (.steps .refl)
  simp only [last, run_bind, run_resolve, run_get, run_ofExcept]
  rw [← Turn.path]
  rcases held : turn.tree.content (turn.path archive) turn.session.user with fault | content
  · exact acts_error (.steps .refl)
  simp only [ended]
  rcases packed : archiveEntries? content with _ | entries
  · exact acts_error (.steps .refl)
  simp only [run_bind, run_ofExcept]
  rw [← Turn.path]
  rcases extracted : extract (turn.path (directory.getD ".")) turn.session.user entries turn.tree
    with fault | tree
  · exact acts_error (.steps .refl)
  · exact acts_ok (.unpack options last held packed extracted) (stays_text _)

theorem acts_ssh : ssh.Acts fun _ => True := by
  intro backend words turn
  have steps : Action.Keeps (turn.Steps backend) (fun _ => True) (ssh.run backend words) := by
    unfold ssh
    dsimp only
    split
    · split
      · refine Keeps.user.bind fun name _ => ?_
        split
        · exact Keeps.complain _
        · split
          · exact (steps_install _).bind fun _ _ => Keeps.ends trivial
          · refine Keeps.steps_of_works fun turn => ?_
            refine (Keeps.resolve _).bind fun path _ => Keeps.look.bind fun between _ => ?_
            refine (Keeps.ofExcept _).bind fun content _ => ?_
            refine (Keeps.works_ask _).bind fun opens _ => ?_
            split
            · exact Keeps.ends trivial
            · exact Keeps.complain _
      · exact Keeps.misuse _
    · exact Keeps.complain _
  obtain ⟨taken, answered⟩ := steps turn .refl
  exact ⟨.steps taken, answered⟩

/-- Of all commands only one may lead to the deep layer. -/
theorem acts_of_mem_standard {command : Command}
    (member : command ∈ navigation ++ files ++ challenge ++ codec ++ privilege ++ network) :
    command = ssh ∨ command.Acts Output.Stays := by
  simp only [navigation, files, challenge, codec, privilege, network, List.mem_append,
    List.mem_cons, List.not_mem_nil, or_false] at member
  rcases member with ((((around | change) | rfl) | pack) | become) | connect
  · rcases around with rfl | rfl | rfl | rfl | rfl | rfl | rfl | rfl | rfl
    · exact Or.inr plain_ls.acts
    · exact Or.inr plain_cd.acts
    · exact Or.inr plain_pwd.acts
    · exact Or.inr plain_cat.acts
    · exact Or.inr plain_echo.acts
    · exact Or.inr plain_clear.acts
    · exact Or.inr plain_whoami.acts
    · exact Or.inr plain_id.acts
    · exact Or.inr plain_exit.acts
  · rcases change with rfl | rfl | rfl | rfl | rfl | rfl
    · exact Or.inr plain_mkdir.acts
    · exact Or.inr plain_touch.acts
    · exact Or.inr plain_rm.acts
    · exact Or.inr acts_mv
    · exact Or.inr acts_cp
    · exact Or.inr plain_chmod.acts
  · exact Or.inr plain_submit.acts
  · rcases pack with rfl | rfl
    · exact Or.inr acts_base64
    · exact Or.inr acts_unzip
  · rcases become with rfl | rfl
    · exact Or.inr plain_login.acts
    · exact Or.inr plain_runAsRoot.acts
  · rcases connect with rfl | rfl
    · exact Or.inr plain_nc.acts
    · exact Or.inl rfl

end Command

namespace Registry

open Command

variable {layer : Layer}

theorem acts_of_find? {name : String} {command : Command}
    (found : (ofLayer layer).find? name = some command) :
    command = ssh ∨ command.Acts Output.Stays := by
  apply acts_of_mem_standard
  cases layer with
  | standard => exact mem_of_find?_ofList found
  | deep =>
      have shared := mem_of_find?_ofList found
      simp only [List.mem_append] at shared ⊢
      exact Or.inl (Or.inl (Or.inl shared))

/-- A line names a command and the words for it. -/
structure Means (registry : Registry) (line name : String) (command : Command)
    (words : List String) : Prop where
  words : CommandLine.tokenize (Text.trim line) = .ok (name :: words)
  notHelp : isHelp name = false
  found : registry.find? name = some command

inductive Dispatched (registry : Registry) (backend : Backend) (line : String) (turn : Turn) :
    Output × Turn → Prop where
  /-- The line names a command. -/
  | command {name : String} {command : Command} {words : List String}
      (means : registry.Means line name command words) :
      Dispatched registry backend line turn
        (perform name (command.run backend words) (withStreak turn 0))
  /-- The line is blank, asks for help or names no command. -/
  | idle {output : Output} (streak : Nat) (stays : output.Stays) :
      Dispatched registry backend line turn (output, withStreak turn streak)

theorem dispatched (registry : Registry) (backend : Backend) (line : String) (turn : Turn) :
    Dispatched registry backend line turn (registry.dispatch backend line turn) := by
  unfold dispatch
  split
  · exact .idle turn.session.unknownStreak (stays_text _)
  next words tokens =>
    cases words with
    | nil => exact .idle turn.session.unknownStreak stays_silent
    | cons name words =>
        unfold run
        dsimp only
        by_cases reserved : isHelp name = true
        · rw [if_pos reserved]
          exact .idle 0 (stays_text _)
        · rw [if_neg reserved]
          cases found : registry.find? name with
          | none => exact .idle _ (stays_text _)
          | some command => exact .command ⟨tokens, Bool.not_eq_true _ ▸ reserved, found⟩

/-- A mistake is only ever answered by a text. -/
theorem run_eq_ok_of_perform_eq {name host : String} {action : Action Output} {turn : Turn}
    (connects : (perform name action turn).1 = .connect host) :
    (action.run.run turn).1 = .ok (.connect host) := by
  revert connects
  refine @answers_perform
    (fun output => output = .connect host → (action.run.run turn).1 = .ok (.connect host))
    name action turn (fun message => nofun) fun output ran connects => ?_
  rw [ran, connects]

end Registry

end PuzzleShell
