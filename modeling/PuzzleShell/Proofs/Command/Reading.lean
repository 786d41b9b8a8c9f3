import PuzzleShell.Proofs.Command.Effect

/-!
# How a line is taken

A line goes to the active tool, or it is read as a command line.  What it does to the row of unknown
commands is told by how it is taken, and what it does to the solved challenges by the verdict on the
flag that it hands in, if it hands one in.
-/

namespace PuzzleShell

/-- How a line that is typed is taken. -/
inductive Reading where
  /-- It goes to the active tool. -/
  | consumed
  /-- Its quotes are not closed. -/
  | unreadable
  | blank
  /-- It names a command or asks for help. -/
  | known
  /-- It names no command. -/
  | unknown
  deriving DecidableEq, Repr

def Reading.streakAfter (streak : Nat) : Reading → Nat
  | .unknown => Session.nextCount streak
  | .known => 0
  | .consumed | .unreadable | .blank => streak

@[simp] theorem Reading.streakAfter_unknown (streak : Nat) :
    Reading.unknown.streakAfter streak = Session.nextCount streak := rfl

@[simp] theorem Reading.streakAfter_known (streak : Nat) : Reading.known.streakAfter streak = 0 :=
  rfl

def Verdict.enter (verdict : Verdict) (solved : Solved) : Solved :=
  match verdict.accepted, verdict.id with
  | true, some id => Solved.insert id solved
  | _, _ => solved

structure Turn.Bears (streak : Nat) (solved : Solved) (turn : Turn) : Prop where
  streak : turn.session.unknownStreak = streak
  solved : turn.session.solved = solved

namespace Turn

theorem lasting_bears (streak : Nat) (solved : Solved) : Lasting (Bears streak solved) :=
  ⟨fun _ _ bears => ⟨bears.streak, bears.solved⟩, fun _ _ bears => ⟨bears.streak, bears.solved⟩,
    fun _ _ bears => ⟨bears.streak, bears.solved⟩⟩

theorem impersonal_bears (streak : Nat) (solved : Solved) : Impersonal (Bears streak solved) :=
  ⟨fun _ _ _ _ bears => ⟨bears.streak, bears.solved⟩,
    fun _ _ bears => ⟨bears.streak, bears.solved⟩, fun _ _ bears => ⟨bears.streak, bears.solved⟩⟩

end Turn

theorem Output.Shown.unjudged {output : Output} (shown : output.Shown) : output.Unjudged := by
  rcases shown with rfl | ⟨text, rfl⟩ <;> trivial

/-- A command that leaves the two records of the player alone and judges no flag. -/
def Command.Unjudging (command : Command) : Prop :=
  ∀ backend words streak solved,
    (command.run backend words).Keeps (Turn.Bears streak solved) Output.Unjudged

namespace Command

variable {command : Command}

theorem Ordinary.unjudging (ordinary : command.Ordinary) : command.Unjudging :=
  fun backend words streak solved =>
    (ordinary _ (Turn.lasting_bears streak solved) backend words).mono
      fun _ plain => plain.outward.unjudged

theorem Starts.unjudging (starts : command.Starts) : command.Unjudging :=
  fun backend words streak solved =>
    (starts _ (Turn.lasting_bears streak solved) (Turn.impersonal_bears streak solved).tool backend
      words).mono fun _ => Output.Outward.unjudged

theorem unjudging_exit : exit.Unjudging := by
  intro backend words streak solved
  refine Action.Keeps.look.bind fun turn _ => ?_
  split <;> exact Action.Keeps.ends trivial

/-- All commands of the standard layer, which has those of the deep one as well. -/
def every : List Command :=
  navigation ++ files ++ challenge ++ codec ++ privilege ++ network

/-- Flags are handed in with one command alone, and its name tells it from all others. -/
theorem eq_submit_of_name_eq (member : command ∈ every) (same : command.name = submit.name) :
    command = submit := by
  have one : (every.filter fun command => command.name = submit.name) = [submit] := rfl
  have found : command ∈ every.filter fun command => command.name = submit.name :=
    List.mem_filter.2 ⟨member, decide_eq_true same⟩
  rw [one] at found
  exact List.mem_singleton.1 found

theorem unjudging_of_ne (member : command ∈ every) (different : command ≠ submit) :
    command.Unjudging := by
  rw [every, List.append_assoc, List.append_assoc, List.mem_append, ← List.append_assoc] at member
  rcases member with shared | further
  · rcases ordinary_of_mem_shared shared with ordinary | rfl | rfl
    · exact ordinary.unjudging
    · exact unjudging_exit
    · exact absurd rfl different
  · rcases ordinary_or_starts_of_mem_standard further with ordinary | starts
    · exact ordinary.unjudging
    · exact starts.unjudging

/-- Words that hand in a flag are answered by the verdict on it. -/
theorem run_submit (backend : Backend) (word : String) (words : List String) (turn : Turn) :
    (submit.run backend (word :: words)).run.run turn =
      match backend.flags (" ".intercalate (word :: words)) with
      | .error fault => (.error (.fault fault), turn)
      | .ok verdict =>
          (.ok (.flagChecked verdict.accepted verdict.id),
            { turn with
              session :=
                { turn.session with solved := verdict.enter turn.session.solved } }) := by
  have given : (word :: words).isEmpty ≠ true := by simp
  unfold submit
  dsimp only
  rw [if_neg given, Action.run_bind, Action.run_ofExcept]
  rcases backend.flags (" ".intercalate (word :: words)) with fault | ⟨accepted, id⟩
  · rfl
  · cases accepted <;> cases id <;> rfl

theorem run_submit_nil (backend : Backend) (turn : Turn) :
    (submit.run backend []).run.run turn =
      (.error (.fault (.complaint (.usage submit.usage))), turn) := rfl

end Command

namespace Registry

open Command

variable {layer : Layer} {backend : Backend} {line : String} {turn : Turn}

def readingOf (registry : Registry) : List String → Reading
  | [] => .blank
  | name :: _ => if isHelp name || registry.has name then .known else .unknown

def reading (registry : Registry) (tool : Option Tool) (line : String) : Reading :=
  if tool.isSome then .consumed
  else
    match CommandLine.tokenize (Text.trim line) with
    | .error _ => .unreadable
    | .ok words => registry.readingOf words

def flagOf? (registry : Registry) : List String → Option String
  | name :: word :: words =>
      if !isHelp name && (registry.find? name).any (·.name = Command.submit.name) then
        some (" ".intercalate (word :: words))
      else none
  | _ => none

/-- The flag that a line hands in, if it goes to no tool. -/
def flag? (registry : Registry) (tool : Option Tool) (line : String) : Option String :=
  if tool.isSome then none
  else
    match CommandLine.tokenize (Text.trim line) with
    | .error _ => none
    | .ok words => registry.flagOf? words

theorem mem_every_of_find? {name : String} {command : Command}
    (found : (ofLayer layer).find? name = some command) : command ∈ every := by
  cases layer with
  | standard => exact mem_of_find?_ofList found
  | deep =>
      have shared := mem_of_find?_ofList found
      simp only [every, List.mem_append] at shared ⊢
      exact Or.inl (Or.inl (Or.inl shared))

/-- A mistake is no verdict. -/
theorem unjudged_perform {name : String} {action : Action Output} {turn : Turn}
    (unjudged : ∀ output, (action.run.run turn).1 = .ok output → output.Unjudged) :
    (perform name action turn).1.Unjudged :=
  answers_perform (fun _ => trivial) unjudged

/-- The verdict on a flag, if there is a flag and the oracle judges it. -/
def verdictOn (backend : Backend) (flag : Option String) : Option Verdict :=
  flag >>= fun flag => (backend.flags flag).toOption

/-- What a line that is carried out comes to: its answer and the player's records. -/
structure Recorded (streak : Nat) (verdict : Option Verdict) (turn : Turn)
    (result : Output × Turn) : Prop where
  streak : result.2.session.unknownStreak = streak
  judged : ∀ known, verdict = some known →
    result.1 = .flagChecked known.accepted known.id ∧
      result.2.session.solved = known.enter turn.session.solved
  unjudged : verdict = none →
    result.1.Unjudged ∧ result.2.session.solved = turn.session.solved

theorem recorded_of_unjudged {streak : Nat} {result : Output × Turn}
    (same : result.2.session.unknownStreak = streak) (unjudged : result.1.Unjudged)
    (solved : result.2.session.solved = turn.session.solved) :
    Recorded streak none turn result := by
  refine ⟨same, ?_, fun _ => ⟨unjudged, solved⟩⟩
  rintro known ⟨⟩

/-- What keeps the records keeps them however it ends. -/
theorem recorded_perform {name : String} {action : Action Output} {streak : Nat} {start : Turn}
    (keeps : action.Keeps (Turn.Bears streak turn.session.solved) Output.Unjudged)
    (bears : start.Bears streak turn.session.solved) :
    Recorded streak none turn (perform name action start) := by
  obtain ⟨kept, unjudged⟩ := keeps start bears
  rw [← snd_perform name] at kept
  exact recorded_of_unjudged kept.streak (unjudged_perform unjudged) kept.solved

/-- What handing in a flag comes to. -/
theorem recorded_submit_cons (backend : Backend) (name word : String) (words : List String)
    (turn : Turn) :
    Recorded 0 (verdictOn backend (some (" ".intercalate (word :: words)))) turn
      (perform name (Command.submit.run backend (word :: words)) (withStreak turn 0)) := by
  rw [perform, run_submit]
  unfold verdictOn
  dsimp only [bind, Option.bind]
  cases backend.flags (" ".intercalate (word :: words)) with
  | error fault => exact recorded_of_unjudged rfl trivial rfl
  | ok verdict =>
      refine ⟨rfl, ?_, ?_⟩
      · rintro known ⟨⟩
        exact ⟨rfl, rfl⟩
      · rintro ⟨⟩

/-- Handing in nothing is a mistake. -/
theorem recorded_submit_nil (backend : Backend) (name : String) (turn : Turn) :
    Recorded 0 none turn (perform name (Command.submit.run backend []) (withStreak turn 0)) := by
  rw [perform, run_submit_nil]
  exact recorded_of_unjudged rfl trivial rfl

/-- What words come to that are carried out: help, a command, or the name of none. -/
theorem recorded_run (layer : Layer) (backend : Backend) (words : List String) (turn : Turn) :
    Recorded (((ofLayer layer).readingOf words).streakAfter turn.session.unknownStreak)
      (verdictOn backend ((ofLayer layer).flagOf? words)) turn
      ((ofLayer layer).run backend turn words) := by
  cases words with
  | nil => exact recorded_of_unjudged rfl trivial rfl
  | cons name words =>
      unfold run readingOf has
      dsimp only
      by_cases reserved : isHelp name = true
      · have helped : Recorded 0 none turn
            (.text ((ofLayer layer).help words), withStreak turn 0) :=
          recorded_of_unjudged rfl trivial rfl
        cases words <;> simpa [flagOf?, reserved, verdictOn] using helped
      cases found : (ofLayer layer).find? name with
      | none =>
          have unknown : Recorded (Session.nextCount turn.session.unknownStreak) none turn
              (.text (name ++ ": command not found"),
                withStreak turn (Session.nextCount turn.session.unknownStreak)) :=
            recorded_of_unjudged rfl trivial rfl
          cases words <;> simpa [flagOf?, reserved, found, verdictOn] using unknown
      | some command =>
          have member := mem_every_of_find? found
          by_cases hands : command = Command.submit
          · subst hands
            cases words with
            | nil =>
                simpa [flagOf?, reserved, verdictOn] using recorded_submit_nil backend name turn
            | cons word words =>
                have handed := recorded_submit_cons backend name word words turn
                simpa [flagOf?, reserved, found] using handed
          · have different : command.name ≠ Command.submit.name :=
              fun same => hands (eq_submit_of_name_eq member same)
            have kept := @recorded_perform turn name _ 0 (withStreak turn 0)
              (unjudging_of_ne member hands backend words 0 turn.session.solved) ⟨rfl, rfl⟩
            cases words <;> simpa [flagOf?, reserved, found, different, verdictOn] using kept

/--
The count of unknown commands after a line is told by how the line is taken.  A line on whose flag
there is a verdict is answered by it, and no other line changes the solved challenges.
-/
theorem recorded_submit (layer : Layer) (backend : Backend) (line : String) (turn : Turn) :
    Recorded (((ofLayer layer).reading turn.tool line).streakAfter turn.session.unknownStreak)
      (verdictOn backend ((ofLayer layer).flag? turn.tool line)) turn
      ((ofLayer layer).submit backend line turn) := by
  unfold submit reading flag?
  cases active : turn.tool with
  | some tool =>
      have keeps := Tool.keeps_advance_of
        (Turn.impersonal_bears turn.session.unknownStreak turn.session.solved) backend line tool
      exact recorded_perform (keeps.mono fun output => Output.Shown.unjudged) ⟨rfl, rfl⟩
  | none =>
      unfold dispatch
      cases CommandLine.tokenize (Text.trim line) with
      | error complaint => exact recorded_of_unjudged rfl trivial rfl
      | ok words => exact recorded_run layer backend words turn

end Registry

end PuzzleShell
