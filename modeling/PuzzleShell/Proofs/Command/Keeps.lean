import PuzzleShell.Command.Files
import PuzzleShell.Command.Navigation

/-!
# What an action keeps

An action keeps a property of turns if it hands on every turn that has it with that property,
however it ends.  What it answers may be described at the same time.  Each of the ways in which
actions are built is described by what its parts keep.
-/

namespace PuzzleShell.Action

variable {α β : Type} {Holds : Turn → Prop} {Answers : α → Prop} {After : β → Prop}

/-- Whether an action keeps a property of turns and answers only as described. -/
def Keeps (Holds : Turn → Prop) (Answers : α → Prop) (action : Action α) : Prop :=
  ∀ turn, Holds turn →
    Holds (action.run.run turn).2 ∧
      ∀ value, (action.run.run turn).1 = .ok value → Answers value

theorem run_bind (first : Action α) (next : α → Action β) (turn : Turn) :
    (first >>= next).run.run turn =
      match first.run.run turn with
      | (.ok value, between) => (next value).run.run between
      | (.error failure, between) => (.error failure, between) := by
  rw [ExceptT.run_bind, StateT.run_bind]
  rcases first.run.run turn with ⟨outcome, between⟩
  cases outcome <;> rfl

/-- What follows an action that has come to its end is carried out on what that one left. -/
theorem run_bind_of_ok {first : Action α} {next : α → Action β} {turn between : Turn} {value : α}
    (ran : first.run.run turn = (.ok value, between)) :
    (first >>= next).run.run turn = (next value).run.run between := by
  rw [run_bind, ran]

/-- How an action ends that only hands a computation's result on. -/
def ended : Except Fault α → Except Failure α
  | .ok value => .ok value
  | .error fault => .error (.fault fault)

theorem run_pure (value : α) (turn : Turn) :
    (Pure.pure value : Action α).run.run turn = (.ok value, turn) := rfl

theorem run_get (turn : Turn) :
    (MonadState.get : Action Turn).run.run turn = (.ok turn, turn) := rfl

theorem run_resolve (word : String) (turn : Turn) :
    (Action.resolve word).run.run turn =
      (.ok (Path.resolve word turn.session.cwd), turn) := rfl

theorem run_user (turn : Turn) :
    Action.user.run.run turn = (.ok turn.session.user, turn) := rfl

theorem run_ofExcept (outcome : Except Fault α) (turn : Turn) :
    (Action.ofExcept outcome).run.run turn = (ended outcome, turn) := by
  cases outcome <;> rfl

theorem run_inquire (inquiry : Inquiry α) (turn : Turn) :
    (Action.inquire inquiry).run.run turn =
      (ended inquiry.outcome, { turn with asked := turn.asked ++ inquiry.asked }) := by
  obtain ⟨asked, outcome⟩ := inquiry
  cases outcome <;> rfl

theorem run_change (work : Tree → Tree.Change α) (turn : Turn) :
    (Action.change work).run.run turn =
      (ended (work turn.tree).1, { turn with tree := (work turn.tree).2 }) := by
  unfold Action.change
  rw [run_bind, run_get]
  dsimp only
  rcases work turn.tree with ⟨outcome, tree⟩
  cases outcome <;> rfl

namespace Keeps

theorem ends {value : α} (answers : Answers value) :
    Keeps Holds Answers (Pure.pure value : Action α) := by
  intro turn holds
  refine ⟨holds, ?_⟩
  rintro other ⟨⟩
  exact answers

/-- An action that is gone on with keeps what both of its parts keep. -/
theorem bind {first : Action α} {next : α → Action β} (begins : Keeps Holds Answers first)
    (step : ∀ value, Answers value → Keeps Holds After (next value)) :
    Keeps Holds After (first >>= next) := by
  intro turn holds
  have begun := begins turn holds
  rw [run_bind]
  rcases ended : first.run.run turn with ⟨outcome, between⟩
  rw [ended] at begun
  cases outcome with
  | error failure =>
      refine ⟨begun.1, ?_⟩
      rintro value ⟨⟩
  | ok value => exact step value (begun.2 value rfl) between begun.1

theorem mono {Known : α → Prop} {action : Action α} (keeps : Keeps Holds Known action)
    (implied : ∀ value, Known value → Answers value) : Keeps Holds Answers action := by
  intro turn holds
  obtain ⟨still, known⟩ := keeps turn holds
  exact ⟨still, fun value answered => implied value (known value answered)⟩

/-- The turn that an action looks at has the property that is kept. -/
theorem look : Keeps Holds Holds (MonadState.get : Action Turn) := by
  intro turn holds
  refine ⟨holds, ?_⟩
  rintro other ⟨⟩
  exact holds

/-- What follows a look at the turn may make use of its being the turn that was looked at. -/
theorem lookAt {next : Turn → Action β}
    (step : ∀ turn, Holds turn → Holds ((next turn).run.run turn).2 ∧
      ∀ value, ((next turn).run.run turn).1 = .ok value → After value) :
    Keeps Holds After ((MonadState.get : Action Turn) >>= next) :=
  step

theorem leave {turn : Turn} (holds : Holds turn) :
    Keeps Holds (fun _ => True) (MonadState.set turn : Action PUnit) :=
  fun _ _ => ⟨holds, fun _ _ => trivial⟩

theorem alter {change : Turn → Turn} (kept : ∀ turn, Holds turn → Holds (change turn)) :
    Keeps Holds (fun _ => True) (modify change : Action PUnit) :=
  fun turn holds => ⟨kept turn holds, fun _ _ => trivial⟩

theorem fail (fault : Fault) : Keeps Holds Answers (Action.fail fault) := by
  intro turn holds
  refine ⟨holds, ?_⟩
  rintro value ⟨⟩

theorem complain (cause : Complaint) : Keeps Holds Answers (Action.complain cause) :=
  fail (.complaint cause)

theorem misuse (usage : String) : Keeps Holds Answers (Action.misuse usage) :=
  complain (.usage usage)

theorem ofExcept (outcome : Except Fault α) :
    Keeps Holds (fun value => outcome = .ok value) (Action.ofExcept outcome) := by
  cases outcome with
  | error fault => exact fail fault
  | ok value => exact ends rfl

theorem inquire
    (kept : ∀ turn ids, Holds turn → Holds { turn with asked := turn.asked ++ ids })
    (inquiry : Inquiry α) : Keeps Holds (fun _ => True) (Action.inquire inquiry) := by
  refine bind (alter fun turn holds => kept turn _ holds) fun _ _ => ?_
  exact (ofExcept inquiry.outcome).mono fun _ _ => trivial

theorem changeBy {work : Tree → Tree.Change α}
    (kept : ∀ turn, Holds turn → Holds { turn with tree := (work turn.tree).2 }) :
    Keeps Holds (fun _ => True) (Action.change work) := by
  refine look.bind fun turn holds => (leave (kept turn holds)).bind fun _ _ => ?_
  exact (ofExcept _).mono fun _ _ => trivial

theorem change (kept : ∀ turn tree, Holds turn → Holds { turn with tree := tree })
    (work : Tree → Tree.Change α) : Keeps Holds (fun _ => True) (Action.change work) :=
  changeBy fun turn holds => kept turn _ holds

theorem resolve (word : String) :
    Keeps Holds (fun path => ∃ turn, Holds turn ∧ path = Path.resolve word turn.session.cwd)
      (Action.resolve word) :=
  look.bind fun turn holds => ends ⟨turn, holds, rfl⟩

theorem user :
    Keeps Holds (fun name => ∃ turn, Holds turn ∧ name = turn.session.user) Action.user :=
  look.bind fun turn holds => ends ⟨turn, holds, rfl⟩

theorem readOptions (allowed : List Char) (words : List String) :
    Keeps Holds (fun _ => True) (Options.read allowed words) := by
  unfold Options.read
  split
  · exact ends trivial
  · exact complain _

/-- What is done with the path of each word may make use of what the word means. -/
theorem forEach {work : String → Action Unit} {Meant : String → String → Prop}
    (means : ∀ word, Keeps Holds (Meant word) (Action.resolve word))
    (each : ∀ word path, Meant word path → Keeps Holds (fun _ => True) (work path))
    (words : List String) : Keeps Holds (fun _ => True) (Command.forEachPath work words) := by
  induction words with
  | nil => exact ends trivial
  | cons word rest ih =>
      exact (means word).bind fun path meant => (each word path meant).bind fun _ _ => ih

theorem readEach (kept : ∀ turn ids, Holds turn → Holds { turn with asked := turn.asked ++ ids })
    (backend : Backend) (words : List String) :
    Keeps Holds (fun _ => True) (Command.readAll backend words) := by
  induction words with
  | nil => exact ends trivial
  | cons word rest ih =>
      refine (resolve word).bind fun path _ => look.bind fun turn _ => ?_
      exact (inquire kept _).bind fun text _ => ih.bind fun others _ => ends trivial

/-- However a removal ends, nothing happens but the removal. -/
theorem removal {recursive force : Bool} {name path : String}
    (kept : ∀ turn, Holds turn →
      Holds { turn with tree := (turn.tree.remove path name recursive).2 }) :
    Keeps Holds (fun _ => True) (Command.removeOne recursive force name path) := by
  refine look.bind fun turn holds => ?_
  have removed := kept turn holds
  generalize turn.tree.remove path name recursive = removal at removed ⊢
  obtain ⟨outcome, tree⟩ := removal
  refine (leave removed).bind fun _ _ => ?_
  split
  · exact ends trivial
  · split
    · exact ends trivial
    · exact fail _
  · exact complain _
  · exact fail _

end Keeps

end PuzzleShell.Action
