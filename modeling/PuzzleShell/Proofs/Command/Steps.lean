import Mathlib.Logic.Relation
import PuzzleShell.Command.Sets
import PuzzleShell.Proofs.Command.Keeps

/-!
# The steps of a turn

Most commands work in small steps: they ask the oracle, create, write or remove one file after
another, enter a directory, enter a solved challenge or start a tool.  Only four commands carry
contents from file to file and are described on their own.
-/

namespace PuzzleShell

def Turn.path (turn : Turn) (word : String) : String :=
  Path.resolve word turn.session.cwd

inductive Turn.Step (backend : Backend) (turn : Turn) : Turn → Prop where
  | ask (ids : List String) : Step backend turn { turn with asked := turn.asked ++ ids }
  | mkdir (word : String) :
      Step backend turn
        { turn with tree := (turn.tree.mkdir (turn.path word) turn.session.user).2 }
  | touch (word : String) :
      Step backend turn
        { turn with tree := (turn.tree.touch (turn.path word) turn.session.user).2 }
  | write (word text : String) :
      Step backend turn
        { turn with
          tree := (turn.tree.write (turn.path word) (.inline text) turn.session.user).2 }
  | remove (word : String) (recursive : Bool) :
      Step backend turn
        { turn with
          tree := (turn.tree.remove (turn.path word) turn.session.user recursive).2 }
  | chmod (word spec : String) :
      Step backend turn
        { turn with tree := (turn.tree.chmod (turn.path word) spec turn.session.user).2 }
  | enter {path : String} (entered : turn.tree.enter path turn.session.user = .ok ())
      (meant : (∃ word, path = turn.path word) ∨
        path = Command.homeOf backend.config turn.session) :
      Step backend turn { turn with session := { turn.session with cwd := path } }
  | solve {candidate : String} {id : Nat} (judged : backend.flags candidate = .ok ⟨true, some id⟩) :
      Step backend turn
        { turn with
          session := { turn.session with solved := Solved.insert id turn.session.solved } }
  | install (tool : Tool) : Step backend turn { turn with tool := some tool }

abbrev Turn.Steps (backend : Backend) : Turn → Turn → Prop :=
  Relation.ReflTransGen (Turn.Step backend)

/-- Steps that have left the session alone so far. -/
structure Turn.Works (backend : Backend) (turn after : Turn) : Prop where
  steps : Turn.Steps backend turn after
  session : after.session = turn.session

def Output.Stays (output : Output) : Prop :=
  ∀ host, output ≠ .connect host

namespace Turn

variable {backend : Backend} {turn after last : Turn}

theorem Works.refl (backend : Backend) (turn : Turn) : Works backend turn turn :=
  ⟨.refl, rfl⟩

theorem Works.tail (works : Works backend turn after) (step : Step backend after last)
    (same : last.session = after.session) : Works backend turn last :=
  ⟨works.steps.tail step, same.trans works.session⟩

theorem Works.path (works : Works backend turn after) (word : String) :
    turn.path word = after.path word := by
  rw [Turn.path, Turn.path, works.session]

end Turn

/-- A command that works in small steps and does not lead to the deep layer. -/
def Command.Plain (command : Command) : Prop :=
  ∀ backend words turn,
    (command.run backend words).Keeps (Turn.Steps backend turn) Output.Stays

namespace Action.Keeps

open Turn

variable {α : Type} {backend : Backend} {turn : Turn} {Answers : α → Prop}

theorem works_ask (inquiry : Inquiry α) :
    Keeps (Works backend turn) (fun _ => True) (Action.inquire inquiry) :=
  inquire (fun _ ids works => works.tail (.ask ids) rfl) inquiry

/-- The path that a word means stays the same while the session does. -/
theorem works_resolve (word : String) :
    Keeps (Works backend turn) (· = turn.path word) (Action.resolve word) := by
  refine (resolve word).mono ?_
  rintro path ⟨between, works, rfl⟩
  exact (works.path word).symm

theorem works_user :
    Keeps (Works backend turn) (· = turn.session.user) Action.user := by
  refine user.mono ?_
  rintro name ⟨between, works, rfl⟩
  rw [works.session]

/-- A change of the tree at the path of a word, by the user of the turn. -/
theorem works_change (work : String → String → Tree → Tree.Change α) (word : String)
    (step : ∀ between, Step backend between
      { between with tree := (work (between.path word) between.session.user between.tree).2 }) :
    Keeps (Works backend turn) (fun _ => True)
      (Action.change (work (turn.path word) turn.session.user)) := by
  refine changeBy fun between works => works.tail ?_ rfl
  rw [works.path word, ← works.session]
  exact step between

theorem works_forEach {work : String → Action Unit}
    (each : ∀ word, Keeps (Works backend turn) (fun _ => True) (work (turn.path word)))
    (words : List String) :
    Keeps (Works backend turn) (fun _ => True) (Command.forEachPath work words) := by
  refine forEach works_resolve (fun word path meant => ?_) words
  rw [meant]
  exact each word

/-- What has left the session alone was nothing but steps. -/
theorem steps_of_works {action : Action α}
    (keeps : ∀ turn, Keeps (Works backend turn) Answers action) :
    Keeps (Steps backend turn) Answers action := by
  intro between steps
  obtain ⟨works, answers⟩ := keeps between between (.refl backend between)
  exact ⟨steps.trans works.steps, answers⟩

end Action.Keeps

namespace Command

open Action.Keeps Turn

theorem plain_ls : ls.Plain := by
  intro backend words turn
  refine steps_of_works fun turn => ?_
  refine (readOptions _ words).bind fun found _ => (resolve _).bind fun path _ => ?_
  refine look.bind fun between _ => (ofExcept _).bind fun rows _ => ends fun host => ?_
  unfold listing
  dsimp only
  split
  · exact Output.noConfusion
  · split <;> exact Output.noConfusion

theorem plain_cd : cd.Plain := by
  intro backend words turn
  refine lookAt fun between steps => ?_
  have goes : ∀ target, ((∃ word, target = between.path word) ∨
      target = homeOf backend.config between.session) →
      ∀ ended, (do
        Action.ofExcept (between.tree.enter target between.session.user)
        Action.changeSession fun session => { session with cwd := target }
        return .silent : Action Output).run.run between = ended →
      Steps backend turn ended.2 ∧ ∀ output, ended.1 = .ok output → output.Stays := by
    rintro target meant _ rfl
    cases entered : between.tree.enter target between.session.user with
    | error fault =>
        refine ⟨steps, ?_⟩
        rintro output ⟨⟩
    | ok done =>
        refine ⟨steps.tail (.enter entered meant), ?_⟩
        rintro output ⟨⟩
        exact fun _ => Output.noConfusion
  cases words with
  | nil => exact goes _ (Or.inr rfl) _ rfl
  | cons word rest => exact goes _ (Or.inl ⟨word, rfl⟩) _ rfl

theorem plain_pwd : pwd.Plain :=
  fun _ _ _ => look.bind fun _ _ => ends fun _ => Output.noConfusion

theorem plain_cat : cat.Plain := by
  intro backend words turn
  unfold cat
  dsimp only
  split
  · exact misuse _
  · refine steps_of_works fun turn => ?_
    refine (readEach (fun _ ids works => ?_) backend words).bind fun texts _ =>
      ends fun _ => Output.noConfusion
    exact works.tail (.ask ids) rfl

theorem plain_echo : echo.Plain := by
  intro backend words turn
  unfold echo
  dsimp only
  split
  · exact ends fun _ => Output.noConfusion
  · exact complain _
  next target _ _ =>
    refine steps_of_works fun turn => ?_
    refine (works_resolve _).bind fun path meant => look.bind fun between works => ?_
    rw [meant, works.session]
    have written : ∀ text, Action.Keeps (Works backend turn) (fun _ => True)
        (Action.change (·.write (turn.path target) (.inline text) turn.session.user)) :=
      fun text => works_change (fun path user tree => tree.write path (.inline text) user) target
        fun between => .write target text
    split
    · refine (works_ask _).bind fun old _ => (written _).bind fun _ _ => ?_
      exact ends fun _ => Output.noConfusion
    · exact (written _).bind fun _ _ => ends fun _ => Output.noConfusion

theorem plain_clear : clear.Plain :=
  fun _ _ _ => ends fun _ => Output.noConfusion

theorem plain_whoami : whoami.Plain :=
  fun _ _ _ => user.bind fun _ _ => ends fun _ => Output.noConfusion

theorem plain_id : Command.id.Plain :=
  fun _ _ _ => user.bind fun _ _ => ends fun _ => Output.noConfusion

theorem plain_exit : exit.Plain := by
  intro backend words turn
  refine look.bind fun between _ => ?_
  split <;> exact ends fun _ => Output.noConfusion

theorem plain_mkdir : Command.mkdir.Plain := by
  intro backend words turn
  unfold Command.mkdir
  dsimp only
  split
  · exact complain _
  · refine steps_of_works fun turn => works_user.bind fun name known => ?_
    rw [known]
    refine (works_forEach (fun word => ?_) words).bind fun _ _ => ends fun _ => Output.noConfusion
    exact works_change (fun path user tree => tree.mkdir path user) word fun _ => .mkdir word

theorem plain_touch : Command.touch.Plain := by
  intro backend words turn
  unfold Command.touch
  dsimp only
  split
  · exact complain _
  · refine steps_of_works fun turn => works_user.bind fun name known => ?_
    rw [known]
    refine (works_forEach (fun word => ?_) words).bind fun _ _ => ends fun _ => Output.noConfusion
    exact works_change (fun path user tree => tree.touch path user) word fun _ => .touch word

theorem plain_rm : rm.Plain := by
  intro backend words turn
  refine steps_of_works fun turn => (readOptions _ words).bind fun found _ => ?_
  dsimp only
  split
  · exact complain _
  · refine works_user.bind fun name known => ?_
    rw [known]
    refine (works_forEach (fun word => ?_) _).bind fun _ _ => ends fun _ => Output.noConfusion
    refine removal fun between works => works.tail ?_ rfl
    rw [works.path word, ← works.session]
    exact .remove word _

theorem plain_chmod : Command.chmod.Plain := by
  intro backend words turn
  unfold Command.chmod
  dsimp only
  split
  · exact complain _
  · exact complain _
  next spec operands _ =>
    refine steps_of_works fun turn => works_user.bind fun name known => ?_
    rw [known]
    refine (works_forEach (fun word => ?_) _).bind fun _ _ => ends fun _ => Output.noConfusion
    refine (works_change (fun path user tree => tree.chmod path spec user) word fun _ =>
      .chmod word spec).bind fun _ _ => ends trivial

theorem plain_submit : Command.submit.Plain := by
  intro backend words turn
  unfold Command.submit
  dsimp only
  split
  · exact misuse _
  · refine (ofExcept _).bind fun verdict judged => ?_
    split
    next id accepted known =>
      refine (alter fun between steps => steps.tail (.solve (judged.trans ?_))).bind fun _ _ =>
        ends fun _ => Output.noConfusion
      rw [← accepted, ← known]
    · exact ends fun _ => Output.noConfusion

theorem steps_install {backend : Backend} {turn : Turn} (tool : Tool) :
    (Action.install tool).Keeps (Steps backend turn) fun _ => True :=
  alter fun _ steps => steps.tail (.install tool)

theorem plain_login : login.Plain :=
  fun _ _ _ => (steps_install _).bind fun _ _ => ends fun _ => Output.noConfusion

theorem plain_runAsRoot : runAsRoot.Plain := by
  intro backend words turn
  unfold runAsRoot
  dsimp only
  split
  · exact misuse _
  · exact (steps_install _).bind fun _ _ => ends fun _ => Output.noConfusion

theorem plain_nc : nc.Plain := by
  intro backend words turn
  unfold nc
  dsimp only
  split
  · split
    · exact (steps_install _).bind fun _ _ => ends fun _ => Output.noConfusion
    · exact complain _
  · exact misuse _

end Command

end PuzzleShell
