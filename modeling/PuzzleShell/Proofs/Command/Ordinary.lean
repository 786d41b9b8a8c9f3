import PuzzleShell.Command.Sets
import PuzzleShell.Proofs.Command.Keeps

/-!
# What commands leave alone

Most commands only work on the tree, ask the oracle and enter directories, and answer with something
to be seen.  Those that start a tool do nothing else.  So whatever is not concerned by such work
holds after every command if it held before, but for the command that hands in flags.
-/

namespace PuzzleShell

/-- A property of turns that neither work on the tree nor questions nor moving around concern. -/
structure Turn.Lasting (Holds : Turn → Prop) : Prop where
  tree : ∀ turn tree, Holds turn → Holds { turn with tree := tree }
  asked : ∀ turn asked, Holds turn → Holds { turn with asked := asked }
  cwd : ∀ turn cwd, Holds turn → Holds { turn with session := { turn.session with cwd := cwd } }

def Output.Plain : Output → Prop
  | .text _ | .silent | .clear => True
  | _ => False

def Output.Outward : Output → Prop
  | .connect _ => True
  | output => output.Plain

def Output.Unjudged : Output → Prop
  | .flagChecked _ _ => False
  | _ => True

namespace Output

variable {output : Output}

theorem Plain.outward (plain : output.Plain) : output.Outward := by
  cases output with
  | text _ | silent | clear => trivial
  | connect _ | disconnect | flagChecked _ _ => exact plain.elim

theorem Outward.unjudged (outward : output.Outward) : output.Unjudged := by
  cases output with
  | text _ | silent | clear | connect _ | disconnect => trivial
  | flagChecked _ _ => exact outward.elim

end Output

/-- A command that only works on the tree, asks and moves around. -/
def Command.Ordinary (command : Command) : Prop :=
  ∀ Holds, Turn.Lasting Holds → ∀ backend words,
    (command.run backend words).Keeps Holds Output.Plain

/-- A command that may start a tool or make a connection, and does nothing else. -/
def Command.Starts (command : Command) : Prop :=
  ∀ Holds, Turn.Lasting Holds → (∀ turn tool, Holds turn → Holds { turn with tool := some tool }) →
    ∀ backend words, (command.run backend words).Keeps Holds Output.Outward

namespace Action.Keeps

variable {α : Type} {Holds : Turn → Prop}

theorem lasting_change (lasting : Turn.Lasting Holds) (work : Tree → Tree.Change α) :
    Keeps Holds (fun _ => True) (Action.change work) :=
  change lasting.tree work

theorem lasting_ask (lasting : Turn.Lasting Holds) (inquiry : Inquiry α) :
    Keeps Holds (fun _ => True) (Action.inquire inquiry) :=
  inquire (fun turn _ => lasting.asked turn _) inquiry

end Action.Keeps

namespace Command

open Action.Keeps

theorem ordinary_ls : ls.Ordinary := by
  intro Holds lasting backend words
  refine (readOptions _ words).bind fun found _ => (resolve _).bind fun path _ => ?_
  refine look.bind fun turn _ => (ofExcept _).bind fun rows _ => ends ?_
  unfold listing
  dsimp only
  split
  · trivial
  · split <;> trivial

theorem ordinary_cd : cd.Ordinary := by
  intro Holds lasting backend words
  refine look.bind fun turn _ => (ofExcept _).bind fun _ _ => ?_
  exact (alter fun turn => lasting.cwd turn _).bind fun _ _ => ends trivial

theorem ordinary_pwd : pwd.Ordinary :=
  fun _ _ _ _ => look.bind fun _ _ => ends trivial

theorem ordinary_cat : cat.Ordinary := by
  intro Holds lasting backend words
  unfold cat
  dsimp only
  split
  · exact misuse _
  · refine (readEach (fun turn _ => ?_) backend words).bind fun texts _ => ends trivial
    exact lasting.asked turn _

theorem ordinary_echo : echo.Ordinary := by
  intro Holds lasting backend words
  unfold echo
  dsimp only
  split
  · exact ends trivial
  · exact complain _
  · refine (resolve _).bind fun path _ => look.bind fun turn _ => ?_
    split
    · refine (lasting_ask lasting _).bind fun old _ => ?_
      exact (lasting_change lasting _).bind fun _ _ => ends trivial
    · exact (lasting_change lasting _).bind fun _ _ => ends trivial

theorem ordinary_clear : clear.Ordinary :=
  fun _ _ _ _ => ends trivial

theorem ordinary_whoami : whoami.Ordinary :=
  fun _ _ _ _ => user.bind fun _ _ => ends trivial

theorem ordinary_id : Command.id.Ordinary :=
  fun _ _ _ _ => user.bind fun _ _ => ends trivial

theorem ordinary_mkdir : Command.mkdir.Ordinary := by
  intro Holds lasting backend words
  unfold Command.mkdir
  dsimp only
  split
  · exact complain _
  · refine user.bind fun name _ => ?_
    refine (forEach resolve (fun _ _ _ => ?_) words).bind fun _ _ => ends trivial
    exact lasting_change lasting _

theorem ordinary_touch : Command.touch.Ordinary := by
  intro Holds lasting backend words
  unfold Command.touch
  dsimp only
  split
  · exact complain _
  · refine user.bind fun name _ => ?_
    refine (forEach resolve (fun _ _ _ => ?_) words).bind fun _ _ => ends trivial
    exact lasting_change lasting _

theorem ordinary_rm : rm.Ordinary := by
  intro Holds lasting backend words
  refine (readOptions _ words).bind fun found _ => ?_
  dsimp only
  split
  · exact complain _
  · refine user.bind fun name _ => ?_
    refine (forEach resolve (fun _ _ _ => ?_) _).bind fun _ _ => ends trivial
    exact removal fun turn => lasting.tree turn _

theorem ordinary_mv : mv.Ordinary := by
  intro Holds lasting backend words
  unfold mv
  dsimp only
  split
  · refine (resolve _).bind fun source _ => (resolve _).bind fun target _ => ?_
    exact user.bind fun name _ => (lasting_change lasting _).bind fun _ _ => ends trivial
  · exact misuse _

theorem ordinary_cp : cp.Ordinary := by
  intro Holds lasting backend words
  refine (readOptions _ words).bind fun found _ => ?_
  dsimp only
  split
  · refine (resolve _).bind fun source _ => (resolve _).bind fun target _ => ?_
    exact user.bind fun name _ => (lasting_change lasting _).bind fun _ _ => ends trivial
  · exact misuse _

theorem ordinary_chmod : Command.chmod.Ordinary := by
  intro Holds lasting backend words
  unfold Command.chmod
  dsimp only
  split
  · exact complain _
  · exact complain _
  · refine user.bind fun name _ => ?_
    refine (forEach resolve (fun _ _ _ => ?_) _).bind fun _ _ => ends trivial
    exact (lasting_change lasting _).bind fun _ _ => ends trivial

theorem ordinary_base64 : Command.base64.Ordinary := by
  intro Holds lasting backend words
  have recoded : ∀ decode input output,
      (recode backend decode input output).Keeps Holds Output.Plain := by
    intro decode input output
    refine (resolve _).bind fun path _ => look.bind fun turn _ => ?_
    refine (ofExcept _).bind fun content _ => (lasting_ask lasting _).bind fun result _ => ?_
    cases output with
    | none => exact (lasting_ask lasting _).bind fun text _ => ends trivial
    | some output =>
        refine (resolve _).bind fun target _ => ?_
        exact (lasting_change lasting _).bind fun _ _ => ends trivial
  unfold Command.base64
  dsimp only
  split
  · exact recoded _ _ _
  · exact recoded _ _ _
  · exact misuse _

theorem ordinary_unzip : unzip.Ordinary := by
  intro Holds lasting backend words
  unfold unzip
  dsimp only
  split
  · split
    · refine (resolve _).bind fun path _ => (resolve _).bind fun directory _ => ?_
      refine look.bind fun turn holds => (ofExcept _).bind fun content _ => ?_
      split
      · refine (ofExcept _).bind fun tree _ => ?_
        exact (leave (lasting.tree turn tree holds)).bind fun _ _ => ends trivial
      · exact complain _
    · exact misuse _
  · exact complain _

theorem starts_login : login.Starts :=
  fun _ _ started _ _ => (alter fun turn => started turn _).bind fun _ _ => ends trivial

theorem starts_runAsRoot : runAsRoot.Starts := by
  intro Holds lasting started backend words
  unfold runAsRoot
  dsimp only
  split
  · exact misuse _
  · exact (alter fun turn => started turn _).bind fun _ _ => ends trivial

theorem starts_nc : nc.Starts := by
  intro Holds lasting started backend words
  unfold nc
  dsimp only
  split
  · split
    · exact (alter fun turn => started turn _).bind fun _ _ => ends trivial
    · exact complain _
  · exact misuse _

theorem starts_ssh : ssh.Starts := by
  intro Holds lasting started backend words
  unfold ssh
  dsimp only
  split
  · split
    · refine user.bind fun name _ => ?_
      split
      · exact complain _
      · split
        · exact (alter fun turn => started turn _).bind fun _ _ => ends trivial
        · refine (resolve _).bind fun path _ => look.bind fun turn _ => ?_
          refine (ofExcept _).bind fun content _ => ?_
          refine (lasting_ask lasting _).bind fun opens _ => ?_
          split
          · exact ends trivial
          · exact complain _
    · exact misuse _
  · exact complain _

/-- The commands that both layers have, but for the way out and the handing in of flags. -/
theorem ordinary_of_mem_shared {command : Command}
    (member : command ∈ navigation ++ files ++ challenge) :
    command.Ordinary ∨ command = exit ∨ command = submit := by
  simp only [navigation, files, challenge, List.mem_append, List.mem_cons, List.not_mem_nil,
    or_false] at member
  rcases member with (around | change) | rfl
  · rcases around with rfl | rfl | rfl | rfl | rfl | rfl | rfl | rfl | rfl
    · exact Or.inl ordinary_ls
    · exact Or.inl ordinary_cd
    · exact Or.inl ordinary_pwd
    · exact Or.inl ordinary_cat
    · exact Or.inl ordinary_echo
    · exact Or.inl ordinary_clear
    · exact Or.inl ordinary_whoami
    · exact Or.inl ordinary_id
    · exact Or.inr (Or.inl rfl)
  · rcases change with rfl | rfl | rfl | rfl | rfl | rfl
    · exact Or.inl ordinary_mkdir
    · exact Or.inl ordinary_touch
    · exact Or.inl ordinary_rm
    · exact Or.inl ordinary_mv
    · exact Or.inl ordinary_cp
    · exact Or.inl ordinary_chmod
  · exact Or.inr (Or.inr rfl)

/-- The commands that only the standard layer has. -/
theorem ordinary_or_starts_of_mem_standard {command : Command}
    (member : command ∈ codec ++ privilege ++ network) : command.Ordinary ∨ command.Starts := by
  simp only [codec, privilege, network, List.mem_append, List.mem_cons, List.not_mem_nil,
    or_false] at member
  rcases member with ((rfl | rfl) | rfl | rfl) | rfl | rfl
  · exact Or.inl ordinary_base64
  · exact Or.inl ordinary_unzip
  · exact Or.inr starts_login
  · exact Or.inr starts_runAsRoot
  · exact Or.inr starts_nc
  · exact Or.inr starts_ssh

end Command

end PuzzleShell
