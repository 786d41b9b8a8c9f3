import Mathlib.Data.List.Induction
import Mathlib.Data.List.Basic
import PuzzleShell.Command.Sets
import PuzzleShell.World

/-!
# Registering commands

What a typed name means is decided by the order in which commands were registered.  Under a name
stands the last command of that name, and an alias stands for the name of the last command that
lists it.  Since aliases are looked up first, a command is not reached by its name while the name is
an alias that belongs to another one.
-/

namespace PuzzleShell.Registry

variable {commands : List Command} {registry : Registry} {name nickname owner : String}
  {command : Command}

def latest? (commands : List Command) (name : String) : Option Command :=
  commands.reverse.find? fun command => command.name = name

/-- The name of the command that was registered last of those that list an alias. -/
def owner? (commands : List Command) (nickname : String) : Option String :=
  (commands.reverse.find? fun command => command.aliases.contains nickname).map (·.name)

/-- Whether a name is hidden behind an alias that belongs to another command. -/
def Hidden (commands : List Command) (name : String) : Prop :=
  ∃ owner, owner? commands name = some owner ∧ owner ≠ name

/-- A name is typed to run a command, and to be shown the help on it. -/
structure Reaches (registry : Registry) (name : String) (command : Command) : Prop where
  runs : ∀ backend line turn words,
    CommandLine.tokenize (Text.trim line) = .ok (name :: words) →
      registry.dispatch backend line turn =
        perform name (command.run backend words) (withStreak turn 0)
  helps : ∀ backend line turn word words, isHelp word = true →
    CommandLine.tokenize (Text.trim line) = .ok (word :: name :: words) →
      registry.dispatch backend line turn = (.text (describe command), withStreak turn 0)

theorem reaches_of_find? (typed : isHelp name = false)
    (found : registry.find? name = some command) : registry.Reaches name command where
  runs backend line turn words split := by
    rw [dispatch, split]
    simp [run, typed, found]
  helps backend line turn word words asks split := by
    rw [dispatch, split]
    simp [run, asks, help, found]

theorem ofList_concat (commands : List Command) (command : Command) :
    ofList (commands ++ [command]) = (ofList commands).register command :=
  List.foldl_concat _ _ _ _

theorem latest?_concat (commands : List Command) (command : Command) (name : String) :
    latest? (commands ++ [command]) name =
      if name = command.name then some command else latest? commands name := by
  rw [latest?, List.reverse_concat, List.find?_cons, latest?]
  by_cases same : name = command.name
  · simp [same]
  · simp [same, Ne.symm same]

theorem owner?_concat (commands : List Command) (command : Command) (nickname : String) :
    owner? (commands ++ [command]) nickname =
      if nickname ∈ command.aliases then some command.name else owner? commands nickname := by
  rw [owner?, List.reverse_concat, List.find?_cons, owner?]
  by_cases listed : nickname ∈ command.aliases <;> simp [listed]

/-- Every alias that a command lists is given to it. -/
theorem get?_foldl_put (aliases : List String) (owner nickname : String) (known : Roster String) :
    Roster.get? nickname (aliases.foldl (fun known other => Roster.put other owner known) known) =
      if nickname ∈ aliases then some owner else Roster.get? nickname known := by
  induction aliases generalizing known with
  | nil => simp
  | cons first rest ih =>
      rw [List.foldl_cons, ih, Roster.get?_put]
      grind

/-- Under a name stands the last command that was registered under it. -/
theorem get?_commands_ofList (commands : List Command) (name : String) :
    Roster.get? name (ofList commands).commands = latest? commands name := by
  induction commands using List.reverseRecOn with
  | nil => rfl
  | append_singleton before command ih =>
      rw [ofList_concat, latest?_concat, register, Roster.get?_put, ih]

/-- An alias stands for the name of the last command that lists it. -/
theorem get?_aliases_ofList (commands : List Command) (nickname : String) :
    Roster.get? nickname (ofList commands).aliases = owner? commands nickname := by
  induction commands using List.reverseRecOn with
  | nil => rfl
  | append_singleton before command ih =>
      rw [ofList_concat, owner?_concat, register, get?_foldl_put, ih]

/-- What a typed name means. -/
theorem find?_ofList (commands : List Command) (name : String) :
    (ofList commands).find? name = latest? commands ((owner? commands name).getD name) := by
  rw [find?, get?_commands_ofList, get?_aliases_ofList]

theorem name_of_latest? (found : latest? commands name = some command) : command.name = name := by
  simpa using List.find?_some found

theorem exists_latest?_of_mem (member : command ∈ commands) :
    ∃ last, latest? commands command.name = some last := by
  rw [← Option.isSome_iff_exists, latest?, List.find?_isSome]
  exact ⟨command, List.mem_reverse.2 member, by simp⟩

/-- The listed names are those of the registered commands. -/
theorem mem_names_ofList_iff :
    name ∈ (ofList commands).names ↔ ∃ command ∈ commands, command.name = name := by
  rw [names, sorted, List.mem_mergeSort, ← Roster.has_iff_mem_names, Roster.has,
    get?_commands_ofList, latest?, List.find?_isSome]
  simp

/-- The command that lists an alias was registered, so there is a last one of its name. -/
theorem exists_latest?_of_owner? (owned : owner? commands nickname = some owner) :
    ∃ last, latest? commands owner = some last := by
  obtain ⟨command, found, rfl⟩ := Option.map_eq_some_iff.1 owned
  exact exists_latest?_of_mem (List.mem_reverse.1 (List.mem_of_find?_eq_some found))

theorem find?_ofList_of_owner? (owned : owner? commands nickname = some owner) :
    (ofList commands).find? nickname = latest? commands owner := by
  rw [find?_ofList, owned, Option.getD_some]

/-- A name that is not hidden means the last command that was registered under it. -/
theorem find?_ofList_of_not_hidden (shown : ¬ Hidden commands name) :
    (ofList commands).find? name = latest? commands name := by
  cases owned : owner? commands name with
  | none => rw [find?_ofList, owned, Option.getD_none]
  | some owner =>
      have same : owner = name := Decidable.by_contra fun other => shown ⟨owner, owned, other⟩
      rw [find?_ofList_of_owner? owned, same]

/-- A hidden name means another command. -/
theorem find?_ofList_ne_of_hidden (hidden : Hidden commands name)
    (last : latest? commands name = some command) :
    (ofList commands).find? name ≠ some command := by
  obtain ⟨owner, owned, other⟩ := hidden
  rw [find?_ofList_of_owner? owned]
  intro same
  exact other ((name_of_latest? same).symm.trans (name_of_latest? last))

/-- Where no listed name is an alias, every command is reached by its name. -/
theorem reaches_of_mem_names
    (apart : ∀ command ∈ commands,
      isHelp command.name = false ∧ owner? commands command.name = none)
    (listed : name ∈ (ofList commands).names) :
    ∃ command, command.name = name ∧ (ofList commands).Reaches name command := by
  obtain ⟨registered, member, rfl⟩ := mem_names_ofList_iff.1 listed
  obtain ⟨typed, unowned⟩ := apart registered member
  obtain ⟨last, found⟩ := exists_latest?_of_mem member
  have shown : ¬ Hidden commands registered.name := by
    rintro ⟨owner, owned, -⟩
    rw [unowned] at owned
    cases owned
  exact ⟨last, name_of_latest? found,
    reaches_of_find? typed ((find?_ofList_of_not_hidden shown).trans found)⟩

/-- In both layers of the game, every command is reached by its name. -/
theorem reaches_ofLayer (layer : Layer) (listed : name ∈ (ofLayer layer).names) :
    ∃ command, command.name = name ∧ (ofLayer layer).Reaches name command := by
  cases layer with
  | standard => exact reaches_of_mem_names (by decide) listed
  | deep => exact reaches_of_mem_names (by decide) listed

/--
After any commands have been registered in any order, a listed name reaches the last command that
was registered under it just if the name is not hidden, that is, unless the last command to list it
as an alias has another name.  Every alias, be it a listed name or not, reaches the last command
that was registered under the name of its last owner.
-/
theorem reaches_after_registrations (commands : List Command) :
    (∀ name ∈ (ofList commands).names, isHelp name = false → ∃ command,
      latest? commands name = some command ∧
      ((ofList commands).find? name = some command ↔ ¬ Hidden commands name) ∧
      (¬ Hidden commands name → (ofList commands).Reaches name command)) ∧
    ∀ nickname owner, isHelp nickname = false → owner? commands nickname = some owner → ∃ command,
      latest? commands owner = some command ∧ (ofList commands).Reaches nickname command := by
  constructor
  · intro name listed typed
    obtain ⟨registered, member, rfl⟩ := mem_names_ofList_iff.1 listed
    obtain ⟨last, found⟩ := exists_latest?_of_mem member
    refine ⟨last, found, ⟨fun means hidden => ?_, fun shown => ?_⟩, fun shown => ?_⟩
    · exact find?_ofList_ne_of_hidden hidden found means
    · exact (find?_ofList_of_not_hidden shown).trans found
    · exact reaches_of_find? typed ((find?_ofList_of_not_hidden shown).trans found)
  · intro nickname owner typed owned
    obtain ⟨last, found⟩ := exists_latest?_of_owner? owned
    exact ⟨last, found, reaches_of_find? typed ((find?_ofList_of_owner? owned).trans found)⟩

/-- A name that was taken over by an alias, an alias of a command that was replaced, and a name that
only one command has. -/
theorem reaches_after_registrations_listAgain :
    let command (name nickname : String) (output : Output) : Command :=
      ⟨name, [nickname], "Answer", name, "general", fun _ _ => pure output⟩
    let again := command "list" "ls" .clear
    let shown := command "show" "list" (.text "shown")
    let registry := ofList [command "list" "dir" .silent, shown, again]
    isHelp "show" = false ∧ "show" ∈ registry.names ∧ registry.Reaches "show" shown ∧
      registry.Reaches "list" shown ∧ registry.Reaches "dir" again := by
  intro command again shown registry
  obtain ⟨names, aliases⟩ :=
    reaches_after_registrations [command "list" "dir" .silent, shown, again]
  have listed : "show" ∈ registry.names := mem_names_ofList_iff.2 ⟨shown, by simp, rfl⟩
  have unowned : ¬ Hidden [command "list" "dir" .silent, shown, again] "show" := by
    rintro ⟨owner, owned, -⟩
    cases owned
  obtain ⟨own, ⟨⟩, -, reached⟩ := names "show" listed (by decide)
  obtain ⟨other, ⟨⟩, taken⟩ := aliases "list" "show" (by decide) rfl
  obtain ⟨current, ⟨⟩, kept⟩ := aliases "dir" "list" (by decide) rfl
  exact ⟨by decide, listed, reached unowned, taken, kept⟩

/-- Not every listed name reaches the last command of that name: here it is an alias of another
command as well. -/
theorem not_reaches_of_hidden :
    ¬ ∀ (commands : List Command) (name : String) (command : Command),
      name ∈ (ofList commands).names → isHelp name = false →
        latest? commands name = some command → (ofList commands).Reaches name command := by
  intro always
  let command (name : String) (aliases : List String) (output : Output) : Command :=
    ⟨name, aliases, "Answer", name, "general", fun _ _ => pure output⟩
  let commands := [command "list" [] .silent, command "wipe" ["list"] .clear]
  have listed : "list" ∈ (ofList commands).names :=
    mem_names_ofList_iff.2 ⟨command "list" [] .silent, by simp [commands], rfl⟩
  have own := always commands "list" _ listed (by decide) rfl
  have other : (ofList commands).Reaches "list" (command "wipe" ["list"] .clear) :=
    reaches_of_find? (by decide) (find?_ofList commands "list")
  let backend : Backend := ⟨.default, fun _ => .ok "", fun _ => .ok ⟨false, none⟩⟩
  let turn : Turn := ⟨Session.start "guest" "/", World.standard .default, none, []⟩
  have same :=
    (own.runs backend "list" turn [] rfl).symm.trans (other.runs backend "list" turn [] rfl)
  cases congrArg Prod.fst same

end PuzzleShell.Registry
