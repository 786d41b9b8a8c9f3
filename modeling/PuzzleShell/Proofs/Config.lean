import PuzzleShell.Proofs.Outcome
import PuzzleShell.Proofs.Progress
import PuzzleShell.Terminal

/-!
# Configurations that have been read

A game can be played with whatever configuration has been read from a file.  It passes the check,
and the numbers in it that a game stores fit into 32 bits, as they do in the default configuration.
-/

namespace PuzzleShell

namespace Document

variable {α : Type} {fields : List (String × Document)} {name : String} {default value : α}
  {read : Document → Option α}

/-- A field that may be missing has its default or a value that has been read. -/
theorem optionalField?_cases (given : optionalField? fields name default read = some value) :
    value = default ∨ ∃ document, read document = some value := by
  unfold optionalField? at given
  split at given
  · exact Or.inl (Option.some.inj given).symm
  next document _ => exact Or.inr ⟨document, given⟩

theorem exists_of_requiredField? (given : requiredField? fields name read = some value) :
    ∃ document, read document = some value := by
  obtain ⟨document, -, read⟩ := Option.bind_eq_some_iff.1 given
  exact ⟨document, read⟩

end Document

structure Config.Fits (config : Config) : Prop where
  initialSecs : config.countdown.initialSecs < 1 <<< 32
  ids : ∀ entry ∈ config.flags, entry.id < 1 <<< 32

/-- The numbers that a game stores fit into 32 bits, also those that the flag oracle names. -/
structure Backend.Fits (backend : Backend) : Prop where
  initialSecs : backend.config.countdown.initialSecs < 1 <<< 32
  ids : ∀ flag verdict, backend.flags flag = .ok verdict → ∀ id ∈ verdict.id, id < 1 <<< 32

namespace Config

open Document (optionalField?_cases)

variable {config : Config} {surplus : Document.Surplus} {document : Document}

theorem fits_default : default.Fits := by
  constructor
  · decide
  · decide

theorem initialSecs_lt_of_readCountdown? {settings : CountdownSettings}
    (read : readCountdown? surplus document = some settings) :
    settings.initialSecs < 1 <<< 32 := by
  obtain ⟨fields, -, named⟩ := Option.bind_eq_some_iff.1 read
  obtain ⟨initial, given, others⟩ := Option.bind_eq_some_iff.1 named
  obtain ⟨penalty, -, last⟩ := Option.bind_eq_some_iff.1 others
  obtain ⟨tick, -, whole⟩ := Option.bind_eq_some_iff.1 last
  obtain rfl := Option.some.inj whole
  rcases optionalField?_cases given with rfl | ⟨number, spelled⟩
  · exact fits_default.initialSecs
  · exact Document.lt_of_asNat? spelled

theorem id_lt_of_readFlag? {entry : FlagEntry} (read : readFlag? surplus document = some entry) :
    entry.id < 1 <<< 32 := by
  obtain ⟨fields, -, named⟩ := Option.bind_eq_some_iff.1 read
  obtain ⟨flag, -, last⟩ := Option.bind_eq_some_iff.1 named
  obtain ⟨id, given, whole⟩ := Option.bind_eq_some_iff.1 last
  obtain rfl := Option.some.inj whole
  obtain ⟨number, spelled⟩ := Document.exists_of_requiredField? given
  exact Document.lt_of_asNat? spelled

/-- Whatever document a configuration is read from, its numbers fit. -/
theorem fits_of_ofDocument? (read : ofDocument? surplus document = some config) : config.Fits := by
  obtain ⟨fields, -, named⟩ := Option.bind_eq_some_iff.1 read
  obtain ⟨shell, -, read⟩ := Option.bind_eq_some_iff.1 named
  obtain ⟨collapse, -, read⟩ := Option.bind_eq_some_iff.1 read
  obtain ⟨countdown, counted, read⟩ := Option.bind_eq_some_iff.1 read
  obtain ⟨layer, -, read⟩ := Option.bind_eq_some_iff.1 read
  obtain ⟨maxFailures, -, read⟩ := Option.bind_eq_some_iff.1 read
  obtain ⟨storage, -, read⟩ := Option.bind_eq_some_iff.1 read
  obtain ⟨accounts, -, read⟩ := Option.bind_eq_some_iff.1 read
  obtain ⟨flags, listed, read⟩ := Option.bind_eq_some_iff.1 read
  obtain ⟨content, -, read⟩ := Option.bind_eq_some_iff.1 read
  obtain rfl := Option.some.inj read
  constructor
  · rcases optionalField?_cases counted with rfl | ⟨settings, spelled⟩
    · exact fits_default.initialSecs
    · exact initialSecs_lt_of_readCountdown? spelled
  · rcases optionalField?_cases listed with rfl | ⟨entries, spelled⟩
    · exact fits_default.ids
    · intro entry member
      cases entries with
      | list items =>
          obtain ⟨item, spelled⟩ := Document.exists_item_of_mapM spelled member
          exact id_lt_of_readFlag? spelled
      | _ => cases spelled

end Config

namespace Terminal

variable {config : Config}

/-- Oracles that answer from a configuration name no other numbers than it has. -/
theorem fits_backendOf (fits : config.Fits) : (backendOf config).Fits := by
  refine ⟨fits.initialSecs, fun flag verdict asked id named => ?_⟩
  obtain rfl := Except.ok.inj asked
  unfold Verdict.ofTable at named
  split at named
  next entry found =>
    obtain rfl := Option.some.inj named
    exact fits.ids entry (List.mem_of_find?_eq_some found)
  · cases named

/-- The terminal plays with nothing that the game cannot run with. -/
theorem valid_of_loadConfig {disk : Disk} {path : Option String}
    (loaded : loadConfig disk path = .ok config) : config.validate = .ok () ∧ config.Fits := by
  unfold loadConfig at loaded
  split at loaded
  · obtain rfl := Except.ok.inj loaded
    exact ⟨rfl, Config.fits_default⟩
  · split at loaded
    next text _ =>
      unfold Config.ofToml at loaded
      split at loaded
      next read =>
        obtain ⟨_, valid, whole⟩ := bind_eq_ok_iff.1 loaded
        obtain rfl := Except.ok.inj whole
        obtain ⟨document, -, described⟩ := Option.bind_eq_some_iff.1 read
        exact ⟨valid, Config.fits_of_ofDocument? described⟩
      · cases loaded
    · cases loaded

end Terminal

end PuzzleShell
