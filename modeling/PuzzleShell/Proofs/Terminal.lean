import PuzzleShell.Proofs.Game.Telling
import PuzzleShell.Proofs.Screen
import PuzzleShell.Terminal

/-!
# What a terminal shows

A terminal draws its screen for a game that only writes to its transcript.  So all that it has ever
shown is what a screen shows that is watched, and whatever holds of the one holds of the other.
-/

namespace PuzzleShell.Terminal

open Screen (Happening watch)
open Transcript (Writing)

variable {config : Config} {past : List (Happening FileStore)} {terminal after : Terminal}
  {text line answer : String}

structure Watched (config : Config) (past : List (Happening FileStore)) (terminal : Terminal)
    (text : String) : Prop where
  settings : terminal.backend.config = config
  viewing : watch config past = ⟨terminal.game.transcript, terminal.screen, text⟩

namespace Watched

/-- A game that goes on writes to its transcript while the screen stays as it is. -/
theorem written (watched : Watched config past terminal text) {game : Game FileStore}
    (continues : game.transcript.Continues terminal.game.transcript) :
    ∃ writings : List Writing,
      Watched config (past ++ writings.map .written) { terminal with game := game } text := by
  obtain ⟨writings, same⟩ := continues
  refine ⟨writings, watched.settings, ?_⟩
  rw [Screen.watch_append_written, watched.viewing, same]

theorem drawn (watched : Watched config past terminal text) :
    Watched config (past ++ [.drawn terminal.game]) terminal.draw.2 (text ++ terminal.draw.1) := by
  refine ⟨watched.settings, ?_⟩
  rw [Screen.watch_concat, watched.viewing, draw, watched.settings]
  rfl

theorem noticed (watched : Watched config past terminal text) (notice : String) :
    Watched config (past ++ [.noticed notice])
      { terminal with screen := (terminal.screen.notice notice).2 }
      (text ++ (terminal.screen.notice notice).1) := by
  refine ⟨watched.settings, ?_⟩
  rw [Screen.watch_concat, watched.viewing]
  rfl

/-- A line is written about, or it is refused with a notice. -/
theorem take (watched : Watched config past terminal text)
    (taken : terminal.take? line = some (answer, after)) :
    ∃ past, Watched config past after (text ++ answer) := by
  unfold take? at taken
  split at taken
  · cases taken
  · cases taken
    obtain ⟨writings, reset⟩ := watched.written
      (Game.continues_handle (.refl _) terminal.backend (.call .reset))
    exact ⟨_, by rw [String.append_empty]; exact reset⟩
  · dsimp only at taken
    obtain ⟨writings, submitted⟩ := watched.written
      (Game.continues_submit (.refl _) terminal.backend line)
    split at taken
    · cases taken
      exact ⟨_, by rw [String.append_empty]; exact submitted⟩
    · cases taken
      exact ⟨_, submitted.noticed refusal⟩

/-- A frame is written about while time passes, and then it is drawn. -/
theorem frame (watched : Watched config past terminal text) (elapsed : Nat) :
    ∃ past, Watched config (past ++ [.drawn (terminal.frame elapsed).2.game])
      (terminal.frame elapsed).2 (text ++ (terminal.frame elapsed).1) := by
  obtain ⟨writings, ticked⟩ := watched.written
    (Game.continues_tick (.refl _) terminal.backend.config elapsed)
  exact ⟨_, ticked.drawn⟩

/-- A terminal that has just been drawn has just been drawn whenever it waits for a line. -/
theorem run (watched : Watched config (past ++ [.drawn terminal.game]) terminal text)
    (lines : List String) :
    ∃ past, Watched config (past ++ [.drawn (terminal.run lines).2.game])
      (terminal.run lines).2 (text ++ (terminal.run lines).1) := by
  induction lines generalizing past terminal text with
  | nil =>
      refine ⟨past, ?_⟩
      rw [Terminal.run, String.append_empty]
      exact watched
  | cons line rest ih =>
      unfold Terminal.run
      split
      · refine ⟨past, ?_⟩
        rw [String.append_empty]
        exact watched
      next answer after took =>
        obtain ⟨answering, answered⟩ := watched.take took
        obtain ⟨drawing, drawn⟩ := answered.frame 0
        obtain ⟨others, last⟩ := ih drawn
        exact ⟨others, by simpa only [String.append_assoc] using last⟩

end Watched

variable {disk : Disk} {configPath : Option String} {storePath greeting : String}

/--
A terminal shows what a screen shows that is watched.  Whatever lines it is given from its start on,
there is a way for a transcript to be written and for a screen to be drawn that ends with the
terminal's own transcript and screen and shows all that the terminal has shown.
-/
theorem exists_watched_run
    (started : start disk configPath storePath = .ok (greeting, terminal)) (lines : List String) :
    ∃ past, Watched terminal.backend.config (past ++ [.drawn (terminal.run lines).2.game])
      (terminal.run lines).2 (greeting ++ (terminal.run lines).1) := by
  obtain ⟨config, -, opened⟩ := bind_eq_ok_iff.1 started
  obtain ⟨store, -, begun⟩ := bind_eq_ok_iff.1 opened
  obtain ⟨game, begins, drew⟩ := bind_eq_ok_iff.1 begun
  have blank : Watched config []
      ⟨backendOf config, { game with transcript := .start }, .start⟩ "" := ⟨rfl, rfl⟩
  obtain ⟨writings, written⟩ := blank.written (Game.continues_start begins)
  have drawn := written.drawn
  have shown : draw ⟨backendOf config, game, .start⟩ = (greeting, terminal) := Except.ok.inj drew
  have same : terminal.game = game := congrArg (·.2.game) shown.symm
  rw [String.empty_append, shown, ← same] at drawn
  rw [drawn.settings]
  exact drawn.run lines

/-- A terminal that waits for a line has shown a prompt last. -/
theorem exists_prompt_run
    (started : start disk configPath storePath = .ok (greeting, terminal)) (lines : List String)
    (waits : (terminal.run lines).2.game.inputEnabled = true) :
    ∃ front game, Game.inputEnabled game = true ∧ greeting ++ (terminal.run lines).1 =
      front ++ Screen.promptLine terminal.backend.config (game : Game FileStore) := by
  obtain ⟨past, watched⟩ := exists_watched_run started lines
  have shown := Screen.text_append_news terminal.backend.config
    (past ++ [.drawn (terminal.run lines).2.game])
  rw [Screen.news_drawn, String.append_empty, Screen.unsettled_drawn, Screen.prompted?_drawn,
    if_pos waits, watched.viewing] at shown
  cases prompted : Screen.prompted? past with
  | none =>
      rw [prompted] at shown
      exact ⟨_, _, waits, shown⟩
  | some first =>
      rw [prompted] at shown
      exact ⟨_, first, List.find?_some prompted, shown⟩

end PuzzleShell.Terminal
