import Mathlib.Data.List.DropRight
import PuzzleShell.Transcript

/-!
# The transcript as a window on a log

Imagine that every line ever pushed were kept, up to the next wipe.  The transcript shows the newest
lines of that log, as many as there is room for, and it counts the others.  So the position of a
line in the transcript is its place in the log, whatever has been dropped in between.
-/

namespace PuzzleShell.Transcript

inductive Writing where
  | input (prompt text : String)
  | output (text : String)
  | system (text : String)
  | clear
  deriving DecidableEq, Repr

def Writing.lines : Writing → List Line
  | .input prompt text => [⟨.input, prompt ++ text⟩]
  | .output text => (Text.lines text).map (⟨.output, ·⟩)
  | .system text => (Text.lines text).map (⟨.system, ·⟩)
  | .clear => []

def write (transcript : Transcript) : Writing → Transcript
  | .input prompt text => transcript.pushInput prompt text
  | .output text => transcript.pushOutput text
  | .system text => transcript.pushSystem text
  | .clear => transcript.clear

def written (writings : List Writing) : Transcript :=
  writings.foldl write start

/-- All lines that were added since the last wipe. -/
def log (writings : List Writing) : List Line :=
  (writings.rtakeWhile (· ≠ .clear)).flatMap Writing.lines

variable {transcript : Transcript} {kept : List Line} {writing : Writing}

theorem write_of_ne (adds : writing ≠ .clear) (transcript : Transcript) :
    transcript.write writing = transcript.append writing.lines := by
  cases writing with
  | input prompt text | output text | system text => rfl
  | clear => exact absurd rfl adds

theorem written_concat (writings : List Writing) (writing : Writing) :
    written (writings ++ [writing]) = (written writings).write writing := by
  rw [written, List.foldl_append]
  rfl

theorem log_concat (writings : List Writing) (writing : Writing) :
    log (writings ++ [writing]) =
      if writing = .clear then [] else log writings ++ writing.lines := by
  unfold log
  rw [List.rtakeWhile_concat]
  by_cases wipes : writing = .clear
  · simp [wipes]
  · simp [wipes]

/-- What was written before a wipe is gone from the log, and all else stays in front. -/
theorem log_append (front back : List Writing) :
    log (front ++ back) = if .clear ∈ back then log back else log front ++ log back := by
  induction back using List.reverseRecOn with
  | nil => simp [log]
  | append_singleton back writing ih =>
      rw [← List.append_assoc, log_concat, log_concat, ih]
      by_cases wipes : writing = .clear
      · simp [wipes]
      · by_cases before : .clear ∈ back <;> simp [wipes, before, Ne.symm wipes]

/-- A transcript that shows as much of the end of a log as there is room for. -/
structure Shows (log : List Line) (transcript : Transcript) : Prop where
  lines : transcript.lines = log.drop (log.length - capacity)
  dropped : transcript.dropped = log.length - capacity

theorem shows_of_nil (lines : transcript.lines = []) (dropped : transcript.dropped = 0) :
    transcript.Shows [] :=
  ⟨lines, dropped⟩

namespace Shows

/-- What leaves the window leaves it at the front, however much comes in at once. -/
theorem append (shows : transcript.Shows kept) (added : List Line) :
    (transcript.append added).Shows (kept ++ added) := by
  have inside : kept.length - capacity ≤ kept.length := Nat.sub_le _ _
  have length : transcript.lines.length = kept.length - (kept.length - capacity) := by
    rw [shows.lines, List.length_drop]
  have window : transcript.lines ++ added = (kept ++ added).drop (kept.length - capacity) := by
    rw [shows.lines, List.drop_append_of_le_length inside]
  have total : kept.length - capacity + ((transcript.lines ++ added).length - capacity) =
      (kept ++ added).length - capacity := by
    rw [List.length_append, List.length_append]
    omega
  constructor
  · rw [Transcript.append, window, List.drop_drop, ← window, total]
  · rw [Transcript.append, shows.dropped, total]

theorem finish (shows : transcript.Shows kept) : transcript.finish = kept.length := by
  rw [Transcript.finish, shows.lines, shows.dropped, List.length_drop]
  omega

/-- A mark that has left the window is as good as the front of it. -/
theorem since (shows : transcript.Shows kept) (mark : Nat) :
    transcript.since mark = kept.drop (max mark (kept.length - capacity)) := by
  have reach : kept.length - capacity + (mark - (kept.length - capacity)) =
      max mark (kept.length - capacity) := by
    omega
  rw [Transcript.since, shows.lines, shows.dropped, List.drop_drop, reach]

/-- The lines since a place in the log are the newest of those that came after it. -/
theorem since_length {front fresh : List Line} (shows : transcript.Shows (front ++ fresh)) :
    transcript.since front.length = fresh.rtake capacity := by
  have place : max front.length (front.length + fresh.length - capacity) =
      front.length + (fresh.length - capacity) := by
    omega
  rw [shows.since, List.length_append, place, List.drop_length_add_append, List.rtake]

end Shows

/-- One writing keeps the window on the end of the log. -/
theorem shows_written (writings : List Writing) : (written writings).Shows (log writings) := by
  induction writings using List.reverseRecOn with
  | nil => exact shows_of_nil rfl rfl
  | append_singleton writings writing ih =>
      rw [written_concat, log_concat]
      by_cases wipes : writing = .clear
      · rw [if_pos wipes, wipes]
        exact shows_of_nil rfl rfl
      · rw [if_neg wipes, write_of_ne wipes]
        exact ih.append writing.lines

theorem generation_written (writings : List Writing) :
    (written writings).generation = writings.count .clear := by
  induction writings using List.reverseRecOn with
  | nil => rfl
  | append_singleton writings writing ih =>
      rw [written_concat, List.count_append, List.count_singleton, ← ih]
      by_cases wipes : writing = .clear
      · simp [wipes, write, clear]
      · simp [wipes, write_of_ne wipes, append]

/--
A transcript is a window on its log.  However it has been written to, it shows the newest thousand
lines that were added since the last wipe, or all of them if there are fewer; its end is their
number, its generation is the number of wipes, and the lines since a mark are those from the mark
on, as far as they are still shown.
-/
theorem window_on_log (writings : List Writing) :
    let kept := log writings
    (written writings).lines = kept.rtake (min kept.length 1000) ∧
      (written writings).finish = kept.length ∧
      (written writings).generation = writings.count .clear ∧
      ∀ mark, (written writings).since mark = kept.drop (max mark (kept.length - 1000)) := by
  intro kept
  have shows := shows_written writings
  refine ⟨?_, shows.finish, generation_written writings, shows.since⟩
  have front : kept.length - min kept.length 1000 = kept.length - capacity := by
    rw [capacity]
    omega
  rw [shows.lines, List.rtake, front]

/-- A wipe between two answers, the first of which is empty. -/
example : (written [.output "", .input "$ " "ls", .clear, .output "a\r\nb"]).since 1 =
    [⟨.output, "b"⟩] := by decide

end PuzzleShell.Transcript
