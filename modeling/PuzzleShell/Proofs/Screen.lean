import PuzzleShell.Proofs.Transcript
import PuzzleShell.Screen

/-!
# What the screen shows

A screen is drawn again and again while the transcript goes on.  Each time it shows what has been
added since it was drawn before, as far as that has neither been wiped nor dropped, and it begins
with a wipe of its own if there was one.  The prompt comes once after every change and every notice,
as soon as the game waits for input.
-/

namespace PuzzleShell

def Transcript.Writing.changes (writing : Writing) : Bool :=
  writing = .clear || !writing.lines.isEmpty

namespace Screen

open Transcript (Writing)

inductive Happening (σ : Type) where
  /-- Lines are added to the transcript, or it is wiped. -/
  | written (writing : Writing)
  /-- The screen is drawn for a game, whose transcript is the one that has been written. -/
  | drawn (game : Game σ)
  /-- A line is shown that does not belong to the transcript. -/
  | noticed (text : String)

namespace Happening

variable {σ : Type}

def writing? : Happening σ → Option Writing
  | .written writing => some writing
  | _ => none

def drawn? : Happening σ → Option (Game σ)
  | .drawn game => some game
  | _ => none

/-- Whether the prompt is out of place afterwards. -/
def unsettles : Happening σ → Bool
  | .written writing => writing.changes
  | .drawn _ => false
  | .noticed _ => true

end Happening

variable {σ : Type}

section Past

variable (past : List (Happening σ))

def writings : List Writing :=
  past.filterMap Happening.writing?

def untilDrawn : List (Happening σ) :=
  past.rdropWhile (·.drawn?.isNone)

def sinceDrawn : List (Happening σ) :=
  past.rtakeWhile (·.drawn?.isNone)

def wiped : Bool :=
  (writings (sinceDrawn past)).contains .clear

def unseen : List Line :=
  Transcript.log (writings (sinceDrawn past))

/-- What is there to be shown: a wipe if there was one, and the unseen lines that are still kept. -/
def news : String :=
  (if wiped past then wipe else "") ++ shownLines ((unseen past).rtake Transcript.capacity)

def unsettled : List (Happening σ) :=
  past.rdropWhile (!·.unsettles)

/-- The first game since then that waited for input when the screen was drawn. -/
def prompted? : Option (Game σ) :=
  ((past.rtakeWhile (!·.unsettles)).filterMap Happening.drawn?).find? (·.inputEnabled)

end Past

structure Viewing where
  transcript : Transcript
  screen : Screen
  text : String

def Viewing.start : Viewing := ⟨.start, .start, ""⟩

def Viewing.step (config : Config) (viewing : Viewing) : Happening σ → Viewing
  | .written writing => { viewing with transcript := viewing.transcript.write writing }
  | .drawn game =>
      let (text, screen) :=
        viewing.screen.draw config { game with transcript := viewing.transcript }
      { viewing with screen := screen, text := viewing.text ++ text }
  | .noticed notice =>
      let (text, screen) := viewing.screen.notice notice
      { viewing with screen := screen, text := viewing.text ++ text }

def watch (config : Config) (past : List (Happening σ)) : Viewing :=
  past.foldl (Viewing.step config) .start

variable {config : Config} {past : List (Happening σ)} {screen : Screen}

theorem watch_concat (config : Config) (past : List (Happening σ)) (happening : Happening σ) :
    watch config (past ++ [happening]) = (watch config past).step config happening := by
  rw [watch, List.foldl_append]
  rfl

/-- What is written happens to the transcript and to nothing else. -/
theorem watch_append_written (config : Config) (past : List (Happening σ))
    (writings : List Writing) :
    watch config (past ++ writings.map .written) =
      { watch config past with
        transcript := writings.foldl Transcript.write (watch config past).transcript } := by
  induction writings using List.reverseRecOn with
  | nil => rw [List.map_nil, List.append_nil, List.foldl_nil]
  | append_singleton writings writing ih =>
      rw [List.map_append, ← List.append_assoc, List.map_singleton, watch_concat, ih,
        List.foldl_append]
      rfl

section Concat

variable (past : List (Happening σ)) (writing : Writing) (game : Game σ) (text : String)

theorem writings_eq : writings past = writings (untilDrawn past) ++ writings (sinceDrawn past) := by
  rw [writings, writings, writings, ← List.filterMap_append, untilDrawn, sinceDrawn,
    List.rdropWhile_append_rtakeWhile]

@[simp] theorem writings_written :
    writings (past ++ [.written writing]) = writings past ++ [writing] := by
  rw [writings, List.filterMap_append]
  rfl

@[simp] theorem writings_drawn : writings (past ++ [.drawn game]) = writings past := by
  rw [writings, List.filterMap_append]
  exact List.append_nil _

@[simp] theorem writings_noticed : writings (past ++ [.noticed text]) = writings past := by
  rw [writings, List.filterMap_append]
  exact List.append_nil _

@[simp] theorem untilDrawn_written :
    untilDrawn (past ++ [.written writing]) = untilDrawn past :=
  List.rdropWhile_concat_pos _ _ _ rfl

@[simp] theorem untilDrawn_drawn :
    untilDrawn (past ++ [.drawn game]) = past ++ [.drawn game] :=
  List.rdropWhile_concat_neg _ _ _ Bool.false_ne_true

@[simp] theorem untilDrawn_noticed : untilDrawn (past ++ [.noticed text]) = untilDrawn past :=
  List.rdropWhile_concat_pos _ _ _ rfl

@[simp] theorem sinceDrawn_written :
    sinceDrawn (past ++ [.written writing]) = sinceDrawn past ++ [.written writing] :=
  List.rtakeWhile_concat_pos _ _ _ rfl

@[simp] theorem sinceDrawn_drawn : sinceDrawn (past ++ [.drawn game]) = [] :=
  List.rtakeWhile_concat_neg _ _ _ Bool.false_ne_true

theorem wiped_written :
    wiped (past ++ [.written writing]) = (wiped past || writing = .clear) := by
  simp [wiped, eq_comm]

theorem wiped_drawn : wiped (past ++ [.drawn game]) = false := by
  rw [wiped, sinceDrawn_drawn]
  rfl

theorem unseen_written : unseen (past ++ [.written writing]) =
    if writing = .clear then [] else unseen past ++ writing.lines := by
  rw [unseen, sinceDrawn_written, writings_written, Transcript.log_concat, unseen]

theorem unseen_drawn : unseen (past ++ [.drawn game]) = [] := by
  rw [unseen, sinceDrawn_drawn]
  rfl

theorem unsettled_written : unsettled (past ++ [.written writing]) =
    if writing.changes then past ++ [.written writing] else unsettled past := by
  rw [unsettled, List.rdropWhile_concat, Happening.unsettles]
  cases writing.changes <;> rfl

theorem unsettled_drawn : unsettled (past ++ [.drawn game]) = unsettled past :=
  List.rdropWhile_concat_pos _ _ _ rfl

theorem unsettled_noticed :
    unsettled (past ++ [.noticed text]) = past ++ [.noticed text] :=
  List.rdropWhile_concat_neg _ _ _ Bool.false_ne_true

theorem prompted?_written : prompted? (past ++ [.written writing]) =
    if writing.changes then none else prompted? past := by
  rw [prompted?, List.rtakeWhile_concat, Happening.unsettles]
  cases writing.changes with
  | false => simp [List.filterMap_append, Happening.drawn?, prompted?]
  | true => rfl

theorem prompted?_drawn : prompted? (past ++ [.drawn game]) =
    (prompted? past).or (if game.inputEnabled then some game else none) := by
  rw [prompted?, List.rtakeWhile_concat_pos _ _ _ rfl, List.filterMap_append, List.find?_append,
    prompted?]
  congr 1
  cases waits : game.inputEnabled <;> simp [Happening.drawn?, waits]

theorem prompted?_noticed : prompted? (past ++ [.noticed text]) = none := by
  rw [prompted?, List.rtakeWhile_concat_neg _ _ _ Bool.false_ne_true]
  rfl

end Concat

/-- Where there is news, no prompt has been shown since. -/
theorem prompted?_eq_none (fresh : wiped past = true ∨ unseen past ≠ []) :
    prompted? past = none := by
  induction past using List.reverseRecOn with
  | nil => rfl
  | append_singleton past happening ih =>
      cases happening with
      | written writing =>
          rw [wiped_written, unseen_written] at fresh
          rw [prompted?_written]
          split
          · rfl
          next still =>
            obtain ⟨adds, nothing⟩ : writing ≠ .clear ∧ writing.lines = [] := by
              simpa [Writing.changes] using still
            refine ih ?_
            simpa [adds, nothing] using fresh
      | drawn game =>
          rw [wiped_drawn, unseen_drawn] at fresh
          simp at fresh
      | noticed text => exact prompted?_noticed past text

/-- A screen that has followed its transcript as it was when the screen was drawn last. -/
structure Follows (past : List (Happening σ)) (screen : Screen) : Prop where
  generation : screen.generation = (writings (untilDrawn past)).count .clear
  shown : screen.shown = (Transcript.log (writings (untilDrawn past))).length
  pending : wiped past = false → unseen past = [] →
    screen.promptPending = (prompted? past).isNone

/-- Whether a transcript was wiped is told by its generation. -/
theorem Follows.generation_eq_iff (follows : Follows past screen) :
    (Transcript.written (writings past)).generation = screen.generation ↔ wiped past = false := by
  rw [Transcript.generation_written, follows.generation, writings_eq past, List.count_append,
    Nat.add_eq_left, List.count_eq_zero, wiped, List.contains_eq_mem, decide_eq_false_iff_not]

/-- A screen that is up to date with the wipes knows which lines are unseen. -/
theorem Follows.exists_current (follows : Follows past screen) :
    ∃ seen pending, Transcript.log (writings past) = seen ++ unseen past ∧
      (if (Transcript.written (writings past)).generation = screen.generation then ("", screen)
        else (wipe, ⟨(Transcript.written (writings past)).generation, 0, true⟩)) =
        (if wiped past then wipe else "",
          ⟨(writings past).count .clear, seen.length, pending⟩) ∧
      (unseen past = [] → pending = (prompted? past).isNone) := by
  have log := Transcript.log_append (writings (untilDrawn past)) (writings (sinceDrawn past))
  rw [← writings_eq] at log
  cases wipes : wiped past with
  | true =>
      have changed := mt follows.generation_eq_iff.1 (by rw [wipes]; decide)
      have member : Writing.clear ∈ writings (sinceDrawn past) := List.contains_iff_mem.1 wipes
      rw [if_pos member] at log
      refine ⟨[], true, log, ?_, fun _ => ?_⟩
      · rw [if_neg changed, Transcript.generation_written]
        rfl
      · rw [prompted?_eq_none (Or.inl wipes)]
        rfl
  | false =>
      have same := follows.generation_eq_iff.2 wipes
      have absent : Writing.clear ∉ writings (sinceDrawn past) := by
        simpa [wiped] using wipes
      rw [if_neg absent] at log
      refine ⟨_, screen.promptPending, log, ?_, follows.pending wipes⟩
      rw [if_pos same, ← follows.shown, ← Transcript.generation_written, same]
      rfl

theorem isEmpty_rtake_iff (lines : List Line) :
    (lines.rtake Transcript.capacity).isEmpty = true ↔ lines = [] := by
  have room : 0 < Transcript.capacity := by decide
  rw [List.isEmpty_iff, List.rtake, List.drop_eq_nil_iff, ← List.length_eq_zero_iff]
  omega

/-- Drawing the lines shows the news, and the screen has followed everything then. -/
theorem Follows.drawLines_eq (follows : Follows past screen) :
    screen.drawLines (Transcript.written (writings past)) =
      (news past, ⟨(writings past).count .clear, (Transcript.log (writings past)).length,
        (prompted? past).isNone⟩) := by
  obtain ⟨seen, pending, log, current, settled⟩ := follows.exists_current
  have shows := Transcript.shows_written (writings past)
  have finish := shows.finish
  rw [log] at shows
  have fresh := shows.since_length
  unfold drawLines news
  rw [current]
  dsimp only
  rw [fresh, finish]
  by_cases nothing : unseen past = []
  · rw [if_pos ((isEmpty_rtake_iff _).2 nothing), settled nothing, log, nothing, List.append_nil]
    simp [shownLines, List.rtake]
  · rw [if_neg (mt (isEmpty_rtake_iff _).1 nothing), prompted?_eq_none (Or.inr nothing)]
    rfl

/-- What the screen shows when it is drawn for a game, and how it is left. -/
theorem Follows.draw_eq (follows : Follows past screen) (config : Config) (game : Game σ) :
    screen.draw config { game with transcript := Transcript.written (writings past) } =
      (news past ++
          (if (prompted? past).isNone && game.inputEnabled then promptLine config game else ""),
        ⟨(writings past).count .clear, (Transcript.log (writings past)).length,
          (prompted? past).isNone && !game.inputEnabled⟩) := by
  have enabled : ({ game with transcript := Transcript.written (writings past) } :
      Game σ).inputEnabled = game.inputEnabled := rfl
  have prompt : promptLine config
      { game with transcript := Transcript.written (writings past) } = promptLine config game := rfl
  unfold draw
  dsimp only
  rw [follows.drawLines_eq, enabled]
  cases (prompted? past).isNone <;> cases game.inputEnabled <;> simp [prompt]

theorem follows_start : Follows ([] : List (Happening σ)) start :=
  ⟨rfl, rfl, fun _ _ => rfl⟩

namespace Follows

/-- A screen does not know what is written until it is drawn. -/
theorem written (follows : Follows past screen) (writing : Writing) :
    Follows (past ++ [.written writing]) screen where
  generation := by rw [untilDrawn_written, follows.generation]
  shown := by rw [untilDrawn_written, follows.shown]
  pending still nothing := by
    rw [wiped_written, Bool.or_eq_false_iff, decide_eq_false_iff_not] at still
    rw [unseen_written, if_neg still.2, List.append_eq_nil_iff] at nothing
    have quiet : writing.changes = false := by
      simp [Writing.changes, still.2, nothing.2]
    rw [prompted?_written, quiet]
    exact follows.pending still.1 nothing.1

theorem drawn (follows : Follows past screen) (config : Config) (game : Game σ) :
    Follows (past ++ [.drawn game])
      (screen.draw config { game with transcript := Transcript.written (writings past) }).2 := by
  rw [follows.draw_eq]
  refine ⟨?_, ?_, fun _ _ => ?_⟩
  · rw [untilDrawn_drawn, writings_drawn]
  · rw [untilDrawn_drawn, writings_drawn]
  · rw [prompted?_drawn, Option.isNone_or]
    cases game.inputEnabled <;> rfl

theorem noticed (follows : Follows past screen) (text : String) :
    Follows (past ++ [.noticed text]) (screen.notice text).2 where
  generation := by rw [untilDrawn_noticed, notice, follows.generation]
  shown := by rw [untilDrawn_noticed, notice, follows.shown]
  pending _ _ := by rw [prompted?_noticed, notice, Option.isNone_none]

end Follows

/-- Whatever happens, the transcript is what was written and the screen follows it. -/
theorem watch_follows (config : Config) (past : List (Happening σ)) :
    (watch config past).transcript = Transcript.written (writings past) ∧
      Follows past (watch config past).screen := by
  induction past using List.reverseRecOn with
  | nil => exact ⟨rfl, follows_start⟩
  | append_singleton past happening ih =>
      obtain ⟨same, follows⟩ := ih
      rw [watch_concat]
      cases happening with
      | written writing =>
          refine ⟨?_, follows.written writing⟩
          rw [writings_written, Transcript.written_concat, ← same, Viewing.step]
      | drawn game =>
          rw [writings_drawn, Viewing.step, same]
          exact ⟨rfl, follows.drawn config game⟩
      | noticed text =>
          rw [writings_noticed, Viewing.step]
          exact ⟨same, follows.noticed text⟩

/-- What the screen shows next if it is drawn for a game. -/
theorem draw_watch (config : Config) (past : List (Happening σ)) (game : Game σ) :
    ((watch config past).screen.draw config
        { game with transcript := (watch config past).transcript }).1 =
      news past ++
        (if (prompted? past).isNone && game.inputEnabled then promptLine config game else "") := by
  obtain ⟨same, follows⟩ := watch_follows config past
  rw [same, follows.draw_eq]

theorem news_drawn (past : List (Happening σ)) (game : Game σ) :
    news (past ++ [.drawn game]) = "" := by
  rw [news, wiped_drawn, unseen_drawn]
  simp [shownLines, List.rtake]

/-- A writing that changes nothing is no news. -/
theorem news_written_of_not_changes (past : List (Happening σ)) {writing : Writing}
    (quiet : writing.changes = false) : news (past ++ [.written writing]) = news past := by
  obtain ⟨adds, nothing⟩ : writing ≠ .clear ∧ writing.lines = [] := by
    simpa [Writing.changes] using quiet
  rw [news, news, wiped_written, unseen_written, if_neg adds, nothing, List.append_nil]
  simp [adds]

/--
Since the last change or notice nothing has been shown but the news that it left, and the prompt if
the game waited for input; what has not been shown of it is there to be shown.
-/
theorem text_append_news (config : Config) (past : List (Happening σ)) :
    (watch config past).text ++ news past =
      (watch config (unsettled past)).text ++ news (unsettled past) ++
        (prompted? past).elim "" (promptLine config) := by
  induction past using List.reverseRecOn with
  | nil => exact (String.append_empty).symm
  | append_singleton past happening ih =>
      cases happening with
      | written writing =>
          rw [unsettled_written, prompted?_written]
          cases changes : writing.changes with
          | true => exact (String.append_empty).symm
          | false =>
              rw [news_written_of_not_changes past changes, watch_concat]
              exact ih
      | drawn game =>
          rw [news_drawn, unsettled_drawn, prompted?_drawn, watch_concat, String.append_empty]
          have shown : ((watch config past).step config (.drawn game)).text =
              (watch config past).text ++ (news past ++
                (if (prompted? past).isNone && game.inputEnabled then promptLine config game
                  else "")) :=
            congrArg ((watch config past).text ++ ·) (draw_watch config past game)
          rw [shown, ← String.append_assoc, ih]
          cases prompted? past with
          | none =>
              cases game.inputEnabled <;> simp
          | some first => simp
      | noticed text =>
          rw [unsettled_noticed, prompted?_noticed]
          exact (String.append_empty).symm

/--
A screen shows every line once.  However writing, drawing and notices follow one another, the screen
shows, when it is drawn, a wipe if there was one since it was drawn before, and the lines that have
been added since, but for what the player typed and what was wiped or dropped again.  If the game
waits for input then, all that has been shown since the last change or notice is the news that it
left and one prompt at the end.
-/
theorem shows_news_once (config : Config) (past : List (Happening σ)) (game : Game σ) :
    let viewing := watch config past
    (viewing.screen.draw config { game with transcript := viewing.transcript }).1 =
        (if wiped past then wipe else "") ++ shownLines ((unseen past).rtake 1000) ++
          (if (prompted? past).isNone && game.inputEnabled then promptLine config game else "") ∧
      (game.inputEnabled = true →
        (watch config (past ++ [.drawn game])).text =
          (watch config (unsettled past)).text ++ news (unsettled past) ++
            promptLine config ((prompted? past).getD game)) := by
  refine ⟨draw_watch config past game, fun waits => ?_⟩
  have shown := text_append_news config (past ++ [.drawn game])
  rw [news_drawn, String.append_empty, unsettled_drawn, prompted?_drawn, if_pos waits] at shown
  rw [shown]
  cases prompted? past <;> rfl

def waiting : Game Unit where
  session := .start "guest" "/home/guest"
  standardTree := World.deep
  deepTree := World.deep
  tool := none
  transcript := .start
  timers := .start
  collapse := .start
  countdown := .inactive
  countdownTimer := none
  parked := none
  switching := false
  store := ()

def glances : List (Happening Unit) :=
  [.written (.output "old"), .drawn waiting, .written (.input "guest@archive:~$ " "clear"),
    .written .clear, .written (.system "new"), .written (.output ""),
    .drawn { waiting with switching := true }]

theorem shows_news_once_glances :
    waiting.inputEnabled = true ∧
      (watch .default (glances ++ [.drawn waiting])).text =
        "old\nguest@archive:~$ \x1b[2J\x1b[H\x1b[1;31mnew\x1b[0m\nguest@archive:~$ " := by
  obtain ⟨-, once⟩ := shows_news_once .default glances waiting
  refine ⟨rfl, ?_⟩
  rw [once rfl]
  decide +kernel

end Screen

end PuzzleShell
