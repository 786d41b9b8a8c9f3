import PuzzleShell.Countdown
import PuzzleShell.Proofs.Command.Ordinary

/-!
# Proper countdowns

No transition leads to any other countdown than these: one that nobody has armed, one that has run
out, and one that runs with seconds left.  And none has more seconds than the settings begin with,
unless it had them before.
-/

namespace PuzzleShell

namespace Countdown

/-- The countdowns that the transitions lead to. -/
inductive Proper : Countdown → Prop where
  | inactive : Proper .inactive
  | spent : Proper .spent
  | running {left : Nat} (positive : 0 < left) : Proper ⟨true, left, false⟩

variable {countdown : Countdown}

theorem Proper.eq_spent (proper : countdown.Proper) (exploded : countdown.exploded = true) :
    countdown = .spent := by
  cases proper with
  | inactive => cases exploded
  | spent => rfl
  | running positive => cases exploded

theorem Proper.eq_of_isRunning (proper : countdown.Proper) (runs : countdown.isRunning = true) :
    countdown = ⟨true, countdown.timeLeft, false⟩ ∧ 0 < countdown.timeLeft := by
  cases proper with
  | inactive | spent => cases runs
  | running positive => exact ⟨rfl, positive⟩

/-- What a rejected flag does to a countdown that runs. -/
theorem wrongFlag_running (settings : CountdownSettings) (left : Nat) :
    wrongFlag settings ⟨true, left, false⟩ =
      if left ≤ settings.penaltySecs then (.exploded, .spent)
      else (.penalized, ⟨true, left - settings.penaltySecs, false⟩) := rfl

/-- What a second does to a countdown that runs. -/
theorem tick_running (left : Nat) :
    tick ⟨true, left, false⟩ =
      if left ≤ 1 then (.exploded, .spent) else (.ticked, ⟨true, left - 1, false⟩) := rfl

/-- The proper countdowns are those in which the three parts fit together. -/
theorem proper_iff :
    countdown.Proper ↔
      (countdown.exploded = true → countdown.active = true ∧ countdown.timeLeft = 0) ∧
        (countdown.active = false → countdown.timeLeft = 0 ∧ countdown.exploded = false) ∧
        (countdown.isRunning = true → 0 < countdown.timeLeft) := by
  constructor
  · intro proper
    cases proper with
    | inactive | spent => decide
    | running positive => exact ⟨by rintro ⟨⟩, by rintro ⟨⟩, fun _ => positive⟩
  · rintro ⟨finished, inactive, running⟩
    obtain ⟨active, left, exploded⟩ := countdown
    cases active with
    | false =>
        obtain ⟨rfl, rfl⟩ := inactive rfl
        exact .inactive
    | true =>
        cases exploded with
        | false => exact .running (running rfl)
        | true =>
            obtain ⟨-, rfl⟩ := finished rfl
            exact .spent

theorem proper_normalized (countdown : Countdown) : countdown.normalized.Proper := by
  obtain ⟨active, left, exploded⟩ := countdown
  unfold normalized
  split
  · exact .spent
  next alive =>
    split
    next armed =>
      simp only [Bool.or_eq_true, Bool.and_eq_true, decide_eq_true_eq, not_or, not_and] at alive
      obtain ⟨unexploded, seconds⟩ := alive
      obtain rfl := Bool.not_eq_true _ ▸ unexploded
      obtain rfl := armed
      exact .running (Nat.pos_of_ne_zero (seconds rfl))
    · exact .inactive

/-- There is nothing to repair in a countdown that a transition leads to. -/
theorem Proper.normalized_eq (proper : countdown.Proper) : countdown.normalized = countdown := by
  cases proper with
  | inactive | spent => rfl
  | running positive => simp [normalized, Nat.ne_of_gt positive]

theorem Proper.shorten (proper : countdown.Proper) (seconds : Nat) (kind : Change) :
    (countdown.shorten seconds kind).2.Proper := by
  unfold Countdown.shorten
  split
  · exact .spent
  next left =>
    rw [Nat.not_le] at left
    cases proper with
    | inactive | spent => exact absurd left (Nat.not_lt_zero _)
    | running positive => exact .running (Nat.sub_pos_of_lt left)

theorem Proper.wrongFlag (proper : countdown.Proper) (settings : CountdownSettings) :
    (countdown.wrongFlag settings).2.Proper := by
  unfold Countdown.wrongFlag
  split
  · exact proper
  · split
    · exact proper.shorten _ _
    next alive idle =>
      split
      · exact .spent
      next seconds =>
        rw [Bool.not_eq_true] at alive
        rw [Bool.not_eq_true] at idle
        cases proper with
        | inactive => exact .running (Nat.pos_of_ne_zero seconds)
        | spent => cases alive
        | running positive => cases idle

theorem Proper.rightFlag (proper : countdown.Proper) : countdown.rightFlag.2.Proper := by
  unfold Countdown.rightFlag
  split
  · exact .inactive
  · exact proper

theorem Proper.tick (proper : countdown.Proper) : countdown.tick.2.Proper := by
  unfold Countdown.tick
  split
  · exact proper.shorten _ _
  · exact proper

def judged (settings : CountdownSettings) (countdown : Countdown) : Output → Countdown
  | .flagChecked true _ => countdown.rightFlag.2
  | .flagChecked false _ => (countdown.wrongFlag settings).2
  | _ => countdown

theorem Proper.judged (proper : countdown.Proper) (settings : CountdownSettings)
    (output : Output) : (countdown.judged settings output).Proper := by
  cases output with
  | flagChecked accepted id =>
      cases accepted with
      | true => exact proper.rightFlag
      | false => exact proper.wrongFlag settings
  | text text | silent | clear | connect host | disconnect => exact proper

theorem judged_of_unjudged (settings : CountdownSettings) (countdown : Countdown) {output : Output}
    (unjudged : output.Unjudged) : countdown.judged settings output = countdown := by
  cases output with
  | text text | silent | clear | connect host | disconnect => rfl
  | flagChecked accepted id => exact unjudged.elim

section Bounds

variable {settings : CountdownSettings} {bound : Nat}

theorem timeLeft_normalized_le (countdown : Countdown) :
    countdown.normalized.timeLeft ≤ countdown.timeLeft := by
  unfold normalized
  split
  · exact Nat.zero_le _
  · split
    · exact Nat.le_refl _
    · exact Nat.zero_le _

theorem timeLeft_shorten_le (countdown : Countdown) (seconds : Nat) (kind : Change) :
    (countdown.shorten seconds kind).2.timeLeft ≤ countdown.timeLeft := by
  unfold Countdown.shorten
  split
  · exact Nat.zero_le _
  · exact Nat.sub_le _ _

theorem timeLeft_tick_le (countdown : Countdown) :
    countdown.tick.2.timeLeft ≤ countdown.timeLeft := by
  unfold Countdown.tick
  split
  · exact timeLeft_shorten_le countdown 1 .ticked
  · exact Nat.le_refl _

theorem timeLeft_judged_lt (before : countdown.timeLeft < bound)
    (initial : settings.initialSecs < bound) (output : Output) :
    (countdown.judged settings output).timeLeft < bound := by
  cases output with
  | text text | silent | clear | connect host | disconnect => exact before
  | flagChecked accepted id =>
      cases accepted with
      | true =>
          simp only [Countdown.judged, Countdown.rightFlag]
          split
          · exact Nat.lt_of_le_of_lt (Nat.zero_le _) before
          · exact before
      | false =>
          simp only [Countdown.judged, Countdown.wrongFlag]
          split
          · exact before
          · split
            · exact Nat.lt_of_le_of_lt (timeLeft_shorten_le countdown _ _) before
            · split
              · exact Nat.lt_of_le_of_lt (Nat.zero_le _) before
              · exact initial

end Bounds

end Countdown

end PuzzleShell
