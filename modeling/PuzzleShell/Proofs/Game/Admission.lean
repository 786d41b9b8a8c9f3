import Mathlib.Data.List.Induction
import Mathlib.Logic.Relation
import PuzzleShell.Proofs.Command.Key
import PuzzleShell.Proofs.Game.Punctual
import PuzzleShell.Terminal

/-!
# The way into the deep layer

An entrance to the deep layer is only ever set by a line that shows the key, so every entrance that
is pending goes back to such a line.  And a player in the deep layer came there through an entrance
that fell due.
-/

namespace PuzzleShell.Game

variable {σ : Type} {config : Config} {game next : Game σ} {target : Nat}
  {entry : Pending GameEvent}

def entrance (config : Config) (game : Game σ) : Pending GameEvent :=
  ⟨game.timers.nextId, later game.timers.now config.layer.connectDelayMs, .enterDeep⟩

theorem not_deep_of_begun (begun : game.Begun config) : game.session.layer ≠ .deep := by
  rw [begun.layer]
  exact Layer.noConfusion

/-- In a game at its beginning no entrance is pending. -/
theorem Begun.event_ne (begun : game.Begun config) (member : entry ∈ game.timers.pending) :
    entry.event ≠ .enterDeep := by
  rw [(begun.pending entry member).event]
  exact GameEvent.noConfusion

variable [Store σ]

/-- A line that is processed as a command and shows the key. -/
inductive OpensGate (backend : Backend) (game : Game σ) (line : String) : Prop where
  | intro {name : String} {words : List String}
      (processed : (game.submit backend line).accepted = true) (idle : game.tool = none)
      (outside : game.session.layer = .standard)
      (means : (Registry.ofLayer .standard).Means line name Command.ssh words)
      (shows : Command.ShowsKey backend game.turn words)

/-- Only a line that opens the gate is answered by a connection. -/
theorem opensGate_of_connect {backend : Backend} {line host : String}
    (disciplined : game.machines.Disciplined) (enabled : game.inputEnabled = true)
    (connects : (game.typed backend line).1 = .connect host) : game.OpensGate backend line := by
  have within : Turn.Within game.session.layer game.turn := ⟨rfl, tool_eq_none disciplined⟩
  have fits := (Registry.fits_submit backend line within).2
  rw [← typed, connects] at fits
  have outside : game.session.layer = .standard := fits
  obtain ⟨idle, name, words, means, shows⟩ := Registry.showsKey_of_submit connects
  rw [outside] at means
  refine ⟨?_, idle, outside, means, shows⟩
  rw [submit, if_pos enabled]

/-- Nothing that fires sets an entrance. -/
theorem mem_pending_of_fire {event : GameEvent} (entering : entry.event = .enterDeep)
    (member : entry ∈ (game.fire config event).timers.pending) : entry ∈ game.timers.pending := by
  cases event with
  | phaseOver =>
      simp only [fire] at member
      split at member
      next phase collapse _ =>
        rcases (sets_enterPhase config { game with collapse := collapse } phase).pending entry
          member with before | set
        · exact before
        · rw [set.event] at entering
          cases entering
      · exact member
  | second =>
      rcases (sets_fire_second config .normal game).pending entry member with before | set
      · exact before
      · rw [set.event] at entering
        cases entering
  | enterDeep | leaveDeep => exact member

/-- Nothing else that fires leads into the deep layer. -/
theorem outside_fire_of_ne {event : GameEvent} (outside : game.session.layer = .standard)
    (different : event ≠ .enterDeep) :
    (game.fire config event).session.layer = .standard := by
  cases event with
  | phaseOver =>
      simp only [fire]
      split
      · rw [session_enterPhase]
        split <;> exact outside
      · exact outside
  | second =>
      rw [(sets_fire_second config .normal game).session]
      exact outside
  | enterDeep => exact absurd rfl different
  | leaveDeep =>
      simp only [fire, say, Session.leaveDeep]
      split
      · exact outside
      · rfl

theorem mem_pending_of_step? (entering : entry.event = .enterDeep)
    (stepped : game.step? config target = some next) (member : entry ∈ next.timers.pending) :
    entry ∈ game.timers.pending := by
  obtain ⟨popped, timers, taken, rfl⟩ := step?_eq_some_iff.1 stepped
  exact (Timers.mem_of_pop? taken).2 (mem_pending_of_fire entering member)

theorem mem_pending_of_tick {elapsed : Nat} (entering : entry.event = .enterDeep)
    (member : entry ∈ (game.tick config elapsed).timers.pending) :
    entry ∈ game.timers.pending :=
  @runDue_preserves σ game _ config (later game.timers.now elapsed)
    (fun after => entry ∈ after.timers.pending → entry ∈ game.timers.pending)
    (fun _ _ stepped earlier later => earlier (mem_pending_of_step? entering stepped later)) id
    member

/-- Timers that fire one after another, each the first that is due up to a time. -/
abbrev Passes (config : Config) (target : Nat) : Game σ → Game σ → Prop :=
  Relation.ReflTransGen fun game next => game.step? config target = some next

/-- While time passes, an entrance falls due and leads from the standard layer into the deep one. -/
inductive Enters (config : Config) (target : Nat) (game : Game σ) (entry : Pending GameEvent) :
    Prop where
  | intro {dusk dawn : Game σ} {timers : Timers GameEvent} (passes : Passes config target game dusk)
      (outside : dusk.session.layer = .standard)
      (popped : dusk.timers.pop? target = some (entry, timers))
      (fired : { dusk with timers := timers }.fire config entry.event = dawn)
      (inside : dawn.session.layer = .deep) (moment : dawn.timers.now = entry.due)

/-- Whoever gets into the deep layer while time passes comes through an entrance. -/
theorem exists_enters (punctual : game.Punctual config) (disciplined : game.machines.Disciplined)
    (outside : game.session.layer = .standard)
    (inside : (game.runDue config target).session.layer = .deep) :
    ∃ entry ∈ game.timers.pending, entry.event = .enterDeep ∧ game.Enters config target entry := by
  fun_induction runDue config target game with
  | case1 game finished =>
      rw [outside] at inside
      cases inside
  | case2 game next stepped ih =>
      cases layer : next.session.layer with
      | standard =>
          obtain ⟨entry, member, entering, passes, dusk, popped, fired, dawn, moment⟩ :=
            ih (punctual.step? disciplined.tidy stepped)
              (disciplined_step? disciplined stepped) layer inside
          exact ⟨entry, mem_pending_of_step? entering stepped member, entering,
            .intro (passes.head stepped) dusk popped fired dawn moment⟩
      | deep =>
          obtain ⟨entry, timers, popped, rfl⟩ := step?_eq_some_iff.1 stepped
          have entering : entry.event = .enterDeep := by
            by_contra different
            rw [@outside_fire_of_ne σ config { game with timers := timers } _ _ outside
              different] at layer
            cases layer
          have moment := (punctual.pop? disciplined.wellFormed popped).2
          exact ⟨entry, (Timers.mem_of_pop? popped).1, entering,
            .intro .refl outside popped rfl layer ((now_fire config _ _).trans moment)⟩

/-- A line stays in its layer, whatever it asks for. -/
theorem layer_submit (backend : Backend) (line : String)
    (disciplined : game.machines.Disciplined) :
    (game.submit backend line).game.session.layer = game.session.layer := by
  by_cases enabled : game.inputEnabled = true
  · obtain ⟨shown, sets⟩ := exists_sets_submit backend line .normal enabled
    have within : Turn.Within game.session.layer game.turn := ⟨rfl, tool_eq_none disciplined⟩
    have stays := (Registry.fits_submit backend line within).1.1
    rw [sets.session, worked]
    unfold withTree
    split <;> exact stays
  · rw [submit, if_neg enabled]

theorem exists_connect_of_switch? {output : Output} (asked : output.switch? = some .enterDeep) :
    ∃ host, output = .connect host := by
  cases output with
  | connect host => exact ⟨host, rfl⟩
  | text _ | silent | clear | disconnect | flagChecked _ _ => cases asked

/-- A line sets an entrance only if it opens the gate. -/
theorem entrance_of_submit {backend : Backend} {line : String}
    (disciplined : game.machines.Disciplined) (entering : entry.event = .enterDeep)
    (member : entry ∈ (game.submit backend line).game.timers.pending) :
    entry ∈ game.timers.pending ∨
      game.OpensGate backend line ∧ entry = game.entrance backend.config := by
  by_cases enabled : game.inputEnabled = true
  · obtain ⟨shown, sets⟩ := exists_sets_submit backend line .normal enabled
    rcases sets.pending entry member with before | answered | failed
    · rw [timers_worked] at before
      exact Or.inl before
    · cases answered with
      | second set =>
          rw [set.event] at entering
          cases entering
      | switch asked =>
          subst entering
          obtain ⟨host, connects⟩ := exists_connect_of_switch? asked
          exact Or.inr ⟨opensGate_of_connect disciplined enabled connects, rfl⟩
    · rw [failed.event] at entering
      cases entering
  · rw [submit, if_neg enabled] at member
    exact Or.inl member

/-- An entrance that is pending was pending before, or a line has just opened the gate. -/
theorem entrance_of_call {backend : Backend} {call : Call}
    (disciplined : game.machines.Disciplined) (entering : entry.event = .enterDeep)
    (member : entry ∈ (game.call backend call).timers.pending) :
    entry ∈ game.timers.pending ∧ call ≠ .reset ∨
      ∃ line, call = .submit line ∧ game.OpensGate backend line ∧
        entry = game.entrance backend.config := by
  cases call with
  | submit line =>
      rcases entrance_of_submit disciplined entering member with before | ⟨opens, set⟩
      · exact Or.inl ⟨before, Call.noConfusion⟩
      · exact Or.inr ⟨line, rfl, opens, set⟩
  | tick elapsed => exact Or.inl ⟨mem_pending_of_tick entering member, Call.noConfusion⟩
  | reset => exact absurd entering ((begun_reset backend.config game).event_ne member)

/-- A player in the deep layer was there before, or time has just led them there. -/
theorem inside_of_call {backend : Backend} {call : Call}
    (punctual : game.Punctual backend.config) (disciplined : game.machines.Disciplined)
    (inside : (game.call backend call).session.layer = .deep) :
    game.session.layer = .deep ∧ call ≠ .reset ∨
      ∃ elapsed, call = .tick elapsed ∧ ∃ entry ∈ game.timers.pending,
        entry.event = .enterDeep ∧
          game.Enters backend.config (later game.timers.now elapsed) entry := by
  cases call with
  | submit line =>
      have same : (game.call backend (.submit line)).session.layer = game.session.layer :=
        layer_submit backend line disciplined
      exact Or.inl ⟨same ▸ inside, Call.noConfusion⟩
  | tick elapsed =>
      cases layer : game.session.layer with
      | deep => exact Or.inl ⟨rfl, Call.noConfusion⟩
      | standard => exact Or.inr ⟨elapsed, rfl, exists_enters punctual disciplined layer inside⟩
  | reset => exact absurd inside (not_deep_of_begun (begun_reset backend.config game))

/-- Calls in which a line opened the gate and set an entrance, and after which none started over. -/
inductive Knocked (backend : Backend) (game : Game σ) (entry : Pending GameEvent)
    (calls : List Call) : Prop where
  | intro {before waiting : List Call} {line : String}
      (made : calls = before ++ .submit line :: waiting) (onwards : Call.reset ∉ waiting)
      (opens : (game.play backend before).OpensGate backend line)
      (set : entry = (game.play backend before).entrance backend.config)

/--
Calls that led into the deep layer.  A line opened the gate; the entrance that it set fell due
during a later tick, at its time, and led into the deep layer; and there the player has stayed.
-/
inductive Admitted (backend : Backend) (game : Game σ) (calls : List Call) : Prop where
  | intro {before waiting after : List Call} {line : String} {elapsed : Nat}
      (made : calls = before ++ .submit line :: waiting ++ .tick elapsed :: after)
      (waits : Call.reset ∉ waiting) (onwards : Call.reset ∉ after)
      (opens : (game.play backend before).OpensGate backend line)
      (enters : Enters backend.config
        (later (game.play backend (before ++ .submit line :: waiting)).timers.now elapsed)
        (game.play backend (before ++ .submit line :: waiting))
        ((game.play backend before).entrance backend.config))
      (stays : ∀ part, part <+: after →
        (game.play backend
          (before ++ .submit line :: waiting ++ .tick elapsed :: part)).session.layer = .deep)

section History

variable {backend : Backend} {calls : List Call} {call : Call}

theorem play_concat (backend : Backend) (calls : List Call) (call : Call) (game : Game σ) :
    game.play backend (calls ++ [call]) = (game.play backend calls).call backend call :=
  List.foldl_concat _ _ _ _

theorem not_mem_concat (different : call ≠ .reset) (none : Call.reset ∉ calls) :
    Call.reset ∉ calls ++ [call] := by
  rw [List.mem_append, List.mem_singleton]
  rintro (earlier | last)
  · exact none earlier
  · exact different last.symm

theorem Knocked.concat (knocked : game.Knocked backend entry calls) (different : call ≠ .reset) :
    game.Knocked backend entry (calls ++ [call]) := by
  obtain ⟨rfl, onwards, opens, set⟩ := knocked
  refine ⟨?_, not_mem_concat different onwards, opens, set⟩
  rw [List.append_assoc, List.cons_append]

theorem Admitted.concat (admitted : game.Admitted backend calls) (different : call ≠ .reset)
    (inside : (game.play backend (calls ++ [call])).session.layer = .deep) :
    game.Admitted backend (calls ++ [call]) := by
  obtain ⟨rfl, waits, onwards, opens, enters, stays⟩ := admitted
  rw [List.append_assoc _ (_ :: _), List.cons_append] at inside ⊢
  refine ⟨rfl, waits, not_mem_concat different onwards, opens, enters, fun part under => ?_⟩
  rcases List.prefix_concat_iff.1 under with rfl | earlier
  · exact inside
  · exact stays part earlier

/-- Every entrance that is pending goes back to a line that opened the gate. -/
theorem knocked_of_pending (begun : game.Begun backend.config)
    (disciplined : ∀ calls, (game.play backend calls).machines.Disciplined) (calls : List Call)
    (member : entry ∈ (game.play backend calls).timers.pending)
    (entering : entry.event = .enterDeep) : game.Knocked backend entry calls := by
  induction calls using List.reverseRecOn with
  | nil => exact absurd entering (begun.event_ne member)
  | append_singleton calls call ih =>
      rw [play_concat] at member
      rcases entrance_of_call (disciplined calls) entering member with
        ⟨before, different⟩ | ⟨line, rfl, opens, set⟩
      · exact (ih before).concat different
      · exact ⟨rfl, List.not_mem_nil, opens, set⟩

/-- Whoever is in the deep layer was admitted there. -/
theorem admitted_of_inside (begun : game.Begun backend.config)
    (kept : ∀ calls, (game.play backend calls).machines.Disciplined ∧
      (game.play backend calls).Punctual backend.config) (calls : List Call)
    (inside : (game.play backend calls).session.layer = .deep) :
    game.Admitted backend calls := by
  induction calls using List.reverseRecOn with
  | nil => exact absurd inside (not_deep_of_begun begun)
  | append_singleton calls call ih =>
      have led := inside
      rw [play_concat] at led
      rcases inside_of_call (kept calls).2 (kept calls).1 led with
        ⟨before, different⟩ | ⟨elapsed, rfl, entry, member, entering, enters⟩
      · exact (ih before).concat different inside
      · obtain ⟨rfl, waits, opens, rfl⟩ :=
          knocked_of_pending begun (fun calls => (kept calls).1) calls member entering
        refine ⟨rfl, waits, List.not_mem_nil, opens, enters, fun part under => ?_⟩
        rw [List.prefix_nil.1 under]
        exact inside

end History

/--
The deep layer is entered only with the key.  Whenever the player is in the deep layer, there was a
line since the game was last started over that was processed as a command, and that named the
command for connections with a file to identify with and with the host of the deep layer.  At that
moment the player could read the file, and it held protected content whose text has the marker of a
key in it.  The entrance that this line set is the one through which the player came, when the set
delay after the line was over.
-/
theorem admitted_of_deep {backend : Backend} (valid : backend.config.validate = .ok ())
    (store : σ) :
    ∃ game, start backend.config store = .ok game ∧ ∀ calls,
      (game.play backend calls).session.layer = .deep → game.Admitted backend calls := by
  obtain ⟨game, started, kept⟩ := exists_start_punctual valid store
  exact ⟨game, started, admitted_of_inside (begun_start started).1 kept⟩

/-- The operator unpacks the key, decodes it and connects with it. -/
def wayDown : List Call :=
  [.submit "login", .submit "operator", .submit "Tr0ub4dor&3", .submit "unzip backup.zip -d /tmp",
    .submit "base64 -d /tmp/id_rsa.b64 /tmp/key", .submit "ssh -i /tmp/key root@10.13.37.7",
    .tick 1200]

theorem admitted_of_deep_wayDown :
    (Terminal.backendOf .default).config.validate = .ok () ∧
      ∃ game, start Config.default (⟨[]⟩ : MemoryStore) = .ok game ∧
        (game.play (Terminal.backendOf .default) wayDown).session.layer = .deep ∧
        game.Admitted (Terminal.backendOf .default) wayDown := by
  obtain ⟨game, started, admitted⟩ :=
    @admitted_of_deep MemoryStore _ (Terminal.backendOf .default) rfl ⟨[]⟩
  have computed : (start Config.default (⟨[]⟩ : MemoryStore)).toOption.map
      (fun game => (game.play (Terminal.backendOf .default) wayDown).session.layer) =
        some .deep := by
    decide +kernel
  rw [show start Config.default (⟨[]⟩ : MemoryStore) = .ok game from started] at computed
  have inside := Option.some.inj computed
  exact ⟨rfl, game, started, inside, admitted wayDown inside⟩

end PuzzleShell.Game
