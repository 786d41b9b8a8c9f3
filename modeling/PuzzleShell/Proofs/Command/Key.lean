import Mathlib.Data.List.TakeWhile
import PuzzleShell.Proofs.Command.Origin

/-!
# The key to the deep layer

Of all that can be typed only one thing leads to the deep layer: connecting to its host with a file
that the player may read and that holds protected content with the marker of a key in its text.
-/

namespace PuzzleShell

namespace Options

variable {option value : String} {words operands : List String}

theorem not_mem_of_withValue (found : withValue option words = some (operands, none)) :
    option ∉ words := by
  fun_induction withValue option words generalizing operands with
  | case1 => exact List.not_mem_nil
  | case2 => cases found
  | case3 value others ih =>
      obtain ⟨inner, -, same⟩ := Option.map_eq_some_iff.1 found
      have given := (Prod.mk.inj same).2
      cases last : inner.2 <;> rw [last] at given <;> cases given
  | case4 word rest different ih =>
      obtain ⟨⟨inner, given⟩, known, same⟩ := Option.map_eq_some_iff.1 found
      obtain ⟨-, rfl⟩ := Prod.mk.inj same
      exact List.not_mem_cons_of_ne_of_not_mem (Ne.symm different) (ih known)

/-- The value of an option is the last one that the words give for it. -/
theorem exists_of_withValue (found : withValue option words = some (operands, some value)) :
    ∃ front back, words = front ++ option :: value :: back ∧ option ∉ back := by
  fun_induction withValue option words generalizing operands value with
  | case1 => cases found
  | case2 => cases found
  | case3 first others ih =>
      obtain ⟨⟨inner, last⟩, known, same⟩ := Option.map_eq_some_iff.1 found
      have given := (Prod.mk.inj same).2
      cases last with
      | none =>
          cases given
          exact ⟨[], others, rfl, not_mem_of_withValue known⟩
      | some later =>
          cases given
          obtain ⟨front, back, rfl, none⟩ := ih known
          exact ⟨option :: first :: front, back, rfl, none⟩
  | case4 word rest different ih =>
      obtain ⟨⟨inner, given⟩, known, same⟩ := Option.map_eq_some_iff.1 found
      obtain ⟨-, rfl⟩ := Prod.mk.inj same
      obtain ⟨front, back, rfl, none⟩ := ih known
      exact ⟨word :: front, back, rfl, none⟩

end Options

namespace Command

theorem occursIn_iff {part text : List Char} : occursIn part text = true ↔ part <:+: text := by
  induction text with
  | nil => simp [occursIn]
  | cons c rest ih => simp [occursIn, ih, List.infix_cons_iff]

/-- A target is a host, or a user and a host with the first `@` between them. -/
theorem target_cases {actingUser target host : String}
    (same : (splitTarget actingUser target).2 = host) :
    '@' ∉ target.toList ∧ target = host ∨
      ∃ user : String, '@' ∉ user.toList ∧ target = user ++ "@" ++ host := by
  unfold splitTarget at same
  split at same
  next none =>
    refine Or.inl ⟨fun member => ?_, same⟩
    simpa using List.dropWhile_eq_nil_iff.1 none '@' member
  next c rest cut =>
    subst same
    have mark : c = '@' := by
      have stopped := List.head?_dropWhile_not (fun c => decide (c ≠ '@')) target.toList
      rw [cut] at stopped
      simpa using stopped
    refine Or.inr ⟨String.ofList (target.toList.takeWhile (· ≠ '@')), ?_, ?_⟩
    · intro member
      rw [String.toList_ofList] at member
      simpa using List.mem_takeWhile_imp member
    · apply String.toList_injective
      have whole := List.takeWhile_append_dropWhile (p := (· ≠ '@')) (l := target.toList)
      rw [cut, mark] at whole
      simpa using whole.symm

/-- Words for a connection to the deep layer's host, with a file that holds the key to it. -/
inductive ShowsKey (backend : Backend) (turn : Turn) (words : List String) : Prop where
  | intro {operands : List String} {identity target id text : String} {file : File}
      (options : Options.withValue "-i" words = some (operands, some identity))
      (given : ∃ front back, words = front ++ "-i" :: identity :: back ∧ "-i" ∉ back)
      (last : operands.getLast? = some target)
      (host : '@' ∉ target.toList ∧ target = backend.config.layer.host ∨
        ∃ user : String, '@' ∉ user.toList ∧ target = user ++ "@" ++ backend.config.layer.host)
      (found : turn.tree.lookup (turn.path identity) = .ok (.file file))
      (readable : file.access.permits turn.session.user .read = true)
      (protect : file.content = .secure id)
      (told : backend.content id = .ok text)
      (marked : backend.config.layer.keyMarker.toList <:+: text.toList)

theorem ShowsKey.of_withStreak {backend : Backend} {turn : Turn} {words : List String}
    {streak : Nat} (shows : ShowsKey backend (Registry.withStreak turn streak) words) :
    ShowsKey backend turn words := by
  obtain ⟨options, given, last, host, found, readable, protect, told, marked⟩ := shows
  exact ⟨options, given, last, host, found, readable, protect, told, marked⟩

/-- Only protected content opens the gate, and only if the text that it stands for is marked. -/
theorem opensGate_eq_true {backend : Backend} {content : Content}
    (opens : (opensGate backend content).outcome = .ok true) :
    ∃ id text, content = .secure id ∧ backend.content id = .ok text ∧
      backend.config.layer.keyMarker.toList <:+: text.toList := by
  cases content with
  | secure id =>
      simp only [opensGate, bind, Inquiry.andThen, Inquiry.ask] at opens
      cases told : backend.content id with
      | error fault =>
          rw [told] at opens
          cases opens
      | ok text =>
          rw [told] at opens
          exact ⟨id, text, rfl, told, occursIn_iff.1 (Except.ok.inj opens)⟩
  | inline text | encoded id | archive entries => cases opens

open PuzzleShell.Action in
/-- A connection is only made with the key, and only to the deep layer's host. -/
theorem showsKey_of_ssh {backend : Backend} {words : List String} {turn : Turn} {host : String}
    (connects : ((ssh.run backend words).run.run turn).1 = .ok (.connect host)) :
    ShowsKey backend turn words := by
  unfold ssh at connects
  dsimp only at connects
  rcases options : Options.withValue "-i" words with _ | ⟨operands, identity⟩
  · rw [options] at connects
    cases connects
  rcases last : operands.getLast? with _ | target
  · simp only [options, last] at connects
    cases connects
  simp only [options, last, run_bind, run_user] at connects
  by_cases refused : (splitTarget turn.session.user target).2 ≠ backend.config.layer.host
  · rw [if_pos refused] at connects
    cases connects
  rw [if_neg refused] at connects
  cases identity with
  | none => cases connects
  | some identity =>
      simp only [run_bind, run_resolve, run_get, run_ofExcept] at connects
      rcases held : turn.tree.content (Path.resolve identity turn.session.cwd)
        turn.session.user with fault | content
      · rw [held] at connects
        cases connects
      simp only [held, ended, run_inquire] at connects
      rcases opens : (opensGate backend content).outcome with fault | answer
      · rw [opens] at connects
        cases connects
      cases answer with
      | false =>
          rw [opens] at connects
          cases connects
      | true =>
          obtain ⟨id, text, rfl, told, marked⟩ := opensGate_eq_true opens
          obtain ⟨file, found, readable, protect⟩ := Tree.content_eq_ok_iff.1 held
          exact ⟨options, Options.exists_of_withValue options, last,
            target_cases (not_not.1 refused), found, readable, protect, told, marked⟩

end Command

namespace Registry

open Command

variable {layer : Layer} {backend : Backend} {line host : String} {turn : Turn}

/-- No tool and no other command leads to the deep layer, whatever is typed. -/
theorem showsKey_of_submit
    (connects : ((ofLayer layer).submit backend line turn).1 = .connect host) :
    turn.tool = none ∧ ∃ name words,
      (ofLayer layer).Means line name ssh words ∧ ShowsKey backend turn words := by
  unfold submit at connects
  cases idle : turn.tool with
  | some tool =>
      rw [idle] at connects
      have shown := (Tool.keeps_advance backend line tool turn { turn with tool := none }
        ⟨rfl, rfl⟩).2 _ (run_eq_ok_of_perform_eq connects)
      rcases shown with silent | ⟨text, told⟩
      · cases silent
      · cases told
  | none =>
      rw [idle] at connects
      dsimp only at connects
      have done := dispatched (ofLayer layer) backend line turn
      generalize (ofLayer layer).dispatch backend line turn = result at done connects
      cases done with
      | idle streak stays => exact absurd connects (stays host)
      | @command name command words means =>
          have answered := run_eq_ok_of_perform_eq connects
          rcases acts_of_find? means.found with rfl | acts
          · exact ⟨rfl, name, words, means, (showsKey_of_ssh answered).of_withStreak⟩
          · exact absurd rfl ((acts backend words _).2 _ answered host)

end Registry

end PuzzleShell
