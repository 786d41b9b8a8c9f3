import PuzzleShell.Proofs.Command.Origin
import PuzzleShell.Proofs.Tree.WellFormed

/-!
# Lines keep a turn well formed

A turn is well formed if its working directory is canonical and its tree is well formed.  Every
path that a command works on is a word seen from there, so it is canonical too, and the names that
are unpacked from an archive are valid, be it packed in a file or spelled in a text.
-/

namespace PuzzleShell

/-- A configuration that places the player at canonical paths only. -/
structure Config.Canonical (config : Config) : Prop where
  startPath : Path.Canonical config.shell.startPath
  deepPath : Path.Canonical config.shell.deepPath
  homes : ∀ account ∈ config.accounts, Path.Canonical account.home

theorem Config.Canonical.home {config : Config} {user : String} {account : Account}
    (canonical : config.Canonical) (known : config.account? user = some account) :
    Path.Canonical account.home :=
  canonical.homes account (List.mem_of_find?_eq_some known)

structure Turn.WellFormed (turn : Turn) : Prop where
  cwd : Path.Canonical turn.session.cwd
  tree : turn.tree.WellFormed

theorem Content.IsPlain.wellFormed {content : Content} (plain : content.IsPlain) :
    content.WellFormed := by
  obtain ⟨text, rfl⟩ := plain
  exact .inline text

namespace Archive

/-- The names that the headers of an archive spell have been checked. -/
theorem valid_of_gather? {lines body : List String} {entries : List (String × List String)}
    (gathered : gather? lines = some (body, entries)) : Path.Valid (entries.map (·.1)) := by
  induction lines generalizing body entries with
  | nil =>
      cases gathered
      exact fun name member => (List.not_mem_nil member).elim
  | cons line rest ih =>
      obtain ⟨⟨below, others⟩, found, last⟩ := Option.bind_eq_some_iff.1 gathered
      have valid := ih found
      dsimp only at last
      split at last
      next name _ =>
        split at last
        next named =>
          cases last
          exact List.forall_mem_cons.2 ⟨named, valid⟩
        · cases last
      · cases last
        exact valid

theorem valid_of_parse? {text : String} {entries : List (String × Content)}
    (parsed : parse? text = some entries) : Path.Valid (Roster.names entries) := by
  unfold parse? at parsed
  split at parsed
  · cases parsed
  · split at parsed
    · split at parsed
      next found =>
        cases parsed
        rw [Roster.names, List.map_map]
        exact valid_of_gather? found
      · cases parsed
    · cases parsed

end Archive

namespace Command

variable {backend : Backend} {command : Command} {words : List String} {turn after : Turn}
  {content result : Content}

theorem canonical_homeOf {config : Config} (canonical : config.Canonical) (session : Session) :
    Path.Canonical (homeOf config session) := by
  unfold homeOf
  split
  · exact canonical.deepPath
  · split
    next account known => exact canonical.home known
    · exact Path.canonical_home

theorem wellFormed_step (canonical : backend.config.Canonical) (step : turn.Step backend after)
    (wellFormed : turn.WellFormed) : after.WellFormed := by
  obtain ⟨cwd, tree⟩ := wellFormed
  have path := fun word => Path.canonical_resolve word cwd
  cases step with
  | ask ids => exact ⟨cwd, tree⟩
  | mkdir word => exact ⟨cwd, tree.mkdir (path word)⟩
  | touch word => exact ⟨cwd, tree.touch (path word)⟩
  | write word text => exact ⟨cwd, tree.write (path word) (.inline text)⟩
  | remove word recursive => exact ⟨cwd, tree.remove recursive⟩
  | chmod word spec => exact ⟨cwd, tree.chmod spec⟩
  | enter entered meant =>
      refine ⟨?_, tree⟩
      rcases meant with ⟨word, rfl⟩ | rfl
      · exact path word
      · exact canonical_homeOf canonical turn.session
  | solve judged => exact ⟨cwd, tree⟩
  | install tool => exact ⟨cwd, tree⟩

theorem wellFormed_encodeContent {oracle : ContentOracle}
    (encoded : (encodeContent oracle content).outcome = .ok result) : result.WellFormed := by
  rcases encodeContent_cases encoded with plain | ⟨id, -, rfl⟩
  · exact plain.wellFormed
  · exact fun entries member => (List.not_mem_nil member).elim

theorem wellFormed_decodeContent {oracle : ContentOracle}
    (decoded : (decodeContent oracle content).outcome = .ok result) : result.WellFormed := by
  rcases decodeContent_cases decoded with plain | ⟨id, -, rfl⟩
  · exact plain.wellFormed
  · exact fun entries member => (List.not_mem_nil member).elim

/-- Whatever is unpacked from a well-formed content has a valid name and is well formed itself. -/
theorem wellFormed_archiveEntries? {entries : List (String × Content)}
    (wellFormed : content.WellFormed) (packed : archiveEntries? content = some entries) :
    ∀ entry ∈ entries, Path.isName entry.1 = true ∧ entry.2.WellFormed := by
  have named : Path.Valid (Roster.names entries) →
      ∀ entry ∈ entries, Path.isName entry.1 = true :=
    fun valid entry member => valid entry.1 (List.mem_map_of_mem member)
  intro entry member
  cases content with
  | inline text =>
      exact ⟨named (Archive.valid_of_parse? packed) entry member,
        (Archive.isPlain_of_parse? packed member).wellFormed⟩
  | archive known =>
      cases packed
      exact ⟨named wellFormed.valid entry member, wellFormed.of_mem member⟩
  | secure id => cases packed
  | encoded id => cases packed

theorem wellFormed_extract {directory user : String} {entries : List (String × Content)}
    {tree unpacked : Tree} (canonical : Path.Canonical directory)
    (proper : ∀ entry ∈ entries, Path.isName entry.1 = true ∧ entry.2.WellFormed)
    (extracted : extract directory user entries tree = .ok unpacked)
    (wellFormed : tree.WellFormed) : unpacked.WellFormed := by
  induction entries generalizing tree with
  | nil =>
      cases extracted
      exact wellFormed
  | cons entry rest ih =>
      obtain ⟨name, content⟩ := entry
      obtain ⟨⟨named, packs⟩, others⟩ := List.forall_mem_cons.1 proper
      have written := @Tree.WellFormed.write tree _ user content wellFormed
        (canonical.join named).1 packs
      unfold extract at extracted
      generalize tree.write (Path.join directory name) content user = change at extracted written
      obtain ⟨outcome, between⟩ := change
      cases outcome with
      | error fault => cases extracted
      | ok done => exact ih others extracted written

theorem Effect.wellFormed (effect : Effect backend command words turn after)
    (canonical : backend.config.Canonical) (wellFormed : turn.WellFormed) : after.WellFormed := by
  obtain ⟨cwd, tree⟩ := wellFormed
  have path := fun word => Path.canonical_resolve word cwd
  cases effect with
  | steps steps =>
      induction steps with
      | refl => exact ⟨cwd, tree⟩
      | tail steps step ih => exact wellFormed_step canonical step ih
  | move => exact ⟨cwd, tree.rename (path _) (path _)⟩
  | copy operands => exact ⟨cwd, tree.copy (path _) (path _) _⟩
  | encode held encoded => exact ⟨cwd, tree.write (path _) (wellFormed_encodeContent encoded)⟩
  | decode asksDecode held decoded =>
      exact ⟨cwd, tree.write (path _) (wellFormed_decodeContent decoded)⟩
  | unpack options last held packed extracted =>
      have proper := wellFormed_archiveEntries? (tree.of_content held) packed
      exact ⟨cwd, wellFormed_extract (path _) proper extracted tree⟩

end Command

theorem Tool.Effect.wellFormed {backend : Backend} {line : String} {tool : Tool}
    {turn after : Turn} (effect : tool.Effect backend line turn after)
    (canonical : backend.config.Canonical) (wellFormed : turn.WellFormed) : after.WellFormed := by
  obtain ⟨cwd, tree⟩ := wellFormed
  cases effect with
  | refused failures wrong => exact ⟨cwd, tree⟩
  | named => exact ⟨cwd, tree⟩
  | loggedIn known right =>
      refine ⟨?_, tree⟩
      dsimp only
      split
      · exact canonical.home known
      · exact cwd
  | replied ids => exact ⟨cwd, tree⟩

/-- Whatever is typed, a well-formed turn stays well formed. -/
theorem Registry.Submitted.wellFormed {registry : Registry} {backend : Backend} {line : String}
    {turn after : Turn} (submitted : registry.Submitted backend line turn after)
    (canonical : backend.config.Canonical) (wellFormed : turn.WellFormed) : after.WellFormed := by
  have kept : ∀ tool streak, Turn.WellFormed { withStreak turn streak with tool := tool } :=
    fun _ _ => ⟨wellFormed.cwd, wellFormed.tree⟩
  cases submitted with
  | tool active effect =>
      exact effect.wellFormed canonical (kept none turn.session.unknownStreak)
  | command inactive means effect => exact effect.wellFormed canonical (kept turn.tool 0)
  | idle inactive streak => exact kept turn.tool streak

end PuzzleShell
