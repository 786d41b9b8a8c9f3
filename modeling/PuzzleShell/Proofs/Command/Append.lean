import PuzzleShell.Proofs.Command.Line
import PuzzleShell.Proofs.Content.Render
import PuzzleShell.Proofs.Text.Joining
import PuzzleShell.Proofs.Tree.Overwrite

/-!
# Appending to a file

A line that appends a text to a file of plain text changes nothing in the tree but what that file
holds.  The text comes after a line feed, whatever the file held before.  So what appears is one
line more where the last line had not been closed yet; but in front of the first line that is
appended to an empty file, or to one that ends in a line feed, an empty line appears as well, and a
carriage return at the end of a file is lost.
-/

namespace PuzzleShell

/-- A line that appends one line of text to what a path leads to, typed in a directory. -/
structure Appending (registry : Registry) (cwd path : String) where
  line : String
  name : String
  words : List String
  target : String
  means : registry.Means line name Command.echo (words ++ [">>", target])
  plain : ∀ word ∈ words, Command.isRedirect word = false
  leads : Path.resolve target cwd = path
  single : Text.IsLine (" ".intercalate words)

/-- A file of plain text that a user may read and write. -/
structure Tree.Offers (tree : Tree) (path user : String) (access : Access) (text : String) :
    Prop where
  stands : ∃ size, tree.lookup path = .ok (.file ⟨access, .inline text, size⟩)
  mayRead : access.permits user .read = true
  mayWrite : access.permits user .write = true

theorem Tree.touch_of_missing {tree : Tree} {path parent name user : String}
    {directory : Directory} (cut : Path.split? path = some (parent, name))
    (found : tree.directory parent = .ok directory)
    (permitted : directory.access.permits user .write = true) (missing : tree.has path = false) :
    tree.touch path user =
      (.ok (), tree.changeDirectory parent (·.put name (.newText .newFile user ""))) := by
  rw [touch, carryOut_eq_ok_iff, if_neg (by simp [missing])]
  simp only [bind_eq_ok_iff, require_eq_ok_iff, place_eq_ok_iff]
  exact ⟨(parent, name), cut, directory, found, (), permitted, rfl⟩

namespace Tree.Offers

variable {tree : Tree} {path user text : String} {access : Access}

theorem read (offers : tree.Offers path user access text) (oracle : ContentOracle) :
    tree.read path user oracle = pure text := by
  obtain ⟨size, stands⟩ := offers.stands
  have held : tree.content path user = .ok (.inline text) :=
    content_eq_ok_iff.2 ⟨_, stands, offers.mayRead, rfl⟩
  rw [read_of_content held]
  rfl

theorem write (offers : tree.Offers path user access text) (canonical : Path.Canonical path)
    (rooted : tree.root.isDirectory = true) (content : Content) :
    tree.write path content user = (.ok (), tree.overwrite path content) := by
  obtain ⟨size, stands⟩ := offers.stands
  exact write_of_file canonical rooted stands offers.mayWrite content

theorem overwrite (offers : tree.Offers path user access text) (other : String) :
    (tree.overwrite path (.inline other)).Offers path user access other := by
  obtain ⟨size, stands⟩ := offers.stands
  exact ⟨⟨none, lookup_overwrite stands _⟩, offers.mayRead, offers.mayWrite⟩

theorem has (offers : tree.Offers path user access text) : tree.has path = true := by
  obtain ⟨size, stands⟩ := offers.stands
  rw [Tree.has, stands]

/-- A file that somebody has just created offers them an empty text. -/
theorem of_touch {after : Tree} (canonical : Path.Canonical path) (missing : tree.has path = false)
    (touched : tree.touch path user = (.ok (), after)) :
    after.Offers path user (.ownedBy .newFile user) "" ∧
      after.root.isDirectory = tree.root.isDirectory := by
  rw [touch, carryOut_eq_ok_iff, if_neg (by simp [missing])] at touched
  simp only [bind_eq_ok_iff, require_eq_ok_iff, place_eq_ok_iff] at touched
  obtain ⟨⟨parent, name⟩, cut, directory, found, ⟨⟩, -, ⟨⟩⟩ := touched
  have owner : (Access.ownedBy .newFile user).party user = .owner := if_pos rfl
  have owns (capability : Capability) (granted : Mode.newFile.allows .owner capability = true) :
      (Access.ownedBy .newFile user).permits user capability = true := by
    rw [Access.permits, owner, Access.ownedBy, granted, Bool.or_true]
  refine ⟨⟨⟨none, ?_⟩, owns .read rfl, owns .write rfl⟩, Node.isDirectory_changeAt fun old => ?_⟩
  · exact lookup_eq_ok_iff.2 (at?_put_of_split? canonical cut found _)
  · cases old <;> rfl

end Tree.Offers

namespace Command

variable {backend : Backend} {turn : Turn} {words : List String} {target path old : String}
  {access : Access}

/-- What the words of an appending line do. -/
theorem run_echo_append (plain : ∀ word ∈ words, isRedirect word = false)
    (leads : turn.path target = path) (canonical : Path.Canonical path)
    (rooted : turn.tree.root.isDirectory = true)
    (offers : turn.tree.Offers path turn.session.user access old) :
    (echo.run backend (words ++ [">>", target])).run.run turn =
      (.ok .silent,
        { turn with
          tree := turn.tree.overwrite path (.inline (old ++ "\n" ++ " ".intercalate words)) }) := by
  have before : (words ++ [">>", target]).takeWhile (fun word => !isRedirect word) = words := by
    rw [List.takeWhile_append_of_pos (by simpa using plain)]
    simp [isRedirect]
  have after : (words ++ [">>", target]).dropWhile (fun word => !isRedirect word) =
      [">>", target] := by
    rw [List.dropWhile_append_of_pos (by simpa using plain)]
    rfl
  have resolved : (Action.resolve target).run.run turn = (.ok path, turn) :=
    leads ▸ Action.run_resolve target turn
  have asked : (Action.inquire (turn.tree.read path turn.session.user backend.content)).run.run
      turn = (.ok old, turn) := by
    rw [Action.run_inquire, offers.read]
    change (Except.ok old, { turn with asked := turn.asked ++ [] }) = _
    rw [List.append_nil]
  have written := Action.run_change
    (·.write path (.inline (old ++ "\n" ++ " ".intercalate words)) turn.session.user) turn
  rw [offers.write canonical rooted] at written
  unfold echo
  dsimp only
  rw [before, after]
  dsimp only
  rw [Action.run_bind_of_ok resolved, Action.run_bind_of_ok (Action.run_get turn),
    if_pos ⟨rfl, offers.has⟩, Action.run_bind_of_ok asked, Action.run_bind_of_ok written]
  rfl

/-- What the word of a touching line does. -/
theorem run_touch (turn : Turn) (word : String) :
    (touch.run backend [word]).run.run turn =
      (match (turn.tree.touch (turn.path word) turn.session.user).1 with
        | .ok () => .ok .silent
        | .error fault => .error (.fault fault),
        { turn with tree := (turn.tree.touch (turn.path word) turn.session.user).2 }) := by
  have resolved : (Action.resolve word).run.run turn = (.ok (turn.path word), turn) :=
    Action.run_resolve word turn
  have changed := Action.run_change (·.touch (turn.path word) turn.session.user) turn
  unfold touch
  dsimp only
  rw [if_neg (by simp), Action.run_bind_of_ok (Action.run_user turn), Action.run_bind,
    forEachPath, Action.run_bind_of_ok resolved, Action.run_bind, changed]
  rcases turn.tree.touch (turn.path word) turn.session.user with ⟨fault | _, tree⟩ <;> rfl

end Command

namespace Registry

variable {registry : Registry} {backend : Backend} {line name : String} {command : Command}
  {words : List String} {turn : Turn}

/-- A line that names a command is answered by it. -/
theorem submit_of_means (idle : turn.tool = none) (means : registry.Means line name command words) :
    registry.submit backend line turn =
      perform name (command.run backend words) (withStreak turn 0) := by
  rw [submit, idle]
  dsimp only
  rw [dispatch, means.words]
  dsimp only
  rw [run, if_neg (by simp [means.notHelp]), means.found]

def submitEach (registry : Registry) (backend : Backend) :
    List String → Turn → List Output × Turn
  | [], turn => ([], turn)
  | line :: rest, turn =>
      let (output, between) := registry.submit backend line turn
      let (outputs, after) := submitEach registry backend rest between
      (output :: outputs, after)

theorem submitEach_cons {output : Output} {between : Turn}
    (submitted : registry.submit backend line turn = (output, between)) (rest : List String) :
    registry.submitEach backend (line :: rest) turn =
      (output :: (registry.submitEach backend rest between).1,
        (registry.submitEach backend rest between).2) := by
  rw [submitEach, submitted]

end Registry

def Turn.appended (turn : Turn) (path old : String) (texts : List String) : Turn :=
  { Registry.withStreak turn 0 with
    tree := turn.tree.overwrite path (.inline (Text.joined old texts)) }

namespace Appending

variable {registry : Registry} {backend : Backend} {cwd path old : String} {turn : Turn}
  {access : Access}

def text (appending : Appending registry cwd path) : String :=
  " ".intercalate appending.words

/-- What a line that appends a text does. -/
theorem submit_eq (appending : Appending registry cwd path) (there : turn.session.cwd = cwd)
    (idle : turn.tool = none) (canonical : Path.Canonical cwd)
    (rooted : turn.tree.root.isDirectory = true)
    (offers : turn.tree.Offers path turn.session.user access old) :
    registry.submit backend appending.line turn =
      (.silent, turn.appended path old [appending.text]) := by
  have leads : (Registry.withStreak turn 0).path appending.target = path :=
    (congrArg (Path.resolve appending.target) there).trans appending.leads
  have reached : Path.Canonical path :=
    appending.leads ▸ Path.canonical_resolve appending.target canonical
  rw [Registry.submit_of_means idle appending.means, Registry.perform,
    Command.run_echo_append appending.plain leads reached rooted offers]
  rfl

/-- What lines that append texts to one file do. -/
theorem submitEach_eq {appendings : List (Appending registry cwd path)} (some : appendings ≠ [])
    (there : turn.session.cwd = cwd) (idle : turn.tool = none) (canonical : Path.Canonical cwd)
    (rooted : turn.tree.root.isDirectory = true)
    (offers : turn.tree.Offers path turn.session.user access old) :
    registry.submitEach backend (appendings.map line) turn =
      (List.replicate appendings.length .silent,
        turn.appended path old (appendings.map text)) := by
  induction appendings generalizing turn old with
  | nil => exact absurd rfl some
  | cons first rest ih =>
      have submitted : registry.submit backend first.line turn =
          (.silent, turn.appended path old [first.text]) :=
        first.submit_eq there idle canonical rooted offers
      rw [List.map_cons, Registry.submitEach_cons submitted]
      by_cases last : rest = []
      · subst last
        rfl
      · have onwards := @ih _ (turn.appended path old [first.text]) last there idle
          (Tree.isDirectory_overwrite rooted path _) (offers.overwrite _)
        have whole : (turn.appended path old [first.text]).appended path
            (Text.joined old [first.text]) (rest.map text) =
              turn.appended path old ((first :: rest).map text) := by
          unfold Turn.appended
          dsimp only [Registry.withStreak]
          rw [Tree.overwrite_overwrite]
          rfl
        rw [onwards, whole]
        rfl

end Appending

/-- A touching line is answered by silence just if it comes off. -/
theorem Registry.submit_touch_eq_silent_iff {registry : Registry} {backend : Backend}
    {line name word path : String} {turn created : Turn} (idle : turn.tool = none)
    (means : registry.Means line name Command.touch [word]) (leads : turn.path word = path) :
    registry.submit backend line turn = (.silent, created) ↔
      ∃ tree, turn.tree.touch path turn.session.user = (.ok (), tree) ∧
        created = { withStreak turn 0 with tree := tree } := by
  have target : (withStreak turn 0).path word = path := leads
  rw [submit_of_means idle means, perform, Command.run_touch, target]
  change _ ↔ ∃ tree, (withStreak turn 0).tree.touch path (withStreak turn 0).session.user = _ ∧ _
  rcases (withStreak turn 0).tree.touch path (withStreak turn 0).session.user with
    ⟨fault | done, tree⟩
  · simp
  · simp [eq_comm]

structure Turn.Appended (before : Turn) (path : String) (access : Access) (old : String)
    (texts : List String) (after : Turn) : Prop where
  /-- Nothing in the turn changes but what the file holds and the count of unknown commands. -/
  whole : after = before.appended path old texts
  held : after.tree.lookup path = .ok (.file ⟨access, .inline (Text.joined old texts), none⟩)
  elsewhere : ∀ other, Path.segments other ≠ Path.segments path →
    after.tree.view [] other = before.tree.view [] other
  lines : Text.Joins old texts (Text.lines (Text.joined old texts))
  exact_iff : Text.lines (Text.joined old texts) = Text.lines old ++ texts ↔ Text.EndsOpen old

theorem Turn.appended_of_offers {turn : Turn} {path old : String} {access : Access}
    {texts : List String} (offers : turn.tree.Offers path turn.session.user access old)
    (some : texts ≠ []) (single : ∀ text ∈ texts, Text.IsLine text) :
    turn.Appended path access old texts (turn.appended path old texts) := by
  obtain ⟨size, stands⟩ := offers.stands
  exact ⟨rfl, Tree.lookup_overwrite stands _, fun other elsewhere =>
    Tree.view_overwrite elsewhere turn.tree _, Text.joins_joined some single,
    Text.lines_joined_eq_iff some single⟩

/--
Lines that append texts to a file of plain text, which the player may read and write, are answered
by silence and change nothing but what the file holds.  Its lines are the old ones and then the
texts just if the file ended in an open line.  A file that has just been created does not, so an
empty line comes before the first text that is appended to it.
-/
theorem Registry.appends_lines {registry : Registry} {backend : Backend} {path : String}
    {turn : Turn} (idle : turn.tool = none) (canonical : Path.Canonical turn.session.cwd)
    (rooted : turn.tree.root.isDirectory = true)
    (appendings : List (Appending registry turn.session.cwd path)) :
    (∀ access old, turn.tree.Offers path turn.session.user access old → appendings ≠ [] →
      ∃ after, registry.submitEach backend (appendings.map Appending.line) turn =
          (List.replicate appendings.length .silent, after) ∧
        turn.Appended path access old (appendings.map Appending.text) after) ∧
    ∀ line name word created, registry.Means line name Command.touch [word] →
      turn.path word = path → turn.tree.has path = false →
      registry.submit backend line turn = (.silent, created) →
      ∃ after text size,
        registry.submitEach backend (appendings.map Appending.line) created =
          (List.replicate appendings.length .silent, after) ∧
        after.tree.lookup path =
          .ok (.file ⟨.ownedBy .newFile turn.session.user, .inline text, size⟩) ∧
        Text.lines text = if appendings = [] then [] else "" :: appendings.map Appending.text := by
  have single : ∀ text ∈ appendings.map Appending.text, Text.IsLine text := by
    intro text member
    obtain ⟨appending, -, rfl⟩ := List.mem_map.1 member
    exact appending.single
  constructor
  · intro access old offers some
    exact ⟨_, Appending.submitEach_eq some rfl idle canonical rooted offers,
      Turn.appended_of_offers offers (by simpa using some) single⟩
  · intro line name word created means leads missing touched
    have reached : Path.Canonical path := leads ▸ Path.canonical_resolve word canonical
    obtain ⟨tree, made, rfl⟩ := (submit_touch_eq_silent_iff idle means leads).1 touched
    obtain ⟨offers, shape⟩ := Tree.Offers.of_touch reached missing made
    by_cases nothing : appendings = []
    · subst nothing
      obtain ⟨size, stands⟩ := offers.stands
      exact ⟨_, "", size, rfl, stands, rfl⟩
    · have some : appendings.map Appending.text ≠ [] := by simpa using nothing
      let touched : Turn := { withStreak turn 0 with tree := tree }
      have run : registry.submitEach backend (appendings.map Appending.line) touched =
          (List.replicate appendings.length .silent,
            touched.appended path "" (appendings.map Appending.text)) :=
        Appending.submitEach_eq nothing rfl idle canonical (shape.trans rooted) offers
      have appended : touched.Appended path _ "" (appendings.map Appending.text) _ :=
        Turn.appended_of_offers offers some single
      refine ⟨_, _, none, run, appended.held, ?_⟩
      rw [if_neg nothing, Text.lines_joined some single]
      rfl

/-- Two lines for a file that ends in an open line, and one for a file that is created first. -/
theorem Registry.appends_lines_logAndNote :
    let backend : Backend := ⟨.default, fun _ => .ok "", fun _ => .ok ⟨false, none⟩⟩
    let access : Access := .ownedBy .newFile "guest"
    let log : String × Node := ("log", .file ⟨access, .inline "zero\r\none", none⟩)
    let rooted (entries : List (String × Node)) : Tree :=
      ⟨.directory (.ownedBy .newDirectory "guest") entries⟩
    let turn : Turn := ⟨.start "guest" "/", rooted [log], none, []⟩
    turn.tool = none ∧ Path.Canonical "/" ∧ (rooted [log]).root.isDirectory = true ∧
      (rooted [log]).Offers "/log" "guest" access "zero\r\none" ∧
      (∃ after,
        Registry.standard.submitEach backend ["echo two >> log", "echo 'thr  ee' >> /log"] turn =
          ([.silent, .silent], after) ∧
        turn.Appended "/log" access "zero\r\none" ["two", "thr  ee"] after) ∧
      Registry.standard.Means "touch note" "touch" Command.touch ["note"] ∧
      turn.path "note" = "/note" ∧ (rooted [log]).has "/note" = false ∧
      ∃ created, Registry.standard.submit backend "touch note" turn = (.silent, created) ∧
        ∃ after text size,
          Registry.standard.submitEach backend ["echo 'thr  ee' >> /note"] created =
            ([.silent], after) ∧
          after.tree.lookup "/note" = .ok (.file ⟨access, .inline text, size⟩) ∧
          Text.lines text = ["", "thr  ee"] := by
  intro backend access log rooted turn
  have offers : (rooted [log]).Offers "/log" "guest" access "zero\r\none" :=
    ⟨⟨none, rfl⟩, by decide, by decide⟩
  have root : Path.Canonical "/" := ⟨[], nofun, rfl⟩
  have touching : Registry.standard.Means "touch note" "touch" Command.touch ["note"] :=
    ⟨by rfl, by decide, by rfl⟩
  have leads : turn.path "note" = "/note" := by decide
  have missing : turn.tree.has "/note" = false := by decide
  have cut : Path.split? "/note" = some ("/", "note") := by decide
  have made : turn.tree.touch "/note" "guest" = (.ok (), _) :=
    Tree.touch_of_missing cut rfl (by decide) missing
  let two : Appending .standard "/" "/log" :=
    ⟨"echo two >> log", "echo", ["two"], "log", ⟨by rfl, by decide, by rfl⟩, by decide,
      by decide, by decide⟩
  let three : Appending .standard "/" "/log" :=
    ⟨"echo 'thr  ee' >> /log", "echo", ["thr  ee"], "/log", ⟨by rfl, by decide, by rfl⟩,
      by decide, by decide, by decide⟩
  let note : Appending .standard "/" "/note" :=
    ⟨"echo 'thr  ee' >> /note", "echo", ["thr  ee"], "/note", ⟨by rfl, by decide, by rfl⟩,
      by decide, by decide, by decide⟩
  obtain ⟨appended, -⟩ := @appends_lines .standard backend "/log" turn rfl root
    rfl [two, three]
  obtain ⟨-, created⟩ := @appends_lines .standard backend "/note" turn rfl root
    rfl [note]
  have touched : Registry.standard.submit backend "touch note" turn = (.silent, _) :=
    (submit_touch_eq_silent_iff rfl touching leads).2 ⟨_, made, rfl⟩
  obtain ⟨after, text, size, ran, held, lines⟩ :=
    created "touch note" "touch" "note" _ touching leads missing touched
  exact ⟨rfl, root, rfl, offers, appended access _ offers (by simp), touching, leads, missing, _,
    touched, after, text, size, ran, held, lines.trans (if_neg (List.cons_ne_nil _ _))⟩

/-- Appending a line to an empty file does not leave just that line in it. -/
theorem Registry.not_appends_line :
    ¬ ∀ (registry : Registry) (backend : Backend) (turn : Turn) (path : String) (access : Access)
      (old : String) (appending : Appending registry turn.session.cwd path),
      turn.tool = none → Path.Canonical turn.session.cwd → turn.tree.root.isDirectory = true →
      turn.tree.Offers path turn.session.user access old →
      ∃ output after text size, registry.submit backend appending.line turn = (output, after) ∧
        after.tree.lookup path = .ok (.file ⟨access, .inline text, size⟩) ∧
        Text.lines text = Text.lines old ++ [appending.text] := by
  intro always
  let access : Access := .ownedBy .newFile "guest"
  let tree : Tree :=
    ⟨.directory (.ownedBy .newDirectory "guest") [("log", .file ⟨access, .inline "", none⟩)]⟩
  let turn : Turn := ⟨.start "guest" "/", tree, none, []⟩
  let one : Appending .standard "/" "/log" :=
    ⟨"echo one >> log", "echo", ["one"], "log", ⟨by rfl, by decide, by rfl⟩, by decide,
      by decide, by decide⟩
  have root : Path.Canonical "/" := ⟨[], nofun, rfl⟩
  have offers : turn.tree.Offers "/log" "guest" access "" := ⟨⟨none, rfl⟩, by decide, by decide⟩
  obtain ⟨output, after, text, size, ran, held, lined⟩ :=
    always .standard ⟨.default, fun _ => .ok "", fun _ => .ok ⟨false, none⟩⟩ turn "/log" access ""
      one rfl root rfl offers
  rw [one.submit_eq rfl rfl root rfl offers] at ran
  cases ran
  have appended : turn.Appended "/log" access "" ["one"] _ :=
    Turn.appended_of_offers offers (by simp) (by decide)
  cases appended.held.symm.trans held
  exact absurd lined (by decide)

end PuzzleShell
