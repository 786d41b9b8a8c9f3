import PuzzleShell.Proofs.Command.Line
import PuzzleShell.Proofs.Tree.Provenance

/-!
# Where the contents that a line leaves come from

Whatever a line leaves in a file that was not there before is plain text, or a command that carries
contents has made it from what it found: it was moved or copied, it is the base64 form of protected
content or what such a form stands for, or it was packed in an archive.
-/

namespace PuzzleShell

/-- Text, whatever it spells. -/
def Content.IsPlain (content : Content) : Prop :=
  ∃ text, content = .inline text

/-- What a command that is typed with words makes out of the contents of a tree. -/
inductive Command.Derives (turn : Turn) : Command → List String → Content → Prop where
  | moved {words : List String} {content : Content} {place : List String}
      (held : turn.tree.Holds content place) : Derives turn mv words content
  | copied {words : List String} {content : Content} {place : List String}
      (held : turn.tree.Holds content place) : Derives turn cp words content
  | encoded {source target id : String}
      (held : turn.tree.content (turn.path source) turn.session.user = .ok (.secure id)) :
      Derives turn base64 [source, target] (.encoded id)
  | decoded {option source target id : String} (asksDecode : option = "-d" ∨ option = "--decode")
      (held : turn.tree.content (turn.path source) turn.session.user = .ok (.encoded id)) :
      Derives turn base64 [option, source, target] (.secure id)
  | unpacked {words operands : List String} {directory : Option String} {archive : String}
      {entries : List (String × Content)} {entry : String × Content}
      (options : Options.withValue "-d" words = some (operands, directory))
      (last : operands.getLast? = some archive)
      (held : turn.tree.content (turn.path archive) turn.session.user = .ok (.archive entries))
      (member : entry ∈ entries) : Derives turn unzip words entry.2

/-- What a command may leave in a file. -/
def Command.Leaves (turn : Turn) (command : Command) (words : List String)
    (content : Content) : Prop :=
  content.IsPlain ∨ command.Derives turn words content

/-- An archive that is given as text packs nothing but text. -/
theorem Archive.isPlain_of_parse? {text : String} {entries : List (String × Content)}
    {entry : String × Content} (parsed : parse? text = some entries) (member : entry ∈ entries) :
    entry.2.IsPlain := by
  unfold parse? at parsed
  split at parsed
  · cases parsed
  · split at parsed
    · split at parsed
      · cases parsed
        obtain ⟨line, -, rfl⟩ := List.mem_map.1 member
        exact ⟨_, rfl⟩
      · cases parsed
    · cases parsed

namespace Command

variable {backend : Backend} {command : Command} {words : List String} {turn after : Turn}
  {content result : Content}

/-- Only protected content has a base64 form that is no text. -/
theorem encodeContent_cases {oracle : ContentOracle}
    (encoded : (encodeContent oracle content).outcome = .ok result) :
    result.IsPlain ∨ ∃ id, content = .secure id ∧ result = .encoded id := by
  have asText : ∀ inquiry : Inquiry String,
      (inquiry.andThen fun text => .done (.inline (Text.Base64.encode text))).outcome = .ok result →
        result.IsPlain := by
    intro inquiry made
    unfold Inquiry.andThen at made
    split at made
    · cases made
      exact ⟨_, rfl⟩
    · cases made
  cases content with
  | secure id =>
      cases encoded
      exact Or.inr ⟨id, rfl, rfl⟩
  | inline text => exact Or.inl (asText _ encoded)
  | encoded id => exact Or.inl (asText _ encoded)
  | archive entries => exact Or.inl (asText _ encoded)

/-- Only the base64 form of protected content stands for something that is no text. -/
theorem decodeContent_cases {oracle : ContentOracle}
    (decoded : (decodeContent oracle content).outcome = .ok result) :
    result.IsPlain ∨ ∃ id, content = .encoded id ∧ result = .secure id := by
  have asText : ∀ inquiry : Inquiry String,
      (inquiry.andThen fun text => (Inquiry.ofExcept (decodeText text)).andThen fun decoded =>
        .done (.inline decoded)).outcome = .ok result → result.IsPlain := by
    intro inquiry made
    unfold Inquiry.andThen at made
    split at made
    · dsimp only at made
      split at made
      · cases made
        exact ⟨_, rfl⟩
      · cases made
    · cases made
  cases content with
  | encoded id =>
      cases decoded
      exact Or.inr ⟨id, rfl, rfl⟩
  | inline text => exact Or.inl (asText ((Content.inline text).render oracle) decoded)
  | secure id => exact Or.inl (asText ((Content.secure id).render oracle) decoded)
  | archive entries => exact Or.inl (asText ((Content.archive entries).render oracle) decoded)

/-- Unpacking writes the entries of an archive and nothing else. -/
theorem retains_extract {directory user : String} {entries : List (String × Content)}
    {tree unpacked : Tree} (extracted : extract directory user entries tree = .ok unpacked) :
    tree.Retains (fun content => ∃ entry ∈ entries, entry.2 = content) unpacked := by
  induction entries generalizing tree with
  | nil =>
      cases extracted
      exact .refl _
  | cons entry rest ih =>
      obtain ⟨name, content⟩ := entry
      have written := tree.retains_write (Path.join directory name) content user
      unfold extract at extracted
      generalize tree.write (Path.join directory name) content user = change at extracted written
      obtain ⟨outcome, between⟩ := change
      cases outcome with
      | error fault => cases extracted
      | ok done =>
          refine (written.mono ?_).trans ((ih extracted).mono ?_)
          · rintro fresh rfl
            exact ⟨_, List.mem_cons_self, rfl⟩
          · rintro fresh ⟨entry, member, same⟩
            exact ⟨entry, List.mem_cons_of_mem _ member, same⟩

/-- A step of a command writes nothing but text. -/
theorem retains_step (step : turn.Step backend after) :
    turn.tree.Retains Content.IsPlain after.tree := by
  cases step with
  | ask ids => exact .refl _
  | mkdir word => exact (Tree.retains_mkdir _ _ _).mono fun _ => False.elim
  | touch word => exact (Tree.retains_touch _ _ _).mono fun _ empty => ⟨"", empty⟩
  | write word text => exact (Tree.retains_write _ _ _ _).mono fun _ written => ⟨text, written⟩
  | remove word recursive => exact (Tree.retains_remove _ _ _ _).mono fun _ => False.elim
  | chmod word spec => exact (Tree.retains_chmod _ _ _ _).mono fun _ => False.elim
  | enter entered meant => exact .refl _
  | solve judged => exact .refl _
  | install tool => exact .refl _

theorem retains_steps (steps : turn.Steps backend after) :
    turn.tree.Retains Content.IsPlain after.tree := by
  induction steps with
  | refl => exact .refl _
  | tail steps step ih => exact ih.trans (retains_step step)

/-- The entries of an archive file were packed in it, or else they are text. -/
theorem leaves_unpacked {operands : List String} {directory : Option String} {archive : String}
    {entries : List (String × Content)} {entry : String × Content}
    (options : Options.withValue "-d" words = some (operands, directory))
    (last : operands.getLast? = some archive)
    (held : turn.tree.content (turn.path archive) turn.session.user = .ok content)
    (packed : archiveEntries? content = some entries) (member : entry ∈ entries) :
    unzip.Leaves turn words entry.2 := by
  cases content with
  | inline text => exact Or.inl (Archive.isPlain_of_parse? packed member)
  | archive known =>
      cases packed
      exact Or.inr (.unpacked options last held member)
  | secure id => cases packed
  | encoded id => cases packed

/-- What a command leaves in a file that was not there before. -/
theorem Effect.retains (effect : Effect backend command words turn after) :
    turn.tree.Retains (command.Leaves turn words) after.tree := by
  cases effect with
  | steps steps => exact (retains_steps steps).mono fun _ => Or.inl
  | move =>
      refine (Tree.retains_rename _ _ _ _).mono ?_
      rintro content ⟨place, held⟩
      exact Or.inr (.moved held)
  | copy operands =>
      refine (Tree.retains_copy _ _ _ _ _).mono ?_
      rintro content ⟨place, held⟩
      exact Or.inr (.copied held)
  | encode held encoded =>
      refine (Tree.retains_write _ _ _ _).mono ?_
      rintro content rfl
      rcases encodeContent_cases encoded with plain | ⟨id, rfl, rfl⟩
      · exact Or.inl plain
      · exact Or.inr (.encoded held)
  | decode asksDecode held decoded =>
      refine (Tree.retains_write _ _ _ _).mono ?_
      rintro content rfl
      rcases decodeContent_cases decoded with plain | ⟨id, rfl, rfl⟩
      · exact Or.inl plain
      · exact Or.inr (.decoded asksDecode held)
  | unpack options last held packed extracted =>
      refine (retains_extract extracted).mono ?_
      rintro content ⟨entry, member, rfl⟩
      exact leaves_unpacked options last held packed member

/-- What is made out of the contents of a seeded tree is vouched for by its seed. -/
theorem Derives.vouches {seed : Tree} (derives : command.Derives turn words content)
    (seeds : seed.Seeds turn.tree) : seed.Vouches content := by
  cases derives with
  | moved held => exact seeds.vouches held
  | copied held => exact seeds.vouches held
  | encoded held =>
      exact Tree.Vouches.secure_iff_encoded.1 (seeds.vouches (Tree.holds_of_content held))
  | decoded asksDecode held =>
      exact Tree.Vouches.secure_iff_encoded.2 (seeds.vouches (Tree.holds_of_content held))
  | unpacked options last held member =>
      exact (seeds.vouches (Tree.holds_of_content held)).entry member

/-- The count of unknown commands has nothing to do with the trees. -/
theorem Derives.of_withStreak {streak : Nat}
    (derives : command.Derives (Registry.withStreak turn streak) words content) :
    command.Derives turn words content := by
  cases derives with
  | moved held => exact .moved held
  | copied held => exact .copied held
  | encoded held => exact .encoded held
  | decoded asksDecode held => exact .decoded asksDecode held
  | unpacked options last held member => exact .unpacked options last held member

end Command

namespace Registry

variable {layer : Layer} {backend : Backend} {line : String} {turn : Turn}

/-- What a line may leave in a file: text, or what the command that it names makes out of others. -/
inductive Leaves (registry : Registry) (line : String) (turn : Turn) (content : Content) :
    Prop where
  | plain (plain : content.IsPlain) : Leaves registry line turn content
  | derived {name : String} {command : Command} {words : List String} (idle : turn.tool = none)
      (means : registry.Means line name command words)
      (derives : command.Derives turn words content) : Leaves registry line turn content

/-- What a line leaves in a file that was not there before. -/
theorem retains_submit (layer : Layer) (backend : Backend) (line : String) (turn : Turn) :
    turn.tree.Retains ((ofLayer layer).Leaves line turn)
      ((ofLayer layer).submit backend line turn).2.tree := by
  have submitted := submitted layer backend line turn
  generalize ((ofLayer layer).submit backend line turn).2 = after at submitted ⊢
  cases submitted with
  | tool active effect =>
      rw [effect.tree]
      exact .refl turn.tree
  | command idle means effect =>
      refine effect.retains.mono ?_
      rintro content (plain | derives)
      · exact .plain plain
      · exact .derived idle means derives.of_withStreak
  | idle inactive streak => exact .refl turn.tree

end Registry

end PuzzleShell
