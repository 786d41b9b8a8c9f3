import PuzzleShell.Proofs.Tree.Provenance
import PuzzleShell.World

/-!
# What reading asks for

Rendering a content asks for the texts that it refers to, from left to right and each of them as
often as it is referred to, however deep in archives the references are.  The first text that there
is none for ends it.  Reading a file asks for the same, once it is settled that the user may read
the file, and for nothing before.
-/

namespace PuzzleShell

namespace Inquiry

/--
Whether an inquiry asks for some texts in turn and for nothing else: for all of them if there are
all of them, and otherwise up to the first that there is none for, whose fault it ends in.
-/
inductive AsksInTurn {α : Type} (oracle : ContentOracle) : List String → Inquiry α → Prop where
  | answered {ids : List String} {value : α}
      (known : ∀ id ∈ ids, ∃ text, oracle id = .ok text) :
      AsksInTurn oracle ids ⟨ids, .ok value⟩
  | refused {before after : List String} {id : String} {fault : Fault}
      (known : ∀ other ∈ before, ∃ text, oracle other = .ok text)
      (unknown : oracle id = .error fault) :
      AsksInTurn oracle (before ++ id :: after) ⟨before ++ [id], .error fault⟩

variable {α β : Type} {oracle : ContentOracle} {ids more : List String} {inquiry : Inquiry α}

theorem asksInTurn_pure (oracle : ContentOracle) (value : α) :
    AsksInTurn oracle [] (pure value : Inquiry α) :=
  .answered (List.forall_mem_nil _)

theorem asksInTurn_ask (oracle : ContentOracle) (id : String) :
    AsksInTurn oracle [id] (ask oracle id) := by
  rw [ask]
  cases answer : oracle id with
  | ok text => exact .answered (List.forall_mem_singleton.2 ⟨text, answer⟩)
  | error fault => exact .refused (List.forall_mem_nil _) answer

/-- What is gone on with asks for its own texts after those that were asked for before. -/
theorem AsksInTurn.bind {next : α → Inquiry β} (first : AsksInTurn oracle ids inquiry)
    (step : ∀ value, AsksInTurn oracle more (next value)) :
    AsksInTurn oracle (ids ++ more) (inquiry >>= next) := by
  change AsksInTurn oracle (ids ++ more) (inquiry.andThen next)
  cases first with
  | @answered _ value known =>
      have later := step value
      rw [andThen_ok rfl]
      generalize next value = inquiry at later ⊢
      cases later with
      | answered knownToo => exact .answered (List.forall_mem_append.2 ⟨known, knownToo⟩)
      | refused knownToo unknown =>
          rw [← List.append_assoc, ← List.append_assoc]
          exact .refused (List.forall_mem_append.2 ⟨known, knownToo⟩) unknown
  | refused known unknown =>
      rw [andThen_error rfl, List.append_assoc, List.cons_append]
      exact .refused known unknown

/-- Making something else of the answer asks for nothing more. -/
theorem AsksInTurn.map (first : AsksInTurn oracle ids inquiry) (make : α → β) :
    AsksInTurn oracle ids (inquiry >>= fun value => pure (make value)) := by
  have whole := first.bind fun value => asksInTurn_pure oracle (make value)
  rwa [List.append_nil] at whole

end Inquiry

namespace Content

open Inquiry

mutual

/-- Rendering asks for what a content refers to. -/
theorem asksInTurn_render (oracle : ContentOracle) :
    (content : Content) → AsksInTurn oracle content.references (content.render oracle)
  | .inline text => by
      rw [references, render]
      exact asksInTurn_pure oracle text
  | .secure id => by
      rw [references, render]
      exact asksInTurn_ask oracle id
  | .encoded id => by
      rw [references, render]
      exact (asksInTurn_ask oracle id).map Text.Base64.encode
  | .archive entries => by
      rw [references, render]
      exact (asksInTurn_renderEntries oracle entries).map (Archive.magic ++ ·)

theorem asksInTurn_renderEntries (oracle : ContentOracle) :
    (entries : List (String × Content)) →
      AsksInTurn oracle (entryReferences entries) (renderEntries oracle entries)
  | [] => by
      rw [entryReferences, renderEntries]
      exact asksInTurn_pure oracle ""
  | (name, content) :: rest => by
      rw [entryReferences, renderEntries]
      refine (asksInTurn_render oracle content).bind fun body => ?_
      exact (asksInTurn_renderEntries oracle rest).map
        ("\n" ++ Archive.headerMark ++ name ++ "\n" ++ body ++ ·)

end

end Content

namespace Tree

variable {tree : Tree} {path user : String} {oracle : ContentOracle}

/-- A file that may be read is read by rendering what it holds. -/
theorem read_of_content {content : Content} (found : tree.content path user = .ok content) :
    tree.read path user oracle = content.render oracle := by
  unfold read
  rw [found]
  exact Inquiry.andThen_ok rfl _

/-- What may not be read is asked for nothing. -/
theorem read_of_error {fault : Fault} (refused : tree.content path user = .error fault) :
    tree.read path user oracle = ⟨[], .error fault⟩ := by
  unfold read
  rw [refused]
  exact Inquiry.andThen_error rfl _

end Tree

/--
Rendering asks for the texts that a content refers to, from left to right, up to the first that
there is none for.  A file that the user may read is read by rendering it; where there is no such
file, reading ends in a fault and nothing is asked.
-/
theorem Content.asks_in_turn (oracle : ContentOracle) :
    (∀ content : Content,
      Inquiry.AsksInTurn oracle content.references (content.render oracle)) ∧
    ∀ (tree : Tree) (path user : String),
      (∀ file, tree.lookup path = .ok (.file file) → file.access.permits user .read = true →
        tree.read path user oracle = file.content.render oracle) ∧
      ((∀ file, tree.lookup path = .ok (.file file) →
          file.access.permits user .read = false) →
        ∃ fault, tree.read path user oracle = ⟨[], .error fault⟩) := by
  refine ⟨asksInTurn_render oracle, fun tree path user => ⟨fun file looked permitted => ?_,
    fun forbidden => ?_⟩⟩
  · exact Tree.read_of_content (Tree.content_eq_ok_iff.2 ⟨file, looked, permitted, rfl⟩)
  · cases found : tree.content path user with
    | error fault => exact ⟨fault, Tree.read_of_error found⟩
    | ok content =>
        obtain ⟨file, looked, permitted, -⟩ := Tree.content_eq_ok_iff.1 found
        rw [forbidden file looked] at permitted
        cases permitted

/-- An archive in an archive, of which the third text is unknown: its owner is told so when two
others have been asked for, and anyone else learns nothing. -/
theorem Content.asks_in_turn_nestedArchive :
    let oracle : ContentOracle := fun id => if id = "c" then .error (.notFound id) else .ok id
    let file : File := ⟨.ownedBy World.privateFile "operator",
      .archive [("key", .secure "a"), ("box", .archive [("note", .inline "n"),
        ("key.b64", .encoded "b"), ("seal", .secure "c")]), ("flag", .secure "d")], none⟩
    let tree : Tree := ⟨.directory (.ownedBy .newDirectory rootUser) [("box", .file file)]⟩
    file.content.references = ["a", "b", "c", "d"] ∧
      tree.lookup "/box" = .ok (.file file) ∧ file.access.permits "operator" .read = true ∧
      Inquiry.AsksInTurn oracle file.content.references (tree.read "/box" "operator" oracle) ∧
      (tree.read "/box" "operator" oracle).asked = ["a", "b", "c"] ∧
      file.access.permits "guest" .read = false ∧
      ∃ fault, tree.read "/box" "guest" oracle = ⟨[], .error fault⟩ := by
  intro oracle file tree
  have looked : tree.lookup "/box" = .ok (.file file) := by rfl
  have mayRead : file.access.permits "operator" .read = true := by decide
  have mayNot : file.access.permits "guest" .read = false := by decide
  obtain ⟨rendered, opened⟩ := asks_in_turn oracle
  obtain ⟨asItIs, -⟩ := opened tree "/box" "operator"
  obtain ⟨-, shut⟩ := opened tree "/box" "guest"
  refine ⟨by decide, looked, mayRead, ?_, by rfl, mayNot, shut fun other found => ?_⟩
  · rw [asItIs file looked mayRead]
    exact rendered file.content
  · rw [looked] at found
    cases found
    exact mayNot

end PuzzleShell
