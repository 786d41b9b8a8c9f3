import PuzzleShell.Proofs.Tree.Holdings
import PuzzleShell.Tree.Listing

/-!
# Where references come from

A tree refers to a protected text if one of its files does, be it inside of archives, and it packs
what the archives of its files pack, be it inside of other archives.  A tree is seeded by another
one if it refers to nothing and packs nothing that the other one does not.  Contents that are made
from those of a seeded tree are vouched for by its seed.
-/

namespace PuzzleShell

namespace Content

mutual

/-- The entries of every archive in a content, from the outside to the inside. -/
def archives : Content → List (List (String × Content))
  | .inline _ | .secure _ | .encoded _ => []
  | .archive entries => entries :: entryArchives entries

def entryArchives : List (String × Content) → List (List (String × Content))
  | [] => []
  | (_, content) :: rest => archives content ++ entryArchives rest

end

variable {entry : String × Content} {entries : List (String × Content)}

theorem references_subset_of_mem (member : entry ∈ entries) :
    entry.2.references ⊆ entryReferences entries := by
  induction entries with
  | nil => cases member
  | cons first rest ih =>
      obtain ⟨name, content⟩ := first
      rw [entryReferences]
      rcases List.mem_cons.1 member with rfl | later
      · exact List.subset_append_left _ _
      · exact List.subset_append_of_subset_right _ (ih later)

theorem archives_subset_of_mem (member : entry ∈ entries) :
    entry.2.archives ⊆ entryArchives entries := by
  induction entries with
  | nil => cases member
  | cons first rest ih =>
      obtain ⟨name, content⟩ := first
      rw [entryArchives]
      rcases List.mem_cons.1 member with rfl | later
      · exact List.subset_append_left _ _
      · exact List.subset_append_of_subset_right _ (ih later)

end Content

namespace Tree

variable {tree seed after : Tree} {content : Content} {place : List String} {path user : String}

/-- Whether a file of a tree refers to a protected text, itself or inside of its archives. -/
def Refers (tree : Tree) (id : String) : Prop :=
  ∃ content place, tree.Holds content place ∧ id ∈ content.references

def Packs (tree : Tree) (entries : List (String × Content)) : Prop :=
  ∃ content place, tree.Holds content place ∧ entries ∈ content.archives

/-- A tree that refers to nothing and packs nothing that its seed does not. -/
structure Seeds (seed tree : Tree) : Prop where
  refers : ∀ id, tree.Refers id → seed.Refers id
  packs : ∀ entries, tree.Packs entries → seed.Packs entries

structure Vouches (seed : Tree) (content : Content) : Prop where
  refers : ∀ id ∈ content.references, seed.Refers id
  packs : ∀ entries ∈ content.archives, seed.Packs entries

namespace Vouches

theorem inline (seed : Tree) (text : String) : seed.Vouches (.inline text) :=
  ⟨fun _ member => (List.not_mem_nil member).elim, fun _ member => (List.not_mem_nil member).elim⟩

/-- The base64 form of a protected text refers to it and to nothing else. -/
theorem secure_iff_encoded {id : String} :
    seed.Vouches (.secure id) ↔ seed.Vouches (.encoded id) :=
  ⟨fun vouches => ⟨vouches.refers, vouches.packs⟩, fun vouches => ⟨vouches.refers, vouches.packs⟩⟩

theorem entry {entry : String × Content} {entries : List (String × Content)}
    (vouches : seed.Vouches (.archive entries)) (member : entry ∈ entries) :
    seed.Vouches entry.2 where
  refers id refers := vouches.refers id (Content.references_subset_of_mem member refers)
  packs packed packs :=
    vouches.packs packed (List.mem_cons_of_mem _ (Content.archives_subset_of_mem member packs))

end Vouches

namespace Seeds

theorem refl (tree : Tree) : tree.Seeds tree :=
  ⟨fun _ refers => refers, fun _ packs => packs⟩

theorem vouches (seeds : seed.Seeds tree) (holds : tree.Holds content place) :
    seed.Vouches content :=
  ⟨fun id member => seeds.refers id ⟨content, place, holds, member⟩,
    fun entries member => seeds.packs entries ⟨content, place, holds, member⟩⟩

/-- Files may get contents that the seed vouches for. -/
theorem of_retains {Fresh : Content → Prop} (seeds : seed.Seeds tree)
    (retains : tree.Retains Fresh after)
    (vouched : ∀ content, Fresh content → seed.Vouches content) :
    seed.Seeds after := by
  have known : ∀ content place, after.Holds content place → seed.Vouches content := by
    intro content place holds
    rcases retains content place holds with before | fresh
    · exact seeds.vouches before
    · exact vouched content fresh
  constructor
  · rintro id ⟨content, place, holds, member⟩
    exact (known content place holds).refers id member
  · rintro entries ⟨content, place, holds, member⟩
    exact (known content place holds).packs entries member

end Seeds

/-- A user gets a content out of a file that they may read. -/
theorem content_eq_ok_iff :
    tree.content path user = .ok content ↔
      ∃ file, tree.lookup path = .ok (.file file) ∧ file.access.permits user .read = true ∧
        file.content = content := by
  unfold Tree.content
  rw [bind_eq_ok_iff]
  constructor
  · rintro ⟨node, looked, opened⟩
    cases node with
    | directory access entries => cases opened
    | file file =>
        obtain ⟨done, required, read⟩ := bind_eq_ok_iff.1 opened
        exact ⟨file, looked, require_eq_ok_iff.1 required, Except.ok.inj read⟩
  · rintro ⟨file, looked, permitted, rfl⟩
    exact ⟨.file file, looked,
      bind_eq_ok_iff.2 ⟨(), require_eq_ok_iff.2 permitted, rfl⟩⟩

theorem holds_of_content (found : tree.content path user = .ok content) :
    tree.Holds content (Path.segments path) := by
  obtain ⟨file, looked, -, same⟩ := content_eq_ok_iff.1 found
  have held := Node.Holds.of_at? (lookup_eq_ok_iff.1 looked) (.file same)
  rw [List.append_nil] at held
  exact held

end Tree

end PuzzleShell
