import PuzzleShell.Content.Archive
import PuzzleShell.Proofs.Outcome
import PuzzleShell.Proofs.Text

/-!
# Reading a rendered archive

Rendering puts a header line in front of every body and a line feed between what follows one
another.  Reading cuts the text into lines, so the headers and their names are found again.  A body
is found again as far as its lines spell it: in the last body a line feed at the end is no line of
its own, and in the others a carriage return at the end comes to stand in front of a line feed.
Reading what was packed therefore gives the packed texts back if there is nothing of that kind in
them, and no line that looks like a header.
-/

namespace PuzzleShell.Archive

variable {name line body text : String} {lines front : List String}
  {entries : List (String × String)}

structure Legible (name : String) : Prop where
  named : Path.isName name = true
  trimmed : Text.trim name = name
  oneLine : '\n' ∉ name.toList

instance (name : String) : Decidable (Legible name) :=
  decidable_of_iff (Path.isName name = true ∧ Text.trim name = name ∧ '\n' ∉ name.toList)
    ⟨fun ⟨named, trimmed, oneLine⟩ => ⟨named, trimmed, oneLine⟩,
      fun ⟨named, trimmed, oneLine⟩ => ⟨named, trimmed, oneLine⟩⟩

structure BelongsToBody (line : String) : Prop where
  noHeader : headerName? line = none
  oneLine : '\n' ∉ line.toList

theorem headerName?_eq_none_iff :
    headerName? line = none ↔ ¬ headerMark.toList <+: line.toList := by
  simp [headerName?, List.isPrefixOf_iff_prefix]

/-- What a header line says after its mark. -/
theorem headerName?_header (legible : Legible name) :
    headerName? (headerMark ++ name) = some name := by
  have marked : headerMark.toList <+: (headerMark ++ name).toList := by simp
  rw [headerName?, if_pos (List.isPrefixOf_iff_prefix.2 marked), String.toList_append]
  simp [← String.length_toList, legible.trimmed]

theorem legible_of_headerName? (header : headerName? line = some name)
    (named : Path.isName name = true) (oneLine : '\n' ∉ line.toList) : Legible name := by
  unfold headerName? at header
  split at header
  · rw [Option.some.injEq] at header
    subst header
    refine ⟨named, Text.trim_trim _, fun feed => oneLine ?_⟩
    have among := Text.mem_of_mem_trim feed
    rw [String.toList_ofList] at among
    exact List.mem_of_mem_drop among
  · cases header

/-- The names and lines that are gathered are those of headers and of bodies. -/
theorem gather?_sound {gathered : List (String × List String)}
    (plain : ∀ line ∈ lines, '\n' ∉ line.toList)
    (found : gather? lines = some (front, gathered)) :
    (∀ line ∈ front, BelongsToBody line) ∧
      ∀ entry ∈ gathered, Legible entry.1 ∧ ∀ line ∈ entry.2, BelongsToBody line := by
  induction lines generalizing front gathered with
  | nil =>
      cases found
      simp
  | cons line rest ih =>
      obtain ⟨here, later⟩ := List.forall_mem_cons.1 plain
      obtain ⟨⟨below, others⟩, known, last⟩ := Option.bind_eq_some_iff.1 found
      obtain ⟨bodies, headers⟩ := ih later known
      dsimp only at last
      split at last
      next name header =>
        split at last
        next named =>
          cases last
          refine ⟨by simp, List.forall_mem_cons.2 ⟨⟨?_, bodies⟩, headers⟩⟩
          exact legible_of_headerName? header named here
        · cases last
      next noHeader =>
        cases last
        exact ⟨List.forall_mem_cons.2 ⟨⟨noHeader, here⟩, bodies⟩, headers⟩

/-- Lines of a body stand in front of whatever is gathered below them. -/
theorem gather?_append {gathered : List (String × List String)} {above : List String}
    (bodies : ∀ line ∈ above, headerName? line = none)
    (found : gather? lines = some (front, gathered)) :
    gather? (above ++ lines) = some (above ++ front, gathered) := by
  induction above with
  | nil => exact found
  | cons line rest ih =>
      obtain ⟨noHeader, later⟩ := List.forall_mem_cons.1 bodies
      rw [List.cons_append, gather?, ih later]
      simp [noHeader]

/-- Whether none of the pieces of a text begins as a header does. -/
def Headless (body : String) : Prop :=
  ∀ piece ∈ body.toList.splitOn '\n', ¬ headerMark.toList <+: piece

theorem headless_unlines (bodies : ∀ line ∈ lines, BelongsToBody line) :
    Headless (Text.unlines lines) := by
  have spelled : (Text.unlines lines).toList = ['\n'].intercalate (lines.map String.toList) :=
    String.toList_intercalate
  intro piece member
  rw [spelled] at member
  by_cases empty : lines = []
  · simp [empty] at member
    simp [member, headerMark]
  · rw [List.splitOn_intercalate '\n' ?_ (by simpa using empty)] at member
    · obtain ⟨line, known, rfl⟩ := List.mem_map.1 member
      exact headerName?_eq_none_iff.1 (bodies line known).noHeader
    · intro other known
      obtain ⟨line, among, rfl⟩ := List.mem_map.1 known
      exact (bodies line among).oneLine

/-- The lines of a body that no header is in are no headers, whatever closes them. -/
theorem Headless.headerName?_eq_none (headless : Headless body)
    (member : line ∈ Text.lines body ∨ line ∈ Text.lines (body ++ "\n")) :
    headerName? line = none := by
  rw [headerName?_eq_none_iff]
  intro marked
  rcases member with inside | inside
  · obtain ⟨piece, among, start⟩ := Text.exists_piece_of_mem_lines inside
    exact headless piece among (marked.trans start)
  · rw [Text.lines_closed, List.map_map, List.mem_map] at inside
    obtain ⟨piece, among, rfl⟩ := inside
    refine headless piece among (marked.trans ?_)
    simpa using Text.prefix_withoutReturn piece

def spell : List (String × String) → String
  | [] => ""
  | (name, body) :: rest => "\n" ++ headerMark ++ name ++ "\n" ++ body ++ spell rest

/-- The lines of a body, of which the header of the next entry closes the last one. -/
def bodyLines (later : List (String × String)) (body : String) : List String :=
  if later = [] then Text.lines body else Text.lines (body ++ "\n")

def spelledLines : List (String × String) → List String
  | [] => []
  | (name, body) :: rest => (headerMark ++ name) :: (bodyLines rest body ++ spelledLines rest)

def reread : List (String × String) → List (String × List String)
  | [] => []
  | (name, body) :: rest => (name, bodyLines rest body) :: reread rest

def asInline (entries : List (String × String)) : List (String × Content) :=
  entries.map fun entry => (entry.1, .inline entry.2)

theorem render_asInline (oracle : ContentOracle) (entries : List (String × String)) :
    render oracle (asInline entries) = .done (magic ++ spell entries) := by
  have spelled : Content.renderEntries oracle (asInline entries) = .done (spell entries) := by
    induction entries with
    | nil => rfl
    | cons entry rest ih =>
        rw [asInline, List.map_cons, ← asInline, Content.renderEntries, ih]
        rfl
  rw [render, Content.render, spelled]
  rfl

theorem lines_header (legible : Legible name) :
    Text.lines (headerMark ++ name ++ "\n") = [headerMark ++ name] := by
  have plain : '\n' ∉ (headerMark ++ name).toList := by
    have unmarked : '\n' ∉ headerMark.toList := by decide
    simp [unmarked, legible.oneLine]
  have single := @List.splitOn_intercalate _ [(headerMark ++ name).toList] _ _ '\n'
    (by simpa using plain) (List.cons_ne_nil _ _)
  rw [List.intercalate_singleton] at single
  have unreturned : (headerMark ++ name).toList.getLast? ≠ some '\r' := by
    intro ends
    rw [String.toList_append, List.getLast?_append, Option.or_eq_some_iff] at ends
    rcases ends with ends | ⟨-, ends⟩
    · rw [← legible.trimmed] at ends
      have notBlank := Text.isBlank_getLast?_trim ends
      revert notBlank
      decide
    · revert ends
      decide
  rw [Text.lines_closed, single, List.map_singleton, Text.withoutReturn_eq_self_iff.2 unreturned,
    List.map_singleton, String.ofList_toList]

theorem lines_append_spell (legible : ∀ entry ∈ entries, Legible entry.1) (text : String) :
    Text.lines (text ++ spell entries) = bodyLines entries text ++ spelledLines entries := by
  induction entries generalizing text with
  | nil => simp [spell, bodyLines, spelledLines]
  | cons entry rest ih =>
      obtain ⟨name, body⟩ := entry
      obtain ⟨header, later⟩ := List.forall_mem_cons.1 legible
      have cut : text ++ spell ((name, body) :: rest) =
          text ++ "\n" ++ (headerMark ++ name ++ "\n" ++ (body ++ spell rest)) := by
        simp only [spell, String.append_assoc]
      rw [cut, Text.lines_append_newline_append, Text.lines_append_newline_append,
        lines_header header, ih later]
      simp [bodyLines, spelledLines]

theorem gather?_spelledLines
    (proper : ∀ entry ∈ entries, Legible entry.1 ∧ Headless entry.2) :
    gather? (spelledLines entries) = some ([], reread entries) := by
  induction entries with
  | nil => rfl
  | cons entry rest ih =>
      obtain ⟨name, body⟩ := entry
      obtain ⟨⟨legible, headless⟩, later⟩ := List.forall_mem_cons.1 proper
      have bodies : ∀ line ∈ bodyLines rest body, headerName? line = none := by
        intro line member
        unfold bodyLines at member
        split at member
        · exact headless.headerName?_eq_none (.inl member)
        · exact headless.headerName?_eq_none (.inr member)
      rw [spelledLines, gather?, gather?_append bodies (ih later)]
      simp [headerName?_header legible, legible.named, reread]

/-- What is read of a rendered archive. -/
theorem parse?_spell (proper : ∀ entry ∈ entries, Legible entry.1 ∧ Headless entry.2) :
    parse? (magic ++ spell entries) =
      some ((reread entries).map fun entry => (entry.1, .inline (Text.unlines entry.2))) := by
  have first : bodyLines entries magic = [magic] := by
    unfold bodyLines
    split
    · decide
    · decide
  have isMagic : Text.trim magic = magic := by decide
  rw [parse?, lines_append_spell fun entry member => (proper entry member).1, first,
    List.singleton_append]
  simp [isMagic, gather?_spelledLines proper]

theorem names_reread (entries : List (String × String)) :
    (reread entries).map Prod.fst = entries.map Prod.fst := by
  induction entries with
  | nil => rfl
  | cons entry rest ih => simp [reread, ih]

theorem getElem?_reread {index : Nat} (standing : entries[index]? = some (name, body)) :
    (reread entries)[index]? = some (name,
      if index + 1 = entries.length then Text.lines body else Text.lines (body ++ "\n")) := by
  induction entries generalizing index with
  | nil => simp at standing
  | cons entry rest ih =>
      cases index with
      | zero =>
          cases standing
          simp [reread, bodyLines]
      | succ index => simpa [reread] using ih standing

/-- Whatever is read of a text can be rendered, and read again. -/
theorem exists_asInline_of_parse? {packed : List (String × Content)}
    (parsed : parse? text = some packed) :
    ∃ entries, packed = asInline entries ∧
      ∀ entry ∈ entries, Legible entry.1 ∧ Headless entry.2 := by
  unfold parse? at parsed
  split at parsed
  · cases parsed
  next first rest cut =>
    split at parsed
    · split at parsed
      next gathered found =>
        cases parsed
        have plain : ∀ line ∈ rest, '\n' ∉ line.toList := fun line member =>
          Text.newline_not_mem_of_mem_lines (cut ▸ List.mem_cons_of_mem _ member)
        refine ⟨gathered.map fun entry => (entry.1, Text.unlines entry.2), ?_, ?_⟩
        · rw [asInline, List.map_map]
          rfl
        · intro entry member
          obtain ⟨spelled, known, rfl⟩ := List.mem_map.1 member
          obtain ⟨legible, bodies⟩ := (gather?_sound plain found).2 spelled known
          exact ⟨legible, headless_unlines bodies⟩
      · cases parsed
    · cases parsed

/--
What was read of an archive is rendered without a question, and what is read of that has the same
names in the same order.  A body is read again unchanged unless a carriage return in it is followed
by a line feed, or it ends in a line feed if it is the last one, or in a carriage return if not.
-/
theorem parse?_render_of_parse? {packed : List (String × Content)}
    (parsed : parse? text = some packed) :
    ∃ rendered again, (∀ oracle, render oracle packed = .done rendered) ∧
      parse? rendered = some again ∧ again.map Prod.fst = packed.map Prod.fst ∧
      ∀ index name content, packed[index]? = some (name, content) →
        ∃ body other, content = .inline body ∧ again[index]? = some (name, .inline other) ∧
          (other = body ↔ ¬ ['\r', '\n'] <:+: body.toList ∧
            body.toList.getLast? ≠
              some (if index + 1 = packed.length then '\n' else '\r')) := by
  obtain ⟨entries, rfl, proper⟩ := exists_asInline_of_parse? parsed
  refine ⟨magic ++ spell entries, _, fun oracle => render_asInline oracle entries,
    parse?_spell proper, ?_, fun index name content standing => ?_⟩
  · have same := names_reread entries
    simp only [asInline, List.map_map]
    exact same
  rw [asInline, List.getElem?_map, Option.map_eq_some_iff] at standing
  obtain ⟨⟨spelled, body⟩, found, same⟩ := standing
  cases same
  refine ⟨body, _, rfl, by rw [List.getElem?_map, getElem?_reread found]; rfl, ?_⟩
  rw [asInline, List.length_map]
  split
  · exact Text.unlines_lines_eq_iff body
  · exact Text.unlines_lines_closed_eq_iff body

/-- The empty line at the end of the first note is kept, for the second note follows it. -/
theorem parse?_render_of_parse?_twoNotes :
    let packed := [("a", Content.inline "x\n"), ("b", .inline "y")]
    parse? "PK-ARCHIVE\n--- a\nx\n\n--- b\ny" = some packed ∧
      ∃ rendered again, (∀ oracle, render oracle packed = .done rendered) ∧
        parse? rendered = some again ∧ again.map Prod.fst = ["a", "b"] ∧
        again[0]? = some ("a", .inline "x\n") := by
  intro packed
  have parsed : parse? "PK-ARCHIVE\n--- a\nx\n\n--- b\ny" = some packed := by decide +kernel
  obtain ⟨rendered, again, renders, reads, names, bodies⟩ := parse?_render_of_parse? parsed
  refine ⟨parsed, rendered, again, renders, reads, names, ?_⟩
  obtain ⟨body, other, held, found, kept⟩ := bodies 0 "a" (.inline "x\n") rfl
  cases held
  have same : other = "x\n" := kept.2 (by decide)
  rw [found, same]

/-- The empty line at the end of a last note is not kept, for nothing follows it. -/
theorem not_parse?_render_eq_self :
    ¬ ∀ text packed, parse? text = some packed →
      ∃ rendered, (∀ oracle, render oracle packed = .done rendered) ∧
        parse? rendered = some packed := by
  intro stable
  have parsed : parse? "PK-ARCHIVE\n--- a\nx\n\n" = some [("a", .inline "x\n")] := by
    decide +kernel
  obtain ⟨rendered, renders, again⟩ := stable _ _ parsed
  have spelled : render (fun _ => .ok "") [("a", .inline "x\n")] =
      .done "PK-ARCHIVE\n--- a\nx\n" := by rfl
  cases (renders _).symm.trans spelled
  have reread : parse? "PK-ARCHIVE\n--- a\nx\n" = some [("a", .inline "x")] := by
    decide +kernel
  rw [reread] at again
  revert again
  decide

section Packing

variable {oracle : ContentOracle} {packed : List (String × Content)}

/-- Whether a text can be packed as it is: it has no carriage return, and no line in it is a
header. -/
structure Packable (body : String) : Prop where
  unreturned : '\r' ∉ body.toList
  noHeader : ∀ line ∈ Text.lines body, ¬ headerMark.toList <+: line.toList

instance (body : String) : Decidable (Packable body) :=
  decidable_of_iff
    ('\r' ∉ body.toList ∧ ∀ line ∈ Text.lines body, ¬ headerMark.toList <+: line.toList)
    ⟨fun ⟨unreturned, noHeader⟩ => ⟨unreturned, noHeader⟩,
      fun ⟨unreturned, noHeader⟩ => ⟨unreturned, noHeader⟩⟩

theorem Packable.headless (packable : Packable body) : Headless body := by
  intro piece member start
  obtain ⟨line, known, marked⟩ :=
    Text.exists_line_of_mem_splitOn member start (by decide) (by decide)
  exact packable.noHeader line known marked

/-- The lines of a packed body spell it, unless it is the last one and a line feed ends it. -/
theorem Packable.unlines_bodyLines {later : List (String × String)} (packable : Packable body)
    (last : later = [] → body.toList.getLast? ≠ some '\n') :
    Text.unlines (bodyLines later body) = body := by
  have unbroken : ¬ ['\r', '\n'] <:+: body.toList := fun inside =>
    packable.unreturned (inside.subset List.mem_cons_self)
  unfold bodyLines
  split
  next final => exact (Text.unlines_lines_eq_iff body).2 ⟨unbroken, last final⟩
  next =>
    refine (Text.unlines_lines_closed_eq_iff body).2 ⟨unbroken, fun ends => ?_⟩
    exact packable.unreturned (List.mem_of_getLast? ends)

/-- What is gathered from packed entries spells their bodies. -/
theorem spell_reread (packable : ∀ entry ∈ entries, Packable entry.2)
    (last : ∀ entry, entries.getLast? = some entry → entry.2.toList.getLast? ≠ some '\n') :
    ((reread entries).map fun entry => (entry.1, Content.inline (Text.unlines entry.2))) =
      asInline entries := by
  induction entries with
  | nil => rfl
  | cons entry rest ih =>
      obtain ⟨name, body⟩ := entry
      obtain ⟨here, later⟩ := List.forall_mem_cons.1 packable
      have spelled : Text.unlines (bodyLines rest body) = body := by
        refine here.unlines_bodyLines ?_
        rintro rfl
        exact last (name, body) rfl
      rw [reread, List.map_cons, spelled, ih later fun other ends => last other ?_]
      · rfl
      · rw [List.getLast?_cons, ends]
        rfl

/-- Whether the contents of entries are rendered to the given texts, under the same names. -/
def Renders (oracle : ContentOracle) (packed : List (String × Content))
    (entries : List (String × String)) : Prop :=
  List.Forall₂ (fun given entry =>
    given.1 = entry.1 ∧ (given.2.render oracle).outcome = .ok entry.2) packed entries

/-- An archive shows of its entries what they are rendered to. -/
theorem Renders.outcome_render (renders : Renders oracle packed entries) :
    (render oracle packed).outcome = .ok (magic ++ spell entries) := by
  have spelled : (Content.renderEntries oracle packed).outcome = .ok (spell entries) := by
    induction renders with
    | nil => rfl
    | @cons given entry _ _ here _ ih =>
        obtain ⟨name, content⟩ := given
        obtain ⟨rfl, body⟩ := here
        rw [Content.renderEntries, Inquiry.outcome_bind_eq_ok_iff]
        refine ⟨_, body, ?_⟩
        rw [Inquiry.outcome_bind_eq_ok_iff]
        exact ⟨_, ih, rfl⟩
  rw [render, Content.render, Inquiry.outcome_bind_eq_ok_iff]
  exact ⟨_, spelled, rfl⟩

/--
Whatever is packed is found again: if the bodies can be packed as they are, and no line feed ends
the last one, then the text of the archive is read as the same names with the bodies as plain texts.
-/
theorem parse?_render_of_packable (renders : Renders oracle packed entries)
    (legible : ∀ entry ∈ entries, Legible entry.1) (packable : ∀ entry ∈ entries, Packable entry.2)
    (last : ∀ entry, entries.getLast? = some entry → entry.2.toList.getLast? ≠ some '\n') :
    ∃ text, (render oracle packed).outcome = .ok text ∧
      parse? text = some (asInline entries) := by
  have proper : ∀ entry ∈ entries, Legible entry.1 ∧ Headless entry.2 := fun entry member =>
    ⟨legible entry member, (packable entry member).headless⟩
  refine ⟨_, renders.outcome_render, ?_⟩
  rw [parse?_spell proper, spell_reread packable last]

/-- A key and its base64 form, a page that ends in empty lines, an empty note and an empty
archive. -/
theorem parse?_render_of_packable_luggage :
    let oracle : ContentOracle := fun _ => .ok "KEY"
    let packed := [("id", Content.secure "key"), ("page", .inline "top\n\n"), ("note", .inline ""),
      ("id.b64", .encoded "key"), ("inner", .archive [])]
    let entries := [("id", "KEY"), ("page", "top\n\n"), ("note", ""), ("id.b64", "S0VZ"),
      ("inner", "PK-ARCHIVE")]
    Renders oracle packed entries ∧ (∀ entry ∈ entries, Legible entry.1) ∧
      (∀ entry ∈ entries, Packable entry.2) ∧
      ∃ text, (render oracle packed).outcome = .ok text ∧
        parse? text = some (asInline entries) := by
  intro oracle packed entries
  have renders : Renders oracle packed entries := by
    refine .cons ⟨rfl, rfl⟩ (.cons ⟨rfl, rfl⟩ (.cons ⟨rfl, rfl⟩ (.cons ⟨rfl, ?_⟩
      (.cons ⟨rfl, rfl⟩ .nil))))
    decide +kernel
  have legible : ∀ entry ∈ entries, Legible entry.1 := by decide +kernel
  have packable : ∀ entry ∈ entries, Packable entry.2 := by decide +kernel
  refine ⟨renders, legible, packable, parse?_render_of_packable renders legible packable ?_⟩
  rintro entry ⟨⟩
  decide

end Packing

end PuzzleShell.Archive
