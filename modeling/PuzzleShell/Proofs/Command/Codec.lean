import PuzzleShell.Proofs.Command.Keeps
import PuzzleShell.Proofs.Command.Steps
import PuzzleShell.Proofs.Outcome
import PuzzleShell.Proofs.Text.Base64
import PuzzleShell.World

/-!
# Encoding and decoding files

What encoding makes of a file shows the base64 form of what the file shows, and decoding finds the
text of which the file shows the base64 form.  That the base64 form of a protected text is stored as
such, and no text at all, is not to be seen from outside, but decoding makes it protected again.
-/

namespace PuzzleShell.Command

open PuzzleShell.Action

variable {backend : Backend} {oracle : ContentOracle} {content result : Content}
  {text decoded input : String} {output : Option String} {words : List String} {turn : Turn}
  {decode : Bool}

section Contents

/-- What is stored as the base64 form of a content that shows a text. -/
def packed (text : String) : Content → Content
  | .secure id => .encoded id
  | _ => .inline (Text.Base64.encode text)

def unpacked (text : String) : Content → Content
  | .encoded id => .secure id
  | _ => .inline text

/-- What is stored for a content that was encoded and decoded again. -/
def recovered (text : String) : Content → Content
  | .secure id => .secure id
  | _ => .inline text

theorem unpacked_packed (text : String) (content : Content) :
    unpacked text (packed text content) = recovered text content := by
  cases content <;> rfl

theorem render_recovered (rendered : (content.render oracle).outcome = .ok text) :
    ((recovered text content).render oracle).outcome = .ok text := by
  cases content with
  | secure id => exact rendered
  | inline _ => rfl
  | encoded _ => rfl
  | archive _ => rfl

theorem outcome_encodeContent (rendered : (content.render oracle).outcome = .ok text) :
    (encodeContent oracle content).outcome = .ok (packed text content) := by
  have asText : ∀ inquiry : Inquiry String, inquiry.outcome = .ok text →
      (inquiry >>= fun text => return .inline (Text.Base64.encode text) :
        Inquiry Content).outcome = .ok (.inline (Text.Base64.encode text)) :=
    fun _ answered => Inquiry.outcome_bind_eq_ok_iff.2 ⟨text, answered, rfl⟩
  cases content with
  | secure id => rfl
  | inline _ => exact asText _ rendered
  | encoded _ => exact asText _ rendered
  | archive _ => exact asText _ rendered

/-- The base64 form of a content shows the base64 form of what the content shows. -/
theorem render_packed (rendered : (content.render oracle).outcome = .ok text) :
    ((packed text content).render oracle).outcome = .ok (Text.Base64.encode text) := by
  cases content with
  | secure id =>
      rw [packed, Content.render, Inquiry.outcome_bind_eq_ok_iff]
      exact ⟨text, rendered, rfl⟩
  | inline _ => rfl
  | encoded _ => rfl
  | archive _ => rfl

/-- A text is decoded just if it is the base64 form of one, blanks apart. -/
theorem decodeText_eq_ok_iff :
    decodeText text = .ok decoded ↔ Text.Base64.IsFormOf (Text.withoutBlanks text) decoded := by
  rw [Text.Base64.IsFormOf, Text.Base64.spells_iff, ← Text.Base64.decodeBytes?_eq_some_iff,
    decodeText]
  cases Text.Base64.decodeBytes? (Text.withoutBlanks text).toList with
  | none =>
      constructor
      · intro done
        cases done
      · intro spelled
        cases spelled
  | some bytes =>
      have data : bytes = decoded.toUTF8.data.toList ↔ ⟨bytes.toArray⟩ = decoded.toUTF8 := by
        constructor
        · rintro rfl
          rfl
        · intro same
          rw [← same]
      rw [Option.some.injEq, data, ← Text.Base64.fromUTF8?_eq_some_iff]
      dsimp only
      cases String.fromUTF8? ⟨bytes.toArray⟩ with
      | none =>
          constructor
          · intro done
            cases done
          · intro spelled
            cases spelled
      | some spelled => rw [Except.ok.injEq, Option.some.injEq]

/-- What cannot be decoded is complained about. -/
theorem exists_complaint_of_decodeText (nothing : ∀ decoded, decodeText text ≠ .ok decoded) :
    ∃ cause ∈ [Complaint.invalidEncoding, .decodedNoText],
      decodeText text = .error (.complaint cause) := by
  unfold decodeText at nothing ⊢
  split
  · exact ⟨_, List.mem_cons_self, rfl⟩
  next bytes found =>
    split
    · exact ⟨_, List.mem_cons_of_mem _ List.mem_cons_self, rfl⟩
    next decoded spelled =>
      simp only [found, spelled] at nothing
      exact absurd rfl (nothing decoded)

/-- The base64 form of a protected text is shown if the text is known. -/
theorem render_encoded_eq_ok_iff {id : String} :
    ((Content.encoded id).render oracle).outcome = .ok text ↔
      ∃ known, oracle id = .ok known ∧ text = Text.Base64.encode known := by
  rw [Content.render, Inquiry.outcome_bind_eq_ok_iff]
  refine exists_congr fun known => and_congr Iff.rfl ?_
  exact ⟨fun same => (Except.ok.inj same).symm, fun same => congrArg _ same.symm⟩

/-- A content is decoded as the text is that it shows, whatever is stored for it. -/
theorem outcome_decodeContent (rendered : (content.render oracle).outcome = .ok text) :
    (decodeContent oracle content).outcome =
      (decodeText text).map fun decoded => unpacked decoded content := by
  have asText : ∀ inquiry : Inquiry String, inquiry.outcome = .ok text →
      (inquiry >>= fun text => do
        let decoded ← Inquiry.ofExcept (decodeText text)
        return .inline decoded : Inquiry Content).outcome = (decodeText text).map .inline := by
    intro inquiry answered
    change (inquiry.andThen _).outcome = _
    rw [Inquiry.andThen_ok answered]
    cases decodeText text <;> rfl
  cases content with
  | encoded id =>
      obtain ⟨known, -, rfl⟩ := render_encoded_eq_ok_iff.1 rendered
      rw [decodeText_eq_ok_iff.2 (Text.Base64.isFormOf_withoutBlanks_encode known)]
      rfl
  | inline _ => exact asText _ rendered
  | secure _ => exact asText _ rendered
  | archive _ => exact asText _ rendered

/-- What is decoded shows the text of which the base64 form was shown. -/
theorem render_unpacked (rendered : (content.render oracle).outcome = .ok text)
    (spelled : Text.Base64.IsFormOf (Text.withoutBlanks text) decoded) :
    ((unpacked decoded content).render oracle).outcome = .ok decoded := by
  cases content with
  | encoded id =>
      obtain ⟨known, answer, rfl⟩ := render_encoded_eq_ok_iff.1 rendered
      rw [Text.Base64.withoutBlanks_encode, Text.Base64.isFormOf_iff,
        Text.Base64.encode_inj] at spelled
      subst spelled
      exact answer
  | inline _ => rfl
  | secure _ => rfl
  | archive _ => rfl

end Contents

section Files

/-- What is done with a content that was made: it is shown, or written into a file. -/
def deliver (backend : Backend) (result : Content) : Option String → Action Output
  | none => do
      let text ← Action.inquire (result.render backend.content)
      return .text text
  | some output => do
      let target ← Action.resolve output
      let user ← Action.user
      Action.change (·.write target result user)
      return .silent

/-- The words that ask for a file to be encoded or decoded, possibly into another file. -/
inductive Recodes : Bool → String → Option String → List String → Prop where
  | encode {input : String} (plain : input ≠ "-d" ∧ input ≠ "--decode") (output : Option String) :
      Recodes false input output (input :: output.toList)
  | decode {option : String} (asksDecode : option = "-d" ∨ option = "--decode") (input : String)
      (output : Option String) : Recodes true input output (option :: input :: output.toList)

theorem Recodes.run_eq (recodes : Recodes decode input output words) :
    base64.run backend words = recode backend decode input output := by
  cases recodes with
  | encode plain => cases output <;> simp [base64, plain]
  | decode asksDecode => cases output <;> rcases asksDecode with rfl | rfl <;> simp [base64]

def conversion (backend : Backend) (decode : Bool) (content : Content) : Inquiry Content :=
  (if decode then decodeContent else encodeContent) backend.content content

theorem run_recode (held : turn.tree.content (turn.path input) turn.session.user = .ok content) :
    (recode backend decode input output).run.run turn =
      match (conversion backend decode content).outcome with
      | .ok result => (deliver backend result output).run.run
          { turn with asked := turn.asked ++ (conversion backend decode content).asked }
      | .error fault => (.error (.fault fault),
          { turn with asked := turn.asked ++ (conversion backend decode content).asked }) := by
  rw [Turn.path] at held
  simp only [recode, run_bind, run_resolve, run_get, run_ofExcept, held, ended, run_inquire]
  rw [← conversion]
  cases (conversion backend decode content).outcome with
  | error fault => rfl
  | ok result =>
      cases output with
      | none => rfl
      | some target =>
          dsimp only [deliver]
          rw [run_bind_of_ok (run_resolve target _), run_bind_of_ok (run_resolve target _),
            run_bind_of_ok (run_user _)]

/-- Whether the file of a word is converted to a content, wherever that is to be delivered. -/
def Makes (backend : Backend) (decode : Bool) (turn : Turn) (input : String) (result : Content) :
    Prop :=
  ∃ asked, ∀ output words, Recodes decode input output words →
    (base64.run backend words).run.run turn =
      (deliver backend result output).run.run { turn with asked := turn.asked ++ asked }

/-- Whether the file of a word is refused as not decodable, and nothing is changed. -/
def Refuses (backend : Backend) (turn : Turn) (input : String) : Prop :=
  ∃ cause ∈ [Complaint.invalidEncoding, .decodedNoText], ∃ asked,
    ∀ output words, Recodes true input output words →
      (base64.run backend words).run.run turn =
        (.error (.fault (.complaint cause)), { turn with asked := turn.asked ++ asked })

theorem makes_of_conversion
    (held : turn.tree.content (turn.path input) turn.session.user = .ok content)
    (converted : (conversion backend decode content).outcome = .ok result) :
    Makes backend decode turn input result := by
  refine ⟨(conversion backend decode content).asked, fun output words recodes => ?_⟩
  rw [recodes.run_eq, run_recode held, converted]

/--
Nobody sees what is stored for a file.  Encoding it makes a content that shows the base64 form of
what the file shows, and whoever decodes a file that holds this content has the protected content
back if it was one, and otherwise the text.  Decoding a file makes a content that shows the text of
which the file shows the base64 form, blanks apart, or refuses a file that shows no such form.
-/
theorem base64_keeps_origin
    (held : turn.tree.content (turn.path input) turn.session.user = .ok content)
    (rendered : (content.render backend.content).outcome = .ok text) :
    (∃ made written, Makes backend false turn input made ∧
      (made.render backend.content).outcome = .ok written ∧ Text.Base64.IsFormOf written text ∧
      ∀ later source, later.tree.content (later.path source) later.session.user = .ok made →
        Makes backend true later source (recovered text content)) ∧
    ((recovered text content).render backend.content).outcome = .ok text ∧
    (∀ decoded, Text.Base64.IsFormOf (Text.withoutBlanks text) decoded →
      ∃ made, Makes backend true turn input made ∧
        (made.render backend.content).outcome = .ok decoded) ∧
    ((∀ decoded, ¬ Text.Base64.IsFormOf (Text.withoutBlanks text) decoded) →
      Refuses backend turn input) := by
  have shown := render_packed rendered
  refine ⟨⟨packed text content, Text.Base64.encode text, ?_, shown,
    Text.Base64.isFormOf_iff.2 rfl, fun later source kept => ?_⟩, render_recovered rendered,
    fun decoded spelled => ?_, fun nothing => ?_⟩
  · exact makes_of_conversion held (outcome_encodeContent rendered)
  · refine makes_of_conversion kept ((outcome_decodeContent shown).trans ?_)
    rw [decodeText_eq_ok_iff.2 (Text.Base64.isFormOf_withoutBlanks_encode text), Except.map,
      unpacked_packed]
  · refine ⟨unpacked decoded content, makes_of_conversion held ?_, render_unpacked rendered spelled⟩
    refine (outcome_decodeContent rendered).trans ?_
    rw [decodeText_eq_ok_iff.2 spelled, Except.map]
  · obtain ⟨cause, known, failed⟩ := exists_complaint_of_decodeText
      fun decoded found => nothing decoded (decodeText_eq_ok_iff.1 found)
    have refused : (conversion backend true content).outcome = .error (.complaint cause) := by
      refine (outcome_decodeContent rendered).trans ?_
      rw [failed, Except.map]
    refine ⟨cause, known, (conversion backend true content).asked, fun output words recodes => ?_⟩
    rw [recodes.run_eq, run_recode held, refused]

/-- A key that happens to be a base64 form itself, encoded and back again, and decoded. -/
theorem base64_keeps_origin_key :
    let backend : Backend := ⟨.default, fun _ => .ok "S0 VZ\n", fun _ => .ok ⟨false, none⟩⟩
    let tree := ((World.standard .default).write "/tmp/key" (.secure "key") "guest").2
    let turn : Turn := ⟨Session.start "guest" "/tmp", tree, none, []⟩
    tree.content (turn.path "key") "guest" = .ok (.secure "key") ∧
      ((Content.secure "key").render backend.content).outcome = .ok "S0 VZ\n" ∧
      (∃ made written, Makes backend false turn "key" made ∧
        (made.render backend.content).outcome = .ok written ∧
        Text.Base64.IsFormOf written "S0 VZ\n" ∧
        ∀ later source, later.tree.content (later.path source) later.session.user = .ok made →
          Makes backend true later source (.secure "key")) ∧
      ∃ made, Makes backend true turn "key" made ∧
        (made.render backend.content).outcome = .ok "KEY" := by
  intro backend tree turn
  have held : turn.tree.content (turn.path "key") turn.session.user = .ok (.secure "key") := by
    decide +kernel
  have rendered : ((Content.secure "key").render backend.content).outcome = .ok "S0 VZ\n" := rfl
  have spelled : Text.Base64.IsFormOf (Text.withoutBlanks "S0 VZ\n") "KEY" :=
    Text.Base64.isFormOf_iff.2 (by decide +kernel)
  obtain ⟨encoded, -, decoded, -⟩ := base64_keeps_origin held rendered
  exact ⟨held, rendered, encoded, decoded "KEY" spelled⟩

end Files

end PuzzleShell.Command
