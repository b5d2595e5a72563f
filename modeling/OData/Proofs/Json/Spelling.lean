/-
# Printed containers read back

A printed text is one token; printed arrays and objects are many, and what they
spell depends on the containers around them. `Writes` says of a text that it spells
a document wherever a value may stand, and whatever follows: it is scanned as tokens
that lead from a place where a value must come to one where that value was read. It
is closed under quoting, under brackets around any number of items, and under braces
around one member, and so holds of whole documents built from these.

Numbers are left out, since a digit that follows would be scanned with them.
-/

import OData.Proofs.Json.Written
import Mathlib.Data.List.Forall2

namespace OData.Json

/-- The bytes of a text. -/
def bytesOf (text : String) : List UInt8 := text.toList.flatMap String.utf8EncodeChar

theorem bytesOf_append (first second : String) :
    bytesOf (first ++ second) = bytesOf first ++ bytesOf second := by
  simp [bytesOf]

/-- In front of any bytes, the text is those tokens. -/
def ScansAs (text : String) (tokens : List Token) : Prop :=
  ∀ rest others, Scans rest others → Scans (bytesOf text ++ rest) (tokens ++ others)

theorem ScansAs.append {first second : String} {tokens others : List Token}
    (scans : ScansAs first tokens) (following : ScansAs second others) :
    ScansAs (first ++ second) (tokens ++ others) := by
  intro rest more after
  rw [bytesOf_append, List.append_assoc, List.append_assoc]
  exact scans _ _ (following _ _ after)

theorem scansAs_mark {text : String} {b : UInt8} {token : Token} (bytes : bytesOf text = [b])
    (visible : isSpace b = false) (isMark : mark? b = some token) : ScansAs text [token] := by
  intro rest others after
  rw [bytes]
  exact scans_mark visible isMark after

theorem scansAs_comma : ScansAs "," [.comma] := scansAs_mark rfl rfl rfl

/-- The text spells the document wherever a value may stand. -/
def Writes (text : String) (document : Document) : Prop :=
  ∃ tokens, ScansAs text tokens ∧
    ∀ around others, (tokens ++ others).foldlM Progress.step (.valueDue around) =
      others.foldlM Progress.step (.valueRead around document)

theorem writes_string (text : String) :
    Writes (compact (.string text)) (.text (text.toList.flatMap writtenPieces)) := by
  rw [compact]
  exact ⟨[.text (text.toList.flatMap writtenPieces)], fun _ _ after => scans_quoted text after,
    fun _ _ => rfl⟩

/-- An object with one member. -/
theorem writes_member {value : Json} {document : Document}
    (writes : Writes value.compact document) (name : String) :
    Writes (compact (.object [(name, value)]))
      (.object [(name.toList.flatMap writtenPieces, document)]) := by
  have text : compact (.object [(name, value)]) =
      "\x7b" ++ (quoted name ++ ":" ++ value.compact) ++ "\x7d" := by
    simp [compact, compactMembers]
  obtain ⟨tokens, scans, spells⟩ := writes
  have opening : ScansAs "\x7b" [.beginObject] := scansAs_mark rfl rfl rfl
  have named : ScansAs (quoted name) [.text (name.toList.flatMap writtenPieces)] :=
    fun _ _ after => scans_quoted name after
  have colon : ScansAs ":" [.colon] := scansAs_mark rfl rfl rfl
  have closing : ScansAs "\x7d" [.endObject] := scansAs_mark rfl rfl rfl
  rw [text]
  refine ⟨_, (opening.append ((named.append colon).append scans)).append closing, ?_⟩
  intro around others
  have inside := spells (.members [] (name.toList.flatMap writtenPieces) :: around)
    (.endObject :: others)
  simp only [List.cons_append, List.append_assoc, List.foldlM_cons,
    List.nil_append]
  exact inside

/-- Tokens that spell a value begin with one, and not with the end of an array. -/
theorem begins_of_spells {tokens : List Token} {document : Document}
    (spells : ∀ around others, (tokens ++ others).foldlM Progress.step (.valueDue around) =
      others.foldlM Progress.step (.valueRead around document)) :
    ∃ first rest, tokens = first :: rest ∧ first ≠ .endArray := by
  have alone := spells [] []
  cases tokens with
  | nil => cases alone
  | cons first rest =>
      refine ⟨first, rest, rfl, ?_⟩
      rintro rfl
      cases alone

/-- A first item is read in an array that was just opened as one behind a comma. -/
theorem step_arrayOpened {token : Token} (begins : token ≠ .endArray) (around : List Frame) :
    Progress.step (.arrayOpened around) token =
      Progress.step (.valueDue (.items [] :: around)) token := by
  cases token <;> first | rfl | exact absurd rfl begins

/-- Items with commas between them, up to the end of their array. The items read
before are kept in reverse, so the induction is for any of them. -/
theorem spells_items {text : String} {document : Document} (first : Writes text document)
    {texts : List String} {documents : List Document}
    (others : List.Forall₂ Writes texts documents) :
    ∃ tokens : List Token, ScansAs (",".intercalate (text :: texts)) tokens ∧
      (∃ token rest, tokens = token :: rest ∧ token ≠ .endArray) ∧
      ∀ done around after,
        (tokens ++ Token.endArray :: after).foldlM Progress.step
            (.valueDue (.items done :: around)) =
          after.foldlM Progress.step
            (.valueRead around (.array (done.reverse ++ document :: documents))) := by
  induction others generalizing text document with
  | nil =>
      obtain ⟨tokens, scans, spells⟩ := first
      refine ⟨tokens, ?_, begins_of_spells spells, fun done around after => ?_⟩
      · simpa using scans
      · rw [spells, List.foldlM_cons]
        show after.foldlM Progress.step
          (.valueRead around (.array (document :: done).reverse)) = _
        rw [List.reverse_cons]
  | cons next _ ih =>
      obtain ⟨tokens, scans, spells⟩ := first
      obtain ⟨more, scansMore, -, spellsMore⟩ := ih next
      obtain ⟨token, rest, rfl, begins⟩ := begins_of_spells spells
      refine ⟨token :: rest ++ (.comma :: more), ?_, ⟨token, _, rfl, begins⟩,
        fun done around after => ?_⟩
      · rw [String.intercalate_cons_cons, String.append_assoc]
        exact ScansAs.append scans (scansAs_comma.append scansMore)
      · rw [List.append_assoc, spells, List.cons_append, List.foldlM_cons]
        show (more ++ .endArray :: after).foldlM Progress.step
          (.valueDue (.items (document :: done) :: around)) = _
        rw [spellsMore, List.reverse_cons, List.append_assoc]
        rfl

theorem compactItems_eq_map (items : List Json) : compactItems items = items.map compact := by
  induction items with
  | nil => rfl
  | cons item rest ih => rw [compactItems, ih, List.map_cons]

/-- An array of any number of items. -/
theorem writes_array {items : List Json} {documents : List Document}
    (spelled : List.Forall₂ (fun item document => Writes item.compact document) items documents) :
    Writes (compact (.array items)) (.array documents) := by
  have opening : ScansAs "[" [.beginArray] := scansAs_mark rfl rfl rfl
  have closing : ScansAs "]" [.endArray] := scansAs_mark rfl rfl rfl
  have texts : List.Forall₂ Writes (items.map compact) documents :=
    List.forall₂_map_left_iff.mpr spelled
  rw [compact, compactItems_eq_map]
  generalize items.map compact = parts at texts
  cases texts with
  | nil => exact ⟨_, opening.append closing, fun _ _ => rfl⟩
  | cons first others =>
      obtain ⟨tokens, scans, ⟨token, rest, rfl, begins⟩, spells⟩ := spells_items first others
      refine ⟨_, (opening.append scans).append closing, fun around after => ?_⟩
      have inside := spells [] around after
      rw [List.cons_append, List.foldlM_cons, ← step_arrayOpened begins] at inside
      simp only [List.cons_append, List.append_assoc, List.foldlM_cons,
        List.nil_append]
      exact inside

/-- A text that spells a document is read as that document. -/
theorem Writes.read? {text : String} {document : Document} (writes : Writes text document) :
    Document.read? text.toUTF8 = some document := by
  obtain ⟨tokens, scans, spells⟩ := writes
  have scanned : scan? text.toUTF8.data.toList = some tokens := by
    rw [bytes_toUTF8]
    have whole := scan?_eq_of_scans (scans _ _ scans_nil)
    rwa [List.append_nil, List.append_nil] at whole
  have folded := spells [] []
  rw [List.append_nil] at folded
  rw [Document.read?, scanned, Option.bind_some, Document.ofTokens?, folded]
  rfl

end OData.Json
