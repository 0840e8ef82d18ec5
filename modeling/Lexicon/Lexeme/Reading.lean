import Lexicon.Fault
import Lexicon.Token

/-!
# Readings

A reading is what the start of a text turns out to be: a comment, a token or a
fault.  The first two come with the rest of the text.  A rule looks at the start
of a text for one kind of lexeme and gives a reading, or none when the text
starts with something else.

A reading consumes when its rest is a shorter end of the text.  Every reading
of every rule does (`Consumes`), and reading on from the rest therefore comes
to an end.
-/

namespace Lexicon

/-- What the start of a text turns out to be. -/
inductive Reading where
  /-- A comment, and the text after it. -/
  | comment (rest : Text)
  /-- A token, and the text after it. -/
  | token (token : Token Text) (rest : Text)
  /-- Nothing that can be read. -/
  | fault (cause : Fault)
deriving DecidableEq, Repr

/-- A rule for one kind of lexeme. -/
abbrev Rule := Text → Option Reading

namespace Reading

/-- The text after what was read, if something was. -/
def rest? : Reading → Option Text
  | comment rest => some rest
  | token _ rest => some rest
  | fault _ => none

/-- A fault, or a rest that is a shorter end of the text. -/
def Consumes (text : Text) (r : Reading) : Prop :=
  ∀ rest, r.rest? = some rest → rest <:+ text ∧ rest.length < text.length

theorem consumes_fault (text : Text) (cause : Fault) : Consumes text (fault cause) := by
  intro rest h
  simp [rest?] at h

theorem consumes_comment {text rest : Text} (hs : rest <:+ text) (hl : rest.length < text.length) :
    Consumes text (comment rest) := by
  intro r h
  obtain rfl : rest = r := by simpa [rest?] using h
  exact ⟨hs, hl⟩

theorem consumes_token {text rest : Text} (t : Token Text) (hs : rest <:+ text)
    (hl : rest.length < text.length) : Consumes text (token t rest) := by
  intro r h
  obtain rfl : rest = r := by simpa [rest?] using h
  exact ⟨hs, hl⟩

end Reading

/-- A rule all of whose readings consume. -/
def Rule.Progresses (rule : Rule) : Prop :=
  ∀ text reading, rule text = some reading → reading.Consumes text

end Lexicon
