import Lexicon.Lexeme.Comment
import Lexicon.Lexeme.Numeral
import Lexicon.Lexeme.Quotation

/-!
# The rules of reading

A name is a run of characters other than boundaries and double quotes, and does
not start with a decimal digit.  A boundary must follow, so a run that stops at
a quote is no name.  A name that spells a reserved word is that word.

`rules` lists all rules in the order in which they are tried.  The first one
that gives a reading decides, and a text for which there is none is a fault.
`read` consumes whenever it reads something (`read_consumes`).
-/

namespace Lexicon.Lexeme

/-! ## Names and marks -/

/-- Whether a character may stand in a name after the first. -/
def continuesName (c : Char) : Bool := c != '"' && !isBoundary c

/-- Whether a character may be the first of a name. -/
def startsName (c : Char) : Bool := !c.isDigit && continuesName c

/-- The token for the text of a name: a reserved word, or the name itself. -/
def nameToken (run : Text) : Token Text :=
  match Word.ofText? run with
  | some w => .word w
  | none => .name run

/-- Reads a name or a reserved word. -/
def name : Rule
  | [] => none
  | c :: t =>
    let rest := t.dropWhile continuesName
    if startsName c && Text.atBoundary rest then
      some (.token (nameToken (c :: t.takeWhile continuesName)) rest)
    else none

/-- Reads a punctuation mark. -/
def mark : Rule
  | [] => none
  | c :: t => (Mark.ofChar? c).map fun m => .token (.mark m) t

/-! ## The order of the rules -/

/-- All rules with their names, in the order in which they are tried. -/
def rules : List (String × Rule) :=
  [("block comment", blockComment),
   ("line comment", lineComment),
   ("float", float),
   ("int", int),
   ("identifier", name),
   ("punctuation", mark),
   ("string", quotation)]

/-- What a text starts with. -/
def read (text : Text) : Reading :=
  (rules.findSome? fun rule => rule.2 text).getD (.fault .unexpected)

/-- What a text starts with, an unreadable text being one invalid token with
nothing after it. -/
def readTotal (text : Text) : Option (Token Text) × Text :=
  match read text with
  | .comment rest => (none, rest)
  | .token token rest => (some token, rest)
  | .fault _ => (some (.invalid text), [])

/-! ## Progress -/

theorem name_progresses : Rule.Progresses name := by
  intro text reading h
  unfold name at h
  split at h
  · simp at h
  · rename_i c t
    dsimp only at h
    split at h
    · obtain rfl := Option.some.inj h
      have hs : t.dropWhile continuesName <:+ t := List.dropWhile_suffix _
      have hl := hs.length_le
      exact Reading.consumes_token _ (hs.trans (List.suffix_cons _ _)) (by simp; omega)
    · simp at h

theorem mark_progresses : Rule.Progresses mark := by
  intro text reading h
  unfold mark at h
  split at h
  · simp at h
  · obtain ⟨m, -, rfl⟩ := Option.map_eq_some_iff.1 h
    exact Reading.consumes_token _ (List.suffix_cons _ _) (by simp)

theorem progresses_of_mem_rules {rule : String × Rule} (h : rule ∈ rules) :
    Rule.Progresses rule.2 := by
  simp only [rules, List.mem_cons, List.not_mem_nil, or_false] at h
  rcases h with rfl | rfl | rfl | rfl | rfl | rfl | rfl
  · exact blockComment_progresses
  · exact lineComment_progresses
  · exact float_progresses
  · exact int_progresses
  · exact name_progresses
  · exact mark_progresses
  · exact quotation_progresses

theorem read_consumes (text : Text) : (read text).Consumes text := by
  unfold read
  cases hfind : rules.findSome? fun rule => rule.2 text with
  | none => exact Reading.consumes_fault _ _
  | some reading =>
    obtain ⟨rule, hmem, hrule⟩ := List.exists_of_findSome?_eq_some hfind
    exact progresses_of_mem_rules hmem text reading hrule

theorem read_comment {text rest : Text} (h : read text = .comment rest) :
    rest <:+ text ∧ rest.length < text.length :=
  read_consumes text rest (by rw [h]; rfl)

theorem read_token {text rest : Text} {token : Token Text} (h : read text = .token token rest) :
    rest <:+ text ∧ rest.length < text.length :=
  read_consumes text rest (by rw [h]; rfl)

end Lexicon.Lexeme
