import Lexicon.Proofs.Faults
import Lexicon.Proofs.Rereading

/-!
# Which texts are names

A name is what is left when all else is taken away.  It is a text without quotes, blanks and
marks that does not start with a digit, and it is neither a whole number nor a reserved word nor
the beginning of a comment (`IsName`).

A text is read as one name with this text exactly if it is such a text, and all names of a
source are (`tokens_eq_name_iff`).  The rule for names sees a run of characters and no more.
What comes before it in the order of the rules accounts for the other conditions: the rules for
comments look behind the run, and of the numbers only whole ones consist of such characters.
-/

namespace Lexicon

open Text Lexeme

namespace Lexeme

/-! ## The conditions -/

/-- The characters that no name has: the quote, the blanks and the marks. -/
def excluded : List Char := ['"', ' ', '\t', '\r', '\n', '(', ')', '{', '}', ',', ';', '.']

/-- Whether a text is a name. -/
structure IsName (text : Text) : Prop where
  /-- It is not empty. -/
  ne_nil : text ≠ []
  /-- It has no quote, no blank and no mark. -/
  chars : ∀ c ∈ text, c ∉ excluded
  /-- It does not start with a digit. -/
  head : ∀ c ∈ text.head?, c.isDigit = false
  /-- It is no whole number. -/
  notInt : ∀ sign digits, IsSign sign → IsDigits digits → digits ≠ [] → text ≠ sign ++ digits
  /-- It is no reserved word. -/
  notWord : Word.ofText? text = none
  /-- It does not start a line comment. -/
  notLine : ¬['/', '/'] <+: text
  /-- It does not start a block comment that is closed. -/
  notBlock : ∀ body, text = '/' :: '*' :: body → ¬['*', '/'] <:+: body

variable {text : Text}

/-! ## Characters -/

theorem mem_excluded_of_isBoundary {c : Char} (h : isBoundary c = true) : c ∈ excluded := by
  rcases exists_mark_of_isBoundary h with hblank | ⟨m, rfl⟩
  · rcases eq_of_isBlank hblank with rfl | rfl | rfl | rfl <;> decide
  · cases m <;> decide

/-- The characters that do not continue a name are those that no name has. -/
theorem continuesName_iff {c : Char} : continuesName c = true ↔ c ∉ excluded := by
  constructor
  · intro h hmem
    have hall : excluded.all (fun d => !continuesName d) = true := by decide
    have hc := List.all_eq_true.1 hall c hmem
    rw [h] at hc
    cases hc
  · intro hmem
    cases hc : continuesName c with
    | true => rfl
    | false =>
      cases hboundary : isBoundary c with
      | true => exact absurd (mem_excluded_of_isBoundary hboundary) hmem
      | false =>
        obtain rfl := eq_quote_of_not_continuesName hc hboundary
        exact absurd (by decide) hmem

/-! ## Lexemes and conditions -/

theorem nameToken_eq_name_iff {run : Text} :
    nameToken run = .name run ↔ Word.ofText? run = none := by
  rw [nameToken]
  cases Word.ofText? run <;> simp

/-- A run of name characters is refused as a whole number when it is none. -/
theorem int_eq_none_iff_of_run (h : ∀ c ∈ text, continuesName c = true) :
    int text = none ↔
      ∀ sign digits, IsSign sign → IsDigits digits → digits ≠ [] → text ≠ sign ++ digits := by
  constructor
  · rintro hint sign digits hsign hdigits hne rfl
    have hreading := int_of_parts ⟨hsign, hdigits, hne, atBoundary_nil⟩
    rw [List.append_nil, hint] at hreading
    cases hreading
  · intro hno
    cases hint : int text with
    | none => rfl
    | some r =>
      obtain ⟨sign, digits, rest, parts, rfl, -⟩ := exists_parts_of_int hint
      rw [parts.rest_eq_nil h, List.append_nil] at hno
      exact absurd rfl (hno sign digits parts.isSign parts.isDigits parts.ne_nil)

theorem IsLexeme.isName {n : Text} (h : IsLexeme (.name n) text) : IsName n := by
  obtain rfl := h.eq_of_name
  generalize htoken : Token.name text = token at h
  cases h with
  | @name c run start continues notBlock notLine notInt =>
    have hall := forall_continuesName start continues
    have hcomment := not_opensComment_iff.2 ⟨notBlock, notLine⟩
    refine
      { ne_nil := List.cons_ne_nil c run
        chars := fun d hd => continuesName_iff.1 (hall d hd)
        head := ?_
        notInt := (int_eq_none_iff_of_run hall).1 notInt
        notWord := nameToken_eq_name_iff.1 htoken.symm
        notLine := fun hline => hcomment (Or.inl hline)
        notBlock := fun body hbody hclosed => hcomment (Or.inr ⟨body, hbody, hclosed⟩) }
    intro d hd
    obtain rfl : c = d := by simpa using hd
    rw [startsName, Bool.and_eq_true, Bool.not_eq_true'] at start
    exact start.1
  | float => cases htoken
  | int => cases htoken
  | mark => cases htoken
  | string => cases htoken

theorem IsName.isLexeme (h : IsName text) : IsLexeme (.name text) text := by
  have hall : ∀ c ∈ text, continuesName c = true := fun c hc => continuesName_iff.2 (h.chars c hc)
  have hint := (int_eq_none_iff_of_run hall).2 h.notInt
  have htoken := nameToken_eq_name_iff.2 h.notWord
  have hcomment : ¬OpensComment text := by
    rintro (hline | ⟨body, hbody, hclosed⟩)
    · exact h.notLine hline
    · exact h.notBlock body hbody hclosed
  obtain ⟨hblock, hline⟩ := not_opensComment_iff.1 hcomment
  obtain ⟨c, run, rfl⟩ := List.exists_cons_of_ne_nil h.ne_nil
  have hstart : startsName c = true := by
    rw [startsName, h.head c rfl, hall c (List.mem_cons_self ..)]
    rfl
  have hrun : ∀ d ∈ run, continuesName d = true := fun d hd => hall d (List.mem_cons_of_mem c hd)
  have hlexeme := IsLexeme.name hstart hrun hblock hline hint
  rwa [htoken] at hlexeme

end Lexeme

/-! ## The names of a source -/

/-- A text is one name with this text exactly if it meets the conditions of names, and every
name of a source meets them. -/
theorem tokens_eq_name_iff (text : Text) :
    (tokens text = [.name text] ↔ IsName text) ∧ ∀ n, Token.name n ∈ tokens text → IsName n := by
  have hnames : ∀ n, Token.name n ∈ tokens text → IsName n := by
    intro n hn
    rcases exists_lexeme_of_mem_tokens hn with ⟨lexeme, h⟩ | ⟨rest, h⟩
    · exact h.isName
    · cases h
  refine ⟨⟨fun h => hnames text ?_, fun h => tokens_lexeme h.isLexeme⟩, hnames⟩
  rw [h]
  exact List.mem_singleton_self _

end Lexicon
