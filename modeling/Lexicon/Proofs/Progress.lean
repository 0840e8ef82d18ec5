import Lexicon.Proofs.Cuts
import Lexicon.Proofs.Drawing
import Lexicon.TokenStream.Cutting

/-!
# Progress

Reading a source comes to its end, and cuts the source only where it can be cut
(`readsSafely`).  Any text is read, trimmed or not, and whatever characters it has.

Cuts are looked at in the rules that work out byte offsets.  None of them is refused, and the
rules give what the rules of reading give.  So what is known about the one is known about the
other.  What a rule leaves is a shorter end of what it was given.

A stream that cuts has no result when a cut is refused, when the window is moved to something
that is no end of its view, or when it runs out of rounds.  With one round more than there are
characters it always has a result, and this is the draw or the scan that a token stream makes.
The number of characters in view goes down in every round, which is also why there are no more
tokens than characters.
-/

namespace Lexicon

open Text Lexeme

variable {text content part rest : Text}

/-! ## What is left -/

/-- Whether a text is a shorter end of another one. -/
def ProperEnd (rest text : Text) : Prop := rest <:+ text ∧ rest ≠ text

theorem properEnd_of_length_lt (hsuffix : rest <:+ text) (hlength : rest.length < text.length) :
    ProperEnd rest text := by
  refine ⟨hsuffix, ?_⟩
  rintro rfl
  exact Nat.lt_irrefl _ hlength

theorem properEnd_append_cons (front : Text) (c : Char) (rest : Text) :
    ProperEnd rest (front ++ c :: rest) := by
  refine properEnd_of_length_lt ((List.suffix_cons c rest).trans (List.suffix_append _ _)) ?_
  rw [List.length_append, List.length_cons]
  omega

theorem Reading.Consumes.properEnd {reading : Reading} (h : reading.Consumes text)
    (hrest : reading.rest? = some rest) : ProperEnd rest text :=
  properEnd_of_length_lt (h rest hrest).1 (h rest hrest).2

theorem properEnd_of_quotationBody (h : quotationBody text = .ok (content, rest)) :
    ProperEnd rest text := by
  obtain ⟨body, rfl, -, -⟩ := exists_quotes h
  exact properEnd_append_cons body '"' rest

/-! ## Moving a window -/

namespace Window

variable {w : Window}

theorem trim?_eq (w : Window) : w.trim? = some w.trim := by
  have hmove := moveTo?_of_append (List.takeWhile_append_dropWhile (p := isBlank) (l := w.view)).symm
  rw [moveTo?] at hmove
  rw [trim?, hmove]
  rfl

theorem advance?_of_append (h : w.view = part ++ rest) :
    w.advance? rest = some (w.pass part rest) := by
  rw [advance?, if_pos ⟨part, h.symm⟩, moveTo?_of_append h]

theorem exhaust?_eq (w : Window) : w.exhaust? = some w.exhaust :=
  moveTo?_of_append (List.append_nil w.view).symm

end Window

/-! ## Rounds -/

namespace TokenStream

variable {s : TokenStream} {rounds : Nat}

/-- A draw is done when there are more rounds than characters in view. -/
theorem nextWithin?_eq (h : s.window.view.length < rounds) :
    s.nextWithin? rounds = some s.next := by
  induction rounds generalizing s with
  | zero => exact absurd h (Nat.not_lt_zero _)
  | succ rounds ih =>
    cases hs : s.finished with
    | true => rw [next_of_finished hs, nextWithin?, if_pos hs]
    | false =>
      have htrim : s.window.trim.view.length ≤ s.window.view.length := Text.length_trim_le _
      by_cases hview : s.window.trim.view = []
      · have hex := Window.isExhausted_of_eq_nil hview
        rw [next_of_exhausted hs hview]
        simp only [nextWithin?, hs, Window.trim?_eq, hex, Option.bind_eq_bind, Option.bind_some,
          Bool.false_eq_true, if_false, if_true]
        rfl
      · have hex := Window.isExhausted_of_ne_nil hview
        cases hread : Lexeme.read s.window.trim.view with
        | comment rest =>
          obtain ⟨⟨part, hpart⟩, hlength⟩ := read_comment hread
          have hshorter : rest.length < rounds := by omega
          have hrest := ih (s := ⟨s.window.trim.pass part rest, s.delivered, false⟩) hshorter
          rw [next_of_comment hs hpart.symm (hpart.symm ▸ hread)]
          simp only [nextWithin?, hs, Window.trim?_eq, hex, Cutting.read_eq, hread,
            Window.advance?_of_append hpart.symm, hrest, Option.bind_eq_bind, Option.bind_some,
            Bool.false_eq_true, if_false]
          rfl
        | token k rest =>
          obtain ⟨part, hpart⟩ := (read_token hread).1
          rw [next_of_token hs hpart.symm (hpart.symm ▸ hread)]
          simp only [nextWithin?, hs, Window.trim?_eq, hex, Cutting.read_eq, hread,
            Window.advance?_of_append hpart.symm, Option.bind_eq_bind, Option.bind_some,
            Bool.false_eq_true, if_false]
          rfl
        | fault cause =>
          rw [next_of_fault hs hview hread]
          simp only [nextWithin?, hs, Window.trim?_eq, hex, Cutting.read_eq, hread,
            Window.exhaust?_eq, Option.bind_eq_bind, Option.bind_some, Bool.false_eq_true, if_false]
          rfl

/-- So are all draws together, as every token takes some characters. -/
theorem drainWithin?_eq (h : s.window.view.length < rounds) :
    s.drainWithin? rounds = some s.drain := by
  induction rounds generalizing s with
  | zero => exact absurd h (Nat.not_lt_zero _)
  | succ rounds ih =>
    rw [drainWithin?, nextWithin?_eq h]
    cases hl : s.next.lexeme? with
    | none =>
      rw [drain_of_none hl]
      simp only [hl, Option.bind_eq_bind, Option.bind_some]
      rfl
    | some l =>
      have hlength := length_view_next_lt hl
      have hrest := ih (s := s.next.stream) (by omega)
      rw [drain_of_some hl]
      simp only [hl, hrest, Option.bind_eq_bind, Option.bind_some]
      rfl

theorem length_lexemes_drain_le (s : TokenStream) :
    s.drain.lexemes.length ≤ s.window.view.length := by
  fun_induction drain s with
  | case1 => exact Nat.zero_le _
  | case2 s draw l hl rest ih =>
    have hrest : rest.lexemes.length ≤ s.next.stream.window.view.length := ih
    have hlength := length_view_next_lt hl
    rw [List.length_cons]
    omega

end TokenStream

/-! ## All texts -/

/-- How safely texts are read. -/
structure ReadsSafely : Prop where
  /-- No rule is refused a cut. -/
  ruleCuts : Cutting.rules = Lexeme.rules.map Cutting.unrefused
  /-- All rules together are not refused a cut. -/
  readCuts : ∀ text, Cutting.read text = some (read text)
  /-- Reading the body of a string literal is not refused a cut. -/
  bodyCuts : ∀ text, Cutting.quotationBody text = some (quotationBody text)
  /-- A rule that reads something leaves a shorter end of the text. -/
  ruleLeaves : ∀ rule ∈ Lexeme.rules, ∀ text reading, rule.2 text = some reading →
    ∀ rest, reading.rest? = some rest → ProperEnd rest text
  /-- So do all rules together. -/
  readLeaves : ∀ text rest, (read text).rest? = some rest → ProperEnd rest text
  /-- So does reading the body of a string literal. -/
  bodyLeaves : ∀ text content rest, quotationBody text = .ok (content, rest) →
    ProperEnd rest text
  /-- A draw comes to its end, and the window is only moved to ends of its view. -/
  drawEnds : ∀ s : TokenStream, s.nextWithin? (s.window.view.length + 1) = some s.next
  /-- Reading a source comes to its end. -/
  scanEnds : ∀ source, Scan.ofTextWithin? (source.length + 1) source = some (Scan.ofText source)
  /-- There are no more tokens than characters. -/
  tokensLe : ∀ source, (tokens source).length ≤ source.length

/-- All texts are read safely. -/
theorem readsSafely : ReadsSafely where
  ruleCuts := Cutting.rules_eq
  readCuts := Cutting.read_eq
  bodyCuts := Cutting.quotationBody_eq
  ruleLeaves := by
    intro rule hrule text reading hreading rest hrest
    exact (progresses_of_mem_rules hrule text reading hreading).properEnd hrest
  readLeaves := by
    intro text rest hrest
    exact (read_consumes text).properEnd hrest
  bodyLeaves := by
    intro text content rest h
    exact properEnd_of_quotationBody h
  drawEnds := fun s => TokenStream.nextWithin?_eq (Nat.lt_succ_self _)
  scanEnds := by
    intro source
    have hdrain : (TokenStream.ofText source).drainWithin? (source.length + 1) =
        some (TokenStream.ofText source).drain :=
      TokenStream.drainWithin?_eq (Nat.lt_succ_self source.length)
    rw [Scan.ofTextWithin?, hdrain]
    rfl
  tokensLe := by
    intro source
    have hlength := TokenStream.length_lexemes_drain_le (TokenStream.ofText source)
    rwa [← List.length_map (fun l : Lexeme Text => l.token)] at hlength

end Lexicon
