import Lexicon.Proofs.Reports
import Mathlib.Data.List.Forall2
import Lexicon.TokenStream.Reader

/-!
# Readers and the tokens of a source

Whatever a reader asks for, and in whatever order, it is given the tokens of the source
from the first one on (`readsInOrder`).  None is left out and none is given twice.  The
answers are those that could be given from the list of all tokens, where each request
takes what it asks for off the front (`Request.take`).

What is left of the list at any time is what the stream of the reader still delivers.
This is the invariant of a request (`ask_eq`), and a list of requests keeps it
(`askAll_eq`).  The window of the stream only narrows (`ask_narrows`), so a reader never
goes back, and behind a token it stands where the span of the token stops.

There are two ways to learn that there is no more.  After the last valid token a request
is needed that gives nothing, while an invalid token is itself the last one.  In both
cases the stream has finished (`finished_of_ends`), and from then on requests give
nothing and change nothing.
-/

namespace Lexicon

open Text Lexeme

namespace Reader

variable {r : Reader} {request : Request} {l : Lexeme Text}

/-! ## What is asked for and what is given -/

/-- The answer to a request from a list of tokens, and what it leaves of the list. -/
def Request.take : Request → List (Lexeme Text) → Answer × List (Lexeme Text)
  | lexeme, ls => (.lexeme ls.head?, ls.tail)
  | token, ls | element, ls => (.token (ls.head?.map (·.token)), ls.tail)
  | rest, ls => (.tokens (ls.map (·.token)), [])

/-- The answers to requests from a list of tokens, and what they leave of the list. -/
def takeAll : List Request → List (Lexeme Text) → List Answer × List (Lexeme Text)
  | [], ls => ([], ls)
  | request :: requests, ls =>
    let (answer, left) := request.take ls
    let (answers, left) := takeAll requests left
    (answer :: answers, left)
termination_by structural requests => requests

/-- The answer to a request when there is nothing left. -/
def Request.nothing (request : Request) : Answer := (request.take []).1

/-- Whether a request is for a single token. -/
def Request.isSingle : Request → Bool
  | lexeme | token | element => true
  | rest => false

/-- The tokens in an answer, with their spans if it has them. -/
def Answer.given : Answer → List (Token Text × Option Span)
  | lexeme lexeme? => lexeme?.toList.map fun l => (l.token, some l.span)
  | token token? => token?.toList.map fun k => (k, none)
  | tokens ks => ks.map fun k => (k, none)

/-- Whether a token, and its span if there is one, are those of a lexeme. -/
def IsOf (given : Token Text × Option Span) (l : Lexeme Text) : Prop :=
  given.1 = l.token ∧ ∀ span ∈ given.2, span = l.span

/-- Whether an answer says that there is no more: it is nothing, or it is an invalid
token, or all that was left has been asked for. -/
def Answer.Ends : Answer → Prop
  | lexeme lexeme? => ∀ l ∈ lexeme?, l.token.isInvalid = true
  | token token? => ∀ k ∈ token?, k.isInvalid = true
  | tokens _ => True

/-! ## Single tokens -/

/-- What the stream of a reader still delivers. -/
def left (r : Reader) : List (Lexeme Text) := r.stream.drain.lexemes

theorem finished_of_lexeme?_eq_none {s : TokenStream} (h : s.next.lexeme? = none) :
    s.next.stream.finished = true := by
  cases hs : s.finished with
  | true => rw [TokenStream.next_of_finished hs, hs]
  | false =>
    cases TokenStream.from_next s hs with
    | exhausted _ _ hfinished _ => exact hfinished
    | token _ _ _ hsome _ _ _ =>
      rw [h] at hsome
      cases hsome
    | fault _ _ _ _ hsome _ _ _ =>
      rw [h] at hsome
      cases hsome

theorem left_of_finished (h : r.stream.finished = true) : r.left = [] := by
  rw [left, TokenStream.drain_of_finished h]

/-- A reader is given the first of the tokens that are left. -/
theorem nextLexeme_eq (r : Reader) :
    r.nextLexeme.1 = r.left.head? ∧ r.nextLexeme.2.left = r.left.tail := by
  cases h : r.stream.next.lexeme? with
  | none =>
    have hleft : r.left = [] := TokenStream.lexemes_drain_of_none h
    rw [hleft]
    exact ⟨h, left_of_finished (finished_of_lexeme?_eq_none h)⟩
  | some l =>
    have hleft : r.left = l :: r.nextLexeme.2.left := TokenStream.lexemes_drain_of_some h
    rw [hleft]
    exact ⟨h, rfl⟩

theorem nextToken_eq (r : Reader) :
    r.nextToken.1 = r.left.head?.map (·.token) ∧ r.nextToken.2.left = r.left.tail := by
  obtain ⟨hanswer, hleft⟩ := r.nextLexeme_eq
  rw [← hanswer]
  exact ⟨rfl, hleft⟩

/-! ## Everything that is left -/

theorem restTokens_of_none (h : r.nextToken.1 = none) :
    r.restTokens = ([], r.nextToken.2) := by
  rw [restTokens]
  split
  · rfl
  · rename_i k hk
    rw [h] at hk
    cases hk

theorem finished_nextToken_of_none (h : r.nextToken.1 = none) :
    r.nextToken.2.stream.finished = true :=
  finished_of_lexeme?_eq_none (Option.map_eq_none_iff.1 h)

/-- Everything that is left is given, and the stream has finished. -/
theorem restTokens_eq (r : Reader) :
    r.restTokens.1 = r.left.map (·.token) ∧ r.restTokens.2.stream.finished = true := by
  fun_induction restTokens r with
  | case1 r hnone =>
    obtain ⟨hanswer, -⟩ := r.nextToken_eq
    have hhead : r.left.head? = none := by
      rw [hnone] at hanswer
      exact Option.map_eq_none_iff.1 hanswer.symm
    rw [List.head?_eq_none_iff.1 hhead]
    exact ⟨rfl, finished_nextToken_of_none hnone⟩
  | case2 r k hsome later ih =>
    obtain ⟨hanswer, hleft⟩ := r.nextToken_eq
    obtain ⟨l, hl, hk⟩ := Option.map_eq_some_iff.1 (hanswer.symm.trans hsome)
    obtain ⟨ls, hls⟩ := List.head?_eq_some_iff.1 hl
    rw [hls, List.tail_cons] at hleft
    rw [hls, List.map_cons, hk, ih.1, hleft]
    exact ⟨rfl, ih.2⟩

/-! ## The invariant of a request -/

/-- A request takes off what is left what it asks for. -/
theorem ask_eq (r : Reader) (request : Request) :
    (r.ask request).1 = (request.take r.left).1 ∧
      (r.ask request).2.left = (request.take r.left).2 := by
  cases request with
  | lexeme =>
    obtain ⟨hanswer, hleft⟩ := r.nextLexeme_eq
    exact ⟨congrArg _ hanswer, hleft⟩
  | token | element =>
    obtain ⟨hanswer, hleft⟩ := r.nextToken_eq
    exact ⟨congrArg _ hanswer, hleft⟩
  | rest =>
    obtain ⟨htokens, hfinished⟩ := r.restTokens_eq
    exact ⟨congrArg _ htokens, left_of_finished hfinished⟩

theorem askAll_eq (r : Reader) (requests : List Request) :
    (r.askAll requests).1 = (takeAll requests r.left).1 ∧
      (r.askAll requests).2.left = (takeAll requests r.left).2 := by
  induction requests generalizing r with
  | nil => exact ⟨rfl, rfl⟩
  | cons request requests ih =>
    obtain ⟨hanswer, hleft⟩ := r.ask_eq request
    obtain ⟨hanswers, hlast⟩ := ih (r.ask request).2
    rw [hleft] at hanswers hlast
    simp only [askAll, takeAll, hanswer, hanswers]
    exact ⟨trivial, hlast⟩

theorem askAll_append (r : Reader) (earlier later : List Request) :
    (r.askAll (earlier ++ later)).2 = ((r.askAll earlier).2.askAll later).2 := by
  induction earlier generalizing r with
  | nil => rfl
  | cons request earlier ih => exact ih (r.ask request).2

/-! ## What has been given -/

theorem isOf_self (l : Lexeme Text) : IsOf (l.token, some l.span) l :=
  ⟨rfl, fun _ h => (Option.some.inj h).symm⟩

theorem isOf_token (l : Lexeme Text) : IsOf (l.token, none) l :=
  ⟨rfl, fun _ h => by cases h⟩

/-- A request takes the first tokens. -/
theorem Request.exists_given (request : Request) (ls : List (Lexeme Text)) :
    ∃ taken, ls = taken ++ (request.take ls).2 ∧
      List.Forall₂ IsOf (request.take ls).1.given taken := by
  cases request with
  | lexeme =>
    cases ls with
    | nil => exact ⟨[], rfl, .nil⟩
    | cons l ls => exact ⟨[l], rfl, .cons (isOf_self l) .nil⟩
  | token | element =>
    cases ls with
    | nil => exact ⟨[], rfl, .nil⟩
    | cons l ls => exact ⟨[l], rfl, .cons (isOf_token l) .nil⟩
  | rest =>
    refine ⟨ls, (List.append_nil ls).symm, ?_⟩
    simp only [take, Answer.given, List.map_map]
    induction ls with
    | nil => exact .nil
    | cons l ls ih => exact .cons (isOf_token l) ih

theorem exists_given (requests : List Request) (ls : List (Lexeme Text)) :
    ∃ taken, ls = taken ++ (takeAll requests ls).2 ∧
      List.Forall₂ IsOf ((takeAll requests ls).1.flatMap Answer.given) taken := by
  induction requests generalizing ls with
  | nil => exact ⟨[], rfl, .nil⟩
  | cons request requests ih =>
    obtain ⟨first, hfirst, hgiven⟩ := request.exists_given ls
    obtain ⟨others, hothers, hgiven'⟩ := ih (request.take ls).2
    refine ⟨first ++ others, ?_, ?_⟩
    · rw [List.append_assoc]
      exact hfirst.trans (congrArg _ hothers)
    · exact List.rel_append hgiven hgiven'

/-! ## Where a reader stands -/

theorem nextLexeme_narrows (r : Reader) :
    r.stream.window.Narrows r.nextLexeme.2.stream.window := by
  show r.stream.window.Narrows r.stream.next.stream.window
  cases hs : r.stream.finished with
  | true =>
    rw [TokenStream.next_of_finished hs]
    exact .refl _
  | false =>
    cases TokenStream.from_next r.stream hs with
    | exhausted _ _ _ hwindow => exact hwindow
    | token hnarrows hview _ _ _ _ hwindow =>
      rw [hwindow]
      exact hnarrows.trans (.pass hview)
    | fault hnarrows _ _ _ _ _ _ hwindow =>
      rw [hwindow]
      exact hnarrows.trans (.exhaust _)

theorem restTokens_narrows (r : Reader) :
    r.stream.window.Narrows r.restTokens.2.stream.window := by
  fun_induction restTokens r with
  | case1 r _ => exact r.nextLexeme_narrows
  | case2 r k _ later ih => exact r.nextLexeme_narrows.trans ih

theorem ask_narrows (r : Reader) (request : Request) :
    r.stream.window.Narrows (r.ask request).2.stream.window := by
  cases request with
  | lexeme | token | element => exact r.nextLexeme_narrows
  | rest => exact r.restTokens_narrows

theorem askAll_narrows (r : Reader) (requests : List Request) :
    r.stream.window.Narrows (r.askAll requests).2.stream.window := by
  induction requests generalizing r with
  | nil => exact .refl _
  | cons request requests ih => exact (r.ask_narrows request).trans (ih (r.ask request).2)

/-- Behind a token a reader stands where the span of the token stops. -/
theorem position_nextLexeme (h : r.nextLexeme.1 = some l) :
    r.nextLexeme.2.position = l.span.stop := by
  show r.stream.next.stream.window.position = l.span.stop
  cases TokenStream.from_next r.stream (TokenStream.finished_of_next_eq_some h) with
  | exhausted hnone _ _ _ => cases hnone.symm.trans h
  | token _ _ _ hsome _ _ hwindow =>
    obtain rfl := Option.some.inj (hsome.symm.trans h)
    rw [hwindow]
    rfl
  | fault _ _ _ _ hsome _ _ hwindow =>
    obtain rfl := Option.some.inj (hsome.symm.trans h)
    rw [hwindow]
    rfl

theorem position_ask_of_single {ls : List (Lexeme Text)} (hsingle : request.isSingle = true)
    (h : r.left = l :: ls) : (r.ask request).2.position = l.span.stop := by
  have hnext : r.nextLexeme.1 = some l := by rw [r.nextLexeme_eq.1, h, List.head?_cons]
  cases request with
  | lexeme | token | element => exact position_nextLexeme hnext
  | rest => cases hsingle

/-! ## After the end -/

/-- An invalid token is the last one. -/
theorem finished_of_isInvalid (h : r.nextLexeme.1 = some l) (hl : l.token.isInvalid = true) :
    r.nextLexeme.2.stream.finished = true := by
  cases TokenStream.from_next r.stream (TokenStream.finished_of_next_eq_some h) with
  | exhausted _ _ hfinished _ => exact hfinished
  | token _ _ hread hsome _ _ _ =>
    obtain rfl := Option.some.inj (hsome.symm.trans h)
    rw [Token.isInvalid_of_isLexeme (isLexeme_of_read hread)] at hl
    cases hl
  | fault _ _ _ _ _ _ hfinished _ => exact hfinished

theorem finished_nextLexeme (h : ∀ l ∈ r.nextLexeme.1, l.token.isInvalid = true) :
    r.nextLexeme.2.stream.finished = true := by
  cases hnext : r.nextLexeme.1 with
  | none => exact finished_of_lexeme?_eq_none hnext
  | some l => exact finished_of_isInvalid hnext (h l hnext)

theorem finished_of_ends (h : (r.ask request).1.Ends) :
    (r.ask request).2.stream.finished = true := by
  cases request with
  | lexeme => exact finished_nextLexeme h
  | token | element =>
    refine finished_nextLexeme fun l hl => ?_
    exact h l.token (Option.mem_map_of_mem (·.token) hl)
  | rest => exact r.restTokens_eq.2

theorem nextLexeme_of_finished (h : r.stream.finished = true) : r.nextLexeme = (none, r) := by
  simp only [nextLexeme, TokenStream.next_of_finished h, List.append_nil]

theorem nextToken_of_finished (h : r.stream.finished = true) : r.nextToken = (none, r) := by
  simp only [nextToken, nextLexeme_of_finished h, Option.map_none]

theorem ask_of_finished (h : r.stream.finished = true) (request : Request) :
    r.ask request = (request.nothing, r) := by
  have htoken := nextToken_of_finished h
  cases request with
  | lexeme =>
    rw [ask, nextLexeme_of_finished h]
    rfl
  | token | element =>
    rw [ask, htoken]
    rfl
  | rest =>
    rw [ask, restTokens_of_none (congrArg Prod.fst htoken), htoken]
    rfl

theorem askAll_of_finished (h : r.stream.finished = true) (requests : List Request) :
    r.askAll requests = (requests.map Request.nothing, r) := by
  induction requests with
  | nil => rfl
  | cons request requests ih => simp only [askAll, ask_of_finished h, ih, List.map_cons]

/-! ## One token after another -/

/-- To ask for everything is to ask for one element after another until there is none. -/
theorem restTokens_eq_askAll (r : Reader) :
    r.restTokens.2 = (r.askAll (List.replicate (r.left.length + 1) .element)).2 := by
  fun_induction restTokens r with
  | case1 r hnone =>
    have hfinished := finished_nextToken_of_none hnone
    rw [List.replicate_succ]
    show r.nextToken.2 = (r.nextToken.2.askAll _).2
    rw [askAll_of_finished hfinished]
  | case2 r k hsome later ih =>
    obtain ⟨hanswer, hleft⟩ := r.nextToken_eq
    obtain ⟨l, hl, -⟩ := Option.map_eq_some_iff.1 (hanswer.symm.trans hsome)
    obtain ⟨ls, hls⟩ := List.head?_eq_some_iff.1 hl
    rw [hls, List.tail_cons] at hleft
    rw [hleft] at ih
    rw [hls, List.length_cons, List.replicate_succ]
    exact ih

/-! ## The whole source -/

/-- The reader of a source after some requests. -/
def after (source : Text) (collected : List Diagnostic) (requests : List Request) : Reader :=
  ((ofText source collected).askAll requests).2

end Reader

open Reader

/-- How readers get the tokens of a source, whatever diagnostics have been collected
before and whatever has been asked for before. -/
structure ReadsInOrder (source : Text) : Prop where
  /-- The answers are those from the list of all tokens. -/
  answers : ∀ collected requests, ((Reader.ofText source collected).askAll requests).1 =
    (takeAll requests (Scan.ofText source).lexemes).1
  /-- What has been given are the first tokens, and the others are still to be had. -/
  given : ∀ collected requests, ∃ taken,
    (Scan.ofText source).lexemes = taken ++ (after source collected requests).left ∧
      List.Forall₂ IsOf
        (((Reader.ofText source collected).askAll requests).1.flatMap Answer.given) taken
  /-- Reading to the end without spans gives the tokens alone. -/
  tokens : ∀ collected, (Reader.ofText source collected).restTokens.1 = tokens source ∧
    tokens source = (Scan.ofText source).lexemes.map (·.token)
  /-- To ask for everything is to ask for one element after another. -/
  rest : ∀ collected requests, (after source collected (requests ++ [.rest])) =
    after source collected
      (requests ++ List.replicate ((after source collected requests).left.length + 1) .element)
  /-- A reader does not go back. -/
  position_le : ∀ collected requests later,
    (after source collected requests).position ≤
      (after source collected (requests ++ later)).position
  /-- Behind a token a reader stands where the span of the token stops. -/
  position_eq : ∀ collected requests request l left, request.isSingle = true →
    (after source collected requests).left = l :: left →
      (after source collected (requests ++ [request])).position = l.span.stop
  /-- When an answer says that there is no more, later requests give nothing, and they
  change neither the stream nor the diagnostics. -/
  ended : ∀ collected requests request later,
    ((after source collected requests).ask request).1.Ends →
      ((after source collected requests).ask request).2.askAll later =
        (later.map Request.nothing, ((after source collected requests).ask request).2)

/-- Readers get the tokens of every source in order. -/
theorem readsInOrder (source : Text) : ReadsInOrder source where
  answers := fun collected requests => ((Reader.ofText source collected).askAll_eq requests).1
  given := by
    intro collected requests
    obtain ⟨hanswers, hleft⟩ := (Reader.ofText source collected).askAll_eq requests
    obtain ⟨taken, htaken, hgiven⟩ := exists_given requests (Scan.ofText source).lexemes
    refine ⟨taken, ?_, ?_⟩
    · rw [after, hleft]
      exact htaken
    · rw [hanswers]
      exact hgiven
  tokens := fun collected => ⟨(Reader.ofText source collected).restTokens_eq.1, rfl⟩
  rest := by
    intro collected requests
    rw [after, after, askAll_append, askAll_append]
    exact restTokens_eq_askAll (after source collected requests)
  position_le := by
    intro collected requests later
    have hlater := (after source collected requests).askAll_narrows later
    rw [after, after, askAll_append]
    exact hlater.position_le
  position_eq := by
    intro collected requests request l left hsingle hleft
    have hposition := position_ask_of_single hsingle hleft
    rw [after, askAll_append]
    exact hposition
  ended := by
    intro collected requests request later hends
    exact askAll_of_finished (finished_of_ends hends) later

end Lexicon
