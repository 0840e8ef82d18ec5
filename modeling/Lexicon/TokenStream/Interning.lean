import Lexicon.Lexeme.Interning
import Lexicon.TokenStream

/-!
# Token streams that intern names

A stream whose tokens are drawn with an interner gives each name to it while the name is being
read.  The state of the interner goes through the draw, also through the comments that it
passes over and through a fault.

`TokenStream.nextNamed_eq` says that this is a draw of the stream by itself, the name of the
token being interned afterwards.  `drainNamed` draws until nothing is delivered.
-/

namespace Lexicon

variable {σ ν : Type}

theorem Token.kind_interned (intern : Interner σ ν) (state : σ) (t : Token Text) :
    (t.interned intern state).1.kind = t.kind := by
  cases t <;> rfl

/-- A token with its name interned, and its place. -/
def Lexeme.interned (intern : Interner σ ν) (state : σ) (l : Lexeme Text) : Lexeme ν × σ :=
  let (token, state) := l.token.interned intern state
  (⟨token, l.span⟩, state)

/-- Tokens with their names interned, first token first. -/
def Lexeme.allInterned (intern : Interner σ ν) (state : σ) :
    List (Lexeme Text) → List (Lexeme ν) × σ
  | [] => ([], state)
  | l :: ls =>
    let (first, state) := l.interned intern state
    let (others, state) := allInterned intern state ls
    (first :: others, state)
termination_by structural ls => ls

/-- What a draw gives when names are interned. -/
structure NamedDraw (σ ν : Type) where
  /-- The token, unless there is none left. -/
  lexeme? : Option (Lexeme ν)
  /-- What happened, in order. -/
  events : List Event
  /-- The diagnostics to be shown, in order. -/
  reports : List Diagnostic
  /-- The stream after the draw. -/
  stream : TokenStream
  /-- The state of the interner after the draw. -/
  state : σ

/-- A draw that is preceded by an event. -/
def NamedDraw.after (event : Event) (d : NamedDraw σ ν) : NamedDraw σ ν :=
  { d with events := event :: d.events }

/-- A draw with the name of its token interned. -/
def Draw.interned (intern : Interner σ ν) (state : σ) (d : Draw) : NamedDraw σ ν :=
  match d.lexeme? with
  | none => ⟨none, d.events, d.reports, d.stream, state⟩
  | some lexeme =>
    let (kept, state) := lexeme.interned intern state
    ⟨some kept, d.events, d.reports, d.stream, state⟩

theorem Draw.interned_after (intern : Interner σ ν) (state : σ) (event : Event) (d : Draw) :
    (d.after event).interned intern state = (d.interned intern state).after event := by
  obtain ⟨lexeme?, events, reports, stream⟩ := d
  cases lexeme? <;> rfl

namespace TokenStream

/-! ## Drawing one token -/

/-- Draws the next token, its name being interned. -/
def nextNamed (intern : Interner σ ν) (s : TokenStream) (state : σ) : NamedDraw σ ν :=
  if s.finished then ⟨none, [], [], s, state⟩
  else
    let w := s.window.trim
    if w.isExhausted then
      ⟨none, [.finished s.delivered], [], { s with window := w, finished := true }, state⟩
    else
      match h : Lexeme.readNamed intern state w.view with
      | (.comment rest, state) =>
        let passed := w.moveTo rest (Lexeme.read_comment (Lexeme.read_of_readNamed_comment h)).1
        (nextNamed intern { s with window := passed } state).after (.comment (passed.spanFrom w.here))
      | (.token token rest, state) =>
        have hrest : rest <:+ w.view :=
          (Lexeme.exists_read_of_readNamed_token h).elim fun _ hread => (Lexeme.read_token hread).1
        let passed := w.moveTo rest hrest
        let span := passed.spanFrom w.here
        ⟨some ⟨token, span⟩, [.token token.kind span], [], ⟨passed, s.delivered + 1, false⟩, state⟩
      | (.fault cause, state) =>
        let passed := w.exhaust
        let span := passed.spanFrom w.here
        ⟨some ⟨.invalid w.view, span⟩, [.failed cause span, .finished (s.delivered + 1)],
          [cause.diagnostic span], ⟨passed, s.delivered + 1, true⟩, state⟩
termination_by s.window.view.length
decreasing_by
  simp only [Window.view_moveTo]
  exact Nat.lt_of_lt_of_le (Lexeme.read_comment (Lexeme.read_of_readNamed_comment h)).2
    (Text.length_trim_le _)

/-- Interning the name of a token while it is drawn is interning it afterwards. -/
theorem nextNamed_eq (intern : Interner σ ν) (s : TokenStream) (state : σ) :
    s.nextNamed intern state = s.next.interned intern state := by
  fun_induction next s with
  | case1 s hfinished =>
    rw [nextNamed, if_pos hfinished]
    rfl
  | case2 s hfinished w hexhausted =>
    rw [nextNamed, if_neg hfinished]
    exact if_pos hexhausted
  | case3 s hfinished w hexhausted rest hread passed ih =>
    have hnamed : Lexeme.readNamed intern state w.view = (.comment rest, state) := by
      rw [Lexeme.readNamed_eq, hread]
      rfl
    rw [nextNamed, if_neg hfinished, Draw.interned_after, ← ih]
    refine (if_neg hexhausted).trans ?_
    split
    · rename_i r after hr
      cases hr.symm.trans hnamed
      rfl
    · rename_i hr
      cases hr.symm.trans hnamed
    · rename_i hr
      cases hr.symm.trans hnamed
  | case4 s hfinished w hexhausted token rest hread passed span =>
    have hnamed : Lexeme.readNamed intern state w.view =
        (.token (token.interned intern state).1 rest, (token.interned intern state).2) := by
      rw [Lexeme.readNamed_eq, hread]
      rfl
    rw [nextNamed, if_neg hfinished]
    refine (if_neg hexhausted).trans ?_
    split
    · rename_i hr
      cases hr.symm.trans hnamed
    · rename_i kept r after hr
      cases hr.symm.trans hnamed
      rw [token.kind_interned intern state]
      rfl
    · rename_i hr
      cases hr.symm.trans hnamed
  | case5 s hfinished w hexhausted cause hread passed span =>
    have hnamed : Lexeme.readNamed intern state w.view = (.fault cause, state) := by
      rw [Lexeme.readNamed_eq, hread]
      rfl
    rw [nextNamed, if_neg hfinished]
    refine (if_neg hexhausted).trans ?_
    split
    · rename_i hr
      cases hr.symm.trans hnamed
    · rename_i hr
      cases hr.symm.trans hnamed
    · rename_i hr
      cases hr.symm.trans hnamed
      rfl

theorem length_view_nextNamed_lt {intern : Interner σ ν} {s : TokenStream} {state : σ}
    {l : Lexeme ν} (h : (s.nextNamed intern state).lexeme? = some l) :
    (s.nextNamed intern state).stream.window.view.length < s.window.view.length := by
  rw [nextNamed_eq, Draw.interned] at h ⊢
  cases hnext : s.next.lexeme? with
  | none =>
    rw [hnext] at h
    cases h
  | some k => exact length_view_next_lt hnext

/-! ## Drawing all tokens -/

/-- Draws tokens until there is none left, their names being interned. -/
def drainNamed (intern : Interner σ ν) (s : TokenStream) (state : σ) : List (Lexeme ν) × σ :=
  let draw := s.nextNamed intern state
  match _ : draw.lexeme? with
  | none => ([], draw.state)
  | some lexeme =>
    let (others, state) := drainNamed intern draw.stream draw.state
    (lexeme :: others, state)
termination_by s.window.view.length
decreasing_by exact length_view_nextNamed_lt ‹_›

end TokenStream

/-- Reads a source to its end, its names being interned. -/
def Scan.named (intern : Interner σ ν) (state : σ) (source : Text) : List (Lexeme ν) × σ :=
  (TokenStream.ofText source).drainNamed intern state

end Lexicon
