import Lexicon.Proofs.Blanks
import Lexicon.TokenStream

/-!
# One draw

The steps of a token stream, one statement for each of the things a draw can meet
once the window is trimmed: nothing, a comment, a token or a fault.  Each gives
the whole draw, with its events, its diagnostics and the stream after it.

A draw looks at the window only after trimming it.  Two windows that are the same
once trimmed are drawn from in the same way (`next_congr`).
-/

namespace Lexicon

open Text

/-! ## Trimming a window -/

namespace Window

/-- A blank at the start is trimmed whether or not it has been passed before. -/
theorem trim_of_view_eq_cons {w : Window} {c : Char} {t : Text} (hview : w.view = c :: t)
    (hc : isBlank c = true) : w.trim = (w.pass [c] t).trim := by
  simp only [trim, pass, hview, List.takeWhile_cons_of_pos hc, List.dropWhile_cons_of_pos hc,
    byteSize_cons, byteSize_nil, Place.after_cons, Place.after_nil]
  rw [Nat.add_zero, Nat.add_assoc]

/-- Without a blank at the start only the end moves. -/
theorem trim_of_stops {w : Window} (h : Stops isBlank w.view) :
    w.trim = ⟨w.position, w.view.trimEnd, w.place⟩ := by
  simp [trim, pass, h.takeWhile_eq, h.dropWhile_eq]

theorem isExhausted_of_eq_nil {w : Window} (h : w.view = []) : w.isExhausted = true :=
  List.isEmpty_iff.2 h

theorem isExhausted_of_ne_nil {w : Window} (h : w.view ≠ []) : w.isExhausted = false :=
  List.isEmpty_eq_false_iff.2 h

end Window

/-- Nothing but the fault of the empty text is read at the end. -/
theorem Lexeme.ne_nil_of_read {text : Text} {r : Reading} (h : Lexeme.read text = r)
    (hr : r ≠ .fault .unexpected) : text ≠ [] := by
  rintro rfl
  exact hr h.symm

/-- A scan that is preceded by an event. -/
def Scan.after (event : Event) (s : Scan) : Scan := { s with events := event :: s.events }

namespace TokenStream

variable {s s' : TokenStream} {part rest : Text}

/-! ## The steps of a draw -/

theorem next_of_exhausted (hs : s.finished = false) (hview : s.window.trim.view = []) :
    s.next = ⟨none, [.finished s.delivered], [],
      { s with window := s.window.trim, finished := true }⟩ := by
  have hex := Window.isExhausted_of_eq_nil hview
  rw [next]
  simp only [hs, hex, Bool.false_eq_true, if_false, if_true]

theorem isExhausted_eq_false_of_read {w : Window} {r : Reading}
    (hread : Lexeme.read w.view = r) (hr : r ≠ .fault .unexpected) : w.isExhausted = false :=
  Window.isExhausted_of_ne_nil (Lexeme.ne_nil_of_read hread hr)

/-- A comment is passed over, and the draw goes on behind it. -/
theorem next_of_comment (hs : s.finished = false) (hview : s.window.trim.view = part ++ rest)
    (hread : Lexeme.read (part ++ rest) = .comment rest) :
    s.next = (next { s with window := s.window.trim.pass part rest }).after
      (.comment ((s.window.trim.pass part rest).spanFrom s.window.trim.here)) := by
  rw [← hview] at hread
  have hex := isExhausted_eq_false_of_read hread (by simp)
  rw [next]
  simp only [hs, hex, Bool.false_eq_true, if_false]
  split
  · rename_i r hr
    obtain rfl : r = rest := Reading.comment.inj (hr.symm.trans hread)
    rw [Window.moveTo_of_append hview]
  · rename_i hr
    cases hr.symm.trans hread
  · rename_i hr
    cases hr.symm.trans hread

/-- A token is delivered with its span. -/
theorem next_of_token {token : Token Text} (hs : s.finished = false)
    (hview : s.window.trim.view = part ++ rest)
    (hread : Lexeme.read (part ++ rest) = .token token rest) :
    s.next = ⟨some ⟨token, (s.window.trim.pass part rest).spanFrom s.window.trim.here⟩,
      [.token token.kind ((s.window.trim.pass part rest).spanFrom s.window.trim.here)], [],
      ⟨s.window.trim.pass part rest, s.delivered + 1, false⟩⟩ := by
  rw [← hview] at hread
  have hex := isExhausted_eq_false_of_read hread (by simp)
  rw [next]
  simp only [hs, hex, Bool.false_eq_true, if_false]
  split
  · rename_i hr
    cases hr.symm.trans hread
  · rename_i k r hr
    obtain ⟨rfl, rfl⟩ : k = token ∧ r = rest := Reading.token.inj (hr.symm.trans hread)
    rw [Window.moveTo_of_append hview]
  · rename_i hr
    cases hr.symm.trans hread

/-- A fault delivers all that is left as one invalid token, and the stream ends. -/
theorem next_of_fault {cause : Fault} (hs : s.finished = false)
    (hview : s.window.trim.view ≠ []) (hread : Lexeme.read s.window.trim.view = .fault cause) :
    s.next = ⟨some ⟨.invalid s.window.trim.view,
        s.window.trim.exhaust.spanFrom s.window.trim.here⟩,
      [.failed cause (s.window.trim.exhaust.spanFrom s.window.trim.here),
        .finished (s.delivered + 1)],
      [cause.diagnostic (s.window.trim.exhaust.spanFrom s.window.trim.here)],
      ⟨s.window.trim.exhaust, s.delivered + 1, true⟩⟩ := by
  have hex := Window.isExhausted_of_ne_nil hview
  rw [next]
  simp only [hs, hex, Bool.false_eq_true, if_false]
  split
  · rename_i hr
    cases hr.symm.trans hread
  · rename_i hr
    cases hr.symm.trans hread
  · rename_i e hr
    obtain rfl : e = cause := Reading.fault.inj (hr.symm.trans hread)
    rfl

/-- A finished stream delivers nothing and stays as it is. -/
theorem next_of_finished (hs : s.finished = true) : s.next = ⟨none, [], [], s⟩ := by
  rw [next, if_pos hs]

/-- What is trimmed away has no influence on a draw. -/
theorem next_congr (hs : s.finished = false) (hs' : s'.finished = false)
    (hdelivered : s.delivered = s'.delivered) (hwindow : s.window.trim = s'.window.trim) :
    s.next = s'.next := by
  obtain ⟨w, n, f⟩ := s
  obtain ⟨w', n', f'⟩ := s'
  obtain rfl : f = false := hs
  obtain rfl : f' = false := hs'
  obtain rfl : n = n' := hdelivered
  replace hwindow : w.trim = w'.trim := hwindow
  by_cases hview : w.trim.view = []
  · have hview' : w'.trim.view = [] := by rw [← hwindow, hview]
    have hnext := next_of_exhausted (s := ⟨w, n, false⟩) rfl hview
    have hnext' := next_of_exhausted (s := ⟨w', n, false⟩) rfl hview'
    rw [hnext, hnext', hwindow]
  · cases hread : Lexeme.read w.trim.view with
    | comment rest =>
      obtain ⟨part, hpart⟩ := (Lexeme.read_comment hread).1
      have hpart' : w'.trim.view = part ++ rest := by rw [← hwindow, hpart]
      rw [← hpart] at hread
      have hnext := next_of_comment (s := ⟨w, n, false⟩) rfl hpart.symm hread
      have hnext' := next_of_comment (s := ⟨w', n, false⟩) rfl hpart' hread
      rw [hnext, hnext', hwindow]
    | token k rest =>
      obtain ⟨part, hpart⟩ := (Lexeme.read_token hread).1
      have hpart' : w'.trim.view = part ++ rest := by rw [← hwindow, hpart]
      rw [← hpart] at hread
      have hnext := next_of_token (s := ⟨w, n, false⟩) rfl hpart.symm hread
      have hnext' := next_of_token (s := ⟨w', n, false⟩) rfl hpart' hread
      rw [hnext, hnext', hwindow]
    | fault cause =>
      have hview' : w'.trim.view ≠ [] := by rwa [← hwindow]
      have hread' : Lexeme.read w'.trim.view = .fault cause := by rwa [← hwindow]
      have hnext := next_of_fault (s := ⟨w, n, false⟩) rfl hview hread
      have hnext' := next_of_fault (s := ⟨w', n, false⟩) rfl hview' hread'
      rw [hnext, hnext', hwindow]

/-! ## Drawing all tokens -/

theorem drain_of_none (h : s.next.lexeme? = none) :
    s.drain = ⟨[], s.next.events, s.next.reports, s.next.stream⟩ := by
  rw [drain]
  split
  · rfl
  · rename_i l hl
    rw [h] at hl
    cases hl

theorem drain_of_some {l : Lexeme Text} (h : s.next.lexeme? = some l) :
    s.drain = ⟨l :: s.next.stream.drain.lexemes, s.next.events ++ s.next.stream.drain.events,
      s.next.reports ++ s.next.stream.drain.reports, s.next.stream.drain.stream⟩ := by
  rw [drain]
  split
  · rename_i hl
    rw [h] at hl
    cases hl
  · rename_i k hk
    obtain rfl : k = l := Option.some.inj (hk.symm.trans h)
    rfl

theorem lexemes_drain_of_none (h : s.next.lexeme? = none) : s.drain.lexemes = [] := by
  rw [drain_of_none h]

theorem lexemes_drain_of_some {l : Lexeme Text} (h : s.next.lexeme? = some l) :
    s.drain.lexemes = l :: s.next.stream.drain.lexemes := by
  rw [drain_of_some h]

/-- What is drawn depends on the first draw alone. -/
theorem drain_congr (hnext : s.next = s'.next) : s.drain = s'.drain := by
  cases h : s.next.lexeme? with
  | none => rw [drain_of_none h, drain_of_none (s := s') (hnext ▸ h), hnext]
  | some l => rw [drain_of_some h, drain_of_some (s := s') (hnext ▸ h), hnext]

/-- A first draw that begins with an event. -/
theorem drain_after {event : Event} (hnext : s.next = s'.next.after event) :
    s.drain = s'.drain.after event := by
  cases h : s'.next.lexeme? with
  | none =>
    rw [drain_of_none h, drain_of_none (by rw [hnext]; exact h), hnext]
    rfl
  | some l =>
    rw [drain_of_some h, drain_of_some (by rw [hnext]; exact h), hnext]
    rfl

/-- A comment is an event and no token. -/
theorem drain_of_comment (hs : s.finished = false) (hview : s.window.trim.view = part ++ rest)
    (hread : Lexeme.read (part ++ rest) = .comment rest) :
    s.drain = (drain { s with window := s.window.trim.pass part rest }).after
      (.comment ((s.window.trim.pass part rest).spanFrom s.window.trim.here)) :=
  drain_after (next_of_comment hs hview hread)

theorem lexemes_drain_of_comment (hs : s.finished = false)
    (hview : s.window.trim.view = part ++ rest)
    (hread : Lexeme.read (part ++ rest) = .comment rest) :
    s.drain.lexemes = (drain { s with window := s.window.trim.pass part rest }).lexemes := by
  rw [drain_of_comment hs hview hread]
  rfl

end TokenStream

end Lexicon
