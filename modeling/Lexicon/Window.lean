import Lexicon.Span
import Lexicon.Token.Mark

/-!
# Windows on a source

A window is the part of a source that is still to be read.  It starts at some
byte offset and shows a view, the text from there on.  It only ever narrows:
its start moves over what has been read, and its end moves back over blanks.
The place of its start, line and column, is kept up to date.

The start moves by a number of bytes, and a move that would end inside a
character or past the end is refused (`skip?`).  `moveTo?` moves to a given
rest of the view and looks at nothing but its size.  For a true end of the view
that is enough: `moveTo?_of_suffix` says that the move succeeds and shows
exactly that rest.  So `moveTo`, which asks for a proof of this, cannot fail.
-/

namespace Lexicon

/-! ## Places -/

/-- A line and a column, both counted from one. -/
structure Place where
  /-- The line. -/
  line : UInt32
  /-- The column. -/
  column : UInt32
deriving DecidableEq, Repr

namespace Place

/-- The place where a source starts. -/
def origin : Place := ⟨1, 1⟩

/-- The place after a character.  Only a line feed ends a line. -/
def next (p : Place) (c : Char) : Place :=
  if c = '\n' then ⟨p.line + 1, 1⟩ else ⟨p.line, p.column + 1⟩

/-- The place after a text. -/
def after (p : Place) (t : Text) : Place := t.foldl next p

@[simp] theorem after_nil (p : Place) : p.after [] = p := rfl

@[simp] theorem after_cons (p : Place) (c : Char) (t : Text) :
    p.after (c :: t) = (p.next c).after t := rfl

@[simp] theorem after_append (p : Place) (a b : Text) : p.after (a ++ b) = (p.after a).after b := by
  simp [after]

end Place

/-! ## Windows -/

/-- The part of a source that is still to be read. -/
structure Window where
  /-- The byte offset of the start. -/
  position : Nat
  /-- The text that is shown. -/
  view : Text
  /-- The place of the start. -/
  place : Place
deriving DecidableEq, Repr

namespace Window

/-- The window on a whole source. -/
def ofText (source : Text) : Window := ⟨0, source, Place.origin⟩

/-- The byte offset past the end. -/
def stop (w : Window) : Nat := w.position + w.view.byteSize

/-- Whether nothing is shown. -/
def isExhausted (w : Window) : Bool := w.view.isEmpty

/-- The window after the first part of the view has been read. -/
def pass (w : Window) (part rest : Text) : Window :=
  ⟨w.position + part.byteSize, rest, w.place.after part⟩

/-- The window without the blanks at either end. -/
def trim (w : Window) : Window :=
  let trimmed := w.pass (w.view.takeWhile isBlank) (w.view.dropWhile isBlank)
  { trimmed with view := Text.trimEnd trimmed.view }

/-- The window after a number of bytes. -/
def skip? (w : Window) (bytes : Nat) : Option Window :=
  (w.view.splitBytes? bytes).map fun cut => w.pass cut.1 cut.2

/-- The window whose view is as long as a given text, or the same window when
the text is longer than the view. -/
def moveTo? (w : Window) (rest : Text) : Option Window :=
  w.skip? (w.view.byteSize - rest.byteSize)

theorem moveTo?_of_append {w : Window} {part rest : Text} (h : w.view = part ++ rest) :
    w.moveTo? rest = some (w.pass part rest) := by
  have hsize : w.view.byteSize - rest.byteSize = part.byteSize := by
    rw [h, Text.byteSize_append]
    omega
  rw [moveTo?, skip?, hsize, h, Text.splitBytes?_append]
  rfl

theorem moveTo?_of_suffix {w : Window} {rest : Text} (h : rest <:+ w.view) :
    ∃ moved, w.moveTo? rest = some moved ∧ moved.view = rest := by
  obtain ⟨part, hpart⟩ := h
  exact ⟨_, moveTo?_of_append hpart.symm, rfl⟩

/-- The window on an end of the view. -/
def moveTo (w : Window) (rest : Text) (h : rest <:+ w.view) : Window :=
  (w.moveTo? rest).get (by obtain ⟨moved, hmoved, -⟩ := moveTo?_of_suffix h; simp [hmoved])

/-- The window after everything shown has been read. -/
def exhaust (w : Window) : Window := w.pass w.view []

/-- The empty span at the start. -/
def here (w : Window) : Span := Span.point w.position w.place.line w.place.column

/-- The span from an earlier start to this one. -/
def spanFrom (w : Window) (earlier : Span) : Span := { earlier with stop := w.position }

/-! ## What the operations show -/

@[simp] theorem view_ofText (source : Text) : (ofText source).view = source := rfl

@[simp] theorem view_pass (w : Window) (part rest : Text) : (w.pass part rest).view = rest := rfl

@[simp] theorem view_trim (w : Window) : w.trim.view = w.view.trim := rfl

@[simp] theorem view_exhaust (w : Window) : w.exhaust.view = [] := rfl

theorem moveTo_of_append {w : Window} {part rest : Text} (h : w.view = part ++ rest)
    (hs : rest <:+ w.view) : w.moveTo rest hs = w.pass part rest := by
  simp [moveTo, moveTo?_of_append h]

@[simp] theorem view_moveTo (w : Window) (rest : Text) (h : rest <:+ w.view) :
    (w.moveTo rest h).view = rest := by
  obtain ⟨part, hpart⟩ := id h
  rw [moveTo_of_append hpart.symm]
  rfl

end Window

end Lexicon
