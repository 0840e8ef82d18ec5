/-!
# Spans

A span is a stretch of a source text, from the byte offset of its first
character to the offset just past its last, together with the line and the
column at which it starts.  Lines and columns count from one, and a column
counts characters and not bytes.

A span is not required to end after it starts.  One that does not is empty.
-/

namespace Lexicon

/-- A stretch of source text and the position at which it starts. -/
structure Span where
  /-- The offset of the first byte. -/
  start : Nat
  /-- The offset past the last byte. -/
  stop : Nat
  /-- The line of the start. -/
  line : UInt32
  /-- The column of the start. -/
  column : UInt32
deriving DecidableEq, Repr

namespace Span

/-- The span of no text in particular. -/
def nowhere : Span := ⟨0, 0, 0, 0⟩

instance : Inhabited Span := ⟨nowhere⟩

/-- The empty span at a position. -/
def point (offset : Nat) (line column : UInt32) : Span := ⟨offset, offset, line, column⟩

/-- The number of bytes covered. -/
def length (s : Span) : Nat := s.stop - s.start

/-- Whether no byte is covered. -/
def isEmpty (s : Span) : Bool := decide (s.stop ≤ s.start)

/-- The position of the start, as readers of a message are told it. -/
def position (s : Span) : String :=
  toString s.line.toNat ++ ":" ++ toString s.column.toNat

theorem isEmpty_iff_length_eq_zero (s : Span) : s.isEmpty = true ↔ s.length = 0 := by
  simp [isEmpty, length]; omega

end Span

end Lexicon
