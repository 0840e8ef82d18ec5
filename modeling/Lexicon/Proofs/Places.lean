import Lexicon.Proofs.Partition

/-!
# Windows and the places they start at

A window is narrowed step by step, and its line and column are counted on the
way.  Here they are compared with the source as a whole.  The line is one more
than the number of line feeds in front of the start, and the column is one more
than the number of characters behind the last of them (`follows_origin`).

What carries the comparison is that one window narrows another (`Window.Narrows`):
a part of the view has been passed and counted, and some blanks at the end have been
trimmed away.  Windows narrow step by step, and every operation on a window is made
of these two things.

The operations are trimming, moving to an end of the view, and exhausting.
Whatever is done, in whatever order, no move is refused, and the offsets and the
place are those of the source (`keepsPlaces`).  The spans of the tokens start
at such windows, so they have the lines and columns of their starts.
-/

namespace Lexicon

open Text Lexeme

/-! ## Lines and columns of a text -/

namespace Text

/-- The line behind a text, counted from one. -/
def lastLine (t : Text) : Nat := 1 + t.count '\n'

/-- The column behind a text, counted from one in the last line. -/
def lastColumn (t : Text) : Nat := 1 + (t.reverse.takeWhile (· != '\n')).length

theorem lastLine_feed (t : Text) : lastLine (t ++ ['\n']) = lastLine t + 1 := by
  simp [lastLine, Nat.add_assoc]

theorem lastColumn_feed (t : Text) : lastColumn (t ++ ['\n']) = 1 := by
  simp [lastColumn]

theorem lastLine_concat {c : Char} (hc : c ≠ '\n') (t : Text) :
    lastLine (t ++ [c]) = lastLine t := by
  simp [lastLine, hc]

theorem lastColumn_concat {c : Char} (hc : c ≠ '\n') (t : Text) :
    lastColumn (t ++ [c]) = lastColumn t + 1 := by
  simp [lastColumn, hc, Nat.add_assoc]

theorem lastLine_le (t : Text) : lastLine t ≤ t.length + 1 := by
  have hcount := List.count_le_length (a := '\n') (l := t)
  simp only [lastLine]
  omega

theorem lastColumn_le (t : Text) : lastColumn t ≤ t.length + 1 := by
  have hrun := (List.takeWhile_prefix (· != '\n') (l := t.reverse)).length_le
  simp only [lastColumn, List.length_reverse] at hrun ⊢
  omega

end Text

/-- Whether a place is the one behind a text. -/
structure Place.Follows (p : Place) (before : Text) : Prop where
  /-- The line counts the line feeds. -/
  line : p.line.toNat = before.lastLine
  /-- The column counts the characters behind the last line feed. -/
  column : p.column.toNat = before.lastColumn

theorem toNat_add_one {n : UInt32} (h : n.toNat + 1 < UInt32.size) :
    (n + 1).toNat = n.toNat + 1 := by
  rw [UInt32.toNat_add]
  exact Nat.mod_eq_of_lt h

theorem Place.Follows.next {p : Place} {before : Text} {c : Char} (h : p.Follows before)
    (hsize : (before ++ [c]).length + 1 < UInt32.size) : (p.next c).Follows (before ++ [c]) := by
  have hline := lastLine_le before
  have hcolumn := lastColumn_le before
  simp only [List.length_append, List.length_singleton] at hsize
  by_cases hc : c = '\n'
  · subst hc
    constructor
    · rw [lastLine_feed, ← h.line]
      exact toNat_add_one (by rw [h.line]; omega)
    · rw [lastColumn_feed]
      rfl
  · simp only [Place.next, if_neg hc]
    constructor
    · rw [lastLine_concat hc]
      exact h.line
    · rw [lastColumn_concat hc, ← h.column]
      exact toNat_add_one (by rw [h.column]; omega)

/-- Line and column are counted right as long as the text is short enough for them. -/
theorem Place.Follows.after {p : Place} {before : Text} (h : p.Follows before) (t : Text)
    (hsize : (before ++ t).length + 1 < UInt32.size) : (p.after t).Follows (before ++ t) := by
  induction t generalizing p before with
  | nil =>
    rw [List.append_nil]
    exact h
  | cons c t ih =>
    have hfront : (before ++ [c]).length + 1 < UInt32.size := by
      simp only [List.length_append, List.length_cons, List.length_nil] at hsize ⊢
      omega
    rw [List.append_cons] at hsize ⊢
    exact ih (h.next hfront) hsize

theorem follows_origin {before : Text} (hsize : before.length + 1 < UInt32.size) :
    (Place.origin.after before).Follows before := by
  have hstart : Place.origin.Follows [] := ⟨rfl, rfl⟩
  exact hstart.after before hsize

/-- Whether line and column of a span are those of its start in a source. -/
def Span.PlacedIn (source : Text) (s : Span) : Prop :=
  ∃ before rest, splitBytes? s.start source = some (before, rest) ∧
    Place.Follows ⟨s.line, s.column⟩ before

/-! ## Narrower windows -/

namespace Window

/-- Whether a window comes from another one, of which a part has been passed and
blanks at the end have been trimmed. -/
def Narrows (w narrow : Window) : Prop :=
  ∃ passed blanks, w.view = passed ++ (narrow.view ++ blanks) ∧ AllBlank blanks ∧
    narrow.position = w.position + passed.byteSize ∧ narrow.place = w.place.after passed

variable {source part rest : Text} {w narrow v : Window}

namespace Narrows

theorem refl (w : Window) : w.Narrows w := ⟨[], [], by simp, allBlank_nil, rfl, rfl⟩

theorem trans (h : w.Narrows narrow) (h' : narrow.Narrows v) : w.Narrows v := by
  obtain ⟨passed, blanks, hview, hblanks, hposition, hplace⟩ := h
  obtain ⟨passed', blanks', hview', hblanks', hposition', hplace'⟩ := h'
  refine ⟨passed ++ passed', blanks' ++ blanks, ?_, allBlank_append hblanks' hblanks, ?_, ?_⟩
  · simp [hview, hview']
  · rw [hposition', hposition, byteSize_append, Nat.add_assoc]
  · rw [hplace', hplace, Place.after_append]

theorem pass (h : w.view = part ++ rest) : w.Narrows (w.pass part rest) :=
  ⟨part, [], by simp [h], allBlank_nil, rfl, rfl⟩

theorem trimEnd (w : Window) : w.Narrows { w with view := w.view.trimEnd } := by
  obtain ⟨blanks, hblanks, hview⟩ := exists_trimEnd_append w.view
  exact ⟨[], blanks, hview.symm, hblanks, rfl, rfl⟩

theorem trim (w : Window) : w.Narrows w.trim :=
  (pass List.takeWhile_append_dropWhile.symm).trans (trimEnd _)

theorem exhaust (w : Window) : w.Narrows w.exhaust := pass (List.append_nil w.view).symm

theorem moveTo (w : Window) (hrest : rest <:+ w.view) : w.Narrows (w.moveTo rest hrest) := by
  obtain ⟨part, hpart⟩ := id hrest
  rw [moveTo_of_append hpart.symm]
  exact pass hpart.symm

/-- A window starts later and ends earlier than the one it comes from. -/
theorem position_le (h : w.Narrows narrow) : w.position ≤ narrow.position := by
  obtain ⟨passed, blanks, -, -, hposition, -⟩ := h
  omega

theorem stop_le (h : w.Narrows narrow) : narrow.stop ≤ w.stop := by
  obtain ⟨passed, blanks, hview, -, hposition, -⟩ := h
  simp only [stop, hview, hposition, byteSize_append]
  omega

/-- The end of a source is as far as a window that cannot be trimmed. -/
theorem trimEnd_source (h : (ofText source).Narrows w) (hne : w.view ≠ [])
    (htrim : w.view.trimEnd = w.view) :
    ∃ before, source.trimEnd = before ++ w.view ∧ w.position = before.byteSize := by
  obtain ⟨before, blanks, hview, hblanks, hposition, -⟩ := h
  rw [view_ofText] at hview
  refine ⟨before, ?_, by simp [hposition, ofText]⟩
  rw [hview, ← List.append_assoc, trimEnd_append_allBlank hblanks,
    trimEnd_append_of_ne_nil (by rwa [htrim]), htrim]

end Narrows

/-! ## Windows on a source -/

/-- Whether the offsets and the place of a window are those of a source. -/
structure Tracks (source : Text) (w : Window) : Prop where
  /-- The view stands between the offsets, and these are between characters. -/
  shows : slice? source w.position w.stop = some w.view
  /-- The start does not pass the end. -/
  ordered : w.position ≤ w.stop
  /-- The end is within the source. -/
  within : w.stop ≤ source.byteSize
  /-- Line and column are those of the start. -/
  placed : w.here.PlacedIn source

theorem Narrows.placed (h : (ofText source).Narrows w) (hsize : source.length + 1 < UInt32.size) :
    w.here.PlacedIn source := by
  obtain ⟨before, blanks, hview, -, hposition, hplace⟩ := h
  rw [view_ofText] at hview
  refine ⟨before, w.view ++ blanks, ?_, ?_⟩
  · have hstart : w.here.start = before.byteSize := by
      rw [here, Span.point, hposition, ofText, Nat.zero_add]
    rw [hstart, hview]
    exact splitBytes?_append before _
  · have hlength : before.length + 1 < UInt32.size := by
      have hle := congrArg List.length hview
      simp only [List.length_append] at hle
      omega
    have hfollows := follows_origin hlength
    rwa [← show w.place = Place.origin.after before from hplace] at hfollows

theorem Narrows.tracks (h : (ofText source).Narrows w) (hsize : source.length + 1 < UInt32.size) :
    w.Tracks source where
  shows := by
    obtain ⟨before, blanks, hview, -, hposition, -⟩ := h
    have hslice := slice?_append before w.view blanks
    rw [← hview, byteSize_append] at hslice
    rw [stop, hposition, ofText, Nat.zero_add]
    exact hslice
  ordered := Nat.le_add_right _ _
  within := by
    have hstop := h.stop_le
    rwa [show (ofText source).stop = source.byteSize from Nat.zero_add _] at hstop
  placed := h.placed hsize

/-- What a later window has passed. -/
theorem Narrows.exists_passed (h : (ofText source).Narrows w) (h' : w.Narrows v) :
    ∃ passed, slice? source w.position v.position = some passed ∧
      v.place = w.place.after passed := by
  obtain ⟨before, blanks, hview, -, hposition, -⟩ := h
  obtain ⟨passed, blanks', hview', -, hposition', hplace⟩ := h'
  have hsource : source = before ++ (passed ++ (v.view ++ blanks' ++ blanks)) := by
    rw [← view_ofText source, hview, hview', List.append_assoc passed]
  have hslice := slice?_append before passed (v.view ++ blanks' ++ blanks)
  rw [← hsource, byteSize_append] at hslice
  refine ⟨passed, ?_, hplace⟩
  rw [hposition', hposition, ofText, Nat.zero_add]
  exact hslice

/-! ## Operations -/

/-- What can be done with a window. -/
inductive Operation where
  /-- It is trimmed at both ends. -/
  | trim
  /-- Everything shown is passed. -/
  | exhaust
  /-- It is moved to what is left of the view behind so many characters.  Every end
  of the view is of this form. -/
  | moveBehind (characters : Nat)
deriving DecidableEq, Repr

/-- The window after an operation, unless the operation is refused. -/
def operate? (w : Window) : Operation → Option Window
  | .trim => some w.trim
  | .exhaust => some w.exhaust
  | .moveBehind characters => w.moveTo? (w.view.drop characters)

/-- The window after some operations, none of which is refused. -/
def perform? (w : Window) (operations : List Operation) : Option Window :=
  operations.foldlM operate? w

theorem exists_operate? (w : Window) (operation : Operation) :
    ∃ v, w.operate? operation = some v ∧ w.Narrows v := by
  cases operation with
  | trim => exact ⟨w.trim, rfl, .trim w⟩
  | exhaust => exact ⟨w.exhaust, rfl, .exhaust w⟩
  | moveBehind characters =>
    have hview := (List.take_append_drop characters w.view).symm
    exact ⟨_, moveTo?_of_append hview, .pass hview⟩

theorem exists_perform? (w : Window) (operations : List Operation) :
    ∃ v, w.perform? operations = some v ∧ w.Narrows v := by
  induction operations generalizing w with
  | nil => exact ⟨w, rfl, .refl w⟩
  | cons operation operations ih =>
    obtain ⟨v, hv, hnarrows⟩ := exists_operate? w operation
    obtain ⟨u, hu, hnarrows'⟩ := ih v
    refine ⟨u, ?_, hnarrows.trans hnarrows'⟩
    rw [perform?, List.foldlM_cons, hv]
    exact hu

theorem narrows_of_perform? {operations : List Operation}
    (h : w.perform? operations = some v) : w.Narrows v := by
  obtain ⟨u, hu, hnarrows⟩ := exists_perform? w operations
  obtain rfl := Option.some.inj (h.symm.trans hu)
  exact hnarrows

end Window

/-! ## Draws -/

/-- What a draw gives that starts at a window. -/
inductive Draw.From (start : Window) (d : Draw) : Prop where
  /-- There is nothing left. -/
  | exhausted (hlexeme : d.lexeme? = none) (hreports : d.reports = [])
      (hfinished : d.stream.finished = true) (hwindow : start.Narrows d.stream.window)
  /-- A token is read at a window, and passed. -/
  | token {w : Window} {k : Token Text} {part rest : Text} (hnarrows : start.Narrows w)
      (hview : w.view = part ++ rest) (hread : read (part ++ rest) = .token k rest)
      (hlexeme : d.lexeme? = some ⟨k, (w.pass part rest).spanFrom w.here⟩)
      (hreports : d.reports = []) (hfinished : d.stream.finished = false)
      (hwindow : d.stream.window = w.pass part rest)
  /-- Nothing can be read at a window, and everything shown is passed. -/
  | fault {w : Window} {cause : Fault} (hnarrows : start.Narrows w) (hview : w.view ≠ [])
      (htrim : w.view.trimEnd = w.view) (hread : read w.view = .fault cause)
      (hlexeme : d.lexeme? = some ⟨.invalid w.view, w.exhaust.spanFrom w.here⟩)
      (hreports : d.reports = [cause.diagnostic (w.exhaust.spanFrom w.here)])
      (hfinished : d.stream.finished = true) (hwindow : d.stream.window = w.exhaust)

/-- A draw may start earlier, and comments may be passed before it. -/
theorem Draw.From.after_comment {start w : Window} {d : Draw} (h : d.From w)
    (hnarrows : start.Narrows w) (event : Event) : (d.after event).From start := by
  cases h with
  | exhausted hlexeme hreports hfinished hwindow =>
    exact .exhausted hlexeme hreports hfinished (hnarrows.trans hwindow)
  | token hnarrows' hview hread hlexeme hreports hfinished hwindow =>
    exact .token (hnarrows.trans hnarrows') hview hread hlexeme hreports hfinished hwindow
  | fault hnarrows' hview htrim hread hlexeme hreports hfinished hwindow =>
    exact .fault (hnarrows.trans hnarrows') hview htrim hread hlexeme hreports hfinished hwindow

namespace TokenStream

open Window

variable {source : Text} {l : Lexeme Text}

theorem from_next (s : TokenStream) (hs : s.finished = false) : s.next.From s.window := by
  fun_induction next s with
  | case1 s hfinished =>
    rw [hs] at hfinished
    cases hfinished
  | case2 s _ w hw => exact .exhausted rfl rfl rfl (.trim _)
  | case3 s _ w hw rest hread passed ih =>
    have hpassed : s.window.Narrows passed :=
      (Narrows.trim s.window).trans (.moveTo _ (read_comment hread).1)
    exact (ih hs).after_comment hpassed _
  | case4 s _ w hw token rest hread passed span =>
    obtain ⟨part, hpart⟩ := (read_token hread).1
    have hpassed : passed = w.pass part rest := moveTo_of_append hpart.symm _
    refine .token (.trim _) hpart.symm (by rwa [hpart]) ?_ rfl rfl hpassed
    rw [← hpassed]
  | case5 s _ w hw cause hread passed span =>
    have hview : w.view ≠ [] := by simpa [isExhausted] using hw
    exact .fault (.trim _) hview (trimEnd_trimEnd _) hread rfl rfl rfl rfl

theorem finished_of_next_eq_some {s : TokenStream} (h : s.next.lexeme? = some l) :
    s.finished = false := by
  cases hs : s.finished with
  | false => rfl
  | true =>
    rw [next_of_finished hs] at h
    cases h

theorem placed_of_mem_drain {s : TokenStream} (hwindow : (Window.ofText source).Narrows s.window)
    (hsize : source.length + 1 < UInt32.size) (hl : l ∈ s.drain.lexemes) :
    l.span.PlacedIn source := by
  fun_induction drain s with
  | case1 => cases hl
  | case2 s draw lexeme hlexeme rest ih =>
    cases from_next s (finished_of_next_eq_some hlexeme) with
    | exhausted hnone _ _ _ =>
      rw [hnone] at hlexeme
      cases hlexeme
    | token hnarrows hview _ hsome _ _ hnext =>
      have hstart := hwindow.trans hnarrows
      rcases List.mem_cons.1 hl with rfl | hl
      · obtain rfl := Option.some.inj (hlexeme.symm.trans hsome)
        exact hstart.placed hsize
      · exact ih (hnext ▸ hstart.trans (.pass hview)) hl
    | fault hnarrows _ _ _ hsome _ _ hnext =>
      have hstart := hwindow.trans hnarrows
      rcases List.mem_cons.1 hl with rfl | hl
      · obtain rfl := Option.some.inj (hlexeme.symm.trans hsome)
        exact hstart.placed hsize
      · exact ih (hnext ▸ hstart.trans (.exhaust _)) hl

end TokenStream

/-! ## The whole source -/

/-- What holds of the windows on a source and of the spans that they give. -/
structure KeepsPlaces (source : Text) : Prop where
  /-- No operation is refused, and all windows are at the offsets and the places of
  the source.  Later ones start later and end earlier. -/
  windows : ∀ operations later, ∃ w v, (Window.ofText source).perform? operations = some w ∧
    w.perform? later = some v ∧ w.Tracks source ∧ v.Tracks source ∧
    w.position ≤ v.position ∧ v.stop ≤ w.stop
  /-- What is passed on the way is cut out of the source, and the place is counted on
  over it. -/
  passes : ∀ operations later w v, (Window.ofText source).perform? operations = some w →
    w.perform? later = some v → ∃ passed, slice? source w.position v.position = some passed ∧
      v.place = w.place.after passed
  /-- A span from one window to a later one has the offsets of both and the place of
  the first. -/
  marks : ∀ operations later w v, (Window.ofText source).perform? operations = some w →
    w.perform? later = some v → (v.spanFrom w.here).start = w.position ∧
      (v.spanFrom w.here).stop = v.position ∧ (v.spanFrom w.here).PlacedIn source
  /-- The span of a token has the place of its start. -/
  lexemes : ∀ l ∈ (Scan.ofText source).lexemes, l.span.PlacedIn source

/-- Lines and columns can be trusted in every source with fewer characters than
there are numbers for them. -/
theorem keepsPlaces (source : Text) (hsize : source.length + 1 < UInt32.size) :
    KeepsPlaces source where
  windows := by
    intro operations later
    obtain ⟨w, hw, hnarrows⟩ := Window.exists_perform? (Window.ofText source) operations
    obtain ⟨v, hv, hnarrows'⟩ := Window.exists_perform? w later
    exact ⟨w, v, hw, hv, hnarrows.tracks hsize, (hnarrows.trans hnarrows').tracks hsize,
      hnarrows'.position_le, hnarrows'.stop_le⟩
  passes := by
    intro operations later w v hw hv
    exact (Window.narrows_of_perform? hw).exists_passed (Window.narrows_of_perform? hv)
  marks := by
    intro operations later w v hw _
    exact ⟨rfl, rfl, (Window.narrows_of_perform? hw).placed hsize⟩
  lexemes := by
    intro l hl
    exact TokenStream.placed_of_mem_drain (s := TokenStream.ofText source) (.refl _) hsize hl

/-- A source of two lines, in which a character has two bytes. -/
theorem keepsPlaces_two_lines :
    ['a', '\n', 'é', ' ', 'b'].length + 1 < UInt32.size ∧
      KeepsPlaces ['a', '\n', 'é', ' ', 'b'] :=
  ⟨by decide, keepsPlaces _ (by decide)⟩

end Lexicon
