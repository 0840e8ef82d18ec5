import Lexicon.Proofs.Interning
import Lexicon.Proofs.Readers
import Lexicon.TokenStream.Session

/-!
# Sessions and the table they share

What a reader is given does not depend on the table of names, on the calls that others make to
it, or on the other readers (`Session.independent`).  Only the symbols depend on them.  They
are the same for the same name and different for different names, also when the tokens come
from different readers.

A table that grows keeps the symbols it has issued (`Extends`).  So all symbols of a session
are those of the table at its end, and what a reader has been given is what it is given by
itself, with the symbols of that table put in for the names (`Session.given_makeAll`).  This is
the invariant of a list of moves.  The two runs that are to be compared have different symbols,
and they agree because both are compared with the reader by itself.

Indices have 32 bits, so names are told apart in tables with `2 ^ 32` values at most.
-/

namespace Lexicon

open Text Lexeme

/-! ## Tables that grow -/

namespace SymbolTable

variable {α : Type} [BEq α] [Hashable α] {table later last : SymbolTable α} {value other : α}
  {values : List α}

/-- The symbol of a value in a table, if the table has the value. -/
def symbolOf (table : SymbolTable α) (value : α) : Symbol := ⟨(table.index[value]?).getD 0⟩

/-- Whether a table has a value. -/
def Knows (table : SymbolTable α) (value : α) : Prop := ∃ i, table.index[value]? = some i

/-- Whether a later table still finds what an earlier one finds. -/
def Extends (table later : SymbolTable α) : Prop :=
  ∀ (value : α) (i : UInt32), table.index[value]? = some i → later.index[value]? = some i

theorem Extends.refl (table : SymbolTable α) : table.Extends table := fun _ _ h => h

theorem Extends.trans (h : table.Extends later) (h' : later.Extends last) :
    table.Extends last := fun value i hi => h' value i (h value i hi)

theorem Extends.symbolOf_eq (h : table.Extends later) {i : UInt32}
    (hi : table.index[value]? = some i) : later.symbolOf value = ⟨i⟩ := by
  rw [symbolOf, h value i hi]
  rfl

/-- In a table that is not too large, the symbol of a value leads back to it. -/
theorem Sound.get?_symbolOf (h : table.Sound) (hsize : table.count ≤ UInt32.size)
    (hvalue : table.Knows value) : table.get? (table.symbolOf value) = some value := by
  obtain ⟨i, hi⟩ := hvalue
  rw [(Extends.refl table).symbolOf_eq hi]
  exact (h.indexed hi).get?_eq hsize

theorem Sound.symbolOf_eq_iff (h : table.Sound) (hsize : table.count ≤ UInt32.size)
    (hvalue : table.Knows value) (hother : table.Knows other) :
    table.symbolOf value = table.symbolOf other ↔ value = other := by
  constructor
  · intro heq
    have hget := h.get?_symbolOf hsize hvalue
    rw [heq, h.get?_symbolOf hsize hother] at hget
    exact (Option.some.inj hget).symm
  · rintro rfl
    rfl

theorem count_call_le (table : SymbolTable α) (c : Call α) :
    (table.call c).2.count ≤ table.count + 1 := by
  cases c with
  | intern value =>
    show (table.intern value).2.count ≤ _
    rw [SymbolTable.intern]
    cases table.index[value]? with
    | none => exact Nat.le_of_eq (Array.size_push _)
    | some i => exact Nat.le_succ _
  | get s =>
    rw [call_of_value?_eq_none table rfl]
    exact Nat.le_succ _
  | stats => exact Nat.le_succ _

/-- A call adds one value at most. -/
theorem count_callAll_le (table : SymbolTable α) (calls : List (Call α)) :
    (table.callAll calls).2.count ≤ table.count + calls.length := by
  induction calls generalizing table with
  | nil => exact Nat.le_refl _
  | cons c calls ih =>
    have hfirst := table.count_call_le c
    have hrest := ih (table.call c).2
    rw [List.length_cons]
    show ((table.call c).2.callAll calls).2.count ≤ _
    omega

variable [LawfulBEq α]

theorem index_intern_self (table : SymbolTable α) (value : α) :
    (table.intern value).2.index[value]? = some (table.intern value).1.index := by
  rw [SymbolTable.intern]
  cases h : table.index[value]? with
  | none => exact index_add_self table value
  | some i => exact h

theorem Sound.extends_intern (h : table.Sound) (value : α) :
    table.Extends (table.intern value).2 := by
  intro other i hi
  by_cases hvalue : value ∈ table.values
  · obtain ⟨j, -, hintern⟩ := h.intern_of_mem hvalue
    rw [hintern]
    exact hi
  · rw [h.intern_of_not_mem hvalue]
    exact h.index_add hvalue hi

theorem Sound.call (h : table.Sound) (c : Call α) : (table.call c).2.Sound := by
  cases c with
  | intern value => exact h.intern value
  | get s => rwa [call_of_value?_eq_none table rfl]
  | stats => exact h

theorem Sound.extends_call (h : table.Sound) (c : Call α) : table.Extends (table.call c).2 := by
  cases c with
  | intern value => exact h.extends_intern value
  | get s =>
    rw [call_of_value?_eq_none table rfl]
    exact .refl table
  | stats => exact .refl table

end SymbolTable

/-! ## Names in a table that has grown -/

namespace NameTable

variable {table later : NameTable} {k : Token Text} {l : Lexeme Text} {d : Draw}

/-- Whether a table has the name of a token, if the token is one. -/
def Names (table : NameTable) (l : Lexeme Text) : Prop :=
  ∀ run, l.token = .name run → table.Knows run

/-- A token and its place, its symbol being resolved. -/
def resolveLexeme (table : NameTable) (l : Lexeme Symbol) : Lexeme Text :=
  ⟨table.resolve l.token, l.span⟩

theorem token_interned (h : (k.interned SymbolTable.intern table).2.Extends later) :
    (k.interned SymbolTable.intern table).1 = k.map later.symbolOf := by
  cases k with
  | name run =>
    exact congrArg Token.name (h.symbolOf_eq (SymbolTable.index_intern_self table run)).symm
  | _ => rfl

theorem lexeme_interned (h : (l.interned SymbolTable.intern table).2.Extends later) :
    (l.interned SymbolTable.intern table).1 = l.map later.symbolOf ∧ later.Names l := by
  obtain ⟨k, span⟩ := l
  refine ⟨congrArg (Lexeme.mk · span) (token_interned h), ?_⟩
  rintro run rfl
  exact ⟨_, h run _ (SymbolTable.index_intern_self table run)⟩

theorem sound_interned (h : table.Sound) (k : Token Text) :
    (k.interned SymbolTable.intern table).2.Sound ∧
      table.Extends (k.interned SymbolTable.intern table).2 := by
  cases k with
  | name run => exact ⟨h.intern run, h.extends_intern run⟩
  | _ => exact ⟨h, .refl table⟩

/-- What a draw delivers is resolved to what it delivers by itself. -/
theorem resolveLexeme_map (h : table.Sound) (hsize : table.count ≤ UInt32.size)
    (hl : table.Names l) : table.resolveLexeme (l.map table.symbolOf) = l := by
  obtain ⟨k, span⟩ := l
  cases k with
  | name run =>
    have hget := h.get?_symbolOf hsize (hl run rfl)
    simp only [resolveLexeme, Lexeme.map, resolve, Token.map, hget, Option.getD_some]
  | _ => rfl

end NameTable

/-! ## Draws -/

namespace Draw

variable {table later : NameTable} {d : Draw}

theorem sound_interned (h : table.Sound) (d : Draw) :
    (d.interned SymbolTable.intern table).state.Sound ∧
      table.Extends (d.interned SymbolTable.intern table).state := by
  rw [interned]
  cases d.lexeme? with
  | none => exact ⟨h, .refl table⟩
  | some l => exact NameTable.sound_interned h l.token

theorem lexeme?_interned (h : (d.interned SymbolTable.intern table).state.Extends later) :
    (d.interned SymbolTable.intern table).lexeme? = d.lexeme?.map (Lexeme.map later.symbolOf) ∧
      ∀ l ∈ d.lexeme?, later.Names l := by
  rw [interned] at h ⊢
  cases hl : d.lexeme? with
  | none => exact ⟨rfl, fun l hmem => by cases hmem⟩
  | some l =>
    rw [hl] at h
    obtain ⟨hlexeme, hnames⟩ := NameTable.lexeme_interned h
    refine ⟨congrArg some hlexeme, ?_⟩
    intro m hm
    obtain rfl := Option.some.inj hm
    exact hnames

theorem stream_interned (d : Draw) (table : NameTable) :
    (d.interned SymbolTable.intern table).stream = d.stream ∧
      (d.interned SymbolTable.intern table).reports = d.reports := by
  rw [interned]
  cases d.lexeme? <;> exact ⟨rfl, rfl⟩

end Draw

/-! ## Requests for one token after another -/

namespace Reader

/-- A reader after so many requests for a token. -/
def asked (r : Reader) (n : Nat) : Reader := (r.askAll (List.replicate n .lexeme)).2

theorem asked_succ (r : Reader) (n : Nat) : r.asked (n + 1) = r.nextLexeme.2.asked n := rfl

/-- The first tokens that are left, with nothing behind the last of them. -/
def upcoming (r : Reader) (n : Nat) : List (Option (Lexeme Text)) :=
  (List.range n).map fun k => r.left[k]?

theorem upcoming_succ (r : Reader) (n : Nat) :
    r.upcoming (n + 1) = r.nextLexeme.1 :: r.nextLexeme.2.upcoming n := by
  obtain ⟨hfirst, hothers⟩ := r.nextLexeme_eq
  rw [upcoming, List.range_succ_eq_map, List.map_cons, List.map_map, ← List.head?_eq_getElem?,
    hfirst, upcoming, hothers]
  simp only [Function.comp_def, List.getElem?_tail]

/-- What has been collected before has no influence on what is read. -/
theorem asked_collected (stream : TokenStream) (n : Nat) :
    ∃ reports, ∀ collected, ((⟨stream, collected⟩ : Reader).asked n).collected =
      collected ++ reports := by
  induction n generalizing stream with
  | zero => exact ⟨[], fun collected => (List.append_nil collected).symm⟩
  | succ n ih =>
    obtain ⟨reports, h⟩ := ih stream.next.stream
    refine ⟨stream.next.reports ++ reports, fun collected => ?_⟩
    rw [asked_succ, ← List.append_assoc]
    exact h _

end Reader

/-! ## What readers are given -/

namespace Session

variable {s : Session} {r : Reader} {later : NameTable} {i : Nat}

/-- What a reader is given. -/
def given (deliveries : List Delivery) (i : Nat) : List (Option (Lexeme Symbol)) :=
  (deliveries.filter (·.reader == i)).map (·.lexeme?)

/-- How often a reader asks for a token. -/
def draws (moves : List Move) (i : Nat) : Nat := moves.count (.draw i)

theorem given_append (first others : List Delivery) (i : Nat) :
    given (first ++ others) i = given first i ++ given others i := by
  rw [given, List.filter_append, List.map_append]
  rfl

/-- A move keeps the table sound. -/
theorem sound_make (h : s.table.Sound) (move : Move) :
    (s.make move).2.table.Sound ∧ s.table.Extends (s.make move).2.table := by
  cases move with
  | call c => exact ⟨h.call c, h.extends_call c⟩
  | draw j =>
    rw [make]
    cases s.readers[j]? with
    | none => exact ⟨h, .refl s.table⟩
    | some r =>
      show (r.stream.nextNamed SymbolTable.intern s.table).state.Sound ∧
        s.table.Extends (r.stream.nextNamed SymbolTable.intern s.table).state
      rw [TokenStream.nextNamed_eq]
      exact Draw.sound_interned h _

theorem sound_makeAll (h : s.table.Sound) (moves : List Move) :
    (s.makeAll moves).2.table.Sound ∧ s.table.Extends (s.makeAll moves).2.table := by
  induction moves generalizing s with
  | nil => exact ⟨h, .refl s.table⟩
  | cons move moves ih =>
    obtain ⟨hsound, hgrows⟩ := sound_make h move
    obtain ⟨hlast, hgrows'⟩ := ih hsound
    exact ⟨hlast, hgrows.trans hgrows'⟩

/-- A reader that asks is given its next token. -/
theorem make_draw (hr : s.readers[i]? = some r)
    (hlater : (s.make (.draw i)).2.table.Extends later) :
    given (s.make (.draw i)).1 i = [r.nextLexeme.1.map (Lexeme.map later.symbolOf)] ∧
      (s.make (.draw i)).2.readers[i]? = some r.nextLexeme.2 ∧
      ∀ l ∈ r.nextLexeme.1, later.Names l := by
  rw [make, hr] at hlater ⊢
  simp only [TokenStream.nextNamed_eq] at hlater ⊢
  obtain ⟨hlexeme, hnames⟩ := Draw.lexeme?_interned hlater
  obtain ⟨hstream, hreports⟩ := r.stream.next.stream_interned s.table
  obtain ⟨hlt, -⟩ := List.getElem?_eq_some_iff.1 hr
  refine ⟨?_, ?_, hnames⟩
  · rw [given, List.filter_cons_of_pos (by simp), hlexeme]
    rfl
  · rw [List.getElem?_set_self hlt, hstream, hreports]
    rfl

/-- Any other move does nothing to a reader. -/
theorem make_of_ne {move : Move} (hmove : move ≠ .draw i) :
    given (s.make move).1 i = [] ∧ (s.make move).2.readers[i]? = s.readers[i]? := by
  cases move with
  | call c => exact ⟨rfl, rfl⟩
  | draw j =>
    have hne : j ≠ i := fun heq => hmove (congrArg Move.draw heq)
    rw [make]
    cases s.readers[j]? with
    | none => exact ⟨rfl, rfl⟩
    | some r =>
      refine ⟨?_, List.getElem?_set_ne hne⟩
      rw [given, List.filter_cons_of_neg (by simpa using hne)]
      rfl

/-- The invariant of a list of moves: a reader is given what it is given by itself, with the
symbols of any later table for the names. -/
theorem given_makeAll (hr : s.readers[i]? = some r) (h : s.table.Sound) {moves : List Move}
    (hlater : (s.makeAll moves).2.table.Extends later) :
    given (s.makeAll moves).1 i =
        (r.upcoming (draws moves i)).map (Option.map (Lexeme.map later.symbolOf)) ∧
      (s.makeAll moves).2.readers[i]? = some (r.asked (draws moves i)) ∧
      ∀ l, some l ∈ r.upcoming (draws moves i) → later.Names l := by
  induction moves generalizing s r with
  | nil => exact ⟨rfl, hr, fun l hl => by cases hl⟩
  | cons move moves ih =>
    have hsound := (sound_make h move).1
    have hgrows := (sound_makeAll hsound moves).2
    rw [makeAll, given_append]
    by_cases hmove : move = .draw i
    · subst hmove
      obtain ⟨hfirst, hreader, hnames⟩ := make_draw hr (hgrows.trans hlater)
      obtain ⟨hothers, hlast, hnames'⟩ := ih hreader hsound hlater
      have hdraws : draws (.draw i :: moves) i = draws moves i + 1 := List.count_cons_self
      rw [hdraws, Reader.upcoming_succ, Reader.asked_succ, hfirst, hothers]
      refine ⟨rfl, hlast, ?_⟩
      intro l hl
      rcases List.mem_cons.1 hl with hl | hl
      · exact hnames l hl.symm
      · exact hnames' l hl
    · obtain ⟨hfirst, hreader⟩ := make_of_ne hmove
      have hdraws : draws (move :: moves) i = draws moves i := List.count_cons_of_ne hmove
      rw [hdraws, hfirst, List.nil_append]
      exact ih (hreader.trans hr) hsound hlater

/-- A reader that is given something is one of the session. -/
theorem exists_reader_of_mem {d : Delivery} {moves : List Move}
    (hd : d ∈ (s.makeAll moves).1) : ∃ r, s.readers[d.reader]? = some r := by
  induction moves generalizing s with
  | nil => cases hd
  | cons move moves ih =>
    rw [makeAll] at hd
    rcases List.mem_append.1 hd with hd | hd
    · cases move with
      | call c => cases hd
      | draw j =>
        rw [make] at hd
        cases hr : s.readers[j]? with
        | none =>
          rw [hr] at hd
          cases hd
        | some r =>
          rw [hr] at hd
          obtain rfl := List.mem_singleton.1 hd
          exact ⟨r, hr⟩
    · obtain ⟨r, hr⟩ := ih hd
      by_cases hmove : move = .draw d.reader
      · subst hmove
        cases hreader : s.readers[d.reader]? with
        | some r' => exact ⟨r', rfl⟩
        | none =>
          rw [make, hreader] at hr
          exact absurd (hreader.symm.trans hr) (by simp)
      · exact ⟨r, (make_of_ne hmove).2.symm.trans hr⟩

theorem count_make_le (s : Session) (move : Move) :
    (s.make move).2.table.count ≤ s.table.count + 1 := by
  cases move with
  | call c => exact s.table.count_call_le c
  | draw j =>
    rw [make]
    cases s.readers[j]? with
    | none => exact Nat.le_succ _
    | some r =>
      show (r.stream.nextNamed SymbolTable.intern s.table).state.count ≤ _
      rw [TokenStream.nextNamed_eq, Draw.interned]
      cases r.stream.next.lexeme? with
      | none => exact Nat.le_succ _
      | some l =>
        obtain ⟨k, span⟩ := l
        cases k with
        | name run => exact s.table.count_call_le (.intern run)
        | _ => exact Nat.le_succ _

theorem count_makeAll_le (s : Session) (moves : List Move) :
    (s.makeAll moves).2.table.count ≤ s.table.count + moves.length := by
  induction moves generalizing s with
  | nil => exact Nat.le_refl _
  | cons move moves ih =>
    have hfirst := s.count_make_le move
    have hrest := ih (s.make move).2
    rw [List.length_cons]
    show ((s.make move).2.makeAll moves).2.table.count ≤ _
    omega

/-! ## Whole sessions -/

/-- What happens in a session: the calls that the table has had before, the sources with what
has been collected for each, and the moves. -/
structure Plan where
  /-- The calls before the session. -/
  calls : List (SymbolTable.Call Text)
  /-- The sources of the readers. -/
  sources : List (Text × List Diagnostic)
  /-- The moves. -/
  moves : List Move

namespace Plan

variable {p : Plan} {source : Text} {collected : List Diagnostic}

/-- The session before its first move. -/
def opening (p : Plan) : Session :=
  Session.start (SymbolTable.empty.callAll p.calls).2 p.sources

/-- What is delivered in the session. -/
def deliveries (p : Plan) : List Delivery := (p.opening.makeAll p.moves).1

/-- The session after its last move. -/
def closing (p : Plan) : Session := (p.opening.makeAll p.moves).2

/-- The table at the end of the session. -/
def table (p : Plan) : NameTable := p.closing.table

/-- How often a reader asks for a token. -/
def draws (p : Plan) (i : Nat) : Nat := Session.draws p.moves i

/-- What a reader is given, its symbols being resolved at the end of the session. -/
def readings (p : Plan) (i : Nat) : List (Option (Lexeme Text)) :=
  (given p.deliveries i).map (Option.map p.table.resolveLexeme)

/-- What a reader has collected at the end of the session. -/
def collected? (p : Plan) (i : Nat) : Option (List Diagnostic) :=
  p.closing.readers[i]?.map (·.collected)

/-- The text of a span in the source of a reader. -/
def text? (p : Plan) (i : Nat) (span : Span) : Option Text :=
  p.sources[i]?.bind fun source => slice? source.1 span.start span.stop

theorem sound_opening (p : Plan) : p.opening.table.Sound :=
  (SymbolTable.keeps_empty.callAll p.calls).toSound

theorem sound_table (p : Plan) : p.table.Sound := (sound_makeAll p.sound_opening p.moves).1

/-- Every call and every move adds one value at most. -/
theorem count_table_le (p : Plan) : p.table.count ≤ p.calls.length + p.moves.length := by
  have hmoves := p.opening.count_makeAll_le p.moves
  have hcalls := (SymbolTable.empty : NameTable).count_callAll_le p.calls
  rw [show (SymbolTable.empty : NameTable).count = 0 from rfl, Nat.zero_add] at hcalls
  exact Nat.le_trans hmoves (Nat.add_le_add_right hcalls _)

theorem getElem?_readers (h : p.sources[i]? = some (source, collected)) :
    p.opening.readers[i]? = some (Reader.ofText source collected) := by
  rw [opening, Session.start, List.getElem?_map, h]
  rfl

/-- A reader is given the tokens of its source, with the symbols of the table. -/
theorem given_deliveries (h : p.sources[i]? = some (source, collected)) :
    given p.deliveries i = ((Reader.ofText source collected).upcoming (p.draws i)).map
        (Option.map (Lexeme.map p.table.symbolOf)) ∧
      p.closing.readers[i]? = some ((Reader.ofText source collected).asked (p.draws i)) ∧
      ∀ l, some l ∈ (Reader.ofText source collected).upcoming (p.draws i) → p.table.Names l :=
  given_makeAll (getElem?_readers h) p.sound_opening (.refl _)

theorem readings_eq (hsize : p.table.count ≤ UInt32.size)
    (h : p.sources[i]? = some (source, collected)) :
    p.readings i = (List.range (p.draws i)).map fun k => (Scan.ofText source).lexemes[k]? := by
  obtain ⟨hgiven, -, hnames⟩ := given_deliveries h
  rw [readings, hgiven, List.map_map]
  refine (List.map_congr_left fun l? hl => ?_).trans (List.map_id _)
  cases l? with
  | none => rfl
  | some l => exact congrArg some (NameTable.resolveLexeme_map p.sound_table hsize (hnames l hl))

/-- The symbol of a name that is delivered, and the text it stands for. -/
theorem exists_name_of_mem {d : Delivery} {l : Lexeme Symbol} {symbol : Symbol}
    (hd : d ∈ p.deliveries) (hl : d.lexeme? = some l) (hname : l.token = .name symbol) :
    ∃ run, p.text? d.reader l.span = some run ∧ symbol = p.table.symbolOf run ∧
      p.table.Knows run := by
  obtain ⟨r, hr⟩ := exists_reader_of_mem hd
  rw [opening, Session.start, List.getElem?_map] at hr
  obtain ⟨⟨source, collected⟩, hsource, -⟩ := Option.map_eq_some_iff.1 hr
  obtain ⟨hgiven, -, hnames⟩ := given_deliveries hsource
  have hmem : some l ∈ given p.deliveries d.reader :=
    List.mem_map.2 ⟨d, List.mem_filter.2 ⟨hd, beq_self_eq_true _⟩, hl⟩
  rw [hgiven, List.mem_map] at hmem
  obtain ⟨m?, hm, hmap⟩ := hmem
  obtain ⟨m, rfl, rfl⟩ := Option.map_eq_some_iff.1 hmap
  have hlexeme : m ∈ (Scan.ofText source).lexemes := by
    obtain ⟨k, -, hk⟩ := List.mem_map.1 hm
    exact List.mem_of_getElem? hk
  obtain ⟨k, span⟩ := m
  cases k with
  | name run =>
    refine ⟨run, ?_, (Token.name.inj hname).symm, hnames _ hm run rfl⟩
    rw [text?, hsource]
    exact slice?_of_name hlexeme rfl
  | _ => cases hname

end Plan

/-- How two sessions compare in which some readers read the same source. -/
structure Independent (first second : Plan) : Prop where
  /-- A source is read as the same tokens with the same spans. -/
  readings : ∀ i j source collected collected', first.sources[i]? = some (source, collected) →
    second.sources[j]? = some (source, collected') → first.draws i = second.draws j →
    first.readings i = second.readings j
  /-- The same diagnostics are collected. -/
  reports : ∀ i j source collected collected', first.sources[i]? = some (source, collected) →
    second.sources[j]? = some (source, collected') → first.draws i = second.draws j →
    ∃ reports, first.collected? i = some (collected ++ reports) ∧
      second.collected? j = some (collected' ++ reports)
  /-- The tokens are those of the source in order. -/
  tokens : ∀ i source collected, first.sources[i]? = some (source, collected) →
    first.readings i =
      (List.range (first.draws i)).map fun k => (Scan.ofText source).lexemes[k]?
  /-- Two names of a session have the same symbol if their texts are the same, and only
  then, whichever readers they come from. -/
  symbols : ∀ d ∈ first.deliveries, ∀ e ∈ first.deliveries, ∀ l m s t, d.lexeme? = some l →
    e.lexeme? = some m → l.token = .name s → m.token = .name t →
    (s = t ↔ first.text? d.reader l.span = first.text? e.reader m.span)

/-- Reading is independent of the table it shares with others, as long as the table has an
index for every name. -/
theorem independent (first second : Plan) (hfirst : first.table.count ≤ UInt32.size)
    (hsecond : second.table.count ≤ UInt32.size) : Independent first second where
  readings := by
    intro i j source collected collected' hi hj hdraws
    rw [Plan.readings_eq hfirst hi, Plan.readings_eq hsecond hj, hdraws]
  reports := by
    intro i j source collected collected' hi hj hdraws
    obtain ⟨reports, hreports⟩ := Reader.asked_collected (TokenStream.ofText source) (first.draws i)
    refine ⟨reports, ?_, ?_⟩
    · rw [Plan.collected?, (Plan.given_deliveries hi).2.1]
      exact congrArg some (hreports collected)
    · rw [Plan.collected?, (Plan.given_deliveries hj).2.1, ← hdraws]
      exact congrArg some (hreports collected')
  tokens := fun i source collected hi => Plan.readings_eq hfirst hi
  symbols := by
    intro d hd e he l m s t hl hm hs ht
    obtain ⟨run, hrun, rfl, hknows⟩ := Plan.exists_name_of_mem hd hl hs
    obtain ⟨run', hrun', rfl, hknows'⟩ := Plan.exists_name_of_mem he hm ht
    rw [hrun, hrun', first.sound_table.symbolOf_eq_iff hfirst hknows hknows', Option.some.injEq]

/-- A source read alone, and read again while another source is read and the table is used
by others. -/
theorem independent_interleaved :
    let alone : Plan := ⟨[], [(['a', ' ', 'b'], [])], [.draw 0, .draw 0]⟩
    let shared : Plan :=
      ⟨[.intern ['b'], .get ⟨7⟩], [(['b', ' ', '1', 'x'], []), (['a', ' ', 'b'], [])],
      [.draw 0, .draw 1, .call (.intern ['c']), .draw 0, .draw 1]⟩
    alone.table.count ≤ UInt32.size ∧ shared.table.count ≤ UInt32.size ∧
      Independent alone shared := by
  intro alone shared
  have halone : alone.table.count ≤ UInt32.size :=
    Nat.le_trans alone.count_table_le (by decide)
  have hshared : shared.table.count ≤ UInt32.size :=
    Nat.le_trans shared.count_table_le (by decide)
  exact ⟨halone, hshared, independent alone shared halone hshared⟩

end Session

end Lexicon
