import Lexicon.Proofs.Histories
import Lexicon.Proofs.Partition
import Lexicon.Symbol.Naming

/-!
# Only names are interned

Reading a source makes one call to its interner for each name among the tokens, with the text
of the name and in the order of the tokens, and no other call (`internsNames`).  The rules that
are tried in vain, the other tokens, the comments and the text of an invalid token leave the
interner alone.

Whatever the interner does, the state it is left in is the one after interning the names of
the tokens one after another (`state_allInterned`).  For an interner that writes down what it
is asked for, this is the list of its calls (`Interner.logged`).  For a table, it tells how the
counts grow: the names that the table does not have yet are misses, each of them once.
-/

namespace Lexicon

open Text Lexeme

variable {σ ν : Type} {l : Lexeme Text} {ls : List (Lexeme Text)}

/-! ## Calls -/

/-- The names among tokens, with repetitions. -/
def Token.names (ks : List (Token Text)) : List Text := ks.filterMap Token.name?

/-- The names among the tokens of a source. -/
def namesOf (source : Text) : List Text := Token.names (tokens source)

namespace Interner

/-- The state after interning names one after another. -/
def after (intern : Interner σ ν) (state : σ) (names : List Text) : σ :=
  names.foldl (fun state run => (intern state run).2) state

/-- An interner that also writes down the names it is asked for. -/
def logged (intern : Interner σ ν) : Interner (σ × List Text) ν := fun state run =>
  let (kept, after) := intern state.1 run
  (kept, (after, state.2 ++ [run]))

theorem after_logged (intern : Interner σ ν) (state : σ) (log names : List Text) :
    intern.logged.after (state, log) names = (intern.after state names, log ++ names) := by
  induction names generalizing state log with
  | nil => exact congrArg (Prod.mk state) (List.append_nil log).symm
  | cons run names ih =>
    show intern.logged.after ((intern state run).2, log ++ [run]) names = _
    rw [ih, List.append_assoc]
    rfl

end Interner

/-- The state after the name of a token has been interned, if it is one. -/
theorem Token.state_interned (intern : Interner σ ν) (state : σ) (k : Token Text) :
    (k.interned intern state).2 = intern.after state k.name?.toList := by
  cases k <;> rfl

theorem Lexeme.state_allInterned (intern : Interner σ ν) (state : σ) (ls : List (Lexeme Text)) :
    (allInterned intern state ls).2 = intern.after state (Token.names (ls.map (·.token))) := by
  induction ls generalizing state with
  | nil => rfl
  | cons l ls ih =>
    rw [allInterned, ih, Lexeme.interned, Token.state_interned]
    cases h : l.token.name? with
    | none => simp only [Token.names, List.map_cons, List.filterMap_cons_none h]; rfl
    | some run => simp only [Token.names, List.map_cons, List.filterMap_cons_some h]; rfl

namespace TokenStream

variable {s : TokenStream} {state : σ}

theorem drainNamed_of_none (intern : Interner σ ν) (h : s.next.lexeme? = none) :
    s.drainNamed intern state = ([], state) := by
  have hdraw : s.nextNamed intern state =
      ⟨none, s.next.events, s.next.reports, s.next.stream, state⟩ := by
    rw [nextNamed_eq, Draw.interned, h]
  rw [drainNamed, hdraw]

theorem drainNamed_of_some (intern : Interner σ ν) (h : s.next.lexeme? = some l) :
    s.drainNamed intern state = ((l.interned intern state).1 ::
      (s.next.stream.drainNamed intern (l.interned intern state).2).1,
      (s.next.stream.drainNamed intern (l.interned intern state).2).2) := by
  have hdraw : s.nextNamed intern state = ⟨some (l.interned intern state).1, s.next.events,
      s.next.reports, s.next.stream, (l.interned intern state).2⟩ := by
    rw [nextNamed_eq, Draw.interned, h]
  rw [drainNamed, hdraw]

/-- To intern names while a stream is read is to intern those of all its tokens. -/
theorem drainNamed_eq (intern : Interner σ ν) (s : TokenStream) (state : σ) :
    s.drainNamed intern state = allInterned intern state s.drain.lexemes := by
  induction hn : s.window.view.length using Nat.strongRecOn generalizing s state with
  | ind n ih =>
    cases h : s.next.lexeme? with
    | none => rw [drainNamed_of_none intern h, lexemes_drain_of_none h, allInterned]
    | some l =>
      have hrest := ih _ (hn ▸ length_view_next_lt h) s.next.stream (l.interned intern state).2 rfl
      rw [drainNamed_of_some intern h, lexemes_drain_of_some h, allInterned, hrest]

end TokenStream

theorem Scan.named_eq (intern : Interner σ ν) (state : σ) (source : Text) :
    Scan.named intern state source =
      allInterned intern state (Scan.ofText source).lexemes :=
  TokenStream.drainNamed_eq intern _ state

/-- Reading a source leaves the state in which interning its names leaves it. -/
theorem Scan.state_named (intern : Interner σ ν) (state : σ) (source : Text) :
    (Scan.named intern state source).2 = intern.after state (namesOf source) := by
  rw [named_eq, state_allInterned]
  rfl

/-! ## Tables of names -/

namespace SymbolTable

variable {α : Type} [BEq α] [Hashable α] {table : SymbolTable α} {values : List α}

/-- The different values among some that a table does not have. -/
def unknown (table : SymbolTable α) (more : List α) : List α :=
  (more.filter fun value => !table.values.contains value).eraseDups

theorem snd_internAll (table : SymbolTable α) (more : List α) :
    (table.internAll more).2 = more.foldl (fun table value => (table.intern value).2) table := by
  induction more generalizing table with
  | nil => rfl
  | cons value more ih => exact ih _

variable [LawfulBEq α]

theorem Keeps.internAll (h : table.Keeps values) (more : List α) :
    (table.internAll more).2.Keeps (values ++ more) := by
  induction more generalizing table values with
  | nil => rwa [List.append_nil]
  | cons value more ih =>
    have hrest := ih (h.intern value)
    rwa [List.append_assoc] at hrest

theorem Keeps.unknown_eq (h : table.Keeps values) (more : List α) :
    table.unknown more = (more.removeAll values).eraseDups := by
  have hcontains : ∀ value, table.values.contains value = values.elem value := by
    intro value
    rw [Bool.eq_iff_iff, Array.contains_iff_mem, h.mem_iff, List.elem_iff]
  simp only [unknown, List.removeAll, hcontains]

/-- The values that were not there are put at the end, in the order of their first
occurrences. -/
theorem Keeps.values_internAll (h : table.Keeps values) (more : List α) :
    (table.internAll more).2.values.toList = table.values.toList ++ table.unknown more := by
  rw [(h.internAll more).values_eq, List.eraseDups_append, ← h.values_eq, h.unknown_eq]

theorem Keeps.count_internAll (h : table.Keeps values) (more : List α) :
    (table.internAll more).2.count = table.count + (table.unknown more).length := by
  have hvalues := congrArg List.length (h.values_internAll more)
  rwa [List.length_append] at hvalues

end SymbolTable

namespace NameTable

variable {table : NameTable} {source : Text}

theorem scan_eq (table : NameTable) (source : Text) :
    table.scan source = allInterned SymbolTable.intern table (Scan.ofText source).lexemes :=
  Scan.named_eq _ _ _

/-- A table that a source has been read with has interned the names of the source. -/
theorem snd_scan (table : NameTable) (source : Text) :
    (table.scan source).2 = (table.internAll (namesOf source)).2 := by
  rw [SymbolTable.snd_internAll]
  exact Scan.state_named _ _ _

/-- The symbols among the tokens are those that the table gives for the names. -/
theorem symbols_allInterned (table : NameTable) (ls : List (Lexeme Text)) :
    (allInterned SymbolTable.intern table ls).1.filterMap (·.token.name?) =
      (table.internAll (Token.names (ls.map (·.token)))).1 := by
  induction ls generalizing table with
  | nil => rfl
  | cons l ls ih =>
    obtain ⟨k, span⟩ := l
    rw [allInterned]
    cases k with
    | name run =>
      show (table.intern run).1 :: _ = (table.intern run).1 :: _
      exact congrArg _ (ih _)
    | _ => exact ih table

/-- Apart from the names, the tokens and their spans do not depend on the interner. -/
theorem map_allInterned (intern : Interner σ ν) (state : σ) (ls : List (Lexeme Text)) :
    (allInterned intern state ls).1.map (Lexeme.map fun _ => ()) =
      ls.map (Lexeme.map fun _ => ()) := by
  induction ls generalizing state with
  | nil => rfl
  | cons l ls ih =>
    obtain ⟨k, span⟩ := l
    rw [allInterned, List.map_cons, List.map_cons, ih]
    cases k <;> rfl

end NameTable

/-! ## The text of a name -/

/-- A name among the tokens of a source is the text of the source in its span. -/
theorem slice?_of_name {run : Text} (hl : l ∈ (Scan.ofText source).lexemes)
    (hname : l.token = .name run) : slice? source l.span.start l.span.stop = some run := by
  obtain ⟨before, part, rest, blanks, hsource, -, -, hstart, hstop, hread⟩ :=
    exists_parts_of_mem_lexemes hl
  rw [hname] at hread
  obtain rfl := (isLexeme_of_read (hread rfl)).eq_of_name
  rw [hstart, hstop, hsource]
  exact slice?_append before part (rest ++ blanks)

/-! ## The whole source -/

/-- How a source is read with a table of names. -/
structure InternsNames (table : NameTable) (source : Text) : Prop where
  /-- The calls to the table are the names of the source in order, and nothing else. -/
  calls : ∀ log, (Scan.named (Interner.logged SymbolTable.intern) (table, log) source).2 =
    ((table.scan source).2, log ++ namesOf source)
  /-- A name is the text of the source where its token stands. -/
  texts : ∀ l ∈ (Scan.ofText source).lexemes, ∀ run, l.token = .name run →
    slice? source l.span.start l.span.stop = some run
  /-- Apart from the names, the tokens and their spans are those of the source. -/
  tokens : (table.scan source).1.map (Lexeme.map fun _ => ()) =
    (Scan.ofText source).lexemes.map (Lexeme.map fun _ => ())
  /-- The names are kept as the symbols that these calls give, one after another. -/
  symbols : (table.scan source).1.filterMap (·.token.name?) = (table.internAll (namesOf source)).1
  /-- The names that were not there are added, in order, and no other text is. -/
  values : (table.scan source).2.values.toList =
    table.values.toList ++ table.unknown (namesOf source)
  /-- Every name is counted as a hit or a miss. -/
  counted : (table.scan source).2.hits + (table.scan source).2.misses =
    table.hits + table.misses + (namesOf source).length
  /-- The values grow by the names that were not there. -/
  count : (table.scan source).2.count = table.count + (table.unknown (namesOf source)).length
  /-- The misses grow by them too. -/
  misses : (table.scan source).2.misses = table.misses + (table.unknown (namesOf source)).length

/-- A table that a source is read with interns the names of the source, whatever calls have
been made to it before. -/
theorem internsNames (calls : List (SymbolTable.Call Text)) (source : Text) :
    InternsNames (SymbolTable.empty.callAll calls).2 source := by
  have hkeeps := SymbolTable.keeps_empty.callAll calls
  generalize (SymbolTable.empty.callAll calls).2 = table at hkeeps ⊢
  have hafter := hkeeps.internAll (namesOf source)
  have hcount := hkeeps.count_internAll (namesOf source)
  constructor
  case calls =>
    intro log
    rw [Scan.state_named, Interner.after_logged, ← Scan.state_named]
    rfl
  case texts => exact fun l hl run => slice?_of_name hl
  case tokens =>
    rw [NameTable.scan_eq]
    exact NameTable.map_allInterned _ _ _
  case symbols =>
    rw [NameTable.scan_eq]
    exact NameTable.symbols_allInterned _ _
  case values =>
    rw [NameTable.snd_scan]
    exact hkeeps.values_internAll _
  case counted =>
    rw [NameTable.snd_scan]
    exact SymbolTable.calls_internAll table (namesOf source)
  case count =>
    rw [NameTable.snd_scan]
    exact hcount
  case misses =>
    have hmisses := hafter.misses_eq
    rw [NameTable.snd_scan, hmisses, hkeeps.misses_eq]
    exact hcount

end Lexicon
