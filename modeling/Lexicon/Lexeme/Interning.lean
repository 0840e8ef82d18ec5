import Lexicon.Lexeme.Rules

/-!
# Rules that intern names

A name is interned while it is read, in the middle of the order of the rules.  The rule for
names does this as soon as it has found a name that is no reserved word, and the rules that are
tried before and after it do not intern anything.

What a name is kept as, and what is remembered of it, is left to an `Interner`.  It has a
state, and the state goes through all rules that are tried.  A table of symbols is an
interner, and so is a list of the names that have come up.

`Lexeme.readNamed_eq` ties this to reading by itself: what is read is the same, and the name of the
token, if it is one, has been interned once.
-/

namespace Lexicon

/-- How names are interned: what a name is kept as, and the state after that. -/
abbrev Interner (σ ν : Type) := σ → Text → ν × σ

variable {σ ν : Type}

/-! ## Interning what has been read -/

/-- A token with its name interned. -/
def Token.interned (intern : Interner σ ν) (state : σ) : Token Text → Token ν × σ
  | .name run =>
    let (kept, state) := intern state run
    (.name kept, state)
  | .float x => (.float x, state)
  | .int n => (.int n, state)
  | .string s => (.string s, state)
  | .mark m => (.mark m, state)
  | .word w => (.word w, state)
  | .invalid rest => (.invalid rest, state)

/-- What the start of a text turns out to be, a name being kept as `ν`. -/
inductive NamedReading (ν : Type) where
  /-- A comment, and the text after it. -/
  | comment (rest : Text)
  /-- A token, and the text after it. -/
  | token (token : Token ν) (rest : Text)
  /-- Nothing that can be read. -/
  | fault (cause : Fault)

/-- A reading with the name of its token interned. -/
def Reading.interned (intern : Interner σ ν) (state : σ) : Reading → NamedReading ν × σ
  | comment rest => (.comment rest, state)
  | token t rest =>
    let (kept, state) := t.interned intern state
    (.token kept rest, state)
  | fault cause => (.fault cause, state)

/-! ## Rules without names -/

/-- A token that is no name, whatever names are kept as. -/
def Token.nameless : (t : Token Text) → t.name? = none → Token ν
  | .float x, _ => .float x
  | .int n, _ => .int n
  | .string s, _ => .string s
  | .mark m, _ => .mark m
  | .word w, _ => .word w
  | .invalid rest, _ => .invalid rest

theorem Token.interned_of_nameless (intern : Interner σ ν) (state : σ) {t : Token Text}
    (h : t.name? = none) : t.interned intern state = (t.nameless h, state) := by
  cases t with
  | name run => cases h
  | _ => rfl

/-- A rule that may intern names. -/
abbrev NamedRule (σ ν : Type) := σ → Text → Option (NamedReading ν) × σ

namespace Rule

/-- A rule that gives no names. -/
def IsNameless (rule : Rule) : Prop :=
  ∀ text token rest, rule text = some (.token token rest) → token.name? = none

/-- A rule that gives no names, whatever names are kept as. -/
def nameless (rule : Rule) (h : rule.IsNameless) : NamedRule σ ν := fun state text =>
  match hreading : rule text with
  | none => (none, state)
  | some (.comment rest) => (some (.comment rest), state)
  | some (.token token rest) => (some (.token (token.nameless (h text token rest hreading)) rest),
    state)
  | some (.fault cause) => (some (.fault cause), state)

/-- What a rule does when its name is interned afterwards. -/
def interned (intern : Interner σ ν) (rule : Rule) : NamedRule σ ν := fun state text =>
  match rule text with
  | none => (none, state)
  | some reading =>
    let (reading, state) := reading.interned intern state
    (some reading, state)

theorem nameless_eq (intern : Interner σ ν) {rule : Rule} (h : rule.IsNameless) :
    rule.nameless h = rule.interned intern := by
  funext state text
  rw [nameless, interned]
  split
  · rename_i hnone
    rw [hnone]
  · rename_i hcomment
    rw [hcomment]
    rfl
  · rename_i token rest htoken
    have hnameless := Token.interned_of_nameless intern state (h text token rest htoken)
    simp only [htoken, Reading.interned, hnameless]
  · rename_i hfault
    rw [hfault]
    rfl

end Rule

namespace Lexeme

theorem blockComment_isNameless : Rule.IsNameless blockComment := by
  intro text token rest h
  unfold blockComment at h
  split at h
  · obtain ⟨_, -, hreading⟩ := Option.map_eq_some_iff.1 h
    cases hreading
  · cases h

theorem lineComment_isNameless : Rule.IsNameless lineComment := by
  intro text token rest h
  unfold lineComment at h
  split at h <;> cases h

theorem float_isNameless : Rule.IsNameless float := by
  intro text token rest h
  simp only [float] at h
  split at h
  · split at h
    · cases h
    · split at h <;> cases h
      rfl
  · cases h

theorem int_isNameless : Rule.IsNameless int := by
  intro text token rest h
  simp only [int] at h
  split at h
  · cases h
  · split at h <;> cases h
    rfl

theorem mark_isNameless : Rule.IsNameless mark := by
  intro text token rest h
  unfold mark at h
  split at h
  · cases h
  · obtain ⟨m, -, hreading⟩ := Option.map_eq_some_iff.1 h
    cases hreading
    rfl

theorem quotation_isNameless : Rule.IsNameless quotation := by
  intro text token rest h
  unfold quotation at h
  split at h
  · obtain hreading := Option.some.inj h
    split at hreading <;> cases hreading
    rfl
  · cases h

/-! ## The rule for names -/

/-- Reads a name or a reserved word.  A name is interned at once. -/
def internedName (intern : Interner σ ν) : NamedRule σ ν
  | state, [] => (none, state)
  | state, c :: t =>
    let run := c :: t.takeWhile continuesName
    let rest := t.dropWhile continuesName
    if startsName c && Text.atBoundary rest then
      match Word.ofText? run with
      | some w => (some (.token (.word w) rest), state)
      | none =>
        let (kept, state) := intern state run
        (some (.token (.name kept) rest), state)
    else (none, state)

theorem internedName_eq (intern : Interner σ ν) : internedName intern = name.interned intern := by
  funext state text
  cases text with
  | nil => rfl
  | cons c t =>
    simp only [internedName, Rule.interned, name]
    split
    · simp only [nameToken]
      cases Word.ofText? (c :: t.takeWhile continuesName) <;> rfl
    · rfl

/-! ## The order of the rules -/

/-- All rules in the order in which they are tried. -/
def namedRules (intern : Interner σ ν) : List (NamedRule σ ν) :=
  [Rule.nameless blockComment blockComment_isNameless,
   Rule.nameless lineComment lineComment_isNameless,
   Rule.nameless float float_isNameless,
   Rule.nameless int int_isNameless,
   internedName intern,
   Rule.nameless mark mark_isNameless,
   Rule.nameless quotation quotation_isNameless]

/-- The first reading that one of the rules gives.  The state goes through all rules that are
tried, also through those that give none. -/
def firstNamed : List (NamedRule σ ν) → NamedRule σ ν
  | [], state, _ => (none, state)
  | rule :: rules, state, text =>
    match rule state text with
    | (some reading, state) => (some reading, state)
    | (none, state) => firstNamed rules state text

/-- What a text starts with, its name being interned. -/
def readNamed (intern : Interner σ ν) (state : σ) (text : Text) : NamedReading ν × σ :=
  let (reading, state) := firstNamed (namedRules intern) state text
  (reading.getD (.fault .unexpected), state)

theorem namedRules_eq (intern : Interner σ ν) :
    namedRules intern = rules.map fun rule => Rule.interned intern rule.2 := by
  simp only [namedRules, rules, List.map_cons, List.map_nil, Rule.nameless_eq intern,
    internedName_eq]

theorem firstNamed_interned (intern : Interner σ ν) (rules : List (String × Rule)) (state : σ)
    (text : Text) :
    firstNamed (rules.map fun rule => Rule.interned intern rule.2) state text =
      Rule.interned intern (fun text => rules.findSome? fun rule => rule.2 text) state text := by
  induction rules with
  | nil => rfl
  | cons rule rules ih =>
    simp only [List.map_cons, firstNamed, Rule.interned, List.findSome?_cons]
    cases rule.2 text with
    | none => exact ih
    | some reading => rfl

/-- Interning a name while it is read is interning it afterwards. -/
theorem readNamed_eq (intern : Interner σ ν) (state : σ) (text : Text) :
    readNamed intern state text = (read text).interned intern state := by
  rw [readNamed, namedRules_eq, firstNamed_interned, Rule.interned, read]
  cases rules.findSome? fun rule => rule.2 text <;> rfl

theorem read_of_readNamed_comment {intern : Interner σ ν} {state after : σ} {text rest : Text}
    (h : readNamed intern state text = (.comment rest, after)) : read text = .comment rest := by
  rw [readNamed_eq] at h
  cases hread : read text with
  | comment r =>
    rw [hread] at h
    cases h
    rfl
  | token t r =>
    rw [hread] at h
    cases h
  | fault cause =>
    rw [hread] at h
    cases h

theorem exists_read_of_readNamed_token {intern : Interner σ ν} {state after : σ}
    {text rest : Text} {kept : Token ν}
    (h : readNamed intern state text = (.token kept rest, after)) :
    ∃ token, read text = .token token rest := by
  rw [readNamed_eq] at h
  cases hread : read text with
  | comment r =>
    rw [hread] at h
    cases h
  | token t r =>
    rw [hread] at h
    cases h
    exact ⟨t, rfl⟩
  | fault cause =>
    rw [hread] at h
    cases h

end Lexeme

end Lexicon
