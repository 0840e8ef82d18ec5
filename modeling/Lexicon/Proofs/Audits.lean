import Mathlib.Data.List.Forall2
import Lexicon.Proofs.Outputs
import Lexicon.Proofs.Reports
import Lexicon.Proofs.Spellings
import Lexicon.Task.Audit

/-!
# What an audit finds

A source is bad when it cannot be read or when one of its tokens is invalid
(`Finding.isBad`).  An audit looks at the diagnostics and not at the tokens, and comes to the
same result (`isGood_verdict`), because a source has an error among its diagnostics exactly
when it has an invalid token (`any_isError_reports`).

An audit that fails fast reaches the sources up to the first bad one, and any other audit
reaches all of them (`reached`).  What it does is done about each of these, one after another,
and nothing but log entries comes after (`DoneAbout`, `auditSources_eq`).  So the output, the
tally and the outcome are read off the list of sources reached (`auditsInOrder`).
-/

namespace Lexicon

open Text

/-- A source has an error among its diagnostics exactly when it has an invalid token. -/
theorem any_isError_reports (source : Text) :
    (Scan.ofText source).reports.any (·.isError) = (tokens source).any (·.isInvalid) := by
  have hending : Ending source [] (TokenStream.ofText source).drain.lexemes
      ([] ++ (TokenStream.ofText source).drain.reports) :=
    TokenStream.ending_drain (TokenStream.ofText source) (.refl _) []
  rw [List.nil_append] at hending
  show (TokenStream.ofText source).drain.reports.any (·.isError) =
    ((TokenStream.ofText source).drain.lexemes.map (·.token)).any (·.isInvalid)
  generalize (TokenStream.ofText source).drain.lexemes = lexemes at hending ⊢
  generalize (TokenStream.ofText source).drain.reports = reports at hending ⊢
  cases hending with
  | complete valid => simpa using valid
  | failed valid covers stops reads => simp [Diagnostic.isError, Token.isInvalid]

namespace Task

/-- A path and what was found there. -/
abbrev Finding := Path × Except Failure Source

namespace Finding

/-- Whether a source is bad: it cannot be read, or one of its tokens is invalid. -/
def isBad (f : Finding) : Bool :=
  match f.2 with
  | .error _ => true
  | .ok source => (tokens source.text).any (·.isInvalid)

/-- The name under which an audit speaks of a source. -/
def origin (f : Finding) : String :=
  match f.2 with
  | .error _ => Path.toString f.1
  | .ok source => source.origin

/-- What an audit does about a source. -/
def acts (f : Finding) : List Act := (verdict f.1 f.2).acts

/-- The table of names behind a source. -/
def namesAfter (f : Finding) (names : NameTable) : NameTable :=
  (names.internTokens (verdict f.1 f.2).names).2

end Finding

/-- The sources an audit reaches.  An audit that fails fast goes up to the first bad one, which
it reaches. -/
def reached (failFast : Bool) (sources : List Finding) : List Finding :=
  if failFast then
    sources.takeWhile (!·.isBad) ++ (sources.dropWhile (!·.isBad)).take 1
  else sources

/-- The line an audit writes about a source, without the line feed. -/
inductive Says : Finding → Text → Prop where
  /-- A bad source has failed. -/
  | failed {f : Finding} (isBad : f.isBad = true) : Says f (f.origin ++ ": FAILED").toList
  /-- A good source is in order, and has as many tokens as its listings give. -/
  | ok {path : Path} {source : Source} {n : Nat} (isGood : Finding.isBad (path, .ok source) = false)
      (listed : ∀ format spans tree, (listed format spans tree source).outcome = .ok n) :
      Says (path, .ok source) (source.origin ++ ": ok (" ++ toString n ++ " tokens)").toList

variable {failFast : Bool} {f : Finding} {sources : List Finding} {line : Text}

/-! ## The sources reached -/

theorem reached_nil (failFast : Bool) : reached failFast [] = [] := by
  cases failFast <;> rfl

theorem reached_cons (failFast : Bool) (f : Finding) (sources : List Finding) :
    reached failFast (f :: sources) =
      f :: if f.isBad && failFast then [] else reached failFast sources := by
  cases failFast with
  | false => simp [reached]
  | true => cases h : f.isBad <;> simp [reached, h]

/-- The sources reached are the first ones. -/
theorem exists_reached_append (failFast : Bool) (sources : List Finding) :
    ∃ others, sources = reached failFast sources ++ others := by
  cases failFast with
  | false => exact ⟨[], (List.append_nil sources).symm⟩
  | true =>
    refine ⟨(sources.dropWhile (!·.isBad)).drop 1, ?_⟩
    rw [reached, if_pos rfl, List.append_assoc, List.take_append_drop,
      List.takeWhile_append_dropWhile]

/-- A bad source is reached if there is one. -/
theorem forall_mem_reached_iff (failFast : Bool) (sources : List Finding) :
    (∀ f ∈ reached failFast sources, f.isBad = false) ↔ ∀ f ∈ sources, f.isBad = false := by
  induction sources with
  | nil => rw [reached_nil]
  | cons f sources ih =>
    rw [reached_cons, List.forall_mem_cons, List.forall_mem_cons]
    cases f.isBad with
    | false => rw [Bool.false_and, if_neg Bool.false_ne_true, ih]
    | true => simp

/-- All sources are reached if none is bad. -/
theorem reached_of_good (failFast : Bool) (h : ∀ f ∈ sources, f.isBad = false) :
    reached failFast sources = sources := by
  induction sources with
  | nil => exact reached_nil failFast
  | cons f sources ih =>
    obtain ⟨hf, hsources⟩ := List.forall_mem_cons.1 h
    rw [reached_cons, hf, Bool.false_and, if_neg Bool.false_ne_true, ih hsources]

/-! ## The verdict on one source -/

theorem isGood_verdict (path : Path) (found : Except Failure Source) :
    (verdict path found).isGood = !Finding.isBad (path, found) := by
  cases found with
  | error cause => rfl
  | ok source => exact congrArg (!·) (any_isError_reports source.text)

theorem badLine_eq (origin : String) :
    badLine origin = .write ((origin ++ ": FAILED").toList ++ ['\n']) := by
  simp [badLine]

theorem goodLine_eq (origin : String) (n : Nat) :
    goodLine origin n =
      .write ((origin ++ ": ok (" ++ toString n ++ " tokens)").toList ++ ['\n']) := by
  simp [goodLine]

/-- What an audit does about a source ends with its line.  Before that, the user is only told
things. -/
theorem exists_line (f : Finding) :
    ∃ (told : List Act) (line : Text), f.acts = told ++ [.write (line ++ ['\n'])] ∧
      (∀ act ∈ told, act.notice?.isSome = true) ∧ Says f line := by
  obtain ⟨path, cause | source⟩ := f
  · refine ⟨[.report cause.message], _, ?_, ?_, .failed rfl⟩
    · rw [← badLine_eq]
      rfl
    · intro act hact
      obtain rfl := List.mem_singleton.1 hact
      rfl
  · obtain ⟨told, htold, hacts⟩ : ∃ told : List Act, (∀ act ∈ told, act.notice?.isSome = true) ∧
        (verdict path (.ok source)).acts = told ++
          [if (verdict path (.ok source)).isGood then
            goodLine source.origin (lexemesOf source.text).length else badLine source.origin] := by
      refine ⟨_, ?_, rfl⟩
      intro act hact
      simp only [scanActs, reportActs, List.mem_append, List.mem_cons, List.mem_map] at hact
      rcases hact with ⟨event, -, rfl⟩ | rfl | ⟨d, -, rfl⟩ <;> rfl
    rw [isGood_verdict] at hacts
    cases hbad : Finding.isBad (path, .ok source) with
    | true =>
      rw [hbad, Bool.not_true, if_neg Bool.false_ne_true, badLine_eq] at hacts
      exact ⟨told, _, hacts, htold, .failed hbad⟩
    | false =>
      rw [hbad, Bool.not_false, if_pos rfl, goodLine_eq] at hacts
      exact ⟨told, _, hacts, htold, .ok hbad fun format spans tree => (listed_eq ..).2⟩

/-- A line has no line feed of its own. -/
theorem newline_not_mem_of_says (h : Says f line) (horigin : '\n' ∉ f.origin.toList) :
    '\n' ∉ line := by
  cases h with
  | failed isBad => simpa using horigin
  | @ok path source n isGood listed =>
    have horigin : '\n' ∉ source.origin.toList := horigin
    have hdigits : '\n' ∉ Nat.toDigits 10 n :=
      Token.not_mem_of_isDigits (Decimal.isDigits_toDigits n) rfl
    simp [horigin, hdigits]

/-! ## All sources -/

/-- The tally of a list of sources. -/
def tallyOf (sources : List Finding) : Tally :=
  ⟨sources.countP (!·.isBad), sources.countP (·.isBad)⟩

theorem foldl_count (tally : Tally) (sources : List Finding) :
    sources.foldl (fun tally f => tally.count (!f.isBad)) tally =
      ⟨tally.passed + (tallyOf sources).passed, tally.failed + (tallyOf sources).failed⟩ := by
  induction sources generalizing tally with
  | nil => rfl
  | cons f sources ih =>
    rw [List.foldl_cons, ih]
    cases h : f.isBad <;> simp [tallyOf, Tally.count, h] <;> omega

/-- An audit deals with its first source, and stops there or goes on. -/
theorem auditSources_cons (failFast : Bool) (names : NameTable) (tally : Tally) (f : Finding)
    (sources : List Finding) :
    auditSources failFast names tally (f :: sources) =
      if f.isBad && failFast then
        (f.acts ++ [stopping f.1, namesEntry (f.namesAfter names)], tally.count (!f.isBad))
      else
        let rest := auditSources failFast (f.namesAfter names) (tally.count (!f.isBad)) sources
        (f.acts ++ rest.1, rest.2) := by
  obtain ⟨path, found⟩ := f
  rw [auditSources, isGood_verdict, Bool.not_not]
  rfl

/-- Whether acts are what is done about sources, one after another, and then log entries. -/
def DoneAbout (sources : List Finding) (acts : List Act) : Prop :=
  ∃ closing : List Act, acts = sources.flatMap Finding.acts ++ closing ∧
    ∀ act ∈ closing, ∃ entry, act = .log entry

/-- More may be logged at the end. -/
theorem DoneAbout.log {acts : List Act} (h : DoneAbout sources acts) (entry : Log.Entry) :
    DoneAbout sources (acts ++ [.log entry]) := by
  obtain ⟨closing, rfl, hlogs⟩ := h
  refine ⟨closing ++ [.log entry], List.append_assoc _ _ _, fun act hact => ?_⟩
  rcases List.mem_append.1 hact with hact | hact
  · exact hlogs act hact
  · exact ⟨entry, List.mem_singleton.1 hact⟩

/-- What an audit does is done about the sources it reaches, and each of them is counted. -/
theorem auditSources_eq (failFast : Bool) (names : NameTable) (tally : Tally)
    (sources : List Finding) :
    DoneAbout (reached failFast sources) (auditSources failFast names tally sources).1 ∧
      (auditSources failFast names tally sources).2 =
        (reached failFast sources).foldl (fun tally f => tally.count (!f.isBad)) tally := by
  induction sources generalizing names tally with
  | nil =>
    rw [reached_nil]
    exact ⟨⟨[namesEntry names], rfl, fun act hact => ⟨_, List.mem_singleton.1 hact⟩⟩, rfl⟩
  | cons f sources ih =>
    rw [auditSources_cons, reached_cons]
    cases f.isBad && failFast with
    | true =>
      refine ⟨⟨[stopping f.1, namesEntry (f.namesAfter names)], by simp, fun act hact => ?_⟩, rfl⟩
      simp only [List.mem_cons, List.not_mem_nil, or_false] at hact
      rcases hact with rfl | rfl <;> exact ⟨_, rfl⟩
    | false =>
      obtain ⟨⟨closing, hacts, hlogs⟩, htally⟩ :=
        ih (f.namesAfter names) (tally.count (!f.isBad))
      exact ⟨⟨closing, by simp [hacts], hlogs⟩, htally⟩

/-- Sources that are not reached make no difference. -/
theorem auditSources_reached (failFast : Bool) (names : NameTable) (tally : Tally)
    (sources : List Finding) :
    auditSources failFast names tally (reached failFast sources) =
      auditSources failFast names tally sources := by
  induction sources generalizing names tally with
  | nil => rw [reached_nil]
  | cons f sources ih =>
    rw [reached_cons, auditSources_cons, auditSources_cons]
    cases f.isBad && failFast with
    | true => rfl
    | false =>
      rw [if_neg Bool.false_ne_true, if_neg Bool.false_ne_true, if_neg Bool.false_ne_true, ih]

/-! ## What an audit puts out -/

/-- What is done about sources writes their lines, and saves nothing. -/
theorem exists_lines (sources : List Finding) :
    ∃ lines : List Text, List.Forall₂ Says sources lines ∧
      outputOf (sources.flatMap Finding.acts) = lines.flatMap (· ++ ['\n']) ∧
      ∀ act ∈ sources.flatMap Finding.acts, act.savesNothing = true := by
  induction sources with
  | nil => exact ⟨[], .nil, rfl, fun act hact => absurd hact List.not_mem_nil⟩
  | cons f sources ih =>
    obtain ⟨lines, hsays, houtput, hsaves⟩ := ih
    obtain ⟨told, line, hacts, htold, hline⟩ := exists_line f
    have houtput' : outputOf f.acts = line ++ ['\n'] := by
      rw [hacts, outputOf_append, outputOf_eq_nil fun act h => Act.output_of_notice (htold act h)]
      exact List.append_nil _
    refine ⟨line :: lines, .cons hline hsays, ?_, ?_⟩
    · rw [List.flatMap_cons, outputOf_append, houtput', houtput, List.flatMap_cons]
    · rw [List.flatMap_cons, hacts]
      simp only [List.mem_append, or_imp, forall_and, List.forall_mem_singleton]
      exact ⟨⟨fun act h => Act.savesNothing_of_notice (htold act h), rfl⟩, hsaves⟩

/-- What becomes of a survey where everything is taken. -/
def surveyed (failFast : Bool) (tree : Files.Tree) (sources : List Finding) : Performance Tally :=
  (survey failFast sources).perform .unlimited tree

/-- What becomes of an audit where everything is taken. -/
def audited (failFast : Bool) (tree : Files.Tree) (sources : List Finding) : Performance Tally :=
  (audit failFast sources).perform .unlimited tree

/-- The bytes written about sources. -/
def written (sources : List Finding) : List UInt8 := (outputOf (sources.flatMap Finding.acts)).bytes

/-- The output of a script is what it writes about sources. -/
theorem DoneAbout.perform {α : Type} {script : Script α} (h : DoneAbout sources script.acts)
    (tree : Files.Tree) :
    (script.perform .unlimited tree).accepted = written sources ∧
      (script.perform .unlimited tree).outcome = script.outcome := by
  obtain ⟨closing, hacts, hlogs⟩ := h
  obtain ⟨-, -, -, hsaves⟩ := exists_lines sources
  have hclosing : outputOf closing = [] := outputOf_eq_nil fun act hact => by
    obtain ⟨entry, rfl⟩ := hlogs act hact
    rfl
  have hall : ∀ act ∈ script.acts, act.savesNothing = true := by
    intro act hact
    rw [hacts, List.mem_append] at hact
    rcases hact with hact | hact
    · exact hsaves act hact
    · obtain ⟨entry, rfl⟩ := hlogs act hact
      rfl
  rw [Script.perform, Script.performActs_unlimited _ tree hall, hacts, outputOf_append, hclosing,
    List.append_nil]
  exact ⟨rfl, rfl⟩

/-- An audit starts with nothing counted. -/
theorem auditSources_start (failFast : Bool) (sources : List Finding) :
    DoneAbout (reached failFast sources)
        (auditSources failFast SymbolTable.empty {} sources).1 ∧
      (auditSources failFast SymbolTable.empty {} sources).2 =
        tallyOf (reached failFast sources) := by
  obtain ⟨hdone, htally⟩ := auditSources_eq failFast SymbolTable.empty {} sources
  rw [foldl_count, Nat.zero_add, Nat.zero_add] at htally
  exact ⟨hdone, htally⟩

/-- A survey counts the sources it reaches. -/
theorem survey_eq (failFast : Bool) (sources : List Finding) :
    DoneAbout (reached failFast sources) (survey failFast sources).acts ∧
      (survey failFast sources).outcome = .ok (tallyOf (reached failFast sources)) := by
  obtain ⟨hdone, htally⟩ := auditSources_start failFast sources
  exact ⟨hdone, congrArg Except.ok htally⟩

/-- An audit is a survey that fails when it has reached a bad source. -/
theorem audit_eq (failFast : Bool) (sources : List Finding) :
    DoneAbout (reached failFast sources) (audit failFast sources).acts ∧
      (audit failFast sources).outcome =
        if (tallyOf (reached failFast sources)).failed = 0 then
          .ok (tallyOf (reached failFast sources))
        else .error (.sourcesFailed (tallyOf (reached failFast sources)).failed) := by
  obtain ⟨hdone, htally⟩ := auditSources_start failFast sources
  refine ⟨hdone.log _, ?_⟩
  rw [← htally]
  rfl

/-! ## The outcome -/

/-- None of the sources reached is bad exactly when none of all sources is. -/
theorem failed_eq_zero_iff (failFast : Bool) (sources : List Finding) :
    (tallyOf (reached failFast sources)).failed = 0 ↔ ∀ f ∈ sources, f.isBad = false := by
  rw [← forall_mem_reached_iff failFast, tallyOf, List.countP_eq_zero]
  simp only [Bool.not_eq_true]

theorem tallyOf_of_good (h : ∀ f ∈ sources, f.isBad = false) :
    tallyOf sources = ⟨sources.length, 0⟩ := by
  have hpassed : sources.countP (!·.isBad) = sources.length :=
    List.countP_eq_length.2 fun f hf => by rw [h f hf]; rfl
  have hfailed : sources.countP (·.isBad) = 0 :=
    List.countP_eq_zero.2 fun f hf => by rw [h f hf]; exact Bool.false_ne_true
  rw [tallyOf, hpassed, hfailed]

/-- An audit of good sources counts all of them. -/
theorem audited_of_good (failFast : Bool) (tree : Files.Tree)
    (h : ∀ f ∈ sources, f.isBad = false) :
    (audited failFast tree sources).outcome = .ok ⟨sources.length, 0⟩ := by
  obtain ⟨hdone, houtcome⟩ := audit_eq failFast sources
  rw [audited, (hdone.perform tree).2, houtcome, if_pos ((failed_eq_zero_iff failFast sources).2 h),
    reached_of_good failFast h, tallyOf_of_good h]

/-- An audit with a bad source fails with the number of those that it has reached. -/
theorem audited_of_bad (failFast : Bool) (tree : Files.Tree) (h : ∃ f ∈ sources, f.isBad = true) :
    (audited failFast tree sources).outcome =
      .error (.sourcesFailed ((reached failFast sources).countP (·.isBad))) := by
  obtain ⟨hdone, houtcome⟩ := audit_eq failFast sources
  obtain ⟨f, hf, hbad⟩ := h
  have hfailed : (tallyOf (reached failFast sources)).failed ≠ 0 := by
    intro hzero
    rw [(failed_eq_zero_iff failFast sources).1 hzero f hf] at hbad
    cases hbad
  rw [audited, (hdone.perform tree).2, houtcome, if_neg hfailed]
  rfl

theorem good_or_bad (sources : List Finding) :
    (∀ f ∈ sources, f.isBad = false) ∨ ∃ f ∈ sources, f.isBad = true := by
  by_cases h : ∀ f ∈ sources, f.isBad = false
  · exact Or.inl h
  · exact Or.inr (by simpa using h)

/-- An audit succeeds exactly when no source is bad. -/
theorem audited_eq_ok_iff (failFast : Bool) (tree : Files.Tree) (sources : List Finding)
    (t : Tally) :
    (audited failFast tree sources).outcome = .ok t ↔
      (∀ f ∈ sources, f.isBad = false) ∧ t = ⟨sources.length, 0⟩ := by
  rcases good_or_bad sources with h | h
  · rw [audited_of_good failFast tree h, Except.ok.injEq, eq_comm]
    exact ⟨fun ht => ⟨h, ht⟩, fun ht => ht.2⟩
  · rw [audited_of_bad failFast tree h]
    refine ⟨fun ht => (nomatch ht), fun ⟨hgood, ht⟩ => ?_⟩
    obtain ⟨f, hf, hbad⟩ := h
    rw [hgood f hf] at hbad
    cases hbad

/-- An audit fails exactly when a source is bad. -/
theorem audited_eq_error_iff (failFast : Bool) (tree : Files.Tree) (sources : List Finding)
    (cause : Failure) :
    (audited failFast tree sources).outcome = .error cause ↔
      (∃ f ∈ sources, f.isBad = true) ∧
        cause = .sourcesFailed ((reached failFast sources).countP (·.isBad)) := by
  rcases good_or_bad sources with h | h
  · rw [audited_of_good failFast tree h]
    refine ⟨fun hcause => (nomatch hcause), fun ⟨⟨f, hf, hbad⟩, hcause⟩ => ?_⟩
    rw [h f hf] at hbad
    cases hbad
  · rw [audited_of_bad failFast tree h, Except.error.injEq, eq_comm]
    exact ⟨fun hcause => ⟨h, hcause⟩, fun hcause => hcause.2⟩

/-- How an audit of sources goes, whether it fails fast or not, where everything is taken. -/
structure AuditsInOrder (tree : Files.Tree) (sources : List Finding) : Prop where
  /-- What belongs to the sources reached is done, one after another, and then there are only log
  entries. -/
  acts : ∀ failFast, DoneAbout (reached failFast sources) (survey failFast sources).acts ∧
    DoneAbout (reached failFast sources) (audit failFast sources).acts
  /-- Other sources make no difference. -/
  unreached : ∀ failFast, survey failFast (reached failFast sources) = survey failFast sources ∧
    audit failFast (reached failFast sources) = audit failFast sources
  /-- The output is one line for each source reached, in order, with a line feed behind it. -/
  lines : ∀ failFast, ∃ lines : List Text, List.Forall₂ Says (reached failFast sources) lines ∧
    (surveyed failFast tree sources).accepted = bytes (lines.flatMap (· ++ ['\n'])) ∧
    (audited failFast tree sources).accepted = bytes (lines.flatMap (· ++ ['\n']))
  /-- There is no other line feed, but for those in the names of sources. -/
  newline_not_mem : ∀ (f : Finding) (line : Text), Says f line → '\n' ∉ f.origin.toList →
    '\n' ∉ line
  /-- The good and the bad sources reached are counted. -/
  tally : ∀ failFast, (surveyed failFast tree sources).outcome =
    .ok ⟨(reached failFast sources).countP (!·.isBad), (reached failFast sources).countP (·.isBad)⟩
  /-- An audit succeeds exactly when no source of the whole list is bad, and all are counted. -/
  ok_iff : ∀ failFast t, (audited failFast tree sources).outcome = .ok t ↔
    (∀ f ∈ sources, f.isBad = false) ∧ t = ⟨sources.length, 0⟩
  /-- Otherwise it fails, and says how many bad sources it has reached. -/
  error_iff : ∀ failFast cause, (audited failFast tree sources).outcome = .error cause ↔
    (∃ f ∈ sources, f.isBad = true) ∧ cause = .lexing
      (toString ((reached failFast sources).countP (·.isBad)) ++
        " file(s) could not be read or lexed")
  /-- The output of an audit that fails fast is the beginning of that of one that does not. -/
  begins : (audited true tree sources).accepted <+: (audited false tree sources).accepted
  /-- The two have the same verdict. -/
  agree : ∀ t, (audited true tree sources).outcome = .ok t ↔
    (audited false tree sources).outcome = .ok t

/-- Audits go through their sources in order, up to where they stop. -/
theorem auditsInOrder (tree : Files.Tree) (sources : List Finding) :
    AuditsInOrder tree sources := by
  have hsurvey := fun failFast => survey_eq failFast sources
  have haudit := fun failFast => audit_eq failFast sources
  constructor
  case acts => exact fun failFast => ⟨(hsurvey failFast).1, (haudit failFast).1⟩
  case unreached =>
    intro failFast
    rw [survey, audit, auditSources_reached]
    exact ⟨rfl, rfl⟩
  case lines =>
    intro failFast
    obtain ⟨lines, hsays, houtput, -⟩ := exists_lines (reached failFast sources)
    refine ⟨lines, hsays, ?_, ?_⟩
    · rw [surveyed, ((hsurvey failFast).1.perform tree).1, written, houtput]
    · rw [audited, ((haudit failFast).1.perform tree).1, written, houtput]
  case newline_not_mem => exact fun f line => newline_not_mem_of_says
  case tally =>
    intro failFast
    rw [surveyed, ((hsurvey failFast).1.perform tree).2, (hsurvey failFast).2]
    rfl
  case ok_iff => exact fun failFast => audited_eq_ok_iff failFast tree sources
  case error_iff => exact fun failFast => audited_eq_error_iff failFast tree sources
  case begins =>
    obtain ⟨others, hothers⟩ := exists_reached_append true sources
    have hwritten : written sources = written (reached true sources) ++ written others := by
      conv => lhs; rw [hothers]
      rw [written, List.flatMap_append, outputOf_append, bytes_append]
      rfl
    rw [audited, audited, ((haudit true).1.perform tree).1, ((haudit false).1.perform tree).1]
    exact ⟨written others, hwritten.symm⟩
  case agree =>
    intro t
    rw [audited_eq_ok_iff, audited_eq_ok_iff]

end Task

end Lexicon
