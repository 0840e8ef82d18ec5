import Lexicon.Task.Listing

/-!
# What a listing puts out

A script that saves no file, performed where everything is taken, ends with its own outcome.
The output has the bytes of what its acts write, one after the other, and nothing else
(`performActs_unlimited`).  Bytes determine the text (`bytes_injective`), so equal outputs come
from equal texts.

The listing of a source is such a script.  `Task.listed` is its performance, and its output is
the lines or the array of the tokens (`listed_eq`).
-/

namespace Lexicon

/-! ## Bytes -/

theorem Text.toByteArray_bytes (t : Text) : t.bytes.toByteArray = t.utf8Encode := rfl

/-- A text is determined by its UTF-8 form. -/
theorem Text.bytes_injective {a b : Text} (h : a.bytes = b.bytes) : a = b := by
  have hencode : a.utf8Encode = b.utf8Encode := by
    rw [← toByteArray_bytes, ← toByteArray_bytes, h]
  have hdecode := congrArg ByteArray.utf8Decode? hencode
  rw [List.utf8Decode?_utf8Encode, List.utf8Decode?_utf8Encode] at hdecode
  exact List.toArray_inj (Option.some.inj hdecode)

/-! ## Acts that save nothing -/

/-- What an act writes. -/
def Act.output : Act → Text
  | write text | writeJson text => text
  | report _ | log _ | save _ _ => []

/-- What an act tells the user. -/
def Act.notice? : Act → Option Notice
  | report message => some (.report message)
  | log entry => some (.log entry)
  | write _ | writeJson _ | save _ _ => none

/-- Whether an act leaves the files alone. -/
def Act.savesNothing : Act → Bool
  | save _ _ => false
  | write _ | writeJson _ | report _ | log _ => true

theorem Act.savesNothing_of_notice {act : Act} (h : act.notice?.isSome = true) :
    act.savesNothing = true := by
  cases act with
  | save path content => cases h
  | _ => rfl

theorem Act.output_of_notice {act : Act} (h : act.notice?.isSome = true) : act.output = [] := by
  cases act with
  | write text => cases h
  | writeJson text => cases h
  | _ => rfl

/-- What acts write, one after the other. -/
def outputOf (acts : List Act) : Text := acts.flatMap Act.output

theorem outputOf_append (as bs : List Act) : outputOf (as ++ bs) = outputOf as ++ outputOf bs :=
  List.flatMap_append

theorem outputOf_eq_nil {acts : List Act} (h : ∀ act ∈ acts, act.output = []) :
    outputOf acts = [] := List.flatMap_eq_nil_iff.2 h

/-- An act that saves nothing is done in full. -/
theorem Act.effect_unlimited {act : Act} (h : act.savesNothing = true) (tree : Files.Tree) :
    act.effect .unlimited tree =
      ⟨act.output.bytes, act.notice?.toList, tree, .ok .unlimited⟩ := by
  cases act with
  | save path content => cases h
  | _ => rfl

theorem Script.performActs_cons {α : Type} (outcome : Except Failure α) (tree : Files.Tree)
    {act : Act} (h : act.savesNothing = true) (acts : List Act) :
    performActs outcome .unlimited tree (act :: acts) =
      let rest := performActs outcome .unlimited tree acts
      ⟨act.output.bytes ++ rest.accepted, act.notice?.toList ++ rest.notices, rest.tree,
        rest.outcome⟩ := by
  rw [performActs, Act.effect_unlimited h]

/-- Acts that save nothing are all done, and the outcome is the one at the end. -/
theorem Script.performActs_unlimited {α : Type} (outcome : Except Failure α) (tree : Files.Tree)
    {acts : List Act} (h : ∀ act ∈ acts, act.savesNothing = true) :
    performActs outcome .unlimited tree acts =
      ⟨(outputOf acts).bytes, acts.filterMap Act.notice?, tree, outcome⟩ := by
  induction acts with
  | nil => rfl
  | cons act acts ih =>
    rw [List.forall_mem_cons] at h
    have hbytes : (outputOf (act :: acts)).bytes = act.output.bytes ++ (outputOf acts).bytes := by
      rw [outputOf, List.flatMap_cons, Text.bytes_append, outputOf]
    rw [performActs_cons outcome tree h.1, ih h.2, hbytes]
    cases hnotice : act.notice? <;> simp [hnotice]

/-! ## The listing of a source -/

namespace Task

/-- What becomes of the listing of a source where everything is taken. -/
def listed (format : Listing.Format) (spans : Bool) (tree : Files.Tree) (source : Source) :
    Performance Nat :=
  (listing format spans (.ok source)).perform .unlimited tree

/-- The tokens of a text with their spans. -/
def lexemesOf (text : Text) : List (Lexeme Text) := (Scan.ofText text).lexemes

theorem map_token_lexemesOf (text : Text) : (lexemesOf text).map (·.token) = tokens text := rfl

/-- What the listing of tokens writes in a format. -/
def listingText (format : Listing.Format) (spans : Bool) (lexemes : List (Lexeme Text)) : Text :=
  outputOf (listingActs format spans lexemes)

theorem savesNothing_listingActs (format : Listing.Format) (spans : Bool)
    (lexemes : List (Lexeme Text)) :
    ∀ act ∈ listingActs format spans lexemes, act.savesNothing = true := by
  cases format with
  | text =>
    intro act hact
    obtain ⟨l, -, rfl⟩ := List.mem_map.1 hact
    rfl
  | json => simp [listingActs, Act.savesNothing]

/-- Around the writes of a listing the user is only told things. -/
theorem exists_notices (format : Listing.Format) (spans : Bool) (source : Source) :
    ∃ before after : List Act,
      (listing format spans (.ok source)).acts =
        before ++ listingActs format spans (lexemesOf source.text) ++ after ∧
      ∀ act ∈ before ++ after, act.notice?.isSome = true := by
  refine ⟨_, _, List.append_assoc _ _ _, ?_⟩
  intro act hact
  simp only [scanActs, reportActs, List.mem_append, List.mem_cons, List.mem_map,
    List.not_mem_nil, or_false] at hact
  rcases hact with (rfl | ⟨event, -, rfl⟩) | ⟨d, -, rfl⟩ | rfl <;> rfl

/-- A listing writes its tokens and ends with their number. -/
theorem listed_eq (format : Listing.Format) (spans : Bool) (tree : Files.Tree)
    (source : Source) :
    (listed format spans tree source).accepted =
        (listingText format spans (lexemesOf source.text)).bytes ∧
      (listed format spans tree source).outcome = .ok (lexemesOf source.text).length := by
  obtain ⟨before, after, hacts, hnotices⟩ := exists_notices format spans source
  simp only [List.mem_append, or_imp, forall_and] at hnotices
  have hsaves : ∀ act ∈ (listing format spans (.ok source)).acts, act.savesNothing = true := by
    rw [hacts]
    simp only [List.mem_append, or_imp, forall_and]
    exact ⟨⟨fun act h => Act.savesNothing_of_notice (hnotices.1 act h),
      savesNothing_listingActs format spans _⟩,
      fun act h => Act.savesNothing_of_notice (hnotices.2 act h)⟩
  have houtput : outputOf (listing format spans (.ok source)).acts =
      listingText format spans (lexemesOf source.text) := by
    rw [hacts, outputOf_append, outputOf_append,
      outputOf_eq_nil fun act h => Act.output_of_notice (hnotices.1 act h),
      outputOf_eq_nil fun act h => Act.output_of_notice (hnotices.2 act h), List.nil_append,
      List.append_nil, listingText]
  rw [listed, Script.perform, Script.performActs_unlimited _ tree hsaves, houtput]
  exact ⟨rfl, rfl⟩

end Task

end Lexicon
