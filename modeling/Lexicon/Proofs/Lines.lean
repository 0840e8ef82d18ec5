import Mathlib.Data.List.Basic
import Lexicon.Proofs.Outputs
import Lexicon.Proofs.Quoted
import Lexicon.Proofs.Rereading

/-!
# The lines of a listing

A listing as text has one line for each token, and no two sources with different tokens have
the same listing (`listsUnambiguously`).

A line is taken apart from its ends.  Behind the last `@` of a line that shows a place is the
place, since a place has no `@`.  Up to the first space of what is left is the label, since a
label has no space, and the label gives the kind (`Kind.ofLabel?_label`).  The rest is the
value.  Numbers and string literals are spelled as the lexer reads them, so the spelling gives
the token back.  A name stands for itself, and the quoted form of an invalid rest for the rest
(`token_eq_of_payload?`).

No part of a line has a line feed, so the output falls into its lines again (`lines_injective`).
-/

namespace Lexicon

open Lexeme Text

variable {token : Token Text} {lexeme : Text}

/-! ## Cutting at a character -/

/-- A text with a given character has been cut at this character in two ways. -/
theorem cut_cases {c : Char} {a b t u : Text} (h : a ++ c :: t = b ++ c :: u) :
    (a = b ∧ t = u) ∨ (c ∈ b ∧ c ∈ t) ∨ (c ∈ a ∧ c ∈ u) := by
  -- the part between the two cuts, if there is any, begins with the character
  rcases List.append_eq_append_iff.1 h with ⟨v, rfl, hv⟩ | ⟨v, rfl, hv⟩
  · cases v with
    | nil => exact Or.inl ⟨(List.append_nil a).symm, (List.cons.inj hv).2⟩
    | cons d v =>
      obtain ⟨rfl, rfl⟩ := List.cons.inj hv
      exact Or.inr (Or.inl (by simp))
  · cases v with
    | nil => exact Or.inl ⟨List.append_nil b, ((List.cons.inj hv).2).symm⟩
    | cons d v =>
      obtain ⟨rfl, rfl⟩ := List.cons.inj hv
      exact Or.inr (Or.inr (by simp))

/-- Texts cut at the first such character have the same parts. -/
theorem cut_first {c : Char} {a b t u : Text} (ha : c ∉ a) (hb : c ∉ b)
    (h : a ++ c :: t = b ++ c :: u) : a = b ∧ t = u := by
  rcases cut_cases h with h | ⟨hmem, -⟩ | ⟨hmem, -⟩
  · exact h
  · exact absurd hmem hb
  · exact absurd hmem ha

/-- Texts cut at the last such character have the same parts. -/
theorem cut_last {c : Char} {a b t u : Text} (ht : c ∉ t) (hu : c ∉ u)
    (h : a ++ c :: t = b ++ c :: u) : a = b ∧ t = u := by
  rcases cut_cases h with h | ⟨-, hmem⟩ | ⟨-, hmem⟩
  · exact h
  · exact absurd hmem ht
  · exact absurd hmem hu

/-- Lines without line feeds can be told apart when they are written one after the other. -/
theorem lines_injective {as bs : List Text} (ha : ∀ a ∈ as, '\n' ∉ a) (hb : ∀ b ∈ bs, '\n' ∉ b)
    (h : as.flatMap (· ++ ['\n']) = bs.flatMap (· ++ ['\n'])) : as = bs := by
  induction as generalizing bs with
  | nil =>
    cases bs with
    | nil => rfl
    | cons b bs => simp at h
  | cons a as ih =>
    cases bs with
    | nil => simp at h
    | cons b bs =>
      rw [List.forall_mem_cons] at ha hb
      simp only [List.flatMap_cons, List.append_assoc, List.singleton_append] at h
      obtain ⟨rfl, hrest⟩ := cut_first ha.1 hb.1 h
      rw [ih ha.2 hb.2 hrest]

/-- There are as many line feeds as lines. -/
theorem count_lines {as : List Text} (ha : ∀ a ∈ as, '\n' ∉ a) :
    (as.flatMap (· ++ ['\n'])).count '\n' = as.length := by
  induction as with
  | nil => rfl
  | cons a as ih =>
    rw [List.forall_mem_cons] at ha
    rw [List.flatMap_cons, List.count_append, List.count_append, List.count_eq_zero.2 ha.1,
      ih ha.2, List.count_singleton_self, List.length_cons]
    omega

/-! ## Labels -/

namespace Kind

/-- All kinds. -/
def all : List Kind :=
  [float, int, name, string, invalid] ++ Mark.all.map mark ++ Word.all.map word

/-- The kind of a given label. -/
def ofLabel? (label : Text) : Option Kind := all.find? (·.label.toList == label)

theorem ofLabel?_label (k : Kind) : ofLabel? k.label.toList = some k := by
  cases k with
  | mark m => cases m <;> decide
  | word w => cases w <;> decide
  | _ => decide

theorem label_injective {j k : Kind} (h : j.label.toList = k.label.toList) : j = k := by
  have hkind := ofLabel?_label j
  rw [h, ofLabel?_label k] at hkind
  exact (Option.some.inj hkind).symm

/-- Labels are words of capital letters. -/
theorem isUpper_label (k : Kind) : ∀ c ∈ k.label.toList, c.isUpper = true := by
  refine List.all_eq_true.1 ?_
  cases k with
  | mark m => cases m <;> rfl
  | word w => cases w <;> rfl
  | _ => rfl

theorem not_mem_label {c : Char} (hc : c.isUpper = false) (k : Kind) : c ∉ k.label.toList := by
  intro hmem
  rw [isUpper_label k c hmem] at hc
  cases hc

end Kind

/-! ## Places -/

theorem Decimal.toDigits_injective {m n : Nat} (h : Nat.toDigits 10 m = Nat.toDigits 10 n) :
    m = n := by
  rw [← digitsValue_toDigits m, h, digitsValue_toDigits]

namespace Span

variable {s t : Span} {c : Char}

theorem position_toList (s : Span) :
    s.position.toList = Nat.toDigits 10 s.line.toNat ++ ':' :: Nat.toDigits 10 s.column.toNat := by
  simp [position]

theorem not_mem_position (hcolon : c ≠ ':') (hdigit : c.isDigit = false) (s : Span) :
    c ∉ s.position.toList := by
  rw [position_toList, List.mem_append, List.mem_cons, not_or, not_or]
  exact ⟨Token.not_mem_of_isDigits (Decimal.isDigits_toDigits _) hdigit, hcolon,
    Token.not_mem_of_isDigits (Decimal.isDigits_toDigits _) hdigit⟩

/-- A position gives the line and the column. -/
theorem position_injective (h : s.position.toList = t.position.toList) :
    s.line = t.line ∧ s.column = t.column := by
  rw [position_toList, position_toList] at h
  obtain ⟨hline, hcolumn⟩ := cut_first
    (Token.not_mem_of_isDigits (Decimal.isDigits_toDigits _) rfl)
    (Token.not_mem_of_isDigits (Decimal.isDigits_toDigits _) rfl) h
  exact ⟨UInt32.toNat_inj.1 (Decimal.toDigits_injective hline),
    UInt32.toNat_inj.1 (Decimal.toDigits_injective hcolumn)⟩

end Span

/-! ## Values -/

namespace Token

/-- Whether a token can come from a text: it has a lexeme, or it is invalid. -/
def Arises (token : Token Text) : Prop :=
  (∃ lexeme, IsLexeme token lexeme) ∨ ∃ rest, token = .invalid rest

theorem Arises.isLexeme_spelling (h : token.Arises) (hvalid : token.isInvalid = false) :
    IsLexeme token token.spelling := by
  rcases h with ⟨lexeme, h⟩ | ⟨rest, rfl⟩
  · exact Token.isLexeme_spelling h
  · cases hvalid

/-- The spelling of a token that has a lexeme gives the token. -/
theorem eq_of_spelling {a b : Token Text} (ha : IsLexeme a a.spelling)
    (hb : IsLexeme b b.spelling) (h : a.spelling = b.spelling) : a = b := by
  have hread := ha.read_eq
  rw [h, hb.read_eq] at hread
  exact (Reading.token.inj hread).1.symm

theorem continuesName_of_isLexeme {run : Text} (h : IsLexeme (.name run) lexeme) :
    ∀ c ∈ run, continuesName c = true := by
  obtain rfl := h.eq_of_name
  generalize htoken : Token.name lexeme = token at h
  cases h with
  | name start continues _ _ _ => exact forall_continuesName start continues
  | float => cases htoken
  | int => cases htoken
  | mark => cases htoken
  | string => cases htoken

end Token

namespace Listing

variable {a b : Token Text} {value : Text}

theorem newline_not_mem_payload (h : token.Arises) (hvalue : payload? token = some value) :
    '\n' ∉ value := by
  have hnumber : ¬ StartsNumber '\n' := by
    unfold StartsNumber
    decide
  cases token with
  | float x =>
    obtain rfl := Option.some.inj hvalue
    exact Token.not_mem_number (h.isLexeme_spelling rfl) (Or.inl rfl) hnumber
  | int n =>
    obtain rfl := Option.some.inj hvalue
    exact Token.not_mem_number (h.isLexeme_spelling rfl) (Or.inr rfl) hnumber
  | name run =>
    obtain rfl := Option.some.inj hvalue
    intro hmem
    exact absurd (Token.continuesName_of_isLexeme (h.isLexeme_spelling rfl) _ hmem) (by decide)
  | string content =>
    obtain rfl := Option.some.inj hvalue
    exact Token.newline_not_mem_stringSpelling content
  | invalid rest =>
    obtain rfl := Option.some.inj hvalue
    exact newline_not_mem_quoted rest
  | mark m => cases hvalue
  | word w => cases hvalue

/-- Tokens of the same kind that are shown with the same value are the same. -/
theorem token_eq_of_payload? (ha : a.Arises) (hb : b.Arises) (hkind : a.kind = b.kind)
    (h : payload? a = payload? b) : a = b := by
  have hspelling : a.isInvalid = false → b.isInvalid = false → a.spelling = b.spelling → a = b :=
    fun hva hvb => Token.eq_of_spelling (ha.isLexeme_spelling hva) (hb.isLexeme_spelling hvb)
  cases a with
  | float x =>
    cases b with
    | float y => exact hspelling rfl rfl (Option.some.inj h)
    | _ => cases hkind
  | int m =>
    cases b with
    | int n => exact hspelling rfl rfl (Option.some.inj h)
    | _ => cases hkind
  | name run =>
    cases b with
    | name run' => exact hspelling rfl rfl (Option.some.inj h)
    | _ => cases hkind
  | string content =>
    cases b with
    | string content' => exact hspelling rfl rfl (Option.some.inj h)
    | _ => cases hkind
  | mark m =>
    cases b with
    | mark m' => exact congrArg Token.mark (Kind.mark.inj hkind)
    | _ => cases hkind
  | word w =>
    cases b with
    | word w' => exact congrArg Token.word (Kind.word.inj hkind)
    | _ => cases hkind
  | invalid rest =>
    cases b with
    | invalid rest' => exact congrArg Token.invalid (quoted_injective (Option.some.inj h))
    | _ => cases hkind

/-! ## One line -/

/-- The value of a token behind the label, if it has one. -/
def valuePart (token : Token Text) : Text :=
  match payload? token with
  | some value => ' ' :: value
  | none => []

/-- A line without the place. -/
def body (token : Token Text) : Text := token.kind.label.toList ++ valuePart token

theorem line_without_place (l : Lexeme Text) : line false l = body l.token :=
  List.append_nil _

theorem line_with_place (l : Lexeme Text) :
    line true l = (body l.token ++ [' ']) ++ '@' :: l.span.position.toList := by
  rw [List.append_assoc]
  rfl

theorem stops_valuePart (token : Token Text) : Stops (· != ' ') (valuePart token) := by
  rw [valuePart]
  cases payload? token with
  | none => exact stops_nil
  | some value => exact stops_cons.2 rfl

theorem payload?_of_valuePart (h : valuePart a = valuePart b) : payload? a = payload? b := by
  unfold valuePart at h
  cases ha : payload? a with
  | none =>
    cases hb : payload? b with
    | none => rfl
    | some value => simp [ha, hb] at h
  | some value =>
    cases hb : payload? b with
    | none => simp [ha, hb] at h
    | some value' => simpa [ha, hb] using h

/-- A line without the place has the label up to its first space, and gives the token. -/
theorem body_injective (ha : a.Arises) (hb : b.Arises) (h : body a = body b) : a = b := by
  have hlabel : ∀ k : Kind, ∀ c ∈ k.label.toList, (c != ' ') = true := by
    intro k c hc
    rw [bne_iff_ne]
    rintro rfl
    exact Kind.not_mem_label rfl k hc
  obtain ⟨htake, hdrop⟩ := (stops_valuePart a).split_append (hlabel a.kind)
  obtain ⟨htake', hdrop'⟩ := (stops_valuePart b).split_append (hlabel b.kind)
  rw [body, body] at h
  rw [h, htake'] at htake
  rw [h, hdrop'] at hdrop
  exact token_eq_of_payload? ha hb (Kind.label_injective htake.symm)
    (payload?_of_valuePart hdrop.symm)

theorem newline_not_mem_line (spans : Bool) {l : Lexeme Text} (h : l.token.Arises) :
    '\n' ∉ line spans l := by
  have hbody : '\n' ∉ body l.token := by
    rw [body, List.mem_append, not_or]
    refine ⟨Kind.not_mem_label rfl _, ?_⟩
    rw [valuePart]
    cases hvalue : payload? l.token with
    | none => exact List.not_mem_nil
    | some value => simpa using newline_not_mem_payload h hvalue
  cases spans with
  | false => rwa [line_without_place]
  | true =>
    have hplace := Span.not_mem_position (c := '\n') (by decide) rfl l.span
    rw [line_with_place]
    simpa using ⟨hbody, hplace⟩

/-- A line gives its token, and its place if it is shown. -/
theorem line_injective {spans : Bool} {l m : Lexeme Text} (hl : l.token.Arises)
    (hm : m.token.Arises) (h : line spans l = line spans m) :
    l.token = m.token ∧
      (spans = true → l.span.line = m.span.line ∧ l.span.column = m.span.column) := by
  cases spans with
  | false =>
    rw [line_without_place, line_without_place] at h
    exact ⟨body_injective hl hm h, fun hspans => nomatch hspans⟩
  | true =>
    rw [line_with_place, line_with_place] at h
    obtain ⟨hbody, hplace⟩ := cut_last (Span.not_mem_position (by decide) rfl _)
      (Span.not_mem_position (by decide) rfl _) h
    exact ⟨body_injective hl hm (List.append_cancel_right hbody),
      fun _ => Span.position_injective hplace⟩

/-- What looks like a place in a literal is no place. -/
example : line true ⟨.string " @1:2".toList, .point 0 3 4⟩ = "STRING \" @1:2\" @3:4".toList := rfl

end Listing

/-! ## The listing of a source -/

namespace Task

/-- The lines and columns at which the tokens of a text start. -/
def placesOf (text : Text) : List (UInt32 × UInt32) :=
  (lexemesOf text).map fun l => (l.span.line, l.span.column)

theorem arises_of_mem {l : Lexeme Text} {text : Text} (h : l ∈ lexemesOf text) :
    l.token.Arises :=
  exists_lexeme_of_mem_tokens (List.mem_map_of_mem h)

/-- The lines of a text. -/
def linesOf (spans : Bool) (text : Text) : List Text :=
  (lexemesOf text).map (Listing.line spans)

theorem newline_not_mem_linesOf (spans : Bool) (text : Text) :
    ∀ line ∈ linesOf spans text, '\n' ∉ line := by
  intro line hline
  obtain ⟨l, hl, rfl⟩ := List.mem_map.1 hline
  exact Listing.newline_not_mem_line spans (arises_of_mem hl)

theorem listingText_text (spans : Bool) (text : Text) :
    listingText .text spans (lexemesOf text) = (linesOf spans text).flatMap (· ++ ['\n']) := by
  simp only [listingText, listingActs, outputOf, linesOf, List.flatMap_map, Act.output]

/-- What the listings of two texts have in common, their tokens have. -/
theorem eq_of_linesOf {spans : Bool} {ls ms : List (Lexeme Text)}
    (hls : ∀ l ∈ ls, l.token.Arises) (hms : ∀ m ∈ ms, m.token.Arises)
    (h : ls.map (Listing.line spans) = ms.map (Listing.line spans)) :
    ls.map (·.token) = ms.map (·.token) ∧ (spans = true →
      ls.map (fun l => (l.span.line, l.span.column)) =
        ms.map fun m => (m.span.line, m.span.column)) := by
  induction ls generalizing ms with
  | nil =>
    obtain rfl : ms = [] := by simpa using h.symm
    exact ⟨rfl, fun _ => rfl⟩
  | cons l ls ih =>
    cases ms with
    | nil => cases h
    | cons m ms =>
      rw [List.forall_mem_cons] at hls hms
      obtain ⟨hline, hlines⟩ := List.cons.inj h
      obtain ⟨htoken, hplace⟩ := Listing.line_injective hls.1 hms.1 hline
      obtain ⟨htokens, hplaces⟩ := ih hls.2 hms.2 hlines
      refine ⟨congrArg₂ List.cons htoken htokens, fun hspans => ?_⟩
      obtain ⟨hl, hc⟩ := hplace hspans
      exact congrArg₂ List.cons (congrArg₂ Prod.mk hl hc) (hplaces hspans)

/-- What it is for the listings as text to be unambiguous, with places or without. -/
structure ListsUnambiguously (spans : Bool) (tree : Files.Tree) : Prop where
  /-- The output of a source is a text with one line for each token, and the outcome is the
  number of tokens. -/
  lines : ∀ source : Source, ∃ text : Text,
    (listed .text spans tree source).accepted = text.bytes ∧
      (listed .text spans tree source).outcome = .ok (text.count '\n') ∧
      text.count '\n' = (tokens source.text).length
  /-- Sources with the same output have the same tokens. -/
  tokens_eq : ∀ s₁ s₂ : Source,
    (listed .text spans tree s₁).accepted = (listed .text spans tree s₂).accepted →
      tokens s₁.text = tokens s₂.text
  /-- Where places are shown, the tokens also start at the same places. -/
  places_eq : spans = true → ∀ s₁ s₂ : Source,
    (listed .text spans tree s₁).accepted = (listed .text spans tree s₂).accepted →
      placesOf s₁.text = placesOf s₂.text

/-- Listings as text are unambiguous. -/
theorem listsUnambiguously (spans : Bool) (tree : Files.Tree) :
    ListsUnambiguously spans tree := by
  have hcommon : ∀ s₁ s₂ : Source,
      (listed .text spans tree s₁).accepted = (listed .text spans tree s₂).accepted →
        tokens s₁.text = tokens s₂.text ∧
          (spans = true → placesOf s₁.text = placesOf s₂.text) := by
    intro s₁ s₂ h
    rw [(listed_eq .text spans tree s₁).1, (listed_eq .text spans tree s₂).1] at h
    have htext := bytes_injective h
    rw [listingText_text, listingText_text] at htext
    exact eq_of_linesOf (fun _ => arises_of_mem) (fun _ => arises_of_mem)
      (lines_injective (newline_not_mem_linesOf spans _) (newline_not_mem_linesOf spans _) htext)
  refine ⟨fun source => ?_, fun s₁ s₂ h => (hcommon s₁ s₂ h).1,
    fun hspans s₁ s₂ h => (hcommon s₁ s₂ h).2 hspans⟩
  obtain ⟨haccepted, houtcome⟩ := listed_eq .text spans tree source
  have hcount : (listingText .text spans (lexemesOf source.text)).count '\n' =
      (lexemesOf source.text).length := by
    rw [listingText_text, count_lines (newline_not_mem_linesOf spans _), linesOf, List.length_map]
  refine ⟨_, haccepted, ?_, ?_⟩
  · rw [houtcome, hcount]
  · rw [hcount, ← map_token_lexemesOf, List.length_map]

end Task

end Lexicon
