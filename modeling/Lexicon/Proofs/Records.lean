import Mathlib.Data.List.Forall2
import Lexicon.Proofs.JsonReading
import Lexicon.Proofs.Lines

/-!
# The records of a listing

A listing as JSON is one array and a line feed after it, and reading the array gives a record
for each token, from which the token is recovered (`listsFaithfully`).

A record names the kind of its token by the label.  The kind says which sort of value there has
to be, and the value is the content itself, so that nothing is left to be unescaped
(`tokenOf?_record`).  Where spans are requested, the record has one more field, an object of
four numbers (`spanOf?_record`).

A number that is not finite would be written as null.  No token of a text has one, since it
would be at fault when it is read (`Token.Arises.isFinite`).
-/

namespace Lexicon

open Lexeme

/-! ## Finite numbers -/

/-- The numbers that can be read are finite. -/
theorem Token.Arises.isFinite {x : Binary64} (h : (Token.float x).Arises) : x.isFinite = true :=
  isFinite_of_isLexeme (h.isLexeme_spelling rfl)

/-! ## Fields of objects -/

namespace Json

/-- The value of the first field with a given key. -/
def field? (key : Text) : Json → Option Json
  | .object fields => (fields.find? (·.1 == key)).map (·.2)
  | _ => none

/-- The keys of an object. -/
def keys : Json → List Text
  | .object fields => fields.map (·.1)
  | _ => []

/-- A whole number that is not negative. -/
def toNat? : Json → Option Nat
  | .int (.ofNat n) => some n
  | _ => none

end Json

namespace Listing

/-! ## What a record stands for -/

/-- The kind a record names. -/
def kindOf? (record : Json) : Option Kind :=
  match record.field? "kind".toList with
  | some (.string label) => Kind.ofLabel? label
  | _ => none

/-- The token of a kind with a given value, or without one. -/
def tokenWith? : Kind → Option Json → Option (Token Text)
  | .float, some (.float x) => some (.float x)
  | .int, some (.int n) => if fits n then some (.int (Int64.ofInt n)) else none
  | .name, some (.string run) => some (.name run)
  | .string, some (.string content) => some (.string content)
  | .invalid, some (.string rest) => some (.invalid rest)
  | .mark m, none => some (.mark m)
  | .word w, none => some (.word w)
  | _, _ => none

/-- The token a record stands for. -/
def tokenOf? (record : Json) : Option (Token Text) :=
  (kindOf? record).bind fun kind => tokenWith? kind (record.field? "value".toList)

/-- The span an object of four numbers stands for. -/
def spanWith? (span : Json) : Option Span := do
  let start ← (← span.field? "start".toList).toNat?
  let stop ← (← span.field? "end".toList).toNat?
  let line ← (← span.field? "line".toList).toNat?
  let column ← (← span.field? "column".toList).toNat?
  if line < UInt32.size ∧ column < UInt32.size then
    some ⟨start, stop, UInt32.ofNat line, UInt32.ofNat column⟩
  else none

/-- The span a record has, if it has one. -/
def spanOf? (record : Json) : Option Span := (record.field? "span".toList).bind spanWith?

/-- Whether an object is the record of a token, with its span or without. -/
structure Records (spans : Bool) (l : Lexeme Text) (record : Json) : Prop where
  /-- The kind is named by its label. -/
  kind : record.field? "kind".toList = some (.string l.token.kind.label.toList)
  /-- The token is recovered from the kind and the value. -/
  token : tokenOf? record = some l.token
  /-- There is no value exactly for marks and reserved words. -/
  value_eq_none_iff : record.field? "value".toList = none ↔
    (∃ m, l.token = .mark m) ∨ ∃ w, l.token = .word w
  /-- A value is never null. -/
  value_ne_null : record.field? "value".toList ≠ some .null
  /-- The span is recovered where it is requested. -/
  span : spanOf? record = if spans then some l.span else none
  /-- There is a span exactly where it is requested. -/
  span_isSome : (record.field? "span".toList).isSome = spans
  /-- No key occurs twice. -/
  keys_nodup : record.keys.Nodup

/-! ## The record of a token -/

variable {spans : Bool}

theorem field?_kind_record (spans : Bool) (l : Lexeme Text) :
    (record spans l).field? "kind".toList = some (.string l.token.kind.label.toList) := rfl

theorem field?_value_record (spans : Bool) (l : Lexeme Text) :
    (record spans l).field? "value".toList = value? l.token := by
  rw [record]
  cases value? l.token with
  | none => cases spans <;> rfl
  | some value => rfl

theorem field?_span_record (spans : Bool) (l : Lexeme Text) :
    (record spans l).field? "span".toList = if spans then some (spanRecord l.span) else none := by
  rw [record]
  cases value? l.token with
  | none => cases spans <;> rfl
  | some value => cases spans <;> rfl

theorem keys_record_nodup (spans : Bool) (l : Lexeme Text) : (record spans l).keys.Nodup := by
  have hall : ["kind".toList, "value".toList, "span".toList].Nodup := by decide
  have hkeys : (record spans l).keys.Sublist ["kind".toList, "value".toList, "span".toList] := by
    rw [record]
    cases value? l.token with
    | none =>
      cases spans with
      | false => exact .cons_cons _ (List.nil_sublist _)
      | true => exact .cons_cons _ (.cons _ (List.Sublist.refl _))
    | some value =>
      cases spans with
      | false => exact .cons_cons _ (.cons_cons _ (List.nil_sublist _))
      | true => exact List.Sublist.refl _
  exact hall.sublist hkeys

theorem kindOf?_record (spans : Bool) (l : Lexeme Text) :
    kindOf? (record spans l) = some l.token.kind := by
  rw [kindOf?, field?_kind_record]
  exact Kind.ofLabel?_label _

theorem tokenWith?_value? (token : Token Text) :
    tokenWith? token.kind (value? token) = some token := by
  cases token with
  | int n => rw [Token.kind, value?, tokenWith?, Token.fits_toInt, if_pos rfl, Int64.ofInt_toInt]
  | _ => rfl

/-- The record of a token gives the token. -/
theorem tokenOf?_record (spans : Bool) (l : Lexeme Text) :
    tokenOf? (record spans l) = some l.token := by
  rw [tokenOf?, kindOf?_record, field?_value_record]
  exact tokenWith?_value? l.token

theorem spanWith?_spanRecord (s : Span) : spanWith? (spanRecord s) = some s := by
  have hbounds : s.line.toNat < UInt32.size ∧ s.column.toNat < UInt32.size :=
    ⟨s.line.toNat_lt_size, s.column.toNat_lt_size⟩
  show (if s.line.toNat < UInt32.size ∧ s.column.toNat < UInt32.size then
    some (⟨s.start, s.stop, UInt32.ofNat s.line.toNat, UInt32.ofNat s.column.toNat⟩ : Span)
    else none) = some s
  rw [if_pos hbounds, UInt32.ofNat_toNat, UInt32.ofNat_toNat]

/-- The record of a token gives the span, where it is requested. -/
theorem spanOf?_record (spans : Bool) (l : Lexeme Text) :
    spanOf? (record spans l) = if spans then some l.span else none := by
  rw [spanOf?, field?_span_record]
  cases spans with
  | false => rfl
  | true => exact spanWith?_spanRecord l.span

theorem value?_eq_none_iff (token : Token Text) :
    value? token = none ↔ (∃ m, token = .mark m) ∨ ∃ w, token = .word w := by
  cases token <;> simp [value?]

theorem value?_ne_null (token : Token Text) : value? token ≠ some .null := by
  cases token <;> simp [value?]

theorem records_record (spans : Bool) (l : Lexeme Text) : Records spans l (record spans l) where
  kind := field?_kind_record spans l
  token := tokenOf?_record spans l
  value_eq_none_iff := by rw [field?_value_record, value?_eq_none_iff]
  value_ne_null := by
    rw [field?_value_record]
    exact value?_ne_null l.token
  span := spanOf?_record spans l
  span_isSome := by
    rw [field?_span_record]
    cases spans <;> rfl
  keys_nodup := keys_record_nodup spans l

/-! ## Records as text -/

theorem finite_of_value? {token : Token Text} {value : Json} (h : token.Arises)
    (hvalue : value? token = some value) : value.Finite := by
  cases token with
  | float x =>
    obtain rfl := Option.some.inj hvalue
    exact .float h.isFinite
  | int n =>
    obtain rfl := Option.some.inj hvalue
    exact .int _
  | mark m => cases hvalue
  | word w => cases hvalue
  | _ =>
    obtain rfl := Option.some.inj hvalue
    exact .string _

theorem finite_spanRecord (s : Span) : (spanRecord s).Finite := by
  refine .object fun f hf => ?_
  simp only [List.mem_cons, List.not_mem_nil, or_false] at hf
  rcases hf with rfl | rfl | rfl | rfl <;> exact .int _

/-- No record has a number that would be written as null. -/
theorem finite_record {l : Lexeme Text} (h : l.token.Arises) (spans : Bool) :
    (record spans l).Finite := by
  refine .object fun f hf => ?_
  rw [List.cons_append, List.mem_cons, List.mem_append] at hf
  rcases hf with rfl | hf | hf
  · exact .string _
  · cases hvalue : value? l.token with
    | none => simp [hvalue] at hf
    | some value =>
      obtain rfl : f = ("value".toList, value) := by simpa [hvalue] using hf
      exact finite_of_value? h hvalue
  · cases spans with
    | false => cases hf
    | true =>
      obtain rfl := List.mem_singleton.1 hf
      exact finite_spanRecord l.span

end Listing

/-! ## The listing of a source -/

namespace Task

/-- What it is for the listing of a source as JSON to be faithful: it is a text that reads as an
array of given records, one for each token, and a line feed. -/
structure ListsFaithfully (spans : Bool) (tree : Files.Tree) (source : Source) (document : Text)
    (records : List Json) : Prop where
  /-- The output is the text and a line feed. -/
  accepted : (listed .json spans tree source).accepted = (document ++ ['\n']).bytes
  /-- The outcome is the number of tokens. -/
  outcome : (listed .json spans tree source).outcome = .ok (lexemesOf source.text).length
  /-- The text is one array in JSON. -/
  parse : Json.parse document = some (.array records)
  /-- The array has a record for each token, in order. -/
  records : List.Forall₂ (Listing.Records spans) (lexemesOf source.text) records

theorem listingText_json (spans : Bool) (lexemes : List (Lexeme Text)) :
    listingText .json spans lexemes =
      (Json.array (lexemes.map (Listing.record spans))).indented ++ ['\n'] := by
  simp [listingText, listingActs, outputOf, Act.output]

/-- Listings as JSON are faithful. -/
theorem listsFaithfully (spans : Bool) (tree : Files.Tree) (source : Source) :
    ∃ document records, ListsFaithfully spans tree source document records := by
  obtain ⟨haccepted, houtcome⟩ := listed_eq .json spans tree source
  rw [listingText_json] at haccepted
  have hfinite : (Json.array ((lexemesOf source.text).map (Listing.record spans))).Finite := by
    refine .array fun record hrecord => ?_
    obtain ⟨l, hl, rfl⟩ := List.mem_map.1 hrecord
    exact Listing.finite_record (arises_of_mem hl) spans
  refine ⟨_, _, haccepted, houtcome, Json.parse_write Json.isBlank_indented hfinite 0, ?_⟩
  rw [List.forall₂_map_right_iff, List.forall₂_same]
  exact fun l _ => Listing.records_record spans l

end Task

end Lexicon
