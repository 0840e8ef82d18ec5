import Mathlib.Tactic.SplitIfs
import Lexicon.Proofs.JsonNumbers

/-!
# JSON values are read back

A value is written, and `Json.parse` reads the value again (`parse_write`).  The layout may put
any blanks between the parts.  The numbers in the value must be finite, since others are written
as null.

What follows a value must not go on like a number.  In an array or an object a comma, a blank
or a closing bracket follows, and these are no characters of numbers.  Strings and brackets end
by themselves.

Arrays and objects are both a series of things with commas between them, so that one statement
serves for both (`readSeries_write`).  It says of the things only that each is read back.
-/

namespace Lexicon.Json

open Text

/-! ## Strings -/

theorem codePoint_fourDigits {n : Nat} (h : n < 32) (t : Text) :
    Toml.codePoint 4 (fourDigits n ++ t) = some (Char.ofNat n, t) := by
  have hall : ∀ n < 32, (fourDigits n).length = 4 ∧
      (fourDigits n).mapM Toml.hexDigit? = some [0, 0, n / 16, n % 16] := by decide
  obtain ⟨hlength, hvalues⟩ := hall n h
  have hcode : 16 * (n / 16) + n % 16 = n := Nat.div_add_mod n 16
  have hvalid : n.isValidChar := Or.inl (by omega)
  rw [Toml.codePoint, ← hlength, List.take_left, List.drop_left]
  simp [hvalues, hcode, hvalid]

/-- The escaped form of a character is read as the character. -/
theorem readCharacter_escape (c : Char) (t : Text) :
    readCharacter (escape c ++ t) = some (c, t) := by
  rw [escape]
  split_ifs with hself hback hform hfeed hreturn htab hcontrol
  · rcases hself with rfl | rfl <;> rfl
  · rw [hback]
    rfl
  · rw [hform]
    rfl
  · rw [hfeed]
    rfl
  · rw [hreturn]
    rfl
  · rw [htab]
    rfl
  · have hcode := codePoint_fourDigits hcontrol t
    rw [Char.ofNat_toNat] at hcode
    rw [List.append_assoc]
    exact hcode
  · rw [not_or] at hself
    rw [List.singleton_append, readCharacter, if_neg hself.1, if_neg hself.2, if_neg hcontrol]

/-- A character that can be read does not close the string. -/
theorem readStringBody_of_readCharacter {t u : Text} {c : Char}
    (h : readCharacter t = some (c, u)) (fuel : Nat) :
    readStringBody (fuel + 1) t = Toml.prepend [c] (readStringBody fuel u) := by
  rw [readStringBody, h]
  · rfl
  · rintro body rfl
    cases h

/-- The escapes of a content and a closing quote are read as the content. -/
theorem readStringBody_escapes {fuel : Nat} (content rest : Text) (h : content.length < fuel) :
    readStringBody fuel (content.flatMap escape ++ '"' :: rest) = some (content, rest) := by
  induction content generalizing fuel with
  | nil =>
    obtain ⟨fuel, rfl⟩ := Nat.exists_eq_succ_of_ne_zero (Nat.ne_zero_of_lt h)
    rfl
  | cons c content ih =>
    obtain ⟨fuel, rfl⟩ := Nat.exists_eq_succ_of_ne_zero (Nat.ne_zero_of_lt h)
    rw [List.flatMap_cons, List.append_assoc,
      readStringBody_of_readCharacter (readCharacter_escape c _), ih (Nat.lt_of_succ_lt_succ h)]
    rfl

theorem escape_ne_nil (c : Char) : escape c ≠ [] := by
  intro h
  have hread := readCharacter_escape c []
  rw [h] at hread
  cases hread

theorem length_le_flatMap_escape (content : Text) :
    content.length ≤ (content.flatMap escape).length := by
  induction content with
  | nil => exact Nat.le_refl 0
  | cons c content ih =>
    have hpos := List.length_pos_iff.2 (escape_ne_nil c)
    rw [List.flatMap_cons, List.length_append, List.length_cons]
    omega

/-- A written string is read as its content. -/
theorem readString_stringText (content rest : Text) :
    readString (stringText content ++ rest) = some (content, rest) := by
  have hlength := length_le_flatMap_escape content
  have hfuel : content.length < (content.flatMap escape ++ '"' :: rest).length + 1 := by
    rw [List.length_append]
    omega
  rw [stringText, List.append_assoc]
  exact readStringBody_escapes content rest hfuel

/-! ## Blanks -/

theorem skipBlanks_append {gap t : Text} (hgap : AllBlank gap) (ht : Stops isBlank t) :
    skipBlanks (gap ++ t) = t := (ht.split_append hgap).2

theorem skipBlanks_eq {t : Text} (ht : Stops isBlank t) : skipBlanks t = t := ht.dropWhile_eq

theorem isBlank_of_isNumeric {c : Char} (h : isNumeric c = true) : isBlank c = false := by
  cases hblank : isBlank c with
  | false => rfl
  | true =>
    rcases eq_of_isBlank hblank with rfl | rfl | rfl | rfl <;> cases h

/-- Blanks and then no character of a number: no number goes on there. -/
theorem stops_isNumeric_append {gap t : Text} (hgap : AllBlank gap) (ht : Stops isNumeric t) :
    Stops isNumeric (gap ++ t) := by
  cases gap with
  | nil => exact ht
  | cons c gap =>
    refine stops_cons.2 ?_
    cases hc : isNumeric c with
    | false => rfl
    | true =>
      have hblank := isBlank_of_isNumeric hc
      rw [(allBlank_cons.1 hgap).1] at hblank
      cases hblank

/-! ## Series -/

/-- Whether a character can be told from everything that may stand before it in a series. -/
structure Closes (c : Char) : Prop where
  isNumeric_eq : isNumeric c = false
  isBlank_eq : isBlank c = false
  ne_comma : c ≠ ','

theorem closes_array : Closes ']' := ⟨rfl, rfl, by decide⟩

theorem closes_object : Closes '}' := ⟨rfl, rfl, by decide⟩

section

variable {α : Type}

/-- Whether something is read back from its written form, with blanks before it and anything
but more of a number behind it. -/
def ReadsBack (one : Toml.Reader α) (print : α → Text) (a : α) : Prop :=
  ∀ gap rest, AllBlank gap → Stops isNumeric rest → one (gap ++ (print a ++ rest)) = some (a, rest)

/-- The things of a series after the first, each behind a comma and a gap. -/
def tailText (gap : Text) (print : α → Text) (as : List α) : Text :=
  as.flatMap fun a => ',' :: gap ++ print a

variable {one : Toml.Reader α} {print : α → Text} {close : Char} {gap last : Text}

theorem tailText_cons (gap : Text) (print : α → Text) (a : α) (as : List α) :
    tailText gap print (a :: as) = ',' :: (gap ++ (print a ++ tailText gap print as)) := by
  simp [tailText]

theorem length_le_tailText (gap : Text) (print : α → Text) (as : List α) :
    as.length ≤ (tailText gap print as).length := by
  induction as with
  | nil => exact Nat.le_refl 0
  | cons a as ih =>
    simp only [tailText_cons, List.length_append, List.length_cons]
    omega

theorem length_print_le_tailText {a : α} {as : List α} (h : a ∈ as) (gap : Text)
    (print : α → Text) : (print a).length ≤ (tailText gap print as).length := by
  induction as with
  | nil => cases h
  | cons b as ih =>
    simp only [tailText_cons, List.length_append, List.length_cons]
    rcases List.mem_cons.1 h with rfl | h
    · omega
    · have hle := ih h
      omega

theorem stops_tailText (gap : Text) (print : α → Text) (as : List α)
    (hclose : Closes close) (hlast : AllBlank last) (rest : Text) :
    Stops isNumeric (tailText gap print as ++ (last ++ close :: rest)) := by
  cases as with
  | nil =>
    show Stops isNumeric (last ++ close :: rest)
    exact stops_isNumeric_append hlast (stops_cons.2 hclose.isNumeric_eq)
  | cons a as => exact stops_cons.2 rfl

/-- A series is read back, if everything in it is. -/
theorem readSeries_write {fuel : Nat} {a : α} {as : List α} (hgap : AllBlank gap)
    (hlast : AllBlank last) (hclose : Closes close) (hall : ∀ b ∈ a :: as, ReadsBack one print b)
    (hfuel : as.length < fuel) {before : Text} (hbefore : AllBlank before) (rest : Text) :
    readSeries close one fuel
        (before ++ (print a ++ (tailText gap print as ++ (last ++ close :: rest)))) =
      some (a :: as, rest) := by
  induction as generalizing fuel a before with
  | nil =>
    obtain ⟨fuel, rfl⟩ := Nat.exists_eq_succ_of_ne_zero (Nat.ne_zero_of_lt hfuel)
    have hone := hall a (by simp) before _ hbefore
      (stops_tailText gap print [] hclose hlast rest)
    have hskip : skipBlanks (tailText gap print ([] : List α) ++ (last ++ close :: rest)) =
        close :: rest :=
      skipBlanks_append (t := close :: rest) hlast (stops_cons.2 hclose.isBlank_eq)
    simp only [readSeries, hone, Option.bind_eq_bind, Option.bind_some, hskip,
      if_neg hclose.ne_comma, if_true]
  | cons b as ih =>
    obtain ⟨fuel, rfl⟩ := Nat.exists_eq_succ_of_ne_zero (Nat.ne_zero_of_lt hfuel)
    have hone := hall a (by simp) before _ hbefore
      (stops_tailText gap print (b :: as) hclose hlast rest)
    have htail : tailText gap print (b :: as) ++ (last ++ close :: rest) =
        ',' :: (gap ++ (print b ++ (tailText gap print as ++ (last ++ close :: rest)))) := by
      simp only [tailText_cons, List.cons_append, List.append_assoc]
    have hrest := ih (fun c hc => hall c (List.mem_cons_of_mem a hc))
      (Nat.lt_of_succ_lt_succ hfuel) hgap
    rw [htail] at hone ⊢
    have hskip : skipBlanks (',' :: (gap ++ (print b ++ (tailText gap print as ++
        (last ++ close :: rest))))) = _ := skipBlanks_eq (stops_cons.2 rfl)
    simp only [readSeries, hone, Option.bind_eq_bind, Option.bind_some, hskip, if_true, hrest,
      Option.map_some]

/-- What stands between brackets is read back, if everything in it is. -/
theorem readBracketed_write {a : α} {as : List α} (hgap : AllBlank gap) (hlast : AllBlank last)
    (hclose : Closes close) (hall : ∀ b ∈ a :: as, ReadsBack one print b)
    (hhead : ∃ c t, print a = c :: t ∧ isBlank c = false ∧ c ≠ close) (rest : Text) :
    readBracketed close one
        (gap ++ (print a ++ (tailText gap print as ++ (last ++ close :: rest)))) =
      some (a :: as, rest) := by
  obtain ⟨c, t, hprint, hc, hne⟩ := hhead
  have hfuel : as.length < (gap ++ (print a ++ (tailText gap print as ++
      (last ++ close :: rest)))).length + 1 := by
    have hlength := length_le_tailText gap print as
    simp only [List.length_append]
    omega
  have hseries := readSeries_write hgap hlast hclose hall hfuel hgap rest
  have hskip : skipBlanks (gap ++ (print a ++ (tailText gap print as ++
      (last ++ close :: rest)))) =
        c :: (t ++ (tailText gap print as ++ (last ++ close :: rest))) := by
    rw [hprint]
    exact skipBlanks_append hgap (stops_cons.2 hc)
  rw [readBracketed, hskip]
  simp only [if_neg hne, hseries]

theorem readBracketed_empty (hclose : Closes close) (one : Toml.Reader α) (rest : Text) :
    readBracketed close one (close :: rest) = some ([], rest) := by
  rw [readBracketed, skipBlanks_eq (stops_cons.2 hclose.isBlank_eq)]
  exact if_pos rfl

end

/-! ## Layouts -/

/-- Whether a layout only puts blanks between the parts of a value. -/
structure Layout.IsBlank (layout : Layout) : Prop where
  separation : ∀ depth, AllBlank (layout.separation depth)
  colon : ∃ a b, layout.colon = a ++ ':' :: b ∧ AllBlank a ∧ AllBlank b

theorem isBlank_indented : Layout.indented.IsBlank where
  separation depth := by
    refine allBlank_cons.2 ⟨rfl, fun c hc => ?_⟩
    rw [List.eq_of_mem_replicate hc]
    rfl
  colon := ⟨[], [' '], rfl, allBlank_nil, allBlank_cons.2 ⟨rfl, allBlank_nil⟩⟩

/-- A field without what stands before it. -/
def fieldText (layout : Layout) (depth : Nat) (f : Text × Json) : Text :=
  stringText f.1 ++ layout.colon ++ write layout depth f.2

theorem writeItems_eq (layout : Layout) (depth : Nat) (items : List Json) :
    writeItems layout depth items =
      tailText (layout.separation depth) (write layout depth) items := by
  induction items with
  | nil => rfl
  | cons item items ih =>
    rw [writeItems, ih]
    rfl

theorem writeFields_eq (layout : Layout) (depth : Nat) (fields : List (Text × Json)) :
    writeFields layout depth fields =
      tailText (layout.separation depth) (fieldText layout depth) fields := by
  induction fields with
  | nil => rfl
  | cons f fields ih =>
    obtain ⟨key, v⟩ := f
    rw [writeFields, ih]
    simp [tailText, fieldText]

/-! ## Values -/

/-- Whether all numbers in a value are finite. -/
inductive Finite : Json → Prop where
  | null : Finite .null
  | int (n : Int) : Finite (.int n)
  | float {x : Binary64} (h : x.isFinite = true) : Finite (.float x)
  | string (content : Text) : Finite (.string content)
  | array {items : List Json} (h : ∀ item ∈ items, Finite item) : Finite (.array items)
  | object {fields : List (Text × Json)} (h : ∀ f ∈ fields, Finite f.2) : Finite (.object fields)

variable {layout : Layout} {v : Json}

/-- A written value begins neither with a blank nor with a closing bracket. -/
theorem exists_head_write (h : v.Finite) (depth : Nat) :
    ∃ c t, write layout depth v = c :: t ∧ isBlank c = false ∧ c ≠ ']' := by
  have hspells : ∀ {t : Text} {v : Json}, Spells t v →
      ∃ c u, t = c :: u ∧ isBlank c = false ∧ c ≠ ']' := by
    intro t v h
    obtain ⟨c, u, rfl, hc⟩ := h.exists_cons
    refine ⟨c, u, rfl, isBlank_of_isNumeric hc, ?_⟩
    rintro rfl
    cases hc
  cases h with
  | null => exact ⟨'n', _, rfl, rfl, by decide⟩
  | int n => exact hspells (spells_signed n)
  | float hx => exact hspells (spells_floatText hx)
  | string content => exact ⟨'"', _, rfl, rfl, by decide⟩
  | @array items h =>
    cases items with
    | nil => exact ⟨'[', _, rfl, rfl, by decide⟩
    | cons item items => exact ⟨'[', _, rfl, rfl, by decide⟩
  | @object fields h =>
    cases fields with
    | nil => exact ⟨'{', _, rfl, rfl, by decide⟩
    | cons f fields => exact ⟨'{', _, rfl, rfl, by decide⟩

/-- Blanks before a value are passed over. -/
theorem readValue_append {gap t : Text} (hgap : AllBlank gap) (ht : Stops isBlank t)
    (level : Nat) : readValue (level + 1) (gap ++ t) = readValue (level + 1) t := by
  simp only [readValue, skipBlanks_append hgap ht, skipBlanks_eq ht]

theorem readValue_array (level : Nat) (t : Text) :
    readValue (level + 1) ('[' :: t) =
      (readBracketed ']' (readValue level) t).map fun (items, rest) => (.array items, rest) := rfl

theorem readValue_object (level : Nat) (t : Text) :
    readValue (level + 1) ('{' :: t) =
      (readBracketed '}' (readField (readValue level)) t).map
        fun (fields, rest) => (.object fields, rest) := rfl

theorem readValue_number {c : Char} {t : Text} (hc : isNumeric c = true) (level : Nat) :
    readValue (level + 1) (c :: t) = readNumber (c :: t) := by
  have hne : ∀ d : Char, isNumeric d = false → c ≠ d := by
    rintro d hd rfl
    rw [hc] at hd
    cases hd
  rw [readValue, skipBlanks_eq (stops_cons.2 (isBlank_of_isNumeric hc))]
  simp only [if_neg (hne '"' rfl), if_neg (hne '[' rfl), if_neg (hne '{' rfl),
    if_neg (hne 'n' rfl)]

theorem readsBack_number {t : Text} (h : Spells t v)
    (hprint : ∀ depth, write layout depth v = t) (depth level : Nat) :
    ReadsBack (readValue (level + 1)) (write layout depth) v := by
  intro gap rest hgap hrest
  obtain ⟨c, u, rfl, hc⟩ := h.exists_cons
  have hblank : Stops isBlank (c :: u ++ rest) := stops_cons.2 (isBlank_of_isNumeric hc)
  rw [hprint, readValue_append hgap hblank]
  exact (readValue_number hc level).trans (h.readNumber_append hrest)

/-- A field is read back if its value is. -/
theorem readsBack_field (hlayout : layout.IsBlank) {one : Toml.Reader Json} {depth : Nat}
    {f : Text × Json} (h : ReadsBack one (write layout depth) f.2) :
    ReadsBack (readField one) (fieldText layout depth) f := by
  intro gap rest hgap hrest
  obtain ⟨a, b, hcolon, ha, hb⟩ := hlayout.colon
  have htext : fieldText layout depth f ++ rest =
      stringText f.1 ++ (a ++ (':' :: (b ++ (write layout depth f.2 ++ rest)))) := by
    simp [fieldText, hcolon]
  have hskip : skipBlanks (gap ++ (stringText f.1 ++
      (a ++ (':' :: (b ++ (write layout depth f.2 ++ rest)))))) = _ :=
    skipBlanks_append hgap (stops_cons.2 rfl)
  have hskip' : skipBlanks (a ++ ':' :: (b ++ (write layout depth f.2 ++ rest))) = _ :=
    skipBlanks_append ha (stops_cons.2 rfl)
  rw [htext]
  simp only [readField, hskip, readString_stringText, Option.bind_eq_bind, Option.bind_some, hskip',
    h b rest hb hrest, Option.map_some]

/-- Everything in an array or an object is written shorter than the whole. -/
theorem forall_readsBack {α : Type} {one : Toml.Reader α} {print : α → Text} (gap : Text)
    {level : Nat} {a : α} {as : List α}
    (h : ∀ b ∈ a :: as, (print b).length ≤ level → ReadsBack one print b)
    (hlevel : (print a ++ tailText gap print as).length ≤ level) :
    ∀ b ∈ a :: as, ReadsBack one print b := by
  rw [List.length_append] at hlevel
  intro b hb
  refine h b hb ?_
  rcases List.mem_cons.1 hb with rfl | hb
  · omega
  · have hle := length_print_le_tailText hb gap print
    omega

theorem write_array (layout : Layout) (depth : Nat) (item : Json) (items : List Json)
    (rest : Text) :
    write layout depth (.array (item :: items)) ++ rest =
      '[' :: (layout.separation (depth + 1) ++ (write layout (depth + 1) item ++
        (tailText (layout.separation (depth + 1)) (write layout (depth + 1)) items ++
          (layout.separation depth ++ ']' :: rest)))) := by
  simp [write, writeItems_eq]

theorem write_object (layout : Layout) (depth : Nat) (f : Text × Json)
    (fields : List (Text × Json)) (rest : Text) :
    write layout depth (.object (f :: fields)) ++ rest =
      '{' :: (layout.separation (depth + 1) ++ (fieldText layout (depth + 1) f ++
        (tailText (layout.separation (depth + 1)) (fieldText layout (depth + 1)) fields ++
          (layout.separation depth ++ '}' :: rest)))) := by
  obtain ⟨key, v⟩ := f
  simp [write, writeFields_eq, fieldText]

/-- A value with finite numbers is read back, if the reader may go deep enough. -/
theorem readsBack_write (hlayout : layout.IsBlank) (hv : v.Finite) (depth level : Nat)
    (hlevel : (write layout depth v).length ≤ level + 1) :
    ReadsBack (readValue (level + 1)) (write layout depth) v := by
  induction hv generalizing depth level with
  | null =>
    intro gap rest hgap _
    exact readValue_append hgap (stops_cons.2 rfl) level
  | int n => exact readsBack_number (spells_signed n) (fun _ => rfl) depth level
  | float hx => exact readsBack_number (spells_floatText hx) (fun _ => rfl) depth level
  | string content =>
    intro gap rest hgap _
    exact (readValue_append hgap (stops_cons.2 rfl) level).trans
      (congrArg (Option.map _) (readString_stringText content rest))
  | @array items hitems ih =>
    intro gap rest hgap _
    cases items with
    | nil =>
      have hempty := readBracketed_empty closes_array (readValue level) rest
      refine (readValue_append hgap (stops_cons.2 rfl) level).trans ?_
      exact (readValue_array level _).trans (congrArg (Option.map _) hempty)
    | cons item items =>
      -- the brackets leave each item shorter by two, which pays for the deeper level
      have hlength := congrArg List.length (write_array layout depth item items [])
      simp only [List.length_append, List.length_cons, List.length_nil] at hlength
      obtain ⟨level, rfl⟩ : ∃ k, level = k + 1 := ⟨level - 1, by omega⟩
      have hall := forall_readsBack (layout.separation (depth + 1))
        (fun b hb hle => ih b hb (depth + 1) level hle) (by rw [List.length_append]; omega)
      have hread := readBracketed_write (hlayout.separation (depth + 1)) (hlayout.separation depth)
        closes_array hall (exists_head_write (hitems item (by simp)) _) rest
      rw [write_array, readValue_append hgap (stops_cons.2 rfl), readValue_array, hread]
      rfl
  | @object fields hfields ih =>
    intro gap rest hgap _
    cases fields with
    | nil =>
      have hempty := readBracketed_empty closes_object (readField (readValue level)) rest
      refine (readValue_append hgap (stops_cons.2 rfl) level).trans ?_
      exact (readValue_object level _).trans (congrArg (Option.map _) hempty)
    | cons f fields =>
      have hlength := congrArg List.length (write_object layout depth f fields [])
      simp only [List.length_append, List.length_cons, List.length_nil] at hlength
      obtain ⟨level, rfl⟩ : ∃ k, level = k + 1 := ⟨level - 1, by omega⟩
      have hvalue : ∀ b ∈ f :: fields, (fieldText layout (depth + 1) b).length ≤ level + 1 →
          ReadsBack (readField (readValue (level + 1))) (fieldText layout (depth + 1)) b := by
        intro b hb hle
        refine readsBack_field hlayout (ih b hb (depth + 1) level ?_)
        simp only [fieldText, List.length_append] at hle
        omega
      have hall := forall_readsBack (layout.separation (depth + 1)) hvalue
        (by rw [List.length_append]; omega)
      have hread := readBracketed_write (hlayout.separation (depth + 1)) (hlayout.separation depth)
        closes_object hall ⟨'"', _, rfl, rfl, by decide⟩ rest
      rw [write_object, readValue_append hgap (stops_cons.2 rfl), readValue_object, hread]
      rfl

/-- A written value with finite numbers is read as the value. -/
theorem parse_write (hlayout : layout.IsBlank) (hv : v.Finite) (depth : Nat) :
    parse (write layout depth v) = some v := by
  have hread := readsBack_write hlayout hv depth (write layout depth v).length
    (Nat.le_succ _) [] [] allBlank_nil stops_nil
  rw [List.nil_append, List.append_nil] at hread
  rw [parse, hread]
  rfl

end Lexicon.Json
