/-!
# Texts

A text is the list of its characters.  Everything the library reads and writes
is a text, so that taking the head of a text, dropping a run or splitting it in
two never meets the middle of a character.

Positions are nevertheless counted in bytes of the UTF-8 form, as in the files
the texts come from.  `byteSize` is that count and `splitBytes?` cuts a text
after a number of bytes.  The cut fails past the end and inside a character.
`splitBytes?_append` says that cutting `a ++ b` after the bytes of `a` gives
back `a` and `b`, and `eq_append_of_splitBytes?` says that every cut has this
form.  Together they make the byte count of a remainder as good as the
remainder itself.

`bytes` is the UTF-8 form.  Its length is `byteSize`.
-/

namespace Lexicon

/-- A text: its characters in order. -/
abbrev Text := List Char

namespace Text

/-- Texts are hashed character by character. -/
instance : Hashable Text := @instHashableList Char instHashableChar

/-! ## Bytes -/

/-- The number of bytes of the UTF-8 form. -/
def byteSize : Text → Nat
  | [] => 0
  | c :: t => c.utf8Size + byteSize t
termination_by structural t => t

@[simp] theorem byteSize_nil : byteSize [] = 0 := rfl

@[simp] theorem byteSize_cons (c : Char) (t : Text) :
    byteSize (c :: t) = c.utf8Size + byteSize t := rfl

@[simp] theorem byteSize_append (a b : Text) : byteSize (a ++ b) = byteSize a + byteSize b := by
  induction a with
  | nil => simp
  | cons c a ih => simp [ih, Nat.add_assoc]

/-- The UTF-8 form. -/
def bytes (t : Text) : List UInt8 := t.flatMap String.utf8EncodeChar

@[simp] theorem bytes_append (a b : Text) : bytes (a ++ b) = bytes a ++ bytes b := by
  simp [bytes]

theorem length_bytes (t : Text) : (bytes t).length = byteSize t := by
  induction t with
  | nil => rfl
  | cons c t ih =>
    have h : bytes (c :: t) = String.utf8EncodeChar c ++ bytes t := by simp [bytes]
    rw [h, List.length_append, ih, byteSize_cons, String.length_utf8EncodeChar]

/-! ## Cutting by bytes -/

/-- The first `n` bytes and the rest.  There is no such cut past the end or
inside a character. -/
def splitBytes? : Nat → Text → Option (Text × Text)
  | 0, t => some ([], t)
  | _ + 1, [] => none
  | n + 1, c :: t =>
    if c.utf8Size ≤ n + 1 then
      (splitBytes? (n + 1 - c.utf8Size) t).map fun cut => (c :: cut.1, cut.2)
    else none
termination_by structural _ t => t

/-- Cutting after the bytes of `a` gives `a` and what follows it. -/
theorem splitBytes?_append (a b : Text) : splitBytes? (byteSize a) (a ++ b) = some (a, b) := by
  induction a with
  | nil => cases b <;> rfl
  | cons c a ih =>
    obtain ⟨k, hk⟩ : ∃ k, c.utf8Size + byteSize a = k + 1 :=
      ⟨c.utf8Size + byteSize a - 1, by have := c.utf8Size_pos; omega⟩
    have hrest : k + 1 - c.utf8Size = byteSize a := by omega
    have hfit : c.utf8Size ≤ k + 1 := by omega
    rw [byteSize_cons, hk, List.cons_append, splitBytes?, if_pos hfit, hrest, ih]
    rfl

/-- Every cut is a division of the text in two, the first part having the
bytes asked for. -/
theorem eq_append_of_splitBytes? {n : Nat} {t a b : Text} (h : splitBytes? n t = some (a, b)) :
    t = a ++ b ∧ byteSize a = n := by
  induction t generalizing n a b with
  | nil =>
    cases n with
    | zero => obtain ⟨rfl, rfl⟩ : [] = a ∧ [] = b := by simpa [splitBytes?] using h
              exact ⟨rfl, rfl⟩
    | succ n => simp [splitBytes?] at h
  | cons c t ih =>
    cases n with
    | zero => obtain ⟨rfl, rfl⟩ : [] = a ∧ c :: t = b := by simpa [splitBytes?] using h
              exact ⟨rfl, rfl⟩
    | succ n =>
      rw [splitBytes?] at h
      split at h
      · obtain ⟨⟨u, v⟩, hcut, heq⟩ := Option.map_eq_some_iff.1 h
        simp only [Prod.mk.injEq] at heq
        obtain ⟨rfl, rfl⟩ := heq
        obtain ⟨rfl, hsize⟩ := ih hcut
        refine ⟨rfl, ?_⟩
        rw [byteSize_cons, hsize]
        omega
      · simp at h

end Text

end Lexicon
