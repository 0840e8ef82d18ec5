import Lexicon.Symbol
import Std.Data.HashMap.Lemmas

/-!
# Sound tables of symbols

A table keeps its values twice, in an array by index and in a map by value, and it
counts them as misses.  A sound table has the same in all three: no value stands
twice in the array, the map finds every value of the array at its position, and
there have been as many misses as there are values.

Interning keeps a table sound.  A value of the table is a hit and changes only the
count of hits (`Sound.intern_of_mem`), and any other value is put at the end
(`Sound.intern_of_not_mem`).  Of values interned one after another in a new table,
the table holds each one once (`mem_internAll`).

Indices have 32 bits.  Soundness does not ask for a small table, and the index of a
value is its position without the higher bits.  Only for `2 ^ 32` values at most
does the index lead back to the value (`Holds.get?_eq`).
-/

namespace Lexicon

theorem nodup_eraseDups {α : Type} [BEq α] [LawfulBEq α] (l : List α) : l.eraseDups.Nodup := by
  cases l with
  | nil => exact List.nodup_nil
  | cons a l =>
    rw [List.eraseDups_cons, List.nodup_cons]
    refine ⟨?_, nodup_eraseDups (l.filter fun b => !b == a)⟩
    rw [List.mem_eraseDups, List.mem_filter]
    rintro ⟨-, hne⟩
    simp at hne
termination_by l.length
decreasing_by exact Nat.lt_succ_of_le (List.length_filter_le _ _)

namespace SymbolTable

variable {α : Type} [BEq α] [Hashable α] {table : SymbolTable α} {value other : α} {i j : UInt32}

/-! ## Values and their indices -/

/-- Whether a value stands in the array at a position with this index. -/
def Holds (table : SymbolTable α) (value : α) (i : UInt32) : Prop :=
  ∃ n, table.values[n]? = some value ∧ i = UInt32.ofNat n

theorem Holds.mem (h : table.Holds value i) : value ∈ table.values := by
  obtain ⟨n, hn, -⟩ := h
  exact Array.mem_of_getElem? hn

/-- In a table that is not too large, the index of a value leads back to it. -/
theorem Holds.get?_eq (h : table.Holds value i) (hsize : table.count ≤ UInt32.size) :
    table.get? ⟨i⟩ = some value := by
  obtain ⟨n, hn, rfl⟩ := h
  obtain ⟨hlt, -⟩ := Array.getElem?_eq_some_iff.1 hn
  have hindex : (UInt32.ofNat n).toNat = n :=
    UInt32.toNat_ofNat_of_lt' (Nat.lt_of_lt_of_le hlt hsize)
  rw [get?, hindex]
  exact hn

/-! ## Sound tables -/

/-- A table in which no value stands twice, and whose map has right indices. -/
structure Readable (table : SymbolTable α) : Prop where
  /-- No value stands twice in the array. -/
  nodup : table.values.toList.Nodup
  /-- What the map finds stands in the array. -/
  indexed : ∀ {value i}, table.index[value]? = some i → table.Holds value i

/-- A table whose map finds everything in the array, and whose misses count it. -/
structure Sound (table : SymbolTable α) : Prop extends Readable table where
  /-- The map finds what stands in the array. -/
  covered : ∀ {value}, value ∈ table.values → ∃ i, table.index[value]? = some i
  /-- Every value has been a miss once. -/
  misses_eq : table.misses = table.values.size

theorem Readable.holds_unique (h : table.Readable) (hi : table.Holds value i)
    (hj : table.Holds value j) : i = j := by
  obtain ⟨n, hn, rfl⟩ := hi
  obtain ⟨m, hm, rfl⟩ := hj
  rw [← Array.getElem?_toList] at hn hm
  obtain ⟨hlt, -⟩ := List.getElem?_eq_some_iff.1 hn
  rw [(List.getElem?_inj hlt h.nodup).1 (hn.trans hm.symm)]

theorem sound_empty [EquivBEq α] [LawfulHashable α] : (empty : SymbolTable α).Sound where
  nodup := List.nodup_nil
  indexed := by simp [empty]
  covered := by simp [empty]
  misses_eq := rfl

theorem Sound.index_eq_none_iff (h : table.Sound) :
    table.index[value]? = none ↔ value ∉ table.values := by
  constructor
  · intro hnone hvalue
    obtain ⟨i, hi⟩ := h.covered hvalue
    rw [hnone] at hi
    cases hi
  · intro hvalue
    cases hi : table.index[value]? with
    | none => rfl
    | some i => exact absurd (h.indexed hi).mem hvalue

/-- The map is made up of the values. -/
theorem Sound.index_congr {table' : SymbolTable α} (h : table.Sound) (h' : table'.Sound)
    (hvalues : table.values = table'.values) (value : α) :
    table.index[value]? = table'.index[value]? := by
  by_cases hvalue : value ∈ table.values
  · obtain ⟨i, hi⟩ := h.covered hvalue
    obtain ⟨j, hj⟩ := h'.covered (hvalues ▸ hvalue)
    have hholds : table.Holds value j := by
      rw [Holds, hvalues]
      exact h'.indexed hj
    rw [hi, hj, h.holds_unique (h.indexed hi) hholds]
  · rw [h.index_eq_none_iff.2 hvalue, h'.index_eq_none_iff.2 (hvalues ▸ hvalue)]

/-- The hits are no matter. -/
theorem Sound.with_hits (h : table.Sound) (n : Nat) : Sound { table with hits := n } :=
  ⟨⟨h.nodup, h.indexed⟩, h.covered, h.misses_eq⟩

/-! ## Adding a value -/

/-- The table with a value at the end. -/
def add (table : SymbolTable α) (value : α) : SymbolTable α where
  index := table.index.insert value (UInt32.ofNat table.values.size)
  values := table.values.push value
  hits := table.hits
  misses := table.misses + 1

theorem holds_of_push {table' : SymbolTable α} (h : table.Holds value i)
    (hvalues : table'.values = table.values.push other) : table'.Holds value i := by
  obtain ⟨n, hn, rfl⟩ := h
  obtain ⟨hlt, -⟩ := Array.getElem?_eq_some_iff.1 hn
  refine ⟨n, ?_, rfl⟩
  rw [hvalues, Array.getElem?_push, if_neg (Nat.ne_of_lt hlt)]
  exact hn

theorem holds_add_self (table : SymbolTable α) (value : α) :
    (table.add value).Holds value (UInt32.ofNat table.values.size) :=
  ⟨table.values.size, by rw [add, Array.getElem?_push, if_pos rfl], rfl⟩

theorem nodup_push (h : table.values.toList.Nodup) (hvalue : value ∉ table.values) :
    (table.values.push value).toList.Nodup := by
  rw [Array.toList_push, List.nodup_append]
  refine ⟨h, List.nodup_cons.2 ⟨List.not_mem_nil, List.nodup_nil⟩, ?_⟩
  intro a ha b hb hab
  obtain rfl := List.mem_singleton.1 hb
  exact hvalue (Array.mem_toList_iff.1 (hab ▸ ha))

theorem not_mem_of_nodup_push (h : (table.values.push value).toList.Nodup) :
    value ∉ table.values := by
  intro hvalue
  rw [Array.toList_push, List.nodup_append] at h
  exact h.2.2 value (Array.mem_toList_iff.2 hvalue) value (List.mem_singleton_self value) rfl

/-! ## Interning -/

theorem Sound.intern_of_mem (h : table.Sound) (hvalue : value ∈ table.values) :
    ∃ i, table.Holds value i ∧
      table.intern value = (⟨i⟩, { table with hits := table.hits + 1 }) := by
  obtain ⟨i, hi⟩ := h.covered hvalue
  exact ⟨i, h.indexed hi, by rw [intern, hi]⟩

theorem Sound.intern_of_not_mem (h : table.Sound) (hvalue : value ∉ table.values) :
    table.intern value = (⟨UInt32.ofNat table.values.size⟩, table.add value) := by
  rw [intern, h.index_eq_none_iff.2 hvalue]
  rfl

/-- Every call is counted. -/
theorem calls_intern (table : SymbolTable α) (value : α) :
    (table.intern value).2.hits + (table.intern value).2.misses =
      table.hits + table.misses + 1 := by
  rw [SymbolTable.intern]
  cases table.index[value]? with
  | none => exact (Nat.add_assoc _ _ _).symm
  | some i => exact Nat.add_right_comm _ _ _

/-! ## One call after another -/

/-- The last call finds the table that the calls before it have left. -/
theorem internAll_concat (table : SymbolTable α) (values : List α) (value : α) :
    table.internAll (values ++ [value]) =
      ((table.internAll values).1 ++ [((table.internAll values).2.intern value).1],
        ((table.internAll values).2.intern value).2) := by
  induction values generalizing table with
  | nil => rfl
  | cons first values ih =>
    simp only [List.cons_append, internAll, ih]

theorem calls_internAll (table : SymbolTable α) (values : List α) :
    (table.internAll values).2.hits + (table.internAll values).2.misses =
      table.hits + table.misses + values.length := by
  induction values generalizing table with
  | nil => rfl
  | cons first values ih =>
    rw [internAll, ih, calls_intern, List.length_cons]
    omega

/-! ## What interning keeps -/

variable [LawfulBEq α]

theorem index_add_self (table : SymbolTable α) (value : α) :
    (table.add value).index[value]? = some (UInt32.ofNat table.values.size) :=
  Std.HashMap.getElem?_insert_self

/-- What the map finds it finds again after a new value has been added. -/
theorem Sound.index_add (h : table.Sound) (hvalue : value ∉ table.values)
    (hi : table.index[other]? = some i) : (table.add value).index[other]? = some i := by
  rw [SymbolTable.add, Std.HashMap.getElem?_insert]
  split
  · rename_i heq
    obtain rfl := eq_of_beq heq
    exact absurd (h.indexed hi).mem hvalue
  · exact hi

theorem Sound.add (h : table.Sound) (hvalue : value ∉ table.values) : (table.add value).Sound where
  nodup := nodup_push h.nodup hvalue
  indexed := by
    intro other i hi
    rw [SymbolTable.add, Std.HashMap.getElem?_insert] at hi
    split at hi
    · rename_i heq
      obtain rfl := eq_of_beq heq
      obtain rfl := Option.some.inj hi
      exact holds_add_self table value
    · exact holds_of_push (h.indexed hi) rfl
  covered := by
    intro other hother
    rw [SymbolTable.add, Std.HashMap.getElem?_insert]
    split
    · exact ⟨_, rfl⟩
    · rename_i hne
      rcases Array.mem_push.1 hother with hold | rfl
      · exact h.covered hold
      · exact absurd (beq_self_eq_true other) hne
  misses_eq := by simp [SymbolTable.add, h.misses_eq]

theorem Sound.intern (h : table.Sound) (value : α) : (table.intern value).2.Sound := by
  by_cases hvalue : value ∈ table.values
  · obtain ⟨i, -, hintern⟩ := h.intern_of_mem hvalue
    rw [hintern]
    exact h.with_hits _
  · rw [h.intern_of_not_mem hvalue]
    exact h.add hvalue

theorem Sound.mem_intern (h : table.Sound) :
    other ∈ (table.intern value).2.values ↔ other ∈ table.values ∨ other = value := by
  by_cases hvalue : value ∈ table.values
  · obtain ⟨i, -, hintern⟩ := h.intern_of_mem hvalue
    rw [hintern]
    constructor
    · exact Or.inl
    · rintro (hother | rfl)
      · exact hother
      · exact hvalue
  · rw [h.intern_of_not_mem hvalue]
    exact Array.mem_push

theorem sound_internAll (h : table.Sound) (values : List α) :
    (table.internAll values).2.Sound := by
  induction values generalizing table with
  | nil => exact h
  | cons first values ih => exact ih (h.intern first)

theorem mem_internAll (h : table.Sound) (values : List α) :
    other ∈ (table.internAll values).2.values ↔ other ∈ table.values ∨ other ∈ values := by
  induction values generalizing table with
  | nil => simp [internAll]
  | cons first values ih =>
    rw [internAll, ih (h.intern first), h.mem_intern, List.mem_cons, or_assoc]

end SymbolTable

end Lexicon
