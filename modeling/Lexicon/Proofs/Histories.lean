import Lexicon.Proofs.Symbols
import Lexicon.Symbol.History
import Lexicon.Text

/-!
# Histories of a table

All that a table replies depends on the values interned so far, as a list with
repetitions.  The index of a value is the number of different values in front of its first
occurrence (`rank`).  It does not change when more values are interned, so a symbol once
issued stays the symbol of its value.

`Keeps table values` says that a table is sound and keeps exactly these values, in the
order of their first occurrences.  Every call keeps this, with the value it interns added
to the list (`Keeps.call`), and so does a history of calls (`Keeps.callAll`).  What the
table replies is read off the list, call by call, and `Remembers` puts it together.

Indices have 32 bits, so this is for histories with `2 ^ 32` different values at most.
-/

namespace Lexicon.SymbolTable

variable {α : Type} {values : List α} {value : α} {n m : Nat}

/-! ## First occurrences -/

/-- The number of different values in front of the first occurrence of a value. -/
def rank [BEq α] (values : List α) (value : α) : Nat :=
  (values.takeWhile (· != value)).eraseDups.length

section

variable [BEq α] [LawfulBEq α]

theorem takeWhile_ne {front : List α} (h : value ∉ front) (rest : List α) :
    (front ++ value :: rest).takeWhile (· != value) = front := by
  have hfront : ∀ v ∈ front, (v != value) = true := by
    intro v hv
    rw [bne_iff_ne]
    rintro rfl
    exact h hv
  rw [List.takeWhile_append_of_pos hfront, List.takeWhile_cons_of_neg (by simp),
    List.append_nil]

theorem eraseDups_concat_of_mem (h : value ∈ values) :
    (values ++ [value]).eraseDups = values.eraseDups := by
  rw [List.eraseDups_append, List.cons_removeAll, if_neg (by simpa using h)]
  exact List.append_nil _

theorem eraseDups_concat_of_not_mem (h : value ∉ values) :
    (values ++ [value]).eraseDups = values.eraseDups ++ [value] := by
  rw [List.eraseDups_append, List.cons_removeAll, if_pos (by simpa using h)]
  rfl

theorem length_eraseDups_le_append (values more : List α) :
    values.eraseDups.length ≤ (values ++ more).eraseDups.length := by
  rw [List.eraseDups_append, List.length_append]
  exact Nat.le_add_right _ _

/-- In the order of first occurrences a value stands at its rank. -/
theorem getElem?_rank (h : value ∈ values) :
    values.eraseDups[rank values value]? = some value := by
  obtain ⟨front, rest, rfl, hfront⟩ := List.eq_append_cons_of_mem h
  rw [rank, takeWhile_ne hfront, List.eraseDups_append, List.cons_removeAll,
    if_pos (by simpa using hfront), List.eraseDups_cons,
    List.getElem?_append_right (Nat.le_refl _), Nat.sub_self]
  rfl

/-- Only there it stands. -/
theorem eq_rank (h : values.eraseDups[n]? = some value) : n = rank values value := by
  obtain ⟨hlt, -⟩ := List.getElem?_eq_some_iff.1 h
  have hmem : value ∈ values := List.mem_eraseDups.1 (List.mem_of_getElem? h)
  exact (List.getElem?_inj hlt (nodup_eraseDups values)).1 (h.trans (getElem?_rank hmem).symm)

/-- The rank of a value does not change behind its first occurrence. -/
theorem rank_append (h : value ∈ values) (more : List α) :
    rank (values ++ more) value = rank values value := by
  obtain ⟨front, rest, rfl, hfront⟩ := List.eq_append_cons_of_mem h
  rw [rank, rank, List.append_assoc, List.cons_append, takeWhile_ne hfront, takeWhile_ne hfront]

end

/-! ## The values of a history -/

/-- The value that a call interns. -/
def Call.value? : Call α → Option α
  | intern value => some value
  | _ => none

/-- The values that calls intern, with repetitions. -/
def interned (calls : List (Call α)) : List α := calls.filterMap Call.value?

/-- How many different values calls intern. -/
def distinct [BEq α] (calls : List (Call α)) : Nat := (interned calls).eraseDups.length

section

variable {calls : List (Call α)}

theorem interned_eq_append (calls : List (Call α)) (n : Nat) :
    interned calls = interned (calls.take n) ++ interned (calls.drop n) := by
  rw [interned, interned, interned, ← List.filterMap_append, List.take_append_drop]

theorem mem_interned_take (h : calls[n]? = some (Call.intern value)) (hlt : n < m) :
    value ∈ interned (calls.take m) := by
  rw [← List.getElem?_take_of_lt hlt] at h
  exact List.mem_filterMap.2 ⟨_, List.mem_of_getElem? h, rfl⟩

variable [BEq α] [LawfulBEq α]

theorem distinct_take_le (calls : List (Call α)) (n : Nat) :
    distinct (calls.take n) ≤ distinct calls := by
  rw [distinct, distinct, interned_eq_append calls n]
  exact length_eraseDups_le_append _ _

theorem rank_take (h : value ∈ interned (calls.take n)) :
    rank (interned calls) value = rank (interned (calls.take n)) value := by
  rw [interned_eq_append calls n, rank_append h]

end

/-! ## Tables and replies -/

variable [BEq α] [Hashable α] {table : SymbolTable α} {c : Call α} {calls : List (Call α)}
  {s : Symbol} {i : UInt32}

/-- The table after the first calls of a history. -/
def after (calls : List (Call α)) (n : Nat) : SymbolTable α := (empty.callAll (calls.take n)).2

/-- The replies to the calls of a history. -/
def replies (calls : List (Call α)) : List (Reply α) := (empty.callAll calls).1

/-- Only interning changes a table. -/
theorem call_of_value?_eq_none (table : SymbolTable α) (h : c.value? = none) :
    (table.call c).2 = table := by
  cases c with
  | intern value => cases h
  | stats => rfl
  | get s =>
    rw [call]
    cases table.get? s <;> rfl

/-- A call is replied to by the table that the calls before it have left. -/
theorem getElem?_callAll (table : SymbolTable α) (calls : List (Call α)) (n : Nat) :
    (table.callAll calls).1[n]? =
      calls[n]?.map fun c => ((table.callAll (calls.take n)).2.call c).1 := by
  induction calls generalizing table n with
  | nil => rfl
  | cons first rest ih =>
    cases n with
    | zero => rfl
    | succ n => exact ih (table.call first).2 n

theorem getElem?_replies (h : calls[n]? = some c) :
    (replies calls)[n]? = some ((after calls n).call c).1 := by
  rw [replies, getElem?_callAll, h]
  rfl

theorem callAll_append (table : SymbolTable α) (calls more : List (Call α)) :
    (table.callAll (calls ++ more)).2 = ((table.callAll calls).2.callAll more).2 := by
  induction calls generalizing table with
  | nil => rfl
  | cons first rest ih => exact ih (table.call first).2

theorem after_succ (h : calls[n]? = some c) :
    after calls (n + 1) = ((after calls n).call c).2 := by
  rw [after, List.take_add_one, h, callAll_append]
  rfl

/-! ## What a table keeps -/

/-- Whether a table is sound and keeps these values in the order of their first
occurrences, having counted one call for each of them. -/
structure Keeps (table : SymbolTable α) (values : List α) : Prop extends Sound table where
  /-- The array has each value once. -/
  values_eq : table.values.toList = values.eraseDups
  /-- A call is a hit or a miss. -/
  calls_eq : table.hits + table.misses = values.length

theorem Keeps.count_eq (h : table.Keeps values) : table.count = values.eraseDups.length := by
  rw [← h.values_eq]
  rfl

theorem Keeps.stats_eq (h : table.Keeps values) :
    table.stats = ⟨values.eraseDups.length, values.length - values.eraseDups.length,
      values.eraseDups.length⟩ := by
  have hmisses : table.misses = values.eraseDups.length := h.misses_eq.trans h.count_eq
  have hhits : table.hits = values.length - values.eraseDups.length := by
    rw [← h.calls_eq, hmisses, Nat.add_sub_cancel]
  rw [stats, h.count_eq, hhits, hmisses]

theorem Keeps.get?_eq (h : table.Keeps values) (s : Symbol) :
    table.get? s = values.eraseDups[s.index.toNat]? := by
  rw [get?, ← h.values_eq, Array.getElem?_toList]

/-- The map and the array are inverse to each other. -/
theorem Keeps.index_eq_some_iff (h : table.Keeps values)
    (hsize : values.eraseDups.length ≤ UInt32.size) :
    table.index[value]? = some i ↔ table.values[i.toNat]? = some value := by
  constructor
  · intro hi
    exact (h.indexed hi).get?_eq (h.count_eq ▸ hsize)
  · intro hi
    obtain ⟨j, hj⟩ := h.covered (Array.mem_of_getElem? hi)
    have hholds : table.Holds value i := ⟨i.toNat, hi, UInt32.ofNat_toNat.symm⟩
    rw [hj, h.holds_unique (h.indexed hj) hholds]

variable [LawfulBEq α]

theorem Keeps.mem_iff (h : table.Keeps values) : value ∈ table.values ↔ value ∈ values := by
  rw [← Array.mem_toList_iff, h.values_eq, List.mem_eraseDups]

/-- The index of a value is its rank. -/
theorem Keeps.rank_of_holds (h : table.Keeps values)
    (hsize : values.eraseDups.length ≤ UInt32.size) (hvalue : table.Holds value i) :
    i.toNat = rank values value := by
  obtain ⟨n, hn, rfl⟩ := hvalue
  rw [← Array.getElem?_toList, h.values_eq] at hn
  obtain ⟨hlt, -⟩ := List.getElem?_eq_some_iff.1 hn
  rw [UInt32.toNat_ofNat_of_lt' (Nat.lt_of_lt_of_le hlt hsize)]
  exact eq_rank hn

/-! ## What calls keep -/

theorem keeps_empty : Keeps (empty : SymbolTable α) [] := ⟨sound_empty, rfl, rfl⟩

/-- A value that has been interned is held with its symbol. -/
theorem Sound.holds_intern (h : table.Sound) (value : α) :
    (table.intern value).2.Holds value (table.intern value).1.index := by
  by_cases hvalue : value ∈ table.values
  · obtain ⟨i, hholds, hintern⟩ := h.intern_of_mem hvalue
    rw [hintern]
    exact hholds
  · rw [h.intern_of_not_mem hvalue]
    exact holds_add_self table value

theorem Keeps.intern (h : table.Keeps values) (value : α) :
    (table.intern value).2.Keeps (values ++ [value]) where
  toSound := h.toSound.intern value
  values_eq := by
    by_cases hvalue : value ∈ table.values
    · obtain ⟨i, -, hintern⟩ := h.intern_of_mem hvalue
      rw [hintern, eraseDups_concat_of_mem (h.mem_iff.1 hvalue)]
      exact h.values_eq
    · rw [h.intern_of_not_mem hvalue, eraseDups_concat_of_not_mem fun hv => hvalue (h.mem_iff.2 hv),
        ← h.values_eq]
      exact Array.toList_push
  calls_eq := by
    rw [calls_intern, h.calls_eq, List.length_append, List.length_singleton]

/-- A call keeps the values, and the one it interns. -/
theorem Keeps.call (h : table.Keeps values) (c : Call α) :
    (table.call c).2.Keeps (values ++ c.value?.toList) := by
  cases hc : c.value? with
  | none =>
    rw [call_of_value?_eq_none table hc]
    show table.Keeps (values ++ [])
    rwa [List.append_nil]
  | some value =>
    cases c with
    | intern v =>
      obtain rfl : v = value := Option.some.inj hc
      exact h.intern v
    | get s => cases hc
    | stats => cases hc

theorem Keeps.callAll (h : table.Keeps values) (calls : List (Call α)) :
    (table.callAll calls).2.Keeps (values ++ interned calls) := by
  induction calls generalizing table values with
  | nil =>
    show table.Keeps (values ++ [])
    rwa [List.append_nil]
  | cons first rest ih =>
    have hrest := ih (h.call first)
    rw [List.append_assoc] at hrest
    cases first <;> exact hrest

theorem keeps_after (calls : List (Call α)) (n : Nat) :
    (after calls n).Keeps (interned (calls.take n)) := keeps_empty.callAll (calls.take n)

/-! ## Replies -/

/-- The reply to interning a value. -/
theorem exists_symbol (hsize : distinct calls ≤ UInt32.size)
    (h : calls[n]? = some (Call.intern value)) :
    ∃ s, (replies calls)[n]? = some (.symbol s) ∧ s.index.toNat = rank (interned calls) value := by
  have hsize' := Nat.le_trans (distinct_take_le calls (n + 1)) hsize
  have hholds := (keeps_after calls n).holds_intern value
  have hkeeps := keeps_after calls (n + 1)
  rw [after_succ h] at hkeeps
  refine ⟨((after calls n).intern value).1, getElem?_replies h, ?_⟩
  rw [rank_take (mem_interned_take h (Nat.lt_succ_self n))]
  exact hkeeps.rank_of_holds hsize' hholds

/-- The reply to looking up an index that has been issued. -/
theorem getElem?_replies_of_rank (h : calls[n]? = some (Call.get s))
    (hvalue : (interned (calls.take n)).eraseDups[s.index.toNat]? = some value) :
    (replies calls)[n]? = some (.value value) := by
  rw [getElem?_replies h, call, (keeps_after calls n).get?_eq, hvalue]

/-- What a history of calls to a new table is like. -/
structure Remembers (calls : List (Call α)) : Prop where
  /-- The index of a value is the number of different values interned before it was
  interned for the first time. -/
  intern : ∀ (n : Nat) (value : α), calls[n]? = some (Call.intern value) →
    ∃ s, (replies calls)[n]? = some (.symbol s) ∧ s.index.toNat = rank (interned calls) value
  /-- An index that has been issued is replied to with its value. -/
  issued : ∀ (n : Nat) (s : Symbol), calls[n]? = some (Call.get s) →
    s.index.toNat < distinct (calls.take n) →
    ∃ value ∈ interned (calls.take n), (replies calls)[n]? = some (.value value) ∧
      rank (interned calls) value = s.index.toNat
  /-- Any other index is not known. -/
  notIssued : ∀ (n : Nat) (s : Symbol), calls[n]? = some (Call.get s) →
    distinct (calls.take n) ≤ s.index.toNat →
    (replies calls)[n]? = some (.notIssued s)
  /-- The symbol of a value is the symbol of this value at all later times. -/
  lasts : ∀ (n m : Nat) (value : α) (s : Symbol), calls[n]? = some (Call.intern value) →
    (replies calls)[n]? = some (.symbol s) → n < m → calls[m]? = some (Call.get s) →
    (replies calls)[m]? = some (.value value)
  /-- The map and the array are inverse to each other. -/
  inverse : ∀ (n : Nat) (value : α) (i : UInt32), (after calls n).index[value]? = some i ↔
    (after calls n).values[i.toNat]? = some value
  /-- The counts are those of the different values and of the calls that intern. -/
  counts : ∀ (n : Nat), (after calls n).stats = ⟨distinct (calls.take n),
    (interned (calls.take n)).length - distinct (calls.take n),
    distinct (calls.take n)⟩
  /-- The counts are told when they are asked for. -/
  told : ∀ (n : Nat), calls[n]? = some Call.stats →
    (replies calls)[n]? = some (.stats (after calls n).stats)
  /-- Looking up symbols and telling the counts changes nothing. -/
  unchanged : ∀ (n : Nat) (c : Call α), calls[n]? = some c → c.value? = none →
    after calls (n + 1) = after calls n

/-- A table remembers the values that are interned, if they are not too many for their
indices. -/
theorem remembers (calls : List (Call α))
    (hsize : distinct calls ≤ UInt32.size) : Remembers calls where
  intern _ _ h := exists_symbol hsize h
  issued := by
    intro n s h hlt
    have hvalue := List.getElem?_eq_getElem hlt
    generalize (interned (calls.take n)).eraseDups[s.index.toNat] = value at hvalue
    have hmem : value ∈ interned (calls.take n) :=
      List.mem_eraseDups.1 (List.mem_of_getElem? hvalue)
    refine ⟨value, hmem, getElem?_replies_of_rank h hvalue, ?_⟩
    rw [rank_take hmem, ← eq_rank hvalue]
  notIssued := by
    intro n s h hle
    rw [getElem?_replies h, call, (keeps_after calls n).get?_eq, List.getElem?_eq_none hle]
  lasts := by
    intro n m value s h hreply hlt hget
    obtain ⟨s', hreply', hindex⟩ := exists_symbol hsize h
    obtain rfl : s = s' := by simpa [hreply] using hreply'
    have hmem := mem_interned_take h hlt
    have hvalue := getElem?_rank hmem
    rw [← rank_take hmem, ← hindex] at hvalue
    exact getElem?_replies_of_rank hget hvalue
  inverse n value i :=
    (keeps_after calls n).index_eq_some_iff (Nat.le_trans (distinct_take_le calls n) hsize)
  counts n := (keeps_after calls n).stats_eq
  told _ h := getElem?_replies h
  unchanged _ _ h hc := (after_succ h).trans (call_of_value?_eq_none _ hc)

/-- A name that comes twice and another one, with a symbol that has been issued and one
that has not. -/
theorem remembers_two_names :
    distinct [Call.intern (['a'] : Text), .get ⟨0⟩, .intern ['b'], .intern ['a'], .get ⟨2⟩,
      .stats] ≤ UInt32.size ∧
    Remembers [Call.intern (['a'] : Text), .get ⟨0⟩, .intern ['b'], .intern ['a'], .get ⟨2⟩,
      .stats] := by
  have hsize : distinct [Call.intern (['a'] : Text), .get ⟨0⟩, .intern ['b'], .intern ['a'],
      .get ⟨2⟩, .stats] ≤ UInt32.size := by decide
  exact ⟨hsize, remembers _ hsize⟩

end Lexicon.SymbolTable
