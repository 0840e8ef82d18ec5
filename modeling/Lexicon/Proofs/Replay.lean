import Lexicon.Proofs.Calls

/-!
# Shared tables and tables that are not shared

Workers that share a table get the symbols that they would have got one after another
(`shares_of_run`).  Two finished calls give the same symbol for the same value only,
every symbol leads back to its value, and no value stands twice in the table.  When all
calls are finished, the counts are those of the calls and of the different values
among them.

The order that shows this is the one in which the calls are finished.  The replay of a
shared table makes the finished calls again in this order, with a new table.  It lags
behind the shared table while the first call for some value is on its way from the
array to its answer.  Other calls for the value may be answered before that call is,
and then the replay adds the value for one of them.  So the array of the shared table
is that of the replay, or has one more value, which the worker inside is adding
(`Replays`).

Indices have 32 bits, so the symbols of a table can be told apart as long as no more
than `UInt32.size` different values are interned.
-/

namespace Lexicon.Sharing

open SymbolTable

variable {α : Type}

/-! ## Values being added -/

/-- The value of a call in progress that may be the only one for it so far. -/
def Stage.added? : Stage α → Option α
  | indexing value _ | leaving value _ => some value
  | idle | looking _ | found _ _ | waiting _ | lookingAgain _ | foundLate _ _ | missing _
  | adding _ => none

theorem Stage.isInside_of_added? {stage : Stage α} {value : α} (h : stage.added? = some value) :
    stage.isInside = true := by
  cases stage with
  | indexing _ _ | leaving _ _ => rfl
  | _ => cases h

theorem Stage.value?_of_added? {stage : Stage α} {value : α} (h : stage.added? = some value) :
    stage.value? = some value := by
  cases stage with
  | indexing _ _ | leaving _ _ => exact h
  | _ => cases h

/-- Whether some worker may be making the first call for a value. -/
def Adds (stages : List (Stage α)) (value : α) : Prop :=
  ∃ (w : Nat) (stage : Stage α), stages[w]? = some stage ∧ stage.added? = some value

theorem Adds.set {stages : List (Stage α)} {w : Nat} {old new : Stage α} {value : α}
    (h : Adds stages value) (hstage : stages[w]? = some old)
    (hadded : old.added? = some value → new.added? = some value) :
    Adds (stages.set w new) value := by
  obtain ⟨v, stage, hv, hvalue⟩ := h
  by_cases hne : v = w
  · subst hne
    obtain rfl := Option.some.inj (hstage.symm.trans hv)
    exact ⟨v, new, stage_set_self hstage, hadded hvalue⟩
  · exact ⟨v, stage, by rwa [List.getElem?_set_ne (Ne.symm hne)], hvalue⟩

/-! ## Replays -/

variable [BEq α] [Hashable α]

/-- The finished calls made again one after another, in the order in which they were
finished, with a new table. -/
def replay (s : Sharing α) : List Symbol × SymbolTable α :=
  SymbolTable.empty.internAll (s.answers.reverse.map (·.value))

variable {s s' : Sharing α} {table : SymbolTable α} {owner : Option Nat} {w : Nat} {value : α}
  {symbol : Symbol} {old new stage : Stage α} {moves : List (Move α)}

/-- Whether the finished calls give the same answers one after another, and leave the
same values but for one that is still being added. -/
structure Replays (s : Sharing α) : Prop where
  /-- The answers are the same. -/
  symbols : s.replay.1 = s.answers.reverse.map (·.symbol)
  /-- The values are the same, or one more is being added. -/
  values : s.table.values = s.replay.2.values ∨
    ∃ value, Adds s.stages value ∧ s.table.values = s.replay.2.values.push value

/-- A worker moves and gives no answer.  A value that it is adding it goes on adding. -/
theorem Replays.move (h : s.Replays) (hstage : s.stages[w]? = some old)
    (hadded : ∀ value, old.added? = some value → new.added? = some value)
    (hvalues : table.values = s.table.values) :
    Replays ⟨table, owner, s.stages.set w new, s.answers⟩ where
  symbols := h.symbols
  values := by
    show table.values = s.replay.2.values ∨
      ∃ value, Adds (s.stages.set w new) value ∧ table.values = s.replay.2.values.push value
    rw [hvalues]
    rcases h.values with hsame | ⟨value, hadds, hpush⟩
    · exact Or.inl hsame
    · exact Or.inr ⟨value, hadds.set hstage (hadded value), hpush⟩

/-- A worker puts a value into the array.  Nobody else is adding one. -/
theorem Replays.add (h : s.Replays) (hcoherent : s.Coherent)
    (hstage : s.stages[w]? = some (.adding value))
    (hvalues : table.values = s.table.values.push value) :
    Replays ⟨table, owner, s.stages.set w (.indexing value symbol), s.answers⟩ where
  symbols := h.symbols
  values := by
    refine Or.inr ⟨value, ⟨w, _, stage_set_self hstage, rfl⟩, ?_⟩
    rcases h.values with hsame | ⟨other, ⟨v, stage, hv, hother⟩, -⟩
    · exact hsame ▸ hvalues
    · by_cases hne : v = w
      · subst hne
        obtain rfl := Option.some.inj (hstage.symm.trans hv)
        cases hother
      · have hout := hcoherent.outside hstage rfl hv hne
        rw [Stage.isInside_of_added? hother] at hout
        cases hout

/-- A value of the replay is in the table, with the same index. -/
theorem Replays.holds {i : UInt32} (h : s.Replays) (hi : s.replay.2.Holds value i) :
    s.table.Holds value i := by
  rcases h.values with hsame | ⟨other, -, hpush⟩
  · rwa [Holds, hsame]
  · exact holds_of_push hi hpush

/-- A value that is only in the table is the last one, and being added. -/
theorem Replays.of_not_mem (h : s.Replays) (hvalue : value ∈ s.table.values)
    (hnew : value ∉ s.replay.2.values) :
    Adds s.stages value ∧ s.table.values = s.replay.2.values.push value := by
  rcases h.values with hsame | ⟨other, hadds, hpush⟩
  · exact absurd (hsame ▸ hvalue) hnew
  · rw [hpush] at hvalue
    rcases Array.mem_push.1 hvalue with hold | rfl
    · exact absurd hold hnew
    · exact ⟨hadds, hpush⟩

theorem Replays.values_of_isQuiet (h : s.Replays) (hquiet : s.IsQuiet) :
    s.replay.2.values = s.table.values := by
  rcases h.values with hsame | ⟨value, ⟨w, stage, hstage, hadded⟩, -⟩
  · exact hsame.symm
  · obtain rfl := hquiet stage (List.mem_of_getElem? hstage)
    cases hadded

variable [LawfulBEq α]

theorem sound_replay (s : Sharing α) : s.replay.2.Sound := sound_internAll sound_empty _

/-- The replay gives the same symbol as the map.  If nobody has finished a call for the
value before, it is the one that is being added, and the replay adds it now. -/
theorem Replays.symbol_eq (h : s.Replays) (hcoherent : s.Coherent)
    (hindex : s.table.index[value]? = some symbol.index) :
    (s.replay.2.intern value).1 = symbol := by
  have hholds := hcoherent.readable.indexed hindex
  by_cases hmem : value ∈ s.replay.2.values
  · obtain ⟨i, hi, hintern⟩ := s.sound_replay.intern_of_mem hmem
    rw [hintern, hcoherent.readable.holds_unique (h.holds hi) hholds]
  · -- the table has the value last, where the replay puts it now
    obtain ⟨-, hpush⟩ := h.of_not_mem hholds.mem hmem
    have hlast : s.table.Holds value (UInt32.ofNat s.replay.2.values.size) :=
      ⟨s.replay.2.values.size, by rw [hpush, Array.getElem?_push, if_pos rfl], rfl⟩
    rw [s.sound_replay.intern_of_not_mem hmem, hcoherent.readable.holds_unique hlast hholds]

/-- The replay of one more call has the value of the call.  Another value that is being
added stays so. -/
theorem Replays.values_finish (h : s.Replays) (hcoherent : s.Coherent)
    (hstage : s.stages[w]? = some old) (hvalue : old.value? = some value)
    (htable : value ∈ s.table.values) :
    s.table.values = (s.replay.2.intern value).2.values ∨
      ∃ other, Adds (s.stages.set w .idle) other ∧
        s.table.values = (s.replay.2.intern value).2.values.push other := by
  by_cases hmem : value ∈ s.replay.2.values
  · obtain ⟨i, -, hintern⟩ := s.sound_replay.intern_of_mem hmem
    rw [hintern]
    rcases h.values with hsame | ⟨other, hadds, hpush⟩
    · exact Or.inl hsame
    · refine Or.inr ⟨other, hadds.set hstage ?_, hpush⟩
      -- the worker was not the one that adds, since its value is not new
      intro hother
      obtain rfl := Option.some.inj (hvalue.symm.trans (Stage.value?_of_added? hother))
      exact absurd hmem (not_mem_of_nodup_push (hpush ▸ hcoherent.readable.nodup))
  · obtain ⟨-, hpush⟩ := h.of_not_mem htable hmem
    rw [s.sound_replay.intern_of_not_mem hmem]
    exact Or.inl hpush

/-- A worker finishes its call with what the map has found. -/
theorem Replays.finish (h : s.Replays) (hcoherent : s.Coherent)
    (hstage : s.stages[w]? = some old) (hvalue : old.value? = some value)
    (hindex : s.table.index[value]? = some symbol.index)
    (hvalues : table.values = s.table.values) :
    Replays ⟨table, owner, s.stages.set w .idle, ⟨w, value, symbol⟩ :: s.answers⟩ := by
  have hreplay : replay ⟨table, owner, s.stages.set w .idle, ⟨w, value, symbol⟩ :: s.answers⟩ =
      (s.replay.1 ++ [(s.replay.2.intern value).1], (s.replay.2.intern value).2) := by
    rw [replay, List.reverse_cons, List.map_append]
    exact internAll_concat _ _ value
  have htable := (hcoherent.readable.indexed hindex).mem
  constructor
  · rw [hreplay, h.symbol_eq hcoherent hindex, h.symbols, List.reverse_cons, List.map_append]
    rfl
  · rw [hreplay]
    show table.values = (s.replay.2.intern value).2.values ∨
      ∃ other, Adds (s.stages.set w .idle) other ∧
        table.values = (s.replay.2.intern value).2.values.push other
    rw [hvalues]
    exact h.values_finish hcoherent hstage hvalue htable

theorem Replays.step {m : Move α} (h : s.Replays) (hcoherent : s.Coherent)
    (hstep : Step s m s') : s'.Replays := by
  cases hstep with
  | calls hstage | finds hstage _ | lacks hstage _ | locks hstage _ | findsLate hstage _
  | lacksLate hstage _ | hitsLate hstage | misses hstage =>
    exact h.move hstage (fun _ hvalue => by cases hvalue) rfl
  | hits hstage => exact h.finish hcoherent hstage rfl (hcoherent.fits _ _ hstage) rfl
  | adds hstage => exact h.add hcoherent hstage rfl
  | indexes hstage => exact h.move hstage (fun _ hvalue => hvalue) rfl
  | leaves hstage => exact h.finish hcoherent hstage rfl (hcoherent.fits _ _ hstage).2 rfl

/-! ## Runs -/

/-- What holds after any moves of workers that share a new table. -/
structure Reached (moves : List (Move α)) (s : Sharing α) : Prop extends
    Coherent s, Tallies moves s, Replays s

theorem reached_start (workers : Nat) :
    Reached [] (start (SymbolTable.empty : SymbolTable α) workers) := by
  have hidle : ∀ stage ∈ List.replicate workers (Stage.idle : Stage α), stage = .idle :=
    fun stage hstage => List.eq_of_mem_replicate hstage
  refine ⟨coherent_start workers, ⟨?_, ?_, ?_⟩, ⟨rfl, Or.inl rfl⟩⟩
  · simp [start, SymbolTable.empty, total_idle (f := Stage.counted) rfl hidle]
  · intro value
    simp [start, called, total_idle (f := Stage.calls value) rfl hidle]
  · intro w
    rw [unfinishedBy, start]
    cases hstage : (List.replicate workers (Stage.idle : Stage α))[w]? with
    | none => rfl
    | some stage =>
      obtain rfl := hidle stage (List.mem_of_getElem? hstage)
      rfl

theorem Reached.step {m : Move α} (h : Reached moves s) (hstep : Step s m s') :
    Reached (moves ++ [m]) s' where
  toCoherent := h.toCoherent.step hstep
  toTallies := h.toTallies.step hstep
  toReplays := h.toReplays.step h.toCoherent hstep

theorem Reached.run {before : List (Move α)} (h : Reached before s)
    (hrun : s.run? moves = some s') : Reached (before ++ moves) s' := by
  induction moves generalizing before s with
  | nil =>
    obtain rfl := Option.some.inj hrun
    rwa [List.append_nil]
  | cons m moves ih =>
    rw [run?, List.foldlM_cons] at hrun
    obtain ⟨next, hnext, hrest⟩ := Option.bind_eq_some_iff.1 hrun
    rw [List.append_cons]
    exact ih (h.step (step_of_move? hnext)) hrest

/-! ## Values of the table and of the calls -/

theorem mem_replay_iff : value ∈ s.replay.2.values ↔ value ∈ s.answers.map (·.value) := by
  rw [replay, mem_internAll sound_empty, List.map_reverse, List.mem_reverse]
  simp [SymbolTable.empty]

/-- Nothing gets into the table without a call. -/
theorem Reached.mem_called (h : Reached moves s) (hvalue : value ∈ s.table.values) :
    value ∈ called moves := by
  by_cases hmem : value ∈ s.replay.2.values
  · have hanswer := List.count_pos_iff.2 (mem_replay_iff.1 hmem)
    have hcalled := h.accounted value
    exact List.count_pos_iff.1 (by omega)
  · obtain ⟨⟨w, stage, hstage, hadded⟩, -⟩ := h.of_not_mem hvalue hmem
    exact h.toTallies.mem_called hstage (Stage.value?_of_added? hadded)

theorem Reached.count_le (h : Reached moves s) :
    s.table.count ≤ (called moves).eraseDups.length := by
  have hsubset : s.table.values.toList ⊆ (called moves).eraseDups := by
    intro value hvalue
    exact List.mem_eraseDups.2 (h.mem_called (Array.mem_toList_iff.1 hvalue))
  rw [count, ← Array.length_toList]
  exact List.Nodup.length_le_of_subset h.readable.nodup hsubset

/-! ## Shared tables work as others do -/

/-- Whether the calls might as well have been made one after another, in the order in
which they were finished. -/
structure Serial (moves : List (Move α)) (s : Sharing α) : Prop where
  /-- All calls are finished. -/
  perm : (s.answers.map (·.value)).Perm (called moves)
  /-- One after another the calls give the same symbols. -/
  symbols : s.replay.1 = s.answers.reverse.map (·.symbol)
  /-- They leave the same values. -/
  values : s.replay.2.values = s.table.values
  /-- They leave the same indices. -/
  index : ∀ value : α, s.replay.2.index[value]? = s.table.index[value]?
  /-- They leave the same count of hits. -/
  hits : s.replay.2.hits = s.table.hits
  /-- They leave the same count of misses. -/
  misses : s.replay.2.misses = s.table.misses
  /-- Every call was a hit or a miss. -/
  calls : s.table.hits + s.table.misses = (called moves).length
  /-- The first call for a value was the miss. -/
  misses_eq : s.table.misses = (called moves).eraseDups.length
  /-- The table has every value once. -/
  count_eq : s.table.count = (called moves).eraseDups.length

/-- Whether workers that share a table get what they call for. -/
structure Shares (moves : List (Move α)) (s : Sharing α) : Prop where
  /-- Finished calls give the same symbol for the same value only. -/
  symbol_eq_iff : ∀ a ∈ s.answers, ∀ b ∈ s.answers, a.symbol = b.symbol ↔ a.value = b.value
  /-- A symbol leads back to its value. -/
  get?_eq : ∀ a ∈ s.answers, s.table.get? a.symbol = some a.value
  /-- No value stands twice in the array. -/
  nodup : s.table.values.toList.Nodup
  /-- Every worker gets its answers in order. -/
  inOrder : ∀ w, calledBy w moves = s.answeredBy w ++ s.unfinishedBy w
  /-- The calls in progress can be finished. -/
  finishes : ∃ rest s', called rest = [] ∧ s.run? rest = some s' ∧ s'.IsQuiet
  /-- Without a call in progress it does not matter that the calls overlapped. -/
  serial : s.IsQuiet → Serial moves s

/-- Without a call in progress the table has what has been called for. -/
theorem Reached.count_eq (h : Reached moves s) (hquiet : s.IsQuiet) :
    s.table.count = (called moves).eraseDups.length := by
  have hperm : s.table.values.toList.Perm (called moves).eraseDups := by
    rw [List.perm_ext_iff_of_nodup h.readable.nodup (nodup_eraseDups _)]
    intro value
    rw [Array.mem_toList_iff, ← h.values_of_isQuiet hquiet, mem_replay_iff,
      (h.perm_of_isQuiet hquiet).mem_iff, List.mem_eraseDups]
  rw [count, ← Array.length_toList]
  exact hperm.length_eq

theorem Reached.serial (h : Reached moves s) (hquiet : s.IsQuiet) : Serial moves s := by
  have hsound := h.sound_of_isQuiet hquiet
  have hvalues := h.values_of_isQuiet hquiet
  have hperm := h.perm_of_isQuiet hquiet
  have hcount := h.count_eq hquiet
  have hcalls : s.table.hits + s.table.misses = s.answers.length := by
    rw [h.counted, total_idle rfl hquiet, Nat.add_zero]
  have hreplay : s.replay.2.hits + s.replay.2.misses = s.answers.length := by
    rw [replay, calls_internAll]
    simp [SymbolTable.empty]
  have hmisses : s.replay.2.misses = s.table.misses := by
    rw [s.sound_replay.misses_eq, hsound.misses_eq, hvalues]
  have hlength : s.answers.length = (called moves).length := by
    rw [← hperm.length_eq, List.length_map]
  exact {
    perm := hperm
    symbols := h.symbols
    values := hvalues
    index := s.sound_replay.index_congr hsound hvalues
    hits := by omega
    misses := hmisses
    calls := hcalls.trans hlength
    misses_eq := hsound.misses_eq.trans hcount
    count_eq := hcount }

/-- Workers that share a new table may make their moves in any order. -/
theorem shares_of_run {workers : Nat}
    (hrun : (start SymbolTable.empty workers).run? moves = some s)
    (hsize : (called moves).eraseDups.length ≤ UInt32.size) : Shares moves s := by
  have h : Reached moves s := (reached_start workers).run hrun
  have hget : ∀ a ∈ s.answers, s.table.get? a.symbol = some a.value := by
    intro a ha
    have hholds := h.readable.indexed (h.answered a ha)
    exact hholds.get?_eq (Nat.le_trans h.count_le hsize)
  refine ⟨?_, hget, h.readable.nodup, h.inOrder, h.exists_quiet, h.serial⟩
  intro a ha b hb
  constructor
  · intro hsymbol
    have hvalue := hget a ha
    rw [hsymbol, hget b hb] at hvalue
    exact (Option.some.inj hvalue).symm
  · intro hvalue
    have hindex := h.answered a ha
    rw [hvalue, h.answered b hb] at hindex
    exact congrArg Symbol.mk (Option.some.inj hindex).symm

/-- Two workers look for a name before either of them has the lock.  The second one adds
it, and the first one finds it when it looks again. -/
def overlapping : List (Move String) :=
  [.call 0 "dog", .call 1 "dog", .proceed 0, .proceed 1,
    .proceed 1, .proceed 1, .proceed 1, .proceed 1, .proceed 1, .proceed 1,
    .proceed 0, .proceed 0, .proceed 0, .proceed 0]

/-- Both have the same symbol. -/
def overlapped : Sharing String where
  table := ⟨(∅ : Std.HashMap String UInt32).insert "dog" 0, #["dog"], 1, 1⟩
  owner? := none
  stages := [.idle, .idle]
  answers := [⟨0, "dog", ⟨0⟩⟩, ⟨1, "dog", ⟨0⟩⟩]

theorem shares_overlapping :
    (start SymbolTable.empty 2).run? overlapping = some overlapped ∧
      (called overlapping).eraseDups.length ≤ UInt32.size ∧ Shares overlapping overlapped := by
  have hrun : (start SymbolTable.empty 2).run? overlapping = some overlapped := by
    simp [overlapping, overlapped, run?, move?, call?, proceed?, start, enter, finish,
      SymbolTable.empty]
  have hsize : (called overlapping).eraseDups.length ≤ UInt32.size := by decide
  exact ⟨hrun, hsize, shares_of_run hrun hsize⟩

end Lexicon.Sharing
