import Lexicon.Proofs.Sharing

/-!
# Calls on shared tables

Every call on a shared table is accounted for, whatever moves are made between its own.
It is counted as a hit or a miss once, it is answered once, and every worker gets its
answers in the order of its calls (`Tallies`).

A call in progress has a share in these sums, which depends on the stage of its
worker.  A move changes the stage of one worker only, so the sum over all workers
changes by what this share does (`total_set`).  What is left for every move is to
compare two stages of one worker (`Tallies.set`).

No calls get stuck (`Coherent.exists_quiet`).  The worker that has the lock can always go
on, and without one every worker can.  A worker that goes on has fewer moves left to
make, so after some moves all calls are finished.
-/

namespace Lexicon.Sharing

variable {α : Type}

/-! ## Calls in progress -/

namespace Stage

/-- The value of the call in progress. -/
def value? : Stage α → Option α
  | idle => none
  | looking value | found value _ | waiting value | lookingAgain value | foundLate value _
  | missing value | adding value | indexing value _ | leaving value _ => some value

/-- The number of calls in progress that have been counted, one or none. -/
def counted : Stage α → Nat
  | adding _ | indexing _ _ | leaving _ _ => 1
  | idle | looking _ | found _ _ | waiting _ | lookingAgain _ | foundLate _ _ | missing _ => 0

/-- The number of calls in progress for a value, one or none. -/
def calls [BEq α] (value : α) (stage : Stage α) : Nat := stage.value?.toList.count value

/-- The number of moves until the call is finished, at most. -/
def remaining : Stage α → Nat
  | idle => 0
  | found _ _ | leaving _ _ => 1
  | foundLate _ _ | indexing _ _ => 2
  | adding _ => 3
  | missing _ => 4
  | lookingAgain _ => 5
  | waiting _ => 6
  | looking _ => 7

end Stage

/-- A sum over the workers. -/
def total (f : Stage α → Nat) : List (Stage α) → Nat
  | [] => 0
  | stage :: stages => f stage + total f stages
termination_by structural stages => stages

section

variable {f : Stage α → Nat} {stages : List (Stage α)} {w : Nat} {old stage : Stage α}

/-- One worker changes a sum by as much as its own share changes. -/
theorem total_set (f : Stage α → Nat) (new : Stage α) (h : stages[w]? = some old) :
    total f (stages.set w new) + f old = total f stages + f new := by
  induction stages generalizing w with
  | nil => cases h
  | cons stage stages ih =>
    cases w with
    | zero =>
      obtain rfl : stage = old := by simpa using h
      simp only [List.set_cons_zero, total]
      omega
    | succ w =>
      have hrest := ih (w := w) (by simpa using h)
      simp only [List.set_cons_succ, total]
      omega

theorem le_total (h : stage ∈ stages) : f stage ≤ total f stages := by
  induction h with
  | head stages => exact Nat.le_add_right _ _
  | tail stage _ ih => exact Nat.le_trans ih (Nat.le_add_left _ _)

theorem total_idle (hf : f .idle = 0) (h : ∀ stage ∈ stages, stage = .idle) :
    total f stages = 0 := by
  induction stages with
  | nil => rfl
  | cons stage stages ih =>
    obtain ⟨rfl, hstages⟩ := List.forall_mem_cons.1 h
    rw [total, hf, ih hstages]

end

/-! ## Calls made and calls finished -/

/-- The value of a call. -/
def Move.value? : Move α → Option α
  | .call _ value => some value
  | .proceed _ => none

/-- The worker that moves. -/
def Move.worker : Move α → Nat
  | .call w _ => w
  | .proceed w => w

/-- The values of all calls, in the order in which they were started. -/
def called (moves : List (Move α)) : List α := moves.filterMap Move.value?

/-- The values of the calls of one worker. -/
def calledBy (w : Nat) (moves : List (Move α)) : List α :=
  called (moves.filter fun m => m.worker == w)

theorem called_concat (moves : List (Move α)) (m : Move α) :
    called (moves ++ [m]) = called moves ++ m.value?.toList := by
  simp only [called, List.filterMap_append]
  cases m <;> rfl

theorem calledBy_concat (moves : List (Move α)) (m : Move α) (w : Nat) :
    calledBy w (moves ++ [m]) =
      calledBy w moves ++ if m.worker = w then m.value?.toList else [] := by
  by_cases hw : m.worker = w
  · simp only [calledBy, List.filter_append, if_pos hw]
    rw [List.filter_cons_of_pos (by simpa using hw), List.filter_nil, called_concat]
  · simp only [calledBy, List.filter_append, if_neg hw]
    rw [List.filter_cons_of_neg (by simpa using hw), List.filter_nil, List.append_nil,
      List.append_nil]

variable [BEq α] [Hashable α]

/-- The values of the finished calls of one worker. -/
def answeredBy (s : Sharing α) (w : Nat) : List α :=
  (s.answers.reverse.filter fun a => a.worker == w).map (·.value)

/-- The value of the call that a worker has not finished. -/
def unfinishedBy (s : Sharing α) (w : Nat) : List α := (s.stages[w]?.bind Stage.value?).toList

/-- Whether no worker has a call to finish. -/
def IsQuiet (s : Sharing α) : Prop := ∀ stage ∈ s.stages, stage = .idle

variable {s s' : Sharing α} {table : SymbolTable α} {owner : Option Nat} {w v : Nat} {value : α}
  {symbol : Symbol} {old new stage : Stage α} {moves : List (Move α)}

/-! ## Counting -/

/-- Whether the counts of a table and the answers account for all calls. -/
structure Tallies (moves : List (Move α)) (s : Sharing α) : Prop where
  /-- A call is counted once. -/
  counted : s.table.hits + s.table.misses = s.answers.length + total Stage.counted s.stages
  /-- A call is answered once, or is still in progress. -/
  accounted : ∀ value, (called moves).count value =
    (s.answers.map (·.value)).count value + total (Stage.calls value) s.stages
  /-- Every worker gets its answers in order. -/
  inOrder : ∀ w, calledBy w moves = s.answeredBy w ++ s.unfinishedBy w

theorem unfinishedBy_of_stage (h : s.stages[w]? = some stage) :
    s.unfinishedBy w = stage.value?.toList := by
  rw [unfinishedBy, h]
  rfl

theorem unfinishedBy_set_self (answers : List (Answer α)) (h : s.stages[w]? = some old) :
    unfinishedBy ⟨table, owner, s.stages.set w new, answers⟩ w = new.value?.toList :=
  unfinishedBy_of_stage (stage_set_self h)

theorem unfinishedBy_set_of_ne (answers : List (Answer α)) (hne : v ≠ w) :
    unfinishedBy ⟨table, owner, s.stages.set w new, answers⟩ v = s.unfinishedBy v := by
  simp only [unfinishedBy, List.getElem?_set_ne (Ne.symm hne)]

theorem answeredBy_append {answer? : Option (Answer α)} (hworker : ∀ a ∈ answer?, a.worker = w)
    (s : Sharing α) (stages : List (Stage α)) (v : Nat) :
    answeredBy ⟨table, owner, stages, answer?.toList ++ s.answers⟩ v =
      s.answeredBy v ++ if w = v then answer?.toList.map (·.value) else [] := by
  cases answer? with
  | none => simp [answeredBy]
  | some a =>
    obtain rfl : a.worker = w := hworker a rfl
    by_cases hv : a.worker = v
    · simp [answeredBy, hv]
    · simp [answeredBy, hv]

/-- One worker moves.  The value of its call is taken up by the call, kept, or given
back with the answer. -/
theorem Tallies.set {m : Move α} (h : Tallies moves s) (answer? : Option (Answer α))
    (hstage : s.stages[m.worker]? = some old) (hworker : ∀ a ∈ answer?, a.worker = m.worker)
    (hvalues : old.value?.toList ++ m.value?.toList =
      answer?.toList.map (·.value) ++ new.value?.toList)
    (hcount : table.hits + table.misses + old.counted =
      s.table.hits + s.table.misses + answer?.toList.length + new.counted) :
    Tallies (moves ++ [m])
      ⟨table, owner, s.stages.set m.worker new, answer?.toList ++ s.answers⟩ where
  counted := by
    have hsum := total_set Stage.counted new hstage
    have hcounted := h.counted
    rw [List.length_append]
    show table.hits + table.misses = answer?.toList.length + s.answers.length +
      total Stage.counted (s.stages.set m.worker new)
    omega
  accounted := by
    intro value
    have hsum := total_set (Stage.calls value) new hstage
    have haccounted := h.accounted value
    have hcounts := congrArg (List.count value) hvalues
    rw [List.count_append, List.count_append] at hcounts
    rw [called_concat, List.count_append, List.map_append, List.count_append]
    simp only [Stage.calls] at hsum haccounted ⊢
    omega
  inOrder := by
    intro v
    rw [calledBy_concat, h.inOrder v, answeredBy_append hworker]
    by_cases hv : m.worker = v
    · subst hv
      rw [unfinishedBy_set_self _ hstage, unfinishedBy_of_stage hstage, if_pos rfl, if_pos rfl,
        List.append_assoc, List.append_assoc, hvalues]
    · rw [unfinishedBy_set_of_ne _ (Ne.symm hv), if_neg hv, if_neg hv, List.append_nil,
        List.append_nil]

theorem Tallies.step {m : Move α} (h : Tallies moves s) (hstep : Step s m s') :
    Tallies (moves ++ [m]) s' := by
  cases hstep with
  | calls hstage | finds hstage _ | lacks hstage _ | locks hstage _ | findsLate hstage _
  | lacksLate hstage _ | misses hstage | adds hstage | indexes hstage =>
    exact h.set none hstage nofun rfl rfl
  | hitsLate hstage =>
    refine h.set none hstage nofun rfl ?_
    exact Nat.add_right_comm s.table.hits 1 s.table.misses
  | @hits w value symbol hstage =>
    refine h.set (some ⟨w, value, symbol⟩) hstage ?_ rfl ?_
    · rintro a ⟨⟩
      rfl
    · exact Nat.add_right_comm s.table.hits 1 s.table.misses
  | @leaves w value symbol hstage =>
    refine h.set (some ⟨w, value, symbol⟩) hstage ?_ rfl rfl
    rintro a ⟨⟩
    rfl

/-- A call in progress has been made. -/
theorem Tallies.mem_called [LawfulBEq α] (h : Tallies moves s) (hstage : s.stages[w]? = some stage)
    (hvalue : stage.value? = some value) : value ∈ called moves := by
  have hcalls : stage.calls value = 1 := by simp [Stage.calls, hvalue]
  have hle : stage.calls value ≤ total (Stage.calls value) s.stages :=
    le_total (List.mem_of_getElem? hstage)
  have hcalled := h.accounted value
  exact List.count_pos_iff.1 (by omega)

/-- Without a call in progress all calls are finished. -/
theorem Tallies.perm_of_isQuiet [LawfulBEq α] (h : Tallies moves s) (hquiet : s.IsQuiet) :
    (s.answers.map (·.value)).Perm (called moves) := by
  rw [List.perm_iff_count]
  intro value
  rw [h.accounted value, total_idle rfl hquiet, Nat.add_zero]

/-! ## Finishing all calls -/

theorem Coherent.sound_of_isQuiet (h : s.Coherent) (hquiet : s.IsQuiet) : s.table.Sound := by
  cases howner : s.owner? with
  | none => exact h.free howner
  | some w =>
    obtain ⟨stage, hstage, hinside⟩ := (h.locked w).1 howner
    obtain rfl := hquiet stage (List.mem_of_getElem? hstage)
    cases hinside

/-- A worker can go on unless it waits for a lock that another has. -/
theorem exists_proceed? (hstage : s.stages[w]? = some stage) (hcall : stage ≠ .idle)
    (hlock : stage.isInside = true ∨ s.owner? = none) : ∃ s', s.proceed? w = some s' := by
  cases stage with
  | idle => exact absurd rfl hcall
  | looking value | lookingAgain value =>
    cases hindex : s.table.index[value]? <;> simp [proceed?, hstage, hindex]
  | waiting value =>
    have howner : s.owner? = none := hlock.resolve_left Bool.false_ne_true
    simp [proceed?, hstage, howner]
  | found _ _ | foundLate _ _ | missing _ | adding _ | indexing _ _ | leaving _ _ =>
    simp [proceed?, hstage]

/-- Some worker can always go on. -/
theorem Coherent.exists_proceed? (h : s.Coherent) (hquiet : ¬s.IsQuiet) :
    ∃ w s', s.proceed? w = some s' := by
  cases howner : s.owner? with
  | some w =>
    obtain ⟨stage, hstage, hinside⟩ := (h.locked w).1 howner
    refine ⟨w, Sharing.exists_proceed? hstage ?_ (Or.inl hinside)⟩
    rintro rfl
    cases hinside
  | none =>
    simp only [IsQuiet, Classical.not_forall] at hquiet
    obtain ⟨stage, hmem, hcall⟩ := hquiet
    obtain ⟨w, hstage⟩ := List.mem_iff_getElem?.1 hmem
    exact ⟨w, Sharing.exists_proceed? hstage hcall (Or.inr howner)⟩

theorem remaining_set_lt (hstage : s.stages[w]? = some old) (hlt : new.remaining < old.remaining) :
    total Stage.remaining (s.stages.set w new) < total Stage.remaining s.stages := by
  have hsum := total_set Stage.remaining new hstage
  omega

/-- A worker that goes on comes closer to the end of its call. -/
theorem remaining_lt_of_step (hstep : Step s (.proceed w) s') :
    total Stage.remaining s'.stages < total Stage.remaining s.stages := by
  cases hstep with
  | finds hstage _ | lacks hstage _ | hits hstage | locks hstage _ | findsLate hstage _
  | lacksLate hstage _ | hitsLate hstage | misses hstage | adds hstage | indexes hstage
  | leaves hstage => exact remaining_set_lt hstage (by simp [Stage.remaining])

/-- The calls in progress can be finished, whatever moves have been made. -/
theorem Coherent.exists_quiet [LawfulBEq α] {s : Sharing α} (h : s.Coherent) :
    ∃ moves s', called moves = [] ∧ s.run? moves = some s' ∧ s'.IsQuiet := by
  by_cases hquiet : s.IsQuiet
  · exact ⟨[], s, rfl, rfl, hquiet⟩
  · obtain ⟨w, next, hnext⟩ := h.exists_proceed? hquiet
    have hstep := step_of_proceed? hnext
    have hlt := remaining_lt_of_step hstep
    obtain ⟨moves, s', hcalled, hrun, hend⟩ := (h.step hstep).exists_quiet
    refine ⟨.proceed w :: moves, s', hcalled, ?_, hend⟩
    simpa [run?, move?, hnext] using hrun
termination_by total Stage.remaining s.stages

end Lexicon.Sharing
