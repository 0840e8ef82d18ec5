import Lexicon.Proofs.Symbols
import Lexicon.Symbol.Sharing

/-!
# Shared tables

Workers that share a table make their moves in any order.  The table is not sound at
all times.  The worker that has the lock counts a miss, then puts its value into the
array and last its index into the map, and another worker may look into the map
before, between and after these moves.

What a worker can rely on depends on its stage (`Stage.Fits`).  A worker without the
lock relies on nothing but an index it has found, and the map never loses one.  A
worker with the lock knows that the table is sound, or which sound table it has made
the first changes to.

`Coherent` adds that one worker at most is inside, and that the map finds every answer.
Every move keeps the table coherent (`Coherent.step`).  `Step` lists the moves with
what is known when they are made.  Of all moves only four things matter here, whether
a worker stays outside, stays inside, takes the lock or gives it back, and there is a
lemma for each.
-/

namespace Lexicon.Sharing

open SymbolTable

variable {α : Type}

/-! ## Stages of the workers -/

namespace Stage

/-- Whether the worker has the lock. -/
def isInside : Stage α → Bool
  | idle | looking _ | found _ _ | waiting _ => false
  | lookingAgain _ | foundLate _ _ | missing _ | adding _ | indexing _ _ | leaving _ _ => true

end Stage

section

variable {stages : List (Stage α)} {w v : Nat} {old new stage : Stage α}

theorem stage_set_self (h : stages[w]? = some old) : (stages.set w new)[w]? = some new := by
  obtain ⟨hlt, -⟩ := List.getElem?_eq_some_iff.1 h
  exact List.getElem?_set_self hlt

/-- The worker that has moved is at its new stage, and the others are where they were. -/
theorem stage_cases (h : (stages.set w new)[v]? = some stage) :
    (v = w ∧ stage = new) ∨ (v ≠ w ∧ stages[v]? = some stage) := by
  by_cases hv : v = w
  · subst hv
    obtain ⟨hlt, -⟩ := List.getElem?_eq_some_iff.1 h
    rw [List.getElem?_set_self (by rwa [List.length_set] at hlt)] at h
    exact Or.inl ⟨rfl, (Option.some.inj h).symm⟩
  · rw [List.getElem?_set_ne (Ne.symm hv)] at h
    exact Or.inr ⟨hv, h⟩

end

variable [BEq α] [Hashable α] {s s' : Sharing α} {table table' : SymbolTable α} {w v : Nat}
  {value : α} {symbol : Symbol} {old new stage : Stage α}

/-! ## Steps -/

/-- What a move does, one clause for each stage of the worker. -/
inductive Step (s : Sharing α) : Move α → Sharing α → Prop where
  | calls {w : Nat} {value : α} (hstage : s.stages[w]? = some .idle) :
      Step s (.call w value) (s.enter w (.looking value))
  | finds {w : Nat} {value : α} {i : UInt32} (hstage : s.stages[w]? = some (.looking value))
      (hindex : s.table.index[value]? = some i) :
      Step s (.proceed w) (s.enter w (.found value ⟨i⟩))
  | lacks {w : Nat} {value : α} (hstage : s.stages[w]? = some (.looking value))
      (hindex : s.table.index[value]? = none) :
      Step s (.proceed w) (s.enter w (.waiting value))
  | hits {w : Nat} {value : α} {symbol : Symbol}
      (hstage : s.stages[w]? = some (.found value symbol)) :
      Step s (.proceed w) { s.finish w value symbol with
        table := { s.table with hits := s.table.hits + 1 } }
  | locks {w : Nat} {value : α} (hstage : s.stages[w]? = some (.waiting value))
      (howner : s.owner? = none) :
      Step s (.proceed w) { s.enter w (.lookingAgain value) with owner? := some w }
  | findsLate {w : Nat} {value : α} {i : UInt32}
      (hstage : s.stages[w]? = some (.lookingAgain value))
      (hindex : s.table.index[value]? = some i) :
      Step s (.proceed w) (s.enter w (.foundLate value ⟨i⟩))
  | lacksLate {w : Nat} {value : α} (hstage : s.stages[w]? = some (.lookingAgain value))
      (hindex : s.table.index[value]? = none) :
      Step s (.proceed w) (s.enter w (.missing value))
  | hitsLate {w : Nat} {value : α} {symbol : Symbol}
      (hstage : s.stages[w]? = some (.foundLate value symbol)) :
      Step s (.proceed w) { s.enter w (.leaving value symbol) with
        table := { s.table with hits := s.table.hits + 1 } }
  | misses {w : Nat} {value : α} (hstage : s.stages[w]? = some (.missing value)) :
      Step s (.proceed w) { s.enter w (.adding value) with
        table := { s.table with misses := s.table.misses + 1 } }
  | adds {w : Nat} {value : α} (hstage : s.stages[w]? = some (.adding value)) :
      Step s (.proceed w) { s.enter w (.indexing value ⟨UInt32.ofNat s.table.values.size⟩) with
        table := { s.table with values := s.table.values.push value } }
  | indexes {w : Nat} {value : α} {symbol : Symbol}
      (hstage : s.stages[w]? = some (.indexing value symbol)) :
      Step s (.proceed w) { s.enter w (.leaving value symbol) with
        table := { s.table with index := s.table.index.insert value symbol.index } }
  | leaves {w : Nat} {value : α} {symbol : Symbol}
      (hstage : s.stages[w]? = some (.leaving value symbol)) :
      Step s (.proceed w) { s.finish w value symbol with owner? := none }

theorem step_of_call? (h : s.call? w value = some s') : Step s (.call w value) s' := by
  unfold call? at h
  split at h
  · rename_i hstage
    obtain rfl := Option.some.inj h
    exact .calls hstage
  · cases h

theorem step_of_proceed? (h : s.proceed? w = some s') : Step s (.proceed w) s' := by
  unfold proceed? at h
  cases hstage : s.stages[w]? with
  | none => simp [hstage] at h
  | some stage =>
    cases stage with
    | idle => simp [hstage] at h
    | looking value =>
      simp only [hstage] at h
      cases hindex : s.table.index[value]? with
      | none =>
        simp only [hindex] at h
        obtain rfl := Option.some.inj h
        exact .lacks hstage hindex
      | some i =>
        simp only [hindex] at h
        obtain rfl := Option.some.inj h
        exact .finds hstage hindex
    | found value symbol =>
      simp only [hstage] at h
      obtain rfl := Option.some.inj h
      exact .hits hstage
    | waiting value =>
      simp only [hstage] at h
      cases howner : s.owner? with
      | none =>
        simp only [howner] at h
        obtain rfl := Option.some.inj h
        exact .locks hstage howner
      | some v => simp [howner] at h
    | lookingAgain value =>
      simp only [hstage] at h
      cases hindex : s.table.index[value]? with
      | none =>
        simp only [hindex] at h
        obtain rfl := Option.some.inj h
        exact .lacksLate hstage hindex
      | some i =>
        simp only [hindex] at h
        obtain rfl := Option.some.inj h
        exact .findsLate hstage hindex
    | foundLate value symbol =>
      simp only [hstage] at h
      obtain rfl := Option.some.inj h
      exact .hitsLate hstage
    | missing value =>
      simp only [hstage] at h
      obtain rfl := Option.some.inj h
      exact .misses hstage
    | adding value =>
      simp only [hstage] at h
      obtain rfl := Option.some.inj h
      exact .adds hstage
    | indexing value symbol =>
      simp only [hstage] at h
      obtain rfl := Option.some.inj h
      exact .indexes hstage
    | leaving value symbol =>
      simp only [hstage] at h
      obtain rfl := Option.some.inj h
      exact .leaves hstage

theorem step_of_move? {m : Move α} (h : s.move? m = some s') : Step s m s' := by
  cases m with
  | call w value => exact step_of_call? h
  | proceed w => exact step_of_proceed? h

/-! ## What the stages say about the table -/

/-- What a worker at a stage can rely on.  Only the worker that has the lock knows
that the table is sound, or in what it is not. -/
def Stage.Fits (table : SymbolTable α) : Stage α → Prop
  | .idle | .looking _ | .waiting _ => True
  | .found value symbol => table.index[value]? = some symbol.index
  | .lookingAgain _ => table.Sound
  | .foundLate value symbol | .leaving value symbol =>
    table.Sound ∧ table.index[value]? = some symbol.index
  | .missing value => table.Sound ∧ value ∉ table.values
  | .adding value => ∃ before : SymbolTable α, before.Sound ∧ value ∉ before.values ∧
    table = { before with misses := before.misses + 1 }
  | .indexing value symbol => ∃ before : SymbolTable α, before.Sound ∧ value ∉ before.values ∧
    symbol = ⟨UInt32.ofNat before.values.size⟩ ∧
    table = { before with
      values := before.values.push value, misses := before.misses + 1 }

/-- Hits are counted without the lock. -/
theorem Stage.Fits.with_hits (h : stage.Fits table) (n : Nat) :
    stage.Fits { table with hits := n } := by
  cases stage with
  | idle | looking _ | waiting _ => trivial
  | found value symbol => exact h
  | lookingAgain value => exact Sound.with_hits h n
  | foundLate value symbol | leaving value symbol => exact ⟨h.1.with_hits n, h.2⟩
  | missing value => exact ⟨h.1.with_hits n, h.2⟩
  | adding value =>
    obtain ⟨before, hsound, hvalue, rfl⟩ := h
    exact ⟨{ before with hits := n }, hsound.with_hits n, hvalue, rfl⟩
  | indexing value symbol =>
    obtain ⟨before, hsound, hvalue, rfl, rfl⟩ := h
    exact ⟨{ before with hits := n }, hsound.with_hits n, hvalue, rfl, rfl⟩

/-- A worker without the lock relies on nothing but an index it has found. -/
theorem Stage.Fits.grow (h : stage.Fits table) (hstage : stage.isInside = false)
    (hgrows : ∀ (value : α) (i : UInt32),
      table.index[value]? = some i → table'.index[value]? = some i) :
    stage.Fits table' := by
  cases stage with
  | idle | looking _ | waiting _ => trivial
  | found value symbol => exact hgrows value symbol.index h
  | lookingAgain _ | foundLate _ _ | missing _ | adding _ | indexing _ _ | leaving _ _ =>
    cases hstage

/-- The table can be read at any time. -/
theorem Stage.Fits.readable (h : stage.Fits table) (hstage : stage.isInside = true) :
    table.Readable := by
  cases stage with
  | idle | looking _ | waiting _ | found _ _ => cases hstage
  | lookingAgain value => exact h.toReadable
  | foundLate value symbol | leaving value symbol => exact h.1.toReadable
  | missing value => exact h.1.toReadable
  | adding value =>
    obtain ⟨before, hsound, -, rfl⟩ := h
    exact ⟨hsound.nodup, hsound.indexed⟩
  | indexing value symbol =>
    obtain ⟨before, hsound, hvalue, -, rfl⟩ := h
    exact ⟨nodup_push hsound.nodup hvalue, fun hi => holds_of_push (hsound.indexed hi) rfl⟩

/-! ## Coherence -/

/-- Whether the lock, the table, the stages and the answers fit together. -/
structure Coherent (s : Sharing α) : Prop where
  /-- One worker is inside, the one that has the lock. -/
  locked : ∀ w, s.owner? = some w ↔
    ∃ stage : Stage α, s.stages[w]? = some stage ∧ stage.isInside = true
  /-- Without a worker inside the table is sound. -/
  free : s.owner? = none → s.table.Sound
  /-- The workers can rely on their stages. -/
  fits : ∀ (w : Nat) (stage : Stage α), s.stages[w]? = some stage → stage.Fits s.table
  /-- The map finds the answers. -/
  answered : ∀ a ∈ s.answers, s.table.index[a.value]? = some a.symbol.index

theorem coherent_start [LawfulBEq α] (workers : Nat) :
    (start (SymbolTable.empty : SymbolTable α) workers).Coherent := by
  have hidle : ∀ (w : Nat) (stage : Stage α),
      (List.replicate workers Stage.idle)[w]? = some stage → stage = .idle := by
    intro w stage hstage
    exact List.eq_of_mem_replicate (List.mem_of_getElem? hstage)
  constructor
  · intro w
    constructor
    · intro howner
      cases howner
    · rintro ⟨stage, hstage, hinside⟩
      obtain rfl := hidle w stage hstage
      cases hinside
  · intro _
    exact sound_empty
  · intro w stage hstage
    obtain rfl := hidle w stage hstage
    trivial
  · intro a ha
    cases ha

theorem Coherent.readable (h : s.Coherent) : s.table.Readable := by
  cases howner : s.owner? with
  | none => exact (h.free howner).toReadable
  | some w =>
    obtain ⟨stage, hstage, hinside⟩ := (h.locked w).1 howner
    exact (h.fits w stage hstage).readable hinside

/-- No other worker is inside. -/
theorem Coherent.outside (h : s.Coherent) (hw : s.stages[w]? = some old)
    (hold : old.isInside = true) (hv : s.stages[v]? = some stage) (hne : v ≠ w) :
    stage.isInside = false := by
  cases hstage : stage.isInside with
  | false => rfl
  | true =>
    have howner := (h.locked v).2 ⟨stage, hv, hstage⟩
    rw [(h.locked w).2 ⟨old, hw, hold⟩] at howner
    exact absurd (Option.some.inj howner).symm hne

/-- The lock stays where it is while a worker stays inside or outside. -/
theorem Coherent.locked_set (h : s.Coherent) (hstage : s.stages[w]? = some old)
    (hsame : old.isInside = new.isInside) (v : Nat) :
    s.owner? = some v ↔
      ∃ stage : Stage α, (s.stages.set w new)[v]? = some stage ∧ stage.isInside = true := by
  rw [h.locked v]
  constructor
  · rintro ⟨stage, hv, hinside⟩
    by_cases hne : v = w
    · subst hne
      obtain rfl := Option.some.inj (hstage.symm.trans hv)
      exact ⟨new, stage_set_self hstage, hsame ▸ hinside⟩
    · exact ⟨stage, by rwa [List.getElem?_set_ne (Ne.symm hne)], hinside⟩
  · rintro ⟨stage, hv, hinside⟩
    rcases stage_cases hv with ⟨rfl, rfl⟩ | ⟨-, hv⟩
    · exact ⟨old, hstage, hsame.trans hinside⟩
    · exact ⟨stage, hv, hinside⟩

/-- A worker moves outside.  It may count a hit and give an answer. -/
theorem Coherent.move_outside (h : s.Coherent) (hstage : s.stages[w]? = some old)
    (hold : old.isInside = false) (hnew : new.isInside = false) (hfits : new.Fits s.table)
    (n : Nat) {answers : List (Answer α)}
    (hanswers : ∀ a ∈ answers, s.table.index[a.value]? = some a.symbol.index) :
    Coherent ⟨{ s.table with hits := n }, s.owner?, s.stages.set w new, answers⟩ where
  locked := h.locked_set hstage (hold.trans hnew.symm)
  free := fun howner => (h.free howner).with_hits n
  fits := by
    intro v stage hv
    rcases stage_cases hv with ⟨-, rfl⟩ | ⟨-, hv⟩
    · exact hfits.with_hits n
    · exact (h.fits v stage hv).with_hits n
  answered := hanswers

/-- The worker inside moves, and the map keeps what it has. -/
theorem Coherent.move_inside (h : s.Coherent) (hstage : s.stages[w]? = some old)
    (hold : old.isInside = true) (hnew : new.isInside = true)
    (hgrows : ∀ (value : α) (i : UInt32),
      s.table.index[value]? = some i → table.index[value]? = some i)
    (hfits : new.Fits table) :
    Coherent ⟨table, s.owner?, s.stages.set w new, s.answers⟩ where
  locked := h.locked_set hstage (hold.trans hnew.symm)
  free := by
    intro howner
    rw [(h.locked w).2 ⟨old, hstage, hold⟩] at howner
    cases howner
  fits := by
    intro v stage hv
    rcases stage_cases hv with ⟨-, rfl⟩ | ⟨hne, hv⟩
    · exact hfits
    · exact (h.fits v stage hv).grow (h.outside hstage hold hv hne) hgrows
  answered := fun a ha => hgrows a.value a.symbol.index (h.answered a ha)

/-- A worker takes the lock. -/
theorem Coherent.move_in (h : s.Coherent) (hstage : s.stages[w]? = some old)
    (howner : s.owner? = none) (hnew : new.isInside = true) (hfits : new.Fits s.table) :
    Coherent ⟨s.table, some w, s.stages.set w new, s.answers⟩ where
  locked := by
    intro v
    constructor
    · rintro hv
      obtain rfl := Option.some.inj hv
      exact ⟨new, stage_set_self hstage, hnew⟩
    · rintro ⟨stage, hv, hinside⟩
      rcases stage_cases hv with ⟨rfl, -⟩ | ⟨-, hv⟩
      · rfl
      · have hlocked := (h.locked v).2 ⟨stage, hv, hinside⟩
        rw [howner] at hlocked
        cases hlocked
  free := fun hnone => by cases hnone
  fits := by
    intro v stage hv
    rcases stage_cases hv with ⟨-, rfl⟩ | ⟨-, hv⟩
    · exact hfits
    · exact h.fits v stage hv
  answered := h.answered

/-- A worker gives the lock back, together with its answer. -/
theorem Coherent.move_out (h : s.Coherent) (hstage : s.stages[w]? = some old)
    (hold : old.isInside = true) (hnew : new.isInside = false) (hfits : new.Fits s.table)
    (hsound : s.table.Sound) {answers : List (Answer α)}
    (hanswers : ∀ a ∈ answers, s.table.index[a.value]? = some a.symbol.index) :
    Coherent ⟨s.table, none, s.stages.set w new, answers⟩ where
  locked := by
    intro v
    constructor
    · rintro hv
      cases hv
    · rintro ⟨stage, hv, hinside⟩
      rcases stage_cases hv with ⟨-, rfl⟩ | ⟨hne, hv⟩
      · rw [hnew] at hinside
        cases hinside
      · rw [h.outside hstage hold hv hne] at hinside
        cases hinside
  free := fun _ => hsound
  fits := by
    intro v stage hv
    rcases stage_cases hv with ⟨-, rfl⟩ | ⟨-, hv⟩
    · exact hfits
    · exact h.fits v stage hv
  answered := hanswers

/-- Every move keeps the table and its workers together. -/
theorem Coherent.step [LawfulBEq α] {m : Move α} (h : s.Coherent) (hstep : Step s m s') :
    s'.Coherent := by
  cases hstep with
  | calls hstage =>
    refine h.move_outside hstage rfl rfl ?_ s.table.hits h.answered
    trivial
  | finds hstage hindex =>
    refine h.move_outside hstage rfl rfl ?_ s.table.hits h.answered
    exact hindex
  | lacks hstage _ =>
    refine h.move_outside hstage rfl rfl ?_ s.table.hits h.answered
    trivial
  | hits hstage =>
    have hindex := h.fits _ _ hstage
    refine h.move_outside hstage rfl rfl ?_ _ (List.forall_mem_cons.2 ⟨hindex, h.answered⟩)
    trivial
  | locks hstage howner => exact h.move_in hstage howner rfl (h.free howner)
  | findsLate hstage hindex =>
    exact h.move_inside hstage rfl rfl (fun _ _ hi => hi) ⟨h.fits _ _ hstage, hindex⟩
  | lacksLate hstage hindex =>
    have hsound := h.fits _ _ hstage
    have hvalue := hsound.index_eq_none_iff.1 hindex
    exact h.move_inside hstage rfl rfl (fun _ _ hi => hi) ⟨hsound, hvalue⟩
  | hitsLate hstage =>
    have hfits := (h.fits _ _ hstage).with_hits (s.table.hits + 1)
    exact h.move_inside hstage rfl rfl (fun _ _ hi => hi) hfits
  | misses hstage =>
    obtain ⟨hsound, hvalue⟩ := h.fits _ _ hstage
    exact h.move_inside hstage rfl rfl (fun _ _ hi => hi) ⟨s.table, hsound, hvalue, rfl⟩
  | adds hstage =>
    obtain ⟨before, hsound, hvalue, htable⟩ := h.fits _ _ hstage
    refine h.move_inside hstage rfl rfl (fun _ _ hi => hi) ⟨before, hsound, hvalue, ?_, ?_⟩
    · rw [htable]
    · rw [htable]
  | @indexes w value symbol hstage =>
    -- count, array and map have now all been changed, so the value has been added
    obtain ⟨before, hsound, hvalue, rfl, htable⟩ := h.fits _ _ hstage
    have hadd : { s.table with
        index := s.table.index.insert value (UInt32.ofNat before.values.size) } =
        before.add value := by
      rw [htable]
      rfl
    have hgrows : ∀ (other : α) (i : UInt32), s.table.index[other]? = some i →
        (before.add value).index[other]? = some i := by
      intro other i hi
      rw [htable] at hi
      exact hsound.index_add hvalue hi
    rw [hadd]
    exact h.move_inside hstage rfl rfl hgrows
      ⟨hsound.add hvalue, index_add_self before value⟩
  | leaves hstage =>
    obtain ⟨hsound, hindex⟩ := h.fits _ _ hstage
    refine h.move_out hstage rfl rfl ?_ hsound (List.forall_mem_cons.2 ⟨hindex, h.answered⟩)
    trivial

end Lexicon.Sharing
