import Lexicon.Proofs.Audits
import Lexicon.Task.Setup

/-!
# Sinks with little room

A sink with room for so many bytes takes the beginning of what a script writes, up to its last
byte of room, and refuses the rest.  A script that needs no more room than there is goes as it
goes where everything is taken (`performActs_of_le`).  Any other script ends with the act in
which the room runs out (`performActs_of_lt`), and its failure is one of JSON if that act writes
a JSON value.

The act is found by the sizes of the writes alone (`refused?`).  Of the three tasks only a
listing in JSON writes such a value, in one act, and then a line feed.  So the failure depends
on whether the room was short by more than that one byte (`keepToRoom`).
-/

namespace Lexicon

open Text

variable {act : Act} {acts : List Act} {tree : Files.Tree} {room : Nat} {refusal : DeviceError}

/-! ## One act -/

/-- The failure of an act whose write is refused. -/
def Act.failure : Act → DeviceError → Failure
  | writeJson _ => .json
  | write _ | report _ | log _ | save _ _ => .device

namespace Act

/-- Where everything is taken, an act writes all of its output, and then everything is still
taken unless the act has failed. -/
theorem accepted_effect_unlimited (act : Act) (tree : Files.Tree) :
    (act.effect .unlimited tree).accepted = act.output.bytes := by
  cases act with
  | save path content =>
    rw [effect]
    split <;> rfl
  | _ => rfl

theorem next_effect_unlimited {sink : Sink} (h : (act.effect .unlimited tree).next = .ok sink) :
    sink = .unlimited := by
  cases act with
  | save path content =>
    rw [effect] at h
    split at h <;> cases h
    rfl
  | _ => exact (Except.ok.inj h).symm

/-- With room enough an act goes as it goes without limit, and uses up its part of the room. -/
theorem effect_of_le (h : act.output.byteSize ≤ room) (refusal : DeviceError)
    (tree : Files.Tree) :
    act.effect (.limited room refusal) tree =
      { act.effect .unlimited tree with
        next := (act.effect .unlimited tree).next.map fun _ =>
          .limited (room - act.output.byteSize) refusal } := by
  cases act with
  | write text | writeJson text =>
    have hfits : text.byteSize ≤ room := h
    simp only [effect, Sink.effect, Sink.accept, if_pos hfits]
    rfl
  | report | log => rfl
  | save path content =>
    simp only [effect]
    split <;> rfl

/-- Without room enough an act fills what there is, and fails. -/
theorem effect_of_lt (h : room < act.output.byteSize) (refusal : DeviceError)
    (tree : Files.Tree) :
    act.effect (.limited room refusal) tree =
      ⟨act.output.bytes.take room, [], tree, .error (act.failure refusal)⟩ := by
  cases act with
  | write text | writeJson text =>
    have hfull : ¬ text.byteSize ≤ room := Nat.not_le.2 h
    simp only [effect, Sink.effect, Sink.accept, if_neg hfull]
    rfl
  | report | log | save => exact absurd h (Nat.not_lt_zero room)

end Act

/-! ## Acts in order -/

/-- The act that is refused where there is so much room, if there is one. -/
def refused? (room : Nat) : List Act → Option Act
  | [] => none
  | act :: acts =>
    if room < act.output.byteSize then some act
    else refused? (room - act.output.byteSize) acts
termination_by structural acts => acts

theorem refused?_of_lt (h : room < act.output.byteSize) (acts : List Act) :
    refused? room (act :: acts) = some act := if_pos h

theorem refused?_of_le (h : act.output.byteSize ≤ room) (acts : List Act) :
    refused? room (act :: acts) = refused? (room - act.output.byteSize) acts :=
  if_neg (Nat.not_lt.2 h)

theorem mem_of_refused? (h : refused? room acts = some act) : act ∈ acts := by
  induction acts generalizing room with
  | nil => cases h
  | cons first acts ih =>
    rcases Nat.lt_or_ge room first.output.byteSize with hlt | hle
    · rw [refused?_of_lt hlt] at h
      obtain rfl := Option.some.inj h
      exact List.mem_cons_self ..
    · rw [refused?_of_le hle] at h
      exact List.mem_cons_of_mem _ (ih h)

/-- Acts that write nothing are not refused. -/
theorem refused?_append {silent : List Act} (h : ∀ act ∈ silent, act.output = []) (room : Nat)
    (acts : List Act) : refused? room (silent ++ acts) = refused? room acts := by
  induction silent with
  | nil => rfl
  | cons act silent ih =>
    rw [List.forall_mem_cons] at h
    have hsize : act.output.byteSize = 0 := congrArg byteSize h.1
    rw [List.cons_append, refused?_of_le (by omega), hsize, Nat.sub_zero, ih h.2]

namespace Script

variable {α : Type} {outcome : Except Failure α} {sink next : Sink}

theorem performActs_of_error {cause : Failure} (h : (act.effect sink tree).next = .error cause)
    (acts : List Act) :
    performActs outcome sink tree (act :: acts) =
      ⟨(act.effect sink tree).accepted, (act.effect sink tree).notices,
        (act.effect sink tree).tree, .error cause⟩ := by
  simp only [performActs, h]

theorem performActs_of_ok (h : (act.effect sink tree).next = .ok next) (acts : List Act) :
    performActs outcome sink tree (act :: acts) =
      let rest := performActs outcome next (act.effect sink tree).tree acts
      ⟨(act.effect sink tree).accepted ++ rest.accepted,
        (act.effect sink tree).notices ++ rest.notices, rest.tree, rest.outcome⟩ := by
  simp only [performActs, h]

/-- With room for all of the output there is no difference to a sink without limit. -/
theorem performActs_of_le
    (h : (performActs outcome .unlimited tree acts).accepted.length ≤ room) :
    performActs outcome (.limited room refusal) tree acts =
      performActs outcome .unlimited tree acts := by
  induction acts generalizing room tree with
  | nil => rfl
  | cons act acts ih =>
    have hlength : (act.effect .unlimited tree).accepted.length = act.output.byteSize := by
      rw [act.accepted_effect_unlimited, length_bytes]
    cases hnext : (act.effect .unlimited tree).next with
    | error cause =>
      rw [performActs_of_error hnext] at h ⊢
      have heffect := Act.effect_of_le (Nat.le_trans (Nat.le_of_eq hlength.symm) h) refusal tree
      rw [hnext] at heffect
      rw [performActs_of_error (by rw [heffect]; rfl), heffect]
    | ok sink =>
      obtain rfl := Act.next_effect_unlimited hnext
      rw [performActs_of_ok hnext] at h ⊢
      rw [List.length_append, hlength] at h
      have heffect := Act.effect_of_le (Nat.le_trans (Nat.le_add_right _ _) h) refusal tree
      have hfits : (performActs outcome .unlimited (act.effect .unlimited tree).tree
          acts).accepted.length ≤ room - act.output.byteSize := by omega
      have hrest := ih hfits
      rw [hnext] at heffect
      rw [performActs_of_ok (by rw [heffect]; rfl), heffect]
      simp only [hrest]

/-- Without room for all of the output, what there is of it is filled, and the failure is that of
the act that is refused. -/
theorem performActs_of_lt
    (h : room < (performActs outcome .unlimited tree acts).accepted.length) :
    (performActs outcome (.limited room refusal) tree acts).accepted =
        (performActs outcome .unlimited tree acts).accepted.take room ∧
      ∃ act, refused? room acts = some act ∧
        (performActs outcome (.limited room refusal) tree acts).outcome =
          .error (act.failure refusal) := by
  induction acts generalizing room tree with
  | nil => exact absurd h (Nat.not_lt_zero room)
  | cons act acts ih =>
    have haccepted := act.accepted_effect_unlimited tree
    have hlength : (act.effect .unlimited tree).accepted.length = act.output.byteSize := by
      rw [haccepted, length_bytes]
    rcases Nat.lt_or_ge room act.output.byteSize with hlt | hle
    · -- the room runs out in this act, and what comes after it is not written
      have heffect := Act.effect_of_lt hlt refusal tree
      have hbegins : ∃ others, (performActs outcome .unlimited tree (act :: acts)).accepted =
          act.output.bytes ++ others := by
        cases hnext : (act.effect .unlimited tree).next with
        | error cause => exact ⟨[], by rw [performActs_of_error hnext, haccepted, List.append_nil]⟩
        | ok sink => exact ⟨_, by rw [performActs_of_ok hnext, haccepted]⟩
      obtain ⟨others, hothers⟩ := hbegins
      rw [performActs_of_error (by rw [heffect]), heffect, hothers,
        List.take_append_of_le_length (by rw [length_bytes]; exact Nat.le_of_lt hlt)]
      exact ⟨rfl, act, refused?_of_lt hlt acts, rfl⟩
    · have heffect := Act.effect_of_le hle refusal tree
      cases hnext : (act.effect .unlimited tree).next with
      | error cause =>
        rw [performActs_of_error hnext, hlength] at h
        exact absurd h (Nat.not_lt.2 hle)
      | ok sink =>
        obtain rfl := Act.next_effect_unlimited hnext
        rw [performActs_of_ok hnext, List.length_append, hlength] at h
        have hcut : room - act.output.byteSize < (performActs outcome .unlimited
            (act.effect .unlimited tree).tree acts).accepted.length := by omega
        obtain ⟨htake, refused, hrefused, houtcome⟩ := ih hcut
        rw [hnext] at heffect
        rw [performActs_of_ok (by rw [heffect]; rfl), performActs_of_ok hnext, heffect]
        refine ⟨?_, refused, by rw [refused?_of_le hle, hrefused], houtcome⟩
        rw [List.take_append, hlength, List.take_of_length_le (by omega), ← htake]

/-! ## Scripts -/

/-- How many bytes a script writes where everything is taken. -/
def size (s : Script α) (tree : Files.Tree) : Nat := (s.perform .unlimited tree).accepted.length

/-- What it is for a script to keep to the room there is.  The script writes either nothing but
one JSON value and a line feed, or no JSON value at all. -/
structure KeepsToRoom (s : Script α) (isJson : Bool) (tree : Files.Tree) (room : Nat)
    (refusal : DeviceError) : Prop where
  /-- The bytes taken are the first ones, as many as there is room for. -/
  accepted : (s.perform (.limited room refusal) tree).accepted =
    (s.perform .unlimited tree).accepted.take (min room (s.size tree))
  /-- With room for all bytes there is no difference to a sink without limit. -/
  complete : s.size tree ≤ room →
    s.perform (.limited room refusal) tree = s.perform .unlimited tree
  /-- Otherwise the script fails with the refusal.  The failure is one of JSON if the value has
  been cut, and one of the device if there was nothing to cut but a line feed. -/
  refused : room < s.size tree →
    (s.perform (.limited room refusal) tree).outcome =
      .error (if isJson ∧ room < s.size tree - 1 then .json refusal else .device refusal)

/-- A script keeps to the room there is if the failures of its acts are the right ones. -/
theorem keepsToRoom_of_failure {s : Script α} {isJson : Bool}
    (h : ∀ act, room < s.size tree → refused? room s.acts = some act → act.failure refusal =
      if isJson ∧ room < s.size tree - 1 then .json refusal else .device refusal) :
    KeepsToRoom s isJson tree room refusal := by
  by_cases hroom : room < s.size tree
  · obtain ⟨htake, act, hact, houtcome⟩ := performActs_of_lt hroom
    refine ⟨?_, fun hle => absurd hroom (Nat.not_lt.2 hle), fun _ => ?_⟩
    · rw [Nat.min_eq_left (Nat.le_of_lt hroom)]
      exact htake
    · rw [← h act hroom hact]
      exact houtcome
  · have hle := Nat.not_lt.1 hroom
    have hcomplete : s.perform (.limited room refusal) tree = s.perform .unlimited tree :=
      performActs_of_le hle
    refine ⟨?_, fun _ => hcomplete, fun hlt => absurd hlt hroom⟩
    rw [hcomplete, Nat.min_eq_right hle, size, List.take_length]

/-- A script without JSON values fails with the device. -/
theorem keepsToRoom_of_forall {s : Script α}
    (h : ∀ act ∈ s.acts, act.failure refusal = .device refusal) :
    KeepsToRoom s false tree room refusal := by
  refine keepsToRoom_of_failure fun act _ hact => ?_
  rw [h act (mem_of_refused? hact), if_neg fun hjson => Bool.false_ne_true hjson.1]

end Script

/-! ## The three tasks -/

namespace Task

open Script

theorem failure_of_notice (h : act.notice?.isSome = true) (refusal : DeviceError) :
    act.failure refusal = .device refusal := by
  cases act with
  | writeJson text => cases h
  | _ => rfl

/-- The lines of a listing are no JSON values. -/
theorem listing_text_keepsToRoom (spans : Bool) (source : Source) (tree : Files.Tree) (room : Nat)
    (refusal : DeviceError) :
    KeepsToRoom (listing .text spans (.ok source)) false tree room refusal := by
  obtain ⟨before, after, hacts, hnotices⟩ := exists_notices .text spans source
  refine keepsToRoom_of_forall fun act hact => ?_
  rw [hacts, List.append_assoc, List.mem_append, List.mem_append] at hact
  rcases hact with hact | hact | hact
  · exact failure_of_notice (hnotices act (List.mem_append_left _ hact)) refusal
  · obtain ⟨l, -, rfl⟩ := List.mem_map.1 hact
    rfl
  · exact failure_of_notice (hnotices act (List.mem_append_right _ hact)) refusal

/-- The array of a listing is one write, and the line feed behind it another one. -/
theorem listing_json_keepsToRoom (spans : Bool) (source : Source) (tree : Files.Tree) (room : Nat)
    (refusal : DeviceError) :
    KeepsToRoom (listing .json spans (.ok source)) true tree room refusal := by
  obtain ⟨before, after, hacts, hnotices⟩ := exists_notices .json spans source
  obtain ⟨haccepted, -⟩ := listed_eq .json spans tree source
  generalize hvalue : (Json.array ((lexemesOf source.text).map (Listing.record spans))).indented =
    value
  have hlisting : listingActs .json spans (lexemesOf source.text) =
      [.writeJson value, .write ['\n']] := by
    rw [listingActs, hvalue]
  have hsize : (listing .json spans (.ok source)).size tree = value.byteSize + 1 := by
    rw [listed] at haccepted
    rw [size, haccepted, length_bytes, listingText, hlisting]
    exact byteSize_append value ['\n']
  refine keepsToRoom_of_failure fun act hroom hact => ?_
  rw [hsize] at hroom ⊢
  rw [hacts, List.append_assoc, refused?_append fun act h =>
    Act.output_of_notice (hnotices act (List.mem_append_left _ h)), hlisting] at hact
  have harray : (Act.writeJson value).output.byteSize = value.byteSize := rfl
  have hfeed : (Act.write ['\n']).output.byteSize = 1 := rfl
  rw [List.cons_append, List.singleton_append] at hact
  rcases Nat.lt_or_ge room (Act.writeJson value).output.byteSize with hlt | hle
  · rw [refused?_of_lt hlt] at hact
    obtain rfl := Option.some.inj hact
    rw [if_pos ⟨rfl, by omega⟩]
    rfl
  · rw [refused?_of_le hle, refused?_of_lt (by omega)] at hact
    obtain rfl := Option.some.inj hact
    rw [if_neg fun h => absurd h.2 (by omega)]
    rfl

/-- Audits write no JSON values. -/
theorem audit_keepsToRoom (failFast : Bool) (sources : List Finding) (tree : Files.Tree)
    (room : Nat) (refusal : DeviceError) :
    KeepsToRoom (audit failFast sources) false tree room refusal := by
  obtain ⟨⟨closing, hacts, hlogs⟩, -⟩ := audit_eq failFast sources
  refine keepsToRoom_of_forall fun act hact => ?_
  rw [hacts, List.mem_append, List.mem_flatMap] at hact
  rcases hact with ⟨f, -, hact⟩ | hact
  · obtain ⟨told, line, hf, htold, -⟩ := exists_line f
    rw [hf, List.mem_append, List.mem_singleton] at hact
    rcases hact with hact | rfl
    · exact failure_of_notice (htold act hact) refusal
    · rfl
  · obtain ⟨entry, rfl⟩ := hlogs act hact
    rfl

/-- A setup saves a file and says so. -/
theorem setup_keepsToRoom (s : Surroundings) (directory? : Option Path) (force : Bool)
    (tree : Files.Tree) (room : Nat) (refusal : DeviceError) :
    KeepsToRoom (setup s directory? force) false tree room refusal := by
  refine keepsToRoom_of_forall fun act hact => ?_
  simp only [setup] at hact
  split at hact
  · cases hact
  · simp only [List.mem_cons, List.not_mem_nil, or_false] at hact
    rcases hact with rfl | rfl <;> rfl

/-- All tasks keep to the room there is, whatever they are given. -/
theorem keepToRoom (tree : Files.Tree) (room : Nat) (refusal : DeviceError) :
    (∀ format spans found,
      KeepsToRoom (listing format spans found) (format == .json) tree room refusal) ∧
    (∀ failFast sources, KeepsToRoom (audit failFast sources) false tree room refusal) ∧
    (∀ s directory? force,
      KeepsToRoom (setup s directory? force) false tree room refusal) := by
  refine ⟨fun format spans found => ?_, fun failFast sources =>
    audit_keepsToRoom failFast sources tree room refusal, fun s directory? force =>
    setup_keepsToRoom s directory? force tree room refusal⟩
  cases found with
  | error cause =>
    -- nothing is written, so there is always room
    exact keepsToRoom_of_failure fun act hroom _ => absurd hroom (Nat.not_lt_zero room)
  | ok source =>
    cases format with
    | text => exact listing_text_keepsToRoom spans source tree room refusal
    | json => exact listing_json_keepsToRoom spans source tree room refusal

end Task

end Lexicon
