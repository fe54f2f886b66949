import Mathlib.Data.List.Nodup
import Mathlib.Data.List.Sort

/-! Logs that several owners share. Indexes are given out one after the other,
so the owners in the order in which they got theirs are all there is to know;
the log shows under each index what the owner of that index wrote. -/
namespace Multiplex

variable {ω ε ι : Type*}

/-- What was written under an index. -/
def channel (log : List (ℕ × ε)) (index : ℕ) : List ε :=
  log.filterMap fun entry => if entry.1 = index then some entry.2 else none

@[simp] theorem channel_nil (index : ℕ) : channel ([] : List (ℕ × ε)) index = [] := rfl

@[simp] theorem channel_append (log more : List (ℕ × ε)) (index : ℕ) :
    channel (log ++ more) index = channel log index ++ channel more index :=
  List.filterMap_append

/-- Entries that are all written under one index. -/
def under (index : ℕ) (events : List ε) : List (ℕ × ε) := events.map (index, ·)

@[simp] theorem channel_under_self (index : ℕ) (events : List ε) :
    channel (under index events) index = events := by
  simp [channel, under]

theorem channel_under_of_ne {index other : ℕ} (h : index ≠ other) (events : List ε) :
    channel (under index events) other = [] := by
  simp [channel, under, h]

/-- Every index belongs to one owner, and nothing is written under an index
that was not given out. -/
structure Slots (order : List ω) (log : List (ℕ × ε)) : Prop where
  nodup : order.Nodup
  silent : ∀ index, order.length ≤ index → channel log index = []

theorem Slots.empty : Slots ([] : List ω) ([] : List (ℕ × ε)) :=
  ⟨List.nodup_nil, by simp⟩

variable [DecidableEq ω] {order later : List ω} {log : List (ℕ × ε)} {owner other : ω} {index : ℕ}

/-- What an owner wrote. -/
def trace (order : List ω) (log : List (ℕ × ε)) (owner : ω) : List ε :=
  match order.idxOf? owner with
  | none => []
  | some index => channel log index

theorem trace_of_none (h : order.idxOf? owner = none) : trace order log owner = [] := by
  rw [trace, h]

theorem trace_of_some (h : order.idxOf? owner = some index) :
    trace order log owner = channel log index := by
  rw [trace, h]

/-- The index under which an owner writes, and the order after that. An owner
without an index takes the next one. -/
inductive Place (order : List ω) (owner : ω) : ℕ → List ω → Prop
  | again {index : ℕ} (hIndex : order.idxOf? owner = some index) : Place order owner index order
  | first (hNew : order.idxOf? owner = none) : Place order owner order.length (order ++ [owner])

/-- The order after an owner has an index for sure. -/
def enter (order : List ω) (owner : ω) : List ω :=
  if (order.idxOf? owner).isSome then order else order ++ [owner]

theorem Place.eq_enter (h : Place order owner index later) : later = enter order owner := by
  cases h with
  | again hIndex => simp [enter, hIndex]
  | first hNew => rw [enter, hNew, if_neg (by simp)]

theorem idxOf?_append_singleton (order : List ω) (owner other : ω) :
    (order ++ [owner]).idxOf? other =
      (order.idxOf? other).or (if owner = other then some order.length else none) := by
  simp only [List.idxOf?, List.findIdx?_append, List.findIdx?_cons, List.findIdx?_nil, beq_iff_eq]
  split_ifs <;> simp

theorem idxOf?_lt (h : order.idxOf? owner = some index) : index < order.length :=
  (List.idxOf?_eq_some_iff.mp h).1

/-- Only one owner has an index. -/
theorem idxOf?_inj (hOwner : order.idxOf? owner = some index)
    (hOther : order.idxOf? other = some index) : owner = other := by
  obtain ⟨_, rfl, -⟩ := List.idxOf?_eq_some_iff.mp hOwner
  obtain ⟨_, rfl, -⟩ := List.idxOf?_eq_some_iff.mp hOther
  rfl

theorem Slots.idxOf?_eq_some_iff (h : Slots order log) :
    order.idxOf? owner = some index ↔ order[index]? = some owner := by
  rw [List.idxOf?_eq_some_iff, List.getElem?_eq_some_iff]
  refine exists_congr fun hIndex => and_iff_left_of_imp fun hOwner earlier hEarlier hSame => ?_
  have := (h.nodup.getElem_inj_iff).mp (hSame.trans hOwner.symm)
  omega

theorem Place.idxOf?_self (h : Place order owner index later) :
    later.idxOf? owner = some index := by
  cases h with
  | again hIndex => exact hIndex
  | first hNew => simp [idxOf?_append_singleton, hNew]

theorem Place.idxOf?_of_ne (h : Place order owner index later) (hOther : other ≠ owner) :
    later.idxOf? other = order.idxOf? other := by
  cases h with
  | again _ => rfl
  | first _ => simp [idxOf?_append_singleton, hOther.symm]

/-- A write keeps every owner in its place. -/
theorem Slots.write (h : Slots order log) (hPlace : Place order owner index later)
    (events : List ε) : Slots later (log ++ under index events) := by
  cases hPlace with
  | again hIndex =>
    refine ⟨h.nodup, fun found hFound => ?_⟩
    have hNe : index ≠ found := by
      have := idxOf?_lt hIndex
      omega
    rw [channel_append, h.silent found hFound, channel_under_of_ne hNe, List.append_nil]
  | first hNew =>
    refine ⟨by simpa using h.nodup.concat (List.idxOf?_eq_none_iff.mp hNew),
      fun found hFound => ?_⟩
    rw [List.length_append, List.length_singleton] at hFound
    rw [channel_append, h.silent found (by omega), channel_under_of_ne (by omega),
      List.append_nil]

/-- What the owner writes goes to the end of its trace. -/
theorem Slots.trace_write_self (h : Slots order log) (hPlace : Place order owner index later)
    (events : List ε) :
    trace later (log ++ under index events) owner = trace order log owner ++ events := by
  rw [trace, hPlace.idxOf?_self]
  cases hPlace with
  | again hIndex => simp [trace, hIndex]
  | first hNew => simp [trace, hNew, h.silent]

/-- The others do not see a write. -/
theorem trace_write_of_ne (hPlace : Place order owner index later) (hOther : other ≠ owner)
    (events : List ε) : trace later (log ++ under index events) other = trace order log other := by
  rw [trace, trace, hPlace.idxOf?_of_ne hOther]
  cases hFound : order.idxOf? other with
  | none => rfl
  | some found =>
    have hNe : index ≠ found := by
      rintro rfl
      exact hOther (idxOf?_inj ((hPlace.idxOf?_of_ne hOther).trans hFound) hPlace.idxOf?_self)
    simp [channel_under_of_ne hNe]

/-- A longer log in which nobody but one owner wrote. -/
structure Writes (owner : ω) (events : List ε) (order : List ω) (log : List (ℕ × ε))
    (later : List ω) (longer : List (ℕ × ε)) : Prop where
  slots : Slots later longer
  idxOf?_of_ne : ∀ other ≠ owner, later.idxOf? other = order.idxOf? other
  trace_self : trace later longer owner = trace order log owner ++ events
  trace_of_ne : ∀ other ≠ owner, trace later longer other = trace order log other

theorem Slots.writes (h : Slots order log) (hPlace : Place order owner index later)
    (events : List ε) : Writes owner events order log later (log ++ under index events) :=
  ⟨h.write hPlace events, fun _ hOther => hPlace.idxOf?_of_ne hOther,
    h.trace_write_self hPlace events, fun _ hOther => trace_write_of_ne hPlace hOther events⟩

theorem Slots.writes_nil (h : Slots order log) (owner : ω) : Writes owner [] order log order log :=
  ⟨h, fun _ _ => rfl, (List.append_nil _).symm, fun _ _ => rfl⟩

/-- The places are numbered from zero without a gap. -/
theorem Slots.filterMap_idxOf? (h : Slots order log) :
    order.filterMap order.idxOf? = List.range order.length := by
  have hMap : order.map order.idxOf? = (List.range order.length).map some := by
    refine List.ext_getElem (by simp) fun index hIndex _ => ?_
    rw [List.length_map] at hIndex
    simp [h.idxOf?_eq_some_iff, hIndex]
  simpa using congrArg (List.filterMap id) hMap

/-- When every owner has delivered one result under its index, the results in
the order of the indexes are those of the owners in their order. -/
theorem Slots.sorted_results (h : Slots order log) {results : List (ℕ × ι)} {owners : List ω}
    {delivers : ω → ι → Prop} (hResults : List.Forall₂ (fun owner result =>
      order.idxOf? owner = some result.1 ∧ delivers owner result.2) owners results)
    (hOwners : owners.Perm order) :
    List.Forall₂ delivers order ((results.insertionSort (·.1 ≤ ·.1)).map Prod.snd) := by
  have hEach : results.map Prod.fst = owners.filterMap order.idxOf? ∧
      ∀ result ∈ results, ∃ owner, order[result.1]? = some owner ∧ delivers owner result.2 := by
    clear hOwners
    induction hResults with
    | nil => simp
    | cons hHead _ ih =>
      refine ⟨by simp [hHead.1, ih.1], List.forall_mem_cons.mpr ⟨?_, ih.2⟩⟩
      exact ⟨_, h.idxOf?_eq_some_iff.mp hHead.1, hHead.2⟩
  obtain ⟨hIndexes, hDelivers⟩ := hEach
  have hRange : (results.map Prod.fst).Perm (List.range order.length) := by
    rw [hIndexes, ← h.filterMap_idxOf?]
    exact hOwners.filterMap _
  have hSorted : (results.insertionSort (·.1 ≤ ·.1)).map Prod.fst = List.range order.length := by
    have : IsTrans (ℕ × ι) (fun first second => first.1 ≤ second.1) := ⟨fun _ _ _ => Nat.le_trans⟩
    have : Std.Total (fun first second : ℕ × ι => first.1 ≤ second.1) :=
      ⟨fun _ _ => Nat.le_total _ _⟩
    exact (((List.perm_insertionSort _ results).map Prod.fst).trans hRange).eq_of_pairwise'
      (List.pairwise_map.mpr (List.pairwise_insertionSort _ results)) List.pairwise_le_range
  generalize hResult : results.insertionSort (·.1 ≤ ·.1) = sorted at hSorted ⊢
  have hLength : sorted.length = order.length := by
    simpa using congrArg List.length hSorted
  refine List.forall₂_iff_get.mpr ⟨by simp [hLength], fun index hOrder hIndex => ?_⟩
  have hAt : index < sorted.length := by omega
  have hFirst : sorted[index].1 = index := by
    have := congrArg (·[index]?) hSorted
    simpa [hAt, hOrder] using this
  obtain ⟨owner, hOwner, hDeliver⟩ := hDelivers sorted[index]
    (by rw [← List.mem_insertionSort (·.1 ≤ ·.1), hResult]; exact List.getElem_mem hAt)
  rw [hFirst, List.getElem?_eq_getElem hOrder, Option.some.injEq] at hOwner
  simpa [hOwner] using hDeliver

end Multiplex
