import Mathlib

/-! Queues of stamped items from whose front the old ones leave. In a queue that
is in the order of its stamps nothing old stays behind. -/
namespace ExpiringQueue

variable {α τ : Type} [LinearOrder τ] (stamp : α → τ)

/-- The front leaves while its stamp is not after the cutoff. -/
def expire (cutoff : τ) (queue : List α) : List α :=
  queue.dropWhile fun item => stamp item ≤ cutoff

def Ordered (queue : List α) : Prop := queue.Pairwise fun a b => stamp a ≤ stamp b

variable {stamp} {cutoff : τ} {queue : List α}

/-- What leaves is a part at the front and is old. -/
theorem exists_expired (stamp : α → τ) (cutoff : τ) (queue : List α) :
    ∃ expired, queue = expired ++ expire stamp cutoff queue ∧
      ∀ item ∈ expired, stamp item ≤ cutoff := by
  refine ⟨queue.takeWhile fun item => stamp item ≤ cutoff, ?_, ?_⟩
  · exact List.takeWhile_append_dropWhile.symm
  · intro item hItem
    simpa using List.mem_takeWhile_imp hItem

theorem Ordered.head_le {item : α} (h : Ordered stamp (item :: queue)) {index : Nat}
    (hIndex : index < (item :: queue).length) : stamp item ≤ stamp ((item :: queue)[index]) := by
  cases index with
  | zero => exact le_refl _
  | succ index => exact (List.pairwise_cons.mp h).1 _ (List.getElem_mem _)

/-- Fewer than `count` items are left when the one with `count - 1` items behind
it is old. -/
theorem length_expire_lt_iff (h : Ordered stamp queue) {count : Nat} (hPos : 0 < count)
    (hCount : count ≤ queue.length) :
    (expire stamp cutoff queue).length < count ↔
      stamp (queue.get ⟨queue.length - count, by omega⟩) ≤ cutoff := by
  induction queue with
  | nil =>
    simp only [List.length_nil] at hCount
    omega
  | cons item queue ih =>
    by_cases hOld : stamp item ≤ cutoff
    · have hTail : expire stamp cutoff (item :: queue) = expire stamp cutoff queue :=
        List.dropWhile_cons_of_pos (decide_eq_true hOld)
      rw [hTail]
      by_cases hRest : count ≤ queue.length
      · rw [ih (List.pairwise_cons.mp h).2 hRest]
        have hIndex : (item :: queue).length - count = queue.length - count + 1 := by
          simp only [List.length_cons]
          omega
        simp only [hIndex, List.get_eq_getElem, List.getElem_cons_succ]
      · -- The whole queue is `count` items long, and its head leaves.
        have hLength : (expire stamp cutoff queue).length ≤ queue.length :=
          (List.dropWhile_sublist _).length_le
        have hIndex : (item :: queue).length - count = 0 := by
          simp only [List.length_cons] at hCount ⊢
          omega
        simp only [hIndex, List.get_eq_getElem, List.getElem_cons_zero]
        exact iff_of_true (by omega) hOld
    · have hStay : expire stamp cutoff (item :: queue) = item :: queue :=
        List.dropWhile_cons_of_neg (by simpa using hOld)
      rw [hStay]
      refine iff_of_false (by omega) fun hIndex => hOld ?_
      exact le_trans (h.head_le (by omega)) hIndex

/-- When a test holds of everything before an item for which it holds, dropping the
front leaves nothing for which it holds. -/
theorem dropWhile_eq_filter {test : α → Bool}
    (h : queue.Pairwise fun a b => test b = true → test a = true) :
    queue.dropWhile test = queue.filter fun item => !test item := by
  induction queue with
  | nil => rfl
  | cons item queue ih =>
    obtain ⟨hHead, hTail⟩ := List.pairwise_cons.mp h
    cases hTest : test item with
    | true =>
      rw [List.dropWhile_cons_of_pos hTest, List.filter_cons_of_neg (by simp [hTest]), ih hTail]
    | false =>
      have hRest : ∀ other ∈ queue, test other = false := by
        intro other hOther
        cases hLater : test other with
        | true => exact absurd (hHead other hOther hLater) (by simp [hTest])
        | false => rfl
      rw [List.dropWhile_cons_of_neg (by simp [hTest]), eq_comm, List.filter_eq_self]
      simpa [hTest] using hRest

section Sliding

variable {stamp : α → ℕ} {queue : List α} {now span count : ℕ}

/-- A clock has no readings before its origin. -/
def checkedSub (now span : ℕ) : Option ℕ :=
  if span ≤ now then some (now - span) else none

/-- The queue at `now`, when an item stays for `span` after its stamp. -/
def slide (stamp : α → ℕ) (span now : ℕ) (queue : List α) : List α :=
  match checkedSub now span with
  | none => queue
  | some cutoff => expire stamp cutoff queue

/-- Only items whose time is over leave, all of them from the front. -/
theorem exists_slid (stamp : α → ℕ) (span now : ℕ) (queue : List α) :
    ∃ expired, queue = expired ++ slide stamp span now queue ∧
      ∀ item ∈ expired, stamp item + span ≤ now := by
  unfold slide checkedSub
  split
  next => exact ⟨[], rfl, fun _ h => absurd h List.not_mem_nil⟩
  next cutoff hCutoff =>
    obtain ⟨expired, hSplit, hOld⟩ := exists_expired stamp cutoff queue
    refine ⟨expired, hSplit, fun item hMem => ?_⟩
    have := hOld item hMem
    grind

theorem length_slide_lt_iff (hOrdered : Ordered stamp queue) (hPos : 0 < count)
    (hCount : count ≤ queue.length) :
    (slide stamp span now queue).length < count ↔
      stamp (queue.get ⟨queue.length - count, by omega⟩) + span ≤ now := by
  unfold slide checkedSub
  split
  next hNone => grind
  next cutoff hCutoff =>
    rw [length_expire_lt_iff hOrdered hPos hCount]
    grind

/-- An item that stays in an ordered queue has time left. -/
theorem lt_of_mem_slide {item : α} (hOrdered : Ordered stamp queue)
    (hItem : item ∈ slide stamp span now queue) : now < stamp item + span := by
  unfold slide checkedSub at hItem
  split at hItem
  next hNone => grind
  next cutoff hCutoff =>
    rw [expire, dropWhile_eq_filter (hOrdered.imp fun hLe hOld => by grind)] at hItem
    grind

end Sliding

end ExpiringQueue
