import Mathlib.Data.Finset.Basic

/-! Transcripts of calls and their answers. A batch of calls is answered at
once: before anything else follows, every call of the batch has its answer. -/
namespace CallBatches

/-- What one item of a transcript is. -/
inductive Entry (κ : Type*) where
  | calls (ids : List κ)
  | answer (id : κ)
  | regular
  | malformed
  deriving DecidableEq

variable {κ : Type*}

/-- Every batch is followed directly by one answer for each of its calls, in
any order. -/
inductive Settled : List (Entry κ) → Prop where
  | nil : Settled []
  | regular {rest : List (Entry κ)} (hRest : Settled rest) : Settled (.regular :: rest)
  | batch {ids answers : List κ} {rest : List (Entry κ)} (hDistinct : ids.Nodup)
      (hAnswers : answers.Perm ids) (hRest : Settled rest) :
      Settled (.calls ids :: (answers.map .answer ++ rest))

variable [DecidableEq κ] {entries : List (Entry κ)}

/-- Read one item while the calls in `waiting` have no answer yet. -/
def step (waiting : Finset κ) : Entry κ → Option (Finset κ)
  | .calls ids => if waiting = ∅ ∧ ids.Nodup then some ids.toFinset else none
  | .answer id => if id ∈ waiting then some (waiting.erase id) else none
  | .regular => if waiting = ∅ then some ∅ else none
  | .malformed => none

/-- A transcript that can be read to its end starts with the answers that were
waited for; what follows them is settled. -/
theorem settled_after_answers {waiting : Finset κ} (h : entries.foldlM step waiting = some ∅) :
    ∃ (answers : List κ) (rest : List (Entry κ)), entries = answers.map .answer ++ rest ∧
      answers.Nodup ∧ answers.toFinset = waiting ∧ Settled rest := by
  induction entries generalizing waiting with
  | nil =>
    cases h
    exact ⟨[], [], rfl, List.nodup_nil, rfl, .nil⟩
  | cons entry tail ih =>
    rw [List.foldlM_cons] at h
    obtain ⟨next, hNext, hTail⟩ := Option.bind_eq_some_iff.mp h
    obtain ⟨answers, rest, rfl, hDistinct, hWaiting, hRest⟩ := ih hTail
    cases entry with
    | calls ids =>
      simp only [step, Option.ite_none_right_eq_some, Option.some.injEq] at hNext
      obtain ⟨⟨rfl, hIds⟩, rfl⟩ := hNext
      refine ⟨[], _, rfl, List.nodup_nil, rfl, .batch hIds ?_ hRest⟩
      exact List.perm_of_nodup_nodup_toFinset_eq hDistinct hIds hWaiting
    | answer id =>
      simp only [step, Option.ite_none_right_eq_some, Option.some.injEq] at hNext
      obtain ⟨hId, rfl⟩ := hNext
      refine ⟨id :: answers, rest, rfl, ?_, ?_, hRest⟩
      · rw [List.nodup_cons, ← List.mem_toFinset, hWaiting]
        exact ⟨Finset.notMem_erase id waiting, hDistinct⟩
      · rw [List.toFinset_cons, hWaiting, Finset.insert_erase hId]
    | regular =>
      simp only [step, Option.ite_none_right_eq_some, Option.some.injEq] at hNext
      obtain ⟨rfl, rfl⟩ := hNext
      cases List.toFinset_eq_empty_iff answers |>.mp hWaiting
      exact ⟨[], _, rfl, List.nodup_nil, rfl, .regular hRest⟩
    | malformed => cases hNext

/-- A transcript that can be read from the start, with no call left over, is
settled. -/
theorem settled_of_foldlM (h : entries.foldlM step ∅ = some ∅) : Settled entries := by
  obtain ⟨answers, rest, rfl, -, hWaiting, hRest⟩ := settled_after_answers h
  cases List.toFinset_eq_empty_iff answers |>.mp hWaiting
  exact hRest

end CallBatches
