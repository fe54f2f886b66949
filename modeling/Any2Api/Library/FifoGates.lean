import Any2Api.Library.Entries
import Mathlib.Data.List.Basic
import Mathlib.Data.List.Nodup
import Mathlib.Logic.Function.Basic

/-! Locks with first-in-first-out queues. A gate has a line whose head may hold it; the others
wait in the order in which they joined. -/
namespace FifoGates

open Function

variable {γ ι : Type*} {lines : γ → List ι} {place place' : ι → Option γ} {holds holds' : ι → Prop}
  {gate : γ} {index other : ι} {old : List ι}

/-- The lines have those who are in place at each gate, and only the first of a line holds it. -/
structure Ordered (lines : γ → List ι) (place : ι → Option γ) (holds : ι → Prop) : Prop where
  member : ∀ {gate index}, index ∈ lines gate ↔ place index = some gate
  nodup : ∀ gate, (lines gate).Nodup
  head : ∀ {index}, holds index → ∃ gate, place index = some gate ∧ (lines gate).head? = some index

namespace Ordered

section

variable (h : Ordered lines place holds)
include h

theorem head_of_place (hHolds : holds index)
    (hPlace : place index = some gate) : (lines gate).head? = some index := by
  obtain ⟨held, hHeld, hHead⟩ := h.head hHolds
  cases hHeld.symm.trans hPlace
  exact hHead

theorem exclusive (hIndex : holds index) (hOther : holds other)
    (hSame : place index = place other) : index = other := by
  obtain ⟨gate, hPlace, hHead⟩ := h.head hIndex
  have hHead' := h.head_of_place hOther (hSame ▸ hPlace)
  exact Option.some.inj (hHead.symm.trans hHead')

theorem mono (hHolds : ∀ index, holds' index → holds index) : Ordered lines place holds' :=
  ⟨h.member, h.nodup, fun hIndex => h.head (hHolds _ hIndex)⟩

/-- The first of a line gets the gate. -/
theorem grant (hHead : (lines gate).head? = some index)
    (hHolds : ∀ other, holds' other → holds other ∨ other = index) :
    Ordered lines place holds' := by
  refine ⟨h.member, h.nodup, fun {other} hOther => ?_⟩
  obtain hOther | rfl := hHolds other hOther
  · exact h.head hOther
  · exact ⟨gate, h.member.mp (List.mem_of_head? hHead), hHead⟩

end

variable [DecidableEq γ] [DecidableEq ι]

/-- One who joins an empty line may hold the gate at once. -/
theorem join (h : Ordered lines place holds) (hOut : place index = none)
    (hHolds : ∀ other, holds' other → holds other ∨ other = index ∧ lines gate = []) :
    Ordered (update lines gate (lines gate ++ [index]))
      (update place index (some gate)) holds' := by
  have hAbsent : ∀ gate, index ∉ lines gate := fun gate hMem => by
    rw [h.member, hOut] at hMem
    exact Option.some_ne_none gate hMem.symm
  refine ⟨fun {gate' member} => ?_, fun gate' => ?_, fun {other} hOther => ?_⟩
  · by_cases hMember : member = index
    · subst hMember
      rw [update_self]
      by_cases hAt : gate' = gate
      · simp [hAt]
      · simp [update_of_ne hAt, hAbsent, Ne.symm hAt]
    · rw [update_of_ne hMember, ← h.member]
      by_cases hAt : gate' = gate
      · simp [hAt, hMember]
      · rw [update_of_ne hAt]
  · by_cases hAt : gate' = gate
    · subst hAt
      rw [update_self]
      refine (h.nodup gate').append (List.nodup_singleton index) ?_
      exact List.disjoint_singleton.mpr (hAbsent gate')
    · rw [update_of_ne hAt]
      exact h.nodup gate'
  · obtain hOther | ⟨rfl, hEmpty⟩ := hHolds other hOther
    · obtain ⟨held, hPlace, hHead⟩ := h.head hOther
      have hNe : other ≠ index := fun hEq => by
        rw [hEq, hOut] at hPlace
        exact Option.some_ne_none held hPlace.symm
      refine ⟨held, by rw [update_of_ne hNe, hPlace], ?_⟩
      by_cases hAt : held = gate
      · subst hAt
        rw [update_self, List.head?_append, hHead]
        rfl
      · rw [update_of_ne hAt, hHead]
    · exact ⟨gate, update_self .., by rw [update_self, hEmpty]; rfl⟩

theorem depart (h : Ordered lines place holds) (hIn : place index = some gate)
    (hHolds : ∀ other, holds' other → holds other ∧ other ≠ index) :
    Ordered (update lines gate ((lines gate).erase index)) (update place index none) holds' := by
  refine ⟨fun {gate' member} => ?_, fun gate' => ?_, fun {other} hOther => ?_⟩
  · by_cases hMember : member = index
    · subst hMember
      rw [update_self]
      refine iff_of_false ?_ (Option.some_ne_none gate').symm
      by_cases hAt : gate' = gate
      · subst hAt
        rw [update_self]
        exact (h.nodup gate').not_mem_erase
      · rw [update_of_ne hAt, h.member, hIn]
        exact fun hEq => hAt (Option.some.inj hEq).symm
    · rw [update_of_ne hMember, ← h.member]
      by_cases hAt : gate' = gate
      · subst hAt
        rw [update_self, List.mem_erase_of_ne hMember]
      · rw [update_of_ne hAt]
  · by_cases hAt : gate' = gate
    · subst hAt
      rw [update_self]
      exact (h.nodup gate').erase index
    · rw [update_of_ne hAt]
      exact h.nodup gate'
  · obtain ⟨hOther, hNe⟩ := hHolds other hOther
    obtain ⟨held, hPlace, hHead⟩ := h.head hOther
    refine ⟨held, by rw [update_of_ne hNe, hPlace], ?_⟩
    by_cases hAt : held = gate
    · subst hAt
      obtain ⟨rest, hLine⟩ := List.head?_eq_some_iff.mp hHead
      rw [update_self, hLine, List.erase_cons_tail (by simpa using hNe)]
      rfl
    · rw [update_of_ne hAt, hHead]

end Ordered

end FifoGates
