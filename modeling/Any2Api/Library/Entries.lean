import Mathlib.Data.List.Basic

/-! Lists that are written at one position or extended at their end. -/
namespace Entries

variable {α : Type*} {entries : List α} {new found : α} {index position : Nat} {property : α → Prop}

theorem getElem?_concat_eq_some :
    (entries ++ [new])[index]? = some found ↔
      entries[index]? = some found ∨ index = entries.length ∧ found = new := by
  rw [List.getElem?_append]
  split
  next hLess =>
    refine ⟨.inl, ?_⟩
    rintro (h | ⟨h, -⟩)
    · exact h
    · omega
  next hNot =>
    rw [List.getElem?_singleton, Option.ite_none_right_eq_some, Option.some.injEq,
      List.getElem?_eq_none (Nat.le_of_not_lt hNot)]
    constructor
    · rintro ⟨h, rfl⟩
      exact .inr ⟨by omega, rfl⟩
    · rintro (h | ⟨rfl, rfl⟩)
      · cases h
      · exact ⟨Nat.sub_self _, rfl⟩

theorem getElem?_set_eq_some :
    (entries.set position new)[index]? = some found ↔
      index ≠ position ∧ entries[index]? = some found ∨
      index = position ∧ position < entries.length ∧ found = new := by
  rw [List.getElem?_set]
  by_cases h : position = index
  · subst h
    simp [eq_comm]
  · rw [if_neg h]
    simp [Ne.symm h]

/-- What holds of all entries holds when one of them is replaced. -/
theorem forall_mem_set (h : ∀ entry ∈ entries, property entry)
    (hNew : property new) : ∀ entry ∈ entries.set index new, property entry := by
  intro entry hMem
  rcases List.mem_or_eq_of_mem_set hMem with hMem | rfl
  · exact h entry hMem
  · exact hNew

/-- What holds of all entries holds when one is added. -/
theorem forall_mem_concat (h : ∀ entry ∈ entries, property entry)
    (hNew : property new) : ∀ entry ∈ entries ++ [new], property entry :=
  List.forall_mem_append.mpr ⟨h, List.forall_mem_singleton.mpr hNew⟩

theorem pairwise_concat {related : α → α → Prop} (h : entries.Pairwise related)
    (hNew : ∀ entry ∈ entries, related entry new) : (entries ++ [new]).Pairwise related :=
  List.pairwise_append.mpr ⟨h, List.pairwise_singleton .., fun entry hEntry =>
    List.forall_mem_singleton.mpr (hNew entry hEntry)⟩

section

variable (hFound : entries[index]? = some found)
include hFound

/-- The entry at a position keeps a property that the entry which is replaced hands on. -/
theorem exists_getElem?_set (hNew : property found → property new)
    (h : ∃ entry, entries[position]? = some entry ∧ property entry) :
    ∃ entry, (entries.set index new)[position]? = some entry ∧ property entry := by
  obtain ⟨entry, hEntry, hProperty⟩ := h
  by_cases hSame : position = index
  · subst hSame
    cases hFound.symm.trans hEntry
    exact ⟨new, List.getElem?_set_self (List.getElem?_eq_some_iff.mp hFound).1, hNew hProperty⟩
  · exact ⟨entry, getElem?_set_eq_some.mpr (.inl ⟨hSame, hEntry⟩), hProperty⟩

theorem exists_mem_set (hNew : property found → property new) :
    (∃ entry ∈ entries, property entry) → ∃ entry ∈ entries.set index new, property entry := by
  rintro ⟨entry, hMem, hEntry⟩
  obtain ⟨other, hOther⟩ := List.mem_iff_getElem?.mp hMem
  obtain ⟨later, hLater, hProperty⟩ := exists_getElem?_set hFound hNew ⟨entry, hOther, hEntry⟩
  exact ⟨later, List.mem_of_getElem? hLater, hProperty⟩

/-- An entry with a property was there before one was replaced by an entry of the property only
if the old one had it. -/
theorem exists_mem_of_set (hNew : property new → property found) :
    (∃ entry ∈ entries.set index new, property entry) → ∃ entry ∈ entries, property entry := by
  rintro ⟨entry, hMem, hEntry⟩
  rcases List.mem_or_eq_of_mem_set hMem with hOld | rfl
  · exact ⟨entry, hOld, hEntry⟩
  · exact ⟨found, List.mem_of_getElem? hFound, hNew hEntry⟩

end

end Entries
