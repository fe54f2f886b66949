import Mathlib

/-! Shared counters and what each party has added to them. A party keeps a list of entries, each an
amount of one counter; the counters are in balance when each is the sum of the entries. -/
namespace Ledger

variable {κ : Type*} [DecidableEq κ] {α : Type*}

/-- What a list of entries amounts to for a counter. -/
def amounts : List (κ × Nat) → κ → Nat
  | [], _ => 0
  | entry :: rest, key => (if entry.1 = key then entry.2 else 0) + amounts rest key

@[simp]
theorem amounts_nil (key : κ) : amounts [] key = 0 := rfl

@[simp]
theorem amounts_cons (entry : κ × Nat) (rest : List (κ × Nat)) (key : κ) :
    amounts (entry :: rest) key = (if entry.1 = key then entry.2 else 0) + amounts rest key := rfl

/-- The amounts of two lists add up. -/
@[simp]
theorem amounts_append (first second : List (κ × Nat)) (key : κ) :
    amounts (first ++ second) key = amounts first key + amounts second key := by
  induction first with
  | nil => simp
  | cons entry rest ih => rw [List.cons_append, amounts_cons, amounts_cons, ih, Nat.add_assoc]

theorem le_amounts_cons (entry : κ × Nat) (rest : List (κ × Nat)) :
    entry.2 ≤ amounts (entry :: rest) entry.1 := by
  rw [amounts_cons, if_pos rfl]
  exact Nat.le_add_right ..

/-- The change of a sum when one of the parties changes. -/
theorem sum_map_set {parties : List α} {index : Nat} {old new : α} (f : α → Nat)
    (h : parties[index]? = some old) :
    ((parties.set index new).map f).sum + f old = (parties.map f).sum + f new := by
  induction parties generalizing index with
  | nil => cases h
  | cons first rest ih =>
    cases index with
    | zero =>
      obtain rfl : first = old := Option.some.inj h
      simp only [List.set_cons_zero, List.map_cons, List.sum_cons]
      omega
    | succ index =>
      have hRest := ih h
      simp only [List.set_cons_succ, List.map_cons, List.sum_cons]
      omega

/-- One party has no more than all of them. -/
theorem le_sum_map {parties : List α} {index : Nat} {party : α} (f : α → Nat)
    (h : parties[index]? = some party) : f party ≤ (parties.map f).sum :=
  List.single_le_sum (fun _ _ => Nat.zero_le _) _
    (List.mem_map.mpr ⟨party, List.mem_of_getElem? h, rfl⟩)

end Ledger
