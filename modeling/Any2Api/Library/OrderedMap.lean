import Mathlib.Data.Finset.Basic
import Mathlib.Data.List.Pairwise
import Mathlib.Order.Basic

/-! Maps as lists of entries in increasing key order. The operations on raw
lists need no invariant for their lookup laws, so they also serve for entry
lists inside a recursive type; `OrderedMap` adds the invariant. -/
namespace SortedEntries

variable {κ ν : Type*} [LinearOrder κ] {entries : List (κ × ν)}

def get? (key : κ) : List (κ × ν) → Option ν
  | [] => none
  | (other, value) :: rest => if key = other then some value else get? key rest

/-- Insert an entry at its place, replacing the entry of the same key. -/
def insert (key : κ) (value : ν) : List (κ × ν) → List (κ × ν)
  | [] => [(key, value)]
  | (other, old) :: rest =>
    if key < other then (key, value) :: (other, old) :: rest
    else if key = other then (key, value) :: rest
    else (other, old) :: insert key value rest

def erase (key : κ) (entries : List (κ × ν)) : List (κ × ν) :=
  entries.filter (·.1 ≠ key)

/-- Keys strictly increase. -/
def Sorted (entries : List (κ × ν)) : Prop := entries.Pairwise (·.1 < ·.1)

@[simp] theorem get?_nil (key : κ) : get? key ([] : List (κ × ν)) = none := rfl

@[simp] theorem get?_cons (key other : κ) (value : ν) (rest : List (κ × ν)) :
    get? key ((other, value) :: rest) = if key = other then some value else get? key rest := rfl

@[simp] theorem get?_insert (key other : κ) (value : ν) (entries : List (κ × ν)) :
    get? other (insert key value entries) =
      if other = key then some value else get? other entries := by
  induction entries with
  | nil => rfl
  | cons entry rest ih =>
    obtain ⟨found, old⟩ := entry
    unfold insert
    split_ifs with hLess hSame hKey hKey <;> grind [get?]

@[simp] theorem get?_erase (key other : κ) (entries : List (κ × ν)) :
    get? other (erase key entries) = if other = key then none else get? other entries := by
  unfold erase
  induction entries with
  | nil => simp
  | cons entry rest ih =>
    obtain ⟨found, old⟩ := entry
    by_cases hFound : found = key
    · subst hFound
      rw [List.filter_cons_of_neg (by simp), ih]
      grind [get?]
    · rw [List.filter_cons_of_pos (by simpa using hFound)]
      grind [get?]

theorem mem_insert {key : κ} {value : ν} {entry : κ × ν}
    (h : entry ∈ insert key value entries) : entry = (key, value) ∨ entry ∈ entries := by
  induction entries with
  | nil => simpa [insert] using h
  | cons first rest ih =>
    unfold insert at h
    split_ifs at h
    · simpa using h
    · rcases List.mem_cons.mp h with rfl | hRest
      · exact .inl rfl
      · exact .inr (List.mem_cons_of_mem first hRest)
    · rcases List.mem_cons.mp h with rfl | hRest
      · exact .inr List.mem_cons_self
      · exact (ih hRest).imp_right (List.mem_cons_of_mem first)

theorem Sorted.insert (h : Sorted entries) (key : κ) (value : ν) :
    Sorted (insert key value entries) := by
  induction entries with
  | nil => simp [SortedEntries.insert, Sorted]
  | cons first rest ih =>
    obtain ⟨hFirst, hRest⟩ := List.pairwise_cons.mp h
    unfold SortedEntries.insert
    split_ifs with hLess hSame
    · refine List.pairwise_cons.mpr ⟨fun entry hEntry => ?_, h⟩
      rcases List.mem_cons.mp hEntry with rfl | hLater
      · exact hLess
      · exact hLess.trans (hFirst entry hLater)
    · subst hSame
      exact List.pairwise_cons.mpr ⟨hFirst, hRest⟩
    · refine List.pairwise_cons.mpr ⟨fun entry hEntry => ?_, ih hRest⟩
      rcases mem_insert hEntry with rfl | hLater
      · exact lt_of_le_of_ne (not_lt.mp hLess) (Ne.symm hSame)
      · exact hFirst entry hLater

theorem Sorted.erase (h : Sorted entries) (key : κ) :
    Sorted (erase key entries) := List.Pairwise.sublist List.filter_sublist h

theorem get?_eq_none_of_lt {key : κ}
    (h : ∀ entry ∈ entries, key < entry.1) : get? key entries = none := by
  induction entries with
  | nil => rfl
  | cons first rest ih =>
    obtain ⟨other, value⟩ := first
    have hOther : key ≠ other := (h _ List.mem_cons_self).ne
    rw [get?_cons, if_neg hOther, ih fun entry hEntry => h entry (List.mem_cons_of_mem _ hEntry)]

theorem get?_isSome_iff {key : κ} : (get? key entries).isSome ↔ key ∈ entries.map Prod.fst := by
  induction entries with
  | nil => simp
  | cons first rest ih =>
    obtain ⟨other, value⟩ := first
    by_cases h : key = other
    · simp [h]
    · simp [h, ih]

/-- A lookup finds the entry of the key. -/
theorem Sorted.get?_eq_some_iff {key : κ} {value : ν}
    (h : Sorted entries) : get? key entries = some value ↔ (key, value) ∈ entries := by
  induction entries with
  | nil => simp
  | cons first rest ih =>
    obtain ⟨other, found⟩ := first
    obtain ⟨hFirst, hRest⟩ := List.pairwise_cons.mp h
    by_cases hKey : key = other
    · subst hKey
      have hAbsent : (key, value) ∉ rest := fun hMember =>
        lt_irrefl key (hFirst (key, value) hMember)
      simp [hAbsent, eq_comm]
    · simp [hKey, ih hRest]

/-- Sorted entries are determined by their lookups. -/
theorem Sorted.eq_of_get? {first second : List (κ × ν)} (hFirst : Sorted first)
    (hSecond : Sorted second) (h : ∀ key, get? key first = get? key second) : first = second := by
  induction first generalizing second with
  | nil =>
    cases second with
    | nil => rfl
    | cons entry rest =>
      obtain ⟨key, value⟩ := entry
      simpa using h key
  | cons entry tail ih =>
    obtain ⟨key, value⟩ := entry
    obtain ⟨hHead, hTail⟩ := List.pairwise_cons.mp hFirst
    cases second with
    | nil => simpa using h key
    | cons entry rest =>
      obtain ⟨other, found⟩ := entry
      obtain ⟨hOther, hRest⟩ := List.pairwise_cons.mp hSecond
      -- The smallest keys agree: the lookup of each in the other list succeeds.
      have hKey : key = other := by
        rcases lt_trichotomy key other with hLess | hSame | hLess
        · have hNone := h key
          rw [get?_eq_none_of_lt (List.forall_mem_cons.mpr
            ⟨hLess, fun entry hEntry => hLess.trans (hOther entry hEntry)⟩)] at hNone
          simp at hNone
        · exact hSame
        · have hNone := h other
          rw [get?_eq_none_of_lt (List.forall_mem_cons.mpr
            ⟨hLess, fun entry hEntry => hLess.trans (hHead entry hEntry)⟩)] at hNone
          simp at hNone
      subst hKey
      have hValue : value = found := by simpa using h key
      subst hValue
      rw [ih hTail hRest]
      intro looked
      by_cases hAt : looked = key
      · rw [hAt, get?_eq_none_of_lt hHead, get?_eq_none_of_lt hOther]
      · simpa [hAt] using h looked

end SortedEntries

/-- A map with its entries in increasing key order. -/
structure OrderedMap (κ ν : Type*) [LinearOrder κ] where
  entries : List (κ × ν)
  sorted : SortedEntries.Sorted entries

namespace OrderedMap

variable {κ ν : Type*} [LinearOrder κ] {map : OrderedMap κ ν}

def empty : OrderedMap κ ν := ⟨[], List.Pairwise.nil⟩

instance : Inhabited (OrderedMap κ ν) := ⟨empty⟩

def get? (map : OrderedMap κ ν) (key : κ) : Option ν := SortedEntries.get? key map.entries

def insert (map : OrderedMap κ ν) (key : κ) (value : ν) : OrderedMap κ ν :=
  ⟨SortedEntries.insert key value map.entries, map.sorted.insert key value⟩

def erase (map : OrderedMap κ ν) (key : κ) : OrderedMap κ ν :=
  ⟨SortedEntries.erase key map.entries, map.sorted.erase key⟩

/-- The entries that satisfy `keep`. -/
def retain (map : OrderedMap κ ν) (keep : ν → Bool) : OrderedMap κ ν :=
  ⟨map.entries.filter (keep ·.2), List.Pairwise.sublist List.filter_sublist map.sorted⟩

def isEmpty (map : OrderedMap κ ν) : Bool := map.entries.isEmpty

def keys (map : OrderedMap κ ν) : List κ := map.entries.map Prod.fst

def values (map : OrderedMap κ ν) : List ν := map.entries.map Prod.snd

instance [DecidableEq ν] : DecidableEq (OrderedMap κ ν) := fun first second =>
  decidable_of_iff (first.entries = second.entries) (by
    cases first
    cases second
    simp)

@[simp] theorem get?_empty (key : κ) : (empty : OrderedMap κ ν).get? key = none := rfl

@[simp] theorem get?_insert (map : OrderedMap κ ν) (key other : κ) (value : ν) :
    (map.insert key value).get? other = if other = key then some value else map.get? other :=
  SortedEntries.get?_insert key other value map.entries

@[simp] theorem get?_erase (map : OrderedMap κ ν) (key other : κ) :
    (map.erase key).get? other = if other = key then none else map.get? other :=
  SortedEntries.get?_erase key other map.entries

theorem get?_eq_some_iff {key : κ} {value : ν} :
    map.get? key = some value ↔ (key, value) ∈ map.entries :=
  map.sorted.get?_eq_some_iff

theorem get?_retain_eq_some {keep : ν → Bool} {key : κ} {value : ν} :
    (map.retain keep).get? key = some value ↔ map.get? key = some value ∧ keep value = true := by
  rw [get?_eq_some_iff, get?_eq_some_iff]
  exact List.mem_filter

@[ext] theorem ext_get? {first second : OrderedMap κ ν}
    (h : ∀ key, first.get? key = second.get? key) : first = second := by
  obtain ⟨entries, hSorted⟩ := first
  obtain ⟨others, hOthers⟩ := second
  congr
  exact hSorted.eq_of_get? hOthers h

theorem keys_sorted (map : OrderedMap κ ν) : map.keys.Pairwise (· < ·) :=
  List.pairwise_map.mpr map.sorted

theorem mem_keys {key : κ} : key ∈ map.keys ↔ (map.get? key).isSome :=
  SortedEntries.get?_isSome_iff.symm

/-- The keys as a set. -/
def domain (map : OrderedMap κ ν) : Finset κ := map.keys.toFinset

theorem mem_domain {key : κ} : key ∈ map.domain ↔ (map.get? key).isSome := by
  unfold domain keys get?
  rw [List.mem_toFinset, SortedEntries.get?_isSome_iff]

@[simp] theorem domain_empty : (empty : OrderedMap κ ν).domain = ∅ := rfl

@[simp] theorem domain_insert (map : OrderedMap κ ν) (key : κ) (value : ν) :
    (map.insert key value).domain = Insert.insert key map.domain := by
  ext other
  by_cases h : other = key <;> simp [mem_domain, h]

@[simp] theorem domain_erase (map : OrderedMap κ ν) (key : κ) :
    (map.erase key).domain = map.domain.erase key := by
  ext other
  by_cases h : other = key <;> simp [mem_domain, h]

theorem isEmpty_iff : map.isEmpty ↔ map.domain = ∅ := by
  simp [isEmpty, domain, keys]

/-- Entries under different keys can be inserted and erased in either order. -/
theorem insert_erase_comm (map : OrderedMap κ ν) {key other : κ} (h : key ≠ other) (value : ν) :
    (map.insert key value).erase other = (map.erase other).insert key value := by
  ext found : 1
  by_cases hOther : found = other
  · simp [hOther, h.symm]
  · simp [hOther]

end OrderedMap
