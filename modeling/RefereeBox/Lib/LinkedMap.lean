import Mathlib.Data.List.Induction
import Mathlib.Data.List.Nodup

/-! # Maps in Insertion Order

  A map that lists its entries in the order in which their keys were first
  put. Putting a key again replaces the value and keeps the place.
-/

variable {κ ν : Type} [DecidableEq κ]

/-- A list of entries with distinct keys. -/
structure LinkedMap (κ ν : Type) where
  entries : List (κ × ν)
  nodup : (entries.map Prod.fst).Nodup
deriving DecidableEq

namespace LinkedMap

/-! ### Entries -/

/-- The value of a key in a list of entries. -/
def find (k : κ) : List (κ × ν) → Option ν
  | [] => none
  | e :: es => if e.1 = k then some e.2 else find k es

/-- Replace the entry of the key, or add one at the end. -/
def insert (k : κ) (v : ν) : List (κ × ν) → List (κ × ν)
  | [] => [(k, v)]
  | e :: es => if e.1 = k then (k, v) :: es else e :: insert k v es

theorem insert_keys (k : κ) (v : ν) (es : List (κ × ν)) :
    (insert k v es).map Prod.fst =
      if k ∈ es.map Prod.fst then es.map Prod.fst else es.map Prod.fst ++ [k] := by
  induction es with
  | nil => rfl
  | cons e es ih =>
    unfold insert
    by_cases hk : e.1 = k
    · simp [hk]
    · rw [if_neg hk, List.map_cons, ih]
      by_cases hmem : k ∈ es.map Prod.fst <;> simp [hmem, Ne.symm hk]

theorem find_insert (k k' : κ) (v : ν) (es : List (κ × ν)) :
    find k' (insert k v es) = if k = k' then some v else find k' es := by
  induction es with
  | nil => rfl
  | cons e es ih =>
    unfold insert
    by_cases hk : e.1 = k
    · -- the entry of `k` is replaced
      rw [if_pos hk]
      by_cases hk' : k = k'
      · simp [find, hk']
      · simp [find, hk, hk']
    · rw [if_neg hk]
      by_cases he : e.1 = k'
      · have hne : k ≠ k' := fun h => hk (he.trans h.symm)
        simp [find, he, hne]
      · simp [find, he, ih]

theorem find_isSome_iff (k : κ) (es : List (κ × ν)) :
    (find k es).isSome = true ↔ k ∈ es.map Prod.fst := by
  induction es with
  | nil => simp [find]
  | cons e es ih =>
    by_cases he : e.1 = k
    · simp [find, he]
    · simp [find, he, ih, Ne.symm he]

/-! ### Maps -/

def empty : LinkedMap κ ν := ⟨[], List.nodup_nil⟩

def get? (m : LinkedMap κ ν) (k : κ) : Option ν := find k m.entries

def keys (m : LinkedMap κ ν) : List κ := m.entries.map Prod.fst

def put (m : LinkedMap κ ν) (k : κ) (v : ν) : LinkedMap κ ν where
  entries := insert k v m.entries
  nodup := by
    rw [insert_keys]
    split
    · exact m.nodup
    · next hk =>
      rw [List.nodup_append_comm]
      exact List.nodup_cons.mpr ⟨hk, m.nodup⟩

/-- Put several entries, one after the other. -/
def putAll (m : LinkedMap κ ν) (es : List (κ × ν)) : LinkedMap κ ν :=
  es.foldl (fun m e => m.put e.1 e.2) m

variable (m : LinkedMap κ ν)

omit [DecidableEq κ] in
@[ext] theorem ext {m m' : LinkedMap κ ν} (h : m.entries = m'.entries) : m = m' := by
  cases m
  cases m'
  cases h
  rfl

@[simp] theorem get?_empty (k : κ) : (empty : LinkedMap κ ν).get? k = none := rfl

theorem get?_put (k k' : κ) (v : ν) :
    (m.put k v).get? k' = if k = k' then some v else m.get? k' :=
  find_insert k k' v m.entries

theorem keys_put (k : κ) (v : ν) :
    (m.put k v).keys = if k ∈ m.keys then m.keys else m.keys ++ [k] :=
  insert_keys k v m.entries

theorem mem_keys_put {k k' : κ} {v : ν} : k' ∈ (m.put k v).keys ↔ k' = k ∨ k' ∈ m.keys := by
  rw [keys_put]
  by_cases hk : k ∈ m.keys
  · rw [if_pos hk]
    exact ⟨Or.inr, fun h => h.elim (fun h => h ▸ hk) id⟩
  · rw [if_neg hk, List.mem_append, List.mem_singleton]
    exact or_comm

theorem get?_isSome_iff (k : κ) : (m.get? k).isSome = true ↔ k ∈ m.keys :=
  find_isSome_iff k m.entries

@[simp] theorem putAll_nil : m.putAll [] = m := rfl

@[simp] theorem putAll_cons (e : κ × ν) (es : List (κ × ν)) :
    m.putAll (e :: es) = (m.put e.1 e.2).putAll es := rfl

theorem putAll_append (es es' : List (κ × ν)) :
    m.putAll (es ++ es') = (m.putAll es).putAll es' :=
  List.foldl_append

/-- Putting the same entries over two maps: they win, and elsewhere the maps
    decide. -/
theorem get?_putAll (k : κ) (es : List (κ × ν)) :
    (m.putAll es).get? k = ((empty.putAll es).get? k).or (m.get? k) := by
  induction es using List.reverseRecOn with
  | nil => rfl
  | append_singleton es e ih =>
    rw [putAll_append, putAll_append, putAll_cons, putAll_cons, putAll_nil, putAll_nil, get?_put,
      get?_put]
    by_cases hk : e.1 = k
    · rw [if_pos hk, if_pos hk]
      rfl
    · rw [if_neg hk, if_neg hk, ih]

end LinkedMap
