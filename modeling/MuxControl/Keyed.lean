/-
MuxControl.Keyed — finite maps as lists of pairs in strictly ascending
order of their keys.

Texts are compared by code points, which is also the order of their
UTF-8 bytes. `get?_put_self`, `get?_put_of_ne`, `get?_remove_self` and
`get?_remove_of_ne` say what a key is bound to after each operation,
`Ordered.put` and `Ordered.remove` that each keeps the order. In a map
that keeps it, a key is bound to a value just if the pair is a member.
`get?` and `remove` make sense for pairs in any order.
-/

namespace MuxControl.Keyed

variable {α : Type}

/-- Bind a key, replacing what it was bound to. -/
def put (key : String) (value : α) : List (String × α) → List (String × α)
  | [] => [(key, value)]
  | (k, v) :: rest =>
    if key < k then (key, value) :: (k, v) :: rest
    else if key = k then (key, value) :: rest
    else (k, v) :: put key value rest

/-- The value bound to a key. -/
def get? (key : String) : List (String × α) → Option α
  | [] => none
  | (k, v) :: rest => if key = k then some v else get? key rest

/-- Whether a key is bound. -/
def has (key : String) (map : List (String × α)) : Bool := (get? key map).isSome

/-- Unbind a key. -/
def remove (key : String) (map : List (String × α)) : List (String × α) :=
  map.filter fun (k, _) => k ≠ key

/-- The keys, in ascending order. -/
def keys (map : List (String × α)) : List String := map.map Prod.fst

/-- The order every map keeps. -/
def Ordered (map : List (String × α)) : Prop :=
  (keys map).Pairwise (· < ·)

/-! ## What a key is bound to -/

@[simp] theorem get?_put_self (key : String) (value : α) (map : List (String × α)) :
    get? key (put key value map) = some value := by
  induction map with
  | nil => simp [put, get?]
  | cons entry rest ih =>
    obtain ⟨k, v⟩ := entry
    by_cases hlt : key < k
    · simp [put, get?, hlt]
    · by_cases heq : key = k
      · simp only [put, get?, heq, String.lt_irrefl, if_false, if_true]
      · simp [put, get?, hlt, heq, ih]

theorem get?_put_of_ne {key other : String} (h : other ≠ key) (value : α)
    (map : List (String × α)) : get? other (put key value map) = get? other map := by
  induction map with
  | nil => simp [put, get?, h]
  | cons entry rest ih =>
    obtain ⟨k, v⟩ := entry
    by_cases hlt : key < k
    · simp [put, get?, hlt, h]
    · by_cases heq : key = k
      · subst heq
        simp only [put, get?, h, String.lt_irrefl, if_false, if_true]
      · simp [put, get?, hlt, heq, ih]

@[simp] theorem get?_remove_self (key : String) (map : List (String × α)) :
    get? key (remove key map) = none := by
  induction map with
  | nil => rfl
  | cons entry rest ih =>
    obtain ⟨k, v⟩ := entry
    by_cases heq : k = key
    · simpa [remove, heq] using ih
    · have hne : key ≠ k := fun h => heq h.symm
      simpa [remove, get?, heq, hne] using ih

theorem get?_remove_of_ne {key other : String} (h : other ≠ key) (map : List (String × α)) :
    get? other (remove key map) = get? other map := by
  induction map with
  | nil => rfl
  | cons entry rest ih =>
    obtain ⟨k, v⟩ := entry
    by_cases heq : k = key
    · have hne : other ≠ k := fun e => h (e.trans heq)
      simpa [remove, get?, heq, h] using ih
    · by_cases hk : other = k
      · subst hk
        simp [remove, get?, heq]
      · simpa [remove, get?, heq, hk] using ih

/-! ## The order of the keys -/

theorem mem_keys_put {key other : String} (value : α) (map : List (String × α)) :
    other ∈ keys (put key value map) ↔ other = key ∨ other ∈ keys map := by
  induction map with
  | nil => simp [put, keys]
  | cons entry rest ih =>
    obtain ⟨k, v⟩ := entry
    by_cases hlt : key < k
    · simp [put, keys, hlt]
    · by_cases heq : key = k
      · subst heq
        simp only [put, String.lt_irrefl, if_false, if_true, keys, List.map_cons, List.mem_cons,
          or_self_left]
      · simp only [put, hlt, heq, if_false]
        simp only [keys, List.map_cons, List.mem_cons] at ih ⊢
        rw [ih]
        exact or_left_comm

theorem mem_of_mem_put {key : String} {value : α} {map : List (String × α)} {entry : String × α}
    (h : entry ∈ put key value map) : entry = (key, value) ∨ entry ∈ map := by
  induction map with
  | nil => exact .inl (List.mem_singleton.mp h)
  | cons first rest ih =>
    obtain ⟨k, v⟩ := first
    simp only [put] at h
    split at h
    · exact List.mem_cons.mp h
    split at h
    · exact (List.mem_cons.mp h).imp_right (List.mem_cons_of_mem _)
    · rcases List.mem_cons.mp h with rfl | hrest
      · exact .inr List.mem_cons_self
      · exact (ih hrest).imp_right (List.mem_cons_of_mem _)

theorem ordered_nil : Ordered ([] : List (String × α)) := List.Pairwise.nil

theorem Ordered.put {map : List (String × α)} (h : Ordered map) (key : String) (value : α) :
    Ordered (put key value map) := by
  induction map with
  | nil => simp [Keyed.put, Ordered, keys]
  | cons entry rest ih =>
    obtain ⟨k, v⟩ := entry
    have hrest : Ordered rest := (List.pairwise_cons.mp h).2
    have hfirst : ∀ other ∈ keys rest, k < other := (List.pairwise_cons.mp h).1
    by_cases hlt : key < k
    · simp only [Keyed.put, hlt, if_true]
      refine List.pairwise_cons.mpr ⟨fun other hmem => ?_, h⟩
      rcases List.mem_cons.mp hmem with hk | hk
      · exact hk ▸ hlt
      · exact String.lt_trans hlt (hfirst other hk)
    · by_cases heq : key = k
      · subst heq
        simpa [Keyed.put, Ordered, keys, String.lt_irrefl] using h
      · simp only [Keyed.put, hlt, heq, if_false]
        refine List.pairwise_cons.mpr ⟨fun other hmem => ?_, ih hrest⟩
        rcases (mem_keys_put value rest).mp hmem with hk | hk
        · subst hk
          rcases Std.lt_trichotomy other k with hlt' | heq' | hgt
          · exact absurd hlt' hlt
          · exact absurd heq' heq
          · exact hgt
        · exact hfirst other hk

theorem Ordered.filter {map : List (String × α)} (h : Ordered map)
    (keep : String × α → Bool) : Ordered (map.filter keep) :=
  List.Pairwise.sublist (List.Sublist.map Prod.fst List.filter_sublist) h

theorem Ordered.remove {map : List (String × α)} (h : Ordered map) (key : String) :
    Ordered (remove key map) :=
  h.filter _

theorem Ordered.left {map behind : List (String × α)} (h : Ordered (map ++ behind)) : Ordered map :=
  List.Pairwise.sublist (List.Sublist.map Prod.fst (List.sublist_append_left map behind)) h

theorem Ordered.filterMap {β : Type} {map : List (String × α)} (h : Ordered map)
    (f : String × α → Option β) :
    Ordered (map.filterMap fun entry => (f entry).map fun value => (entry.1, value)) := by
  refine List.Pairwise.sublist ?_ h
  induction map with
  | nil => exact List.Sublist.slnil
  | cons entry rest ih =>
    have hrest := ih (List.pairwise_cons.mp h).2
    rw [List.filterMap_cons]
    cases f entry with
    | none => exact hrest.cons _
    | some value => exact hrest.cons_cons _

/-- A key behind all others is put at the end. -/
theorem Ordered.put_last {map : List (String × α)} {key : String} {value : α}
    (h : Ordered (map ++ [(key, value)])) : Keyed.put key value map = map ++ [(key, value)] := by
  induction map with
  | nil => rfl
  | cons entry rest ih =>
    obtain ⟨k, v⟩ := entry
    have hlast : key ∈ keys (rest ++ [(key, value)]) := by simp [keys]
    have hlt : k < key := (List.pairwise_cons.mp h).1 key hlast
    have hne : key ≠ k := fun heq => String.lt_irrefl k (heq ▸ hlt)
    rw [Keyed.put, if_neg (fun hgt => String.lt_irrefl k (String.lt_trans hlt hgt)), if_neg hne,
      ih (List.pairwise_cons.mp h).2]
    rfl

theorem keys_map {β : Type} (f : α → β) (map : List (String × α)) :
    keys (map.map fun (key, value) => (key, f value)) = keys map := by
  unfold keys
  rw [List.map_map]
  rfl

/-! ## Bindings as members -/

theorem mem_of_get? {key : String} {value : α} {map : List (String × α)}
    (h : get? key map = some value) : (key, value) ∈ map := by
  induction map with
  | nil => cases h
  | cons entry rest ih =>
    obtain ⟨k, v⟩ := entry
    by_cases heq : key = k
    · simp only [get?, heq, if_true, Option.some.injEq] at h
      rw [heq, h]
      exact List.mem_cons_self
    · simp only [get?, heq, if_false] at h
      exact List.mem_cons_of_mem _ (ih h)

theorem Ordered.get?_eq_some_iff {map : List (String × α)} (h : Ordered map) {key : String}
    {value : α} : get? key map = some value ↔ (key, value) ∈ map := by
  refine ⟨mem_of_get?, fun hmem => ?_⟩
  induction map with
  | nil => exact absurd hmem List.not_mem_nil
  | cons entry rest ih =>
    obtain ⟨k, v⟩ := entry
    have hrest : Ordered rest := (List.pairwise_cons.mp h).2
    have hfirst : ∀ other ∈ keys rest, k < other := (List.pairwise_cons.mp h).1
    rcases List.mem_cons.mp hmem with hhead | htail
    · obtain ⟨rfl, rfl⟩ := Prod.mk.inj hhead
      simp [get?]
    · have hlt : k < key := hfirst key (List.mem_map_of_mem htail)
      have hne : key ≠ k := fun heq => String.lt_irrefl k (heq ▸ hlt)
      rw [get?, if_neg hne]
      exact ih hrest htail

theorem get?_eq_none_iff {key : String} {map : List (String × α)} :
    get? key map = none ↔ key ∉ keys map := by
  induction map with
  | nil => simp [get?, keys]
  | cons entry rest ih =>
    obtain ⟨k, v⟩ := entry
    by_cases heq : key = k
    · simp [get?, keys, heq]
    · simpa [get?, keys, heq] using ih

/-- A binding that is kept is still the one found. -/
theorem get?_filter {key : String} {value : α} {map : List (String × α)}
    {keep : String × α → Bool} (h : get? key map = some value)
    (hkeep : keep (key, value) = true) : get? key (map.filter keep) = some value := by
  induction map with
  | nil => cases h
  | cons entry rest ih =>
    obtain ⟨k, v⟩ := entry
    by_cases heq : key = k
    · subst heq
      simp only [get?, if_true, Option.some.injEq] at h
      subst h
      simp [hkeep, get?]
    · simp only [get?, heq, if_false] at h
      rw [List.filter_cons]
      split
      · rw [get?, if_neg heq]
        exact ih h
      · exact ih h

end MuxControl.Keyed
