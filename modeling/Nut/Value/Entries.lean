/-! Finite maps as lists of entries in the order in which their keys were first put. -/

namespace Nut

abbrev Entries (κ α : Type) := List (κ × α)

namespace Entries

variable {κ α : Type} [DecidableEq κ]

def get? (key : κ) : Entries κ α → Option α
  | [] => none
  | (k, a) :: rest => if key = k then some a else get? key rest

def put (key : κ) (value : α) : Entries κ α → Entries κ α
  | [] => [(key, value)]
  | (k, a) :: rest => if key = k then (key, value) :: rest else (k, a) :: put key value rest

def keys (entries : Entries κ α) : List κ := entries.map Prod.fst

theorem get?_put (key k : κ) (value : α) (entries : Entries κ α) :
    get? k (put key value entries) = if k = key then some value else get? k entries := by
  induction entries with
  | nil => simp [put, get?]
  | cons entry rest ih =>
    obtain ⟨l, a⟩ := entry
    by_cases h : key = l
    · subst h
      by_cases hk : k = key <;> simp [put, get?, hk]
    · by_cases hk : k = l
      · subst hk
        simp [put, get?, h, Ne.symm h]
      · simp [put, get?, h, hk, ih]

theorem keys_put (key : κ) (value : α) (entries : Entries κ α) :
    keys (put key value entries) =
      if key ∈ keys entries then keys entries else keys entries ++ [key] := by
  induction entries with
  | nil => simp [put, keys]
  | cons entry rest ih =>
    obtain ⟨l, a⟩ := entry
    by_cases h : key = l
    · subst h
      simp [put, keys]
    · simp only [keys] at ih
      by_cases hk : key ∈ rest.map Prod.fst <;> simp_all [put, keys]

theorem get?_isSome_iff (key : κ) (entries : Entries κ α) :
    (get? key entries).isSome ↔ key ∈ keys entries := by
  induction entries with
  | nil => simp [get?, keys]
  | cons entry rest ih =>
    obtain ⟨l, a⟩ := entry
    by_cases h : key = l
    · simp [get?, keys, h]
    · simpa [get?, keys, h] using ih

theorem length_put (key : κ) (value : α) (entries : Entries κ α) :
    (put key value entries).length =
      if (get? key entries).isSome then entries.length else entries.length + 1 := by
  have hlen (es : Entries κ α) : es.length = (keys es).length := (List.length_map ..).symm
  rw [hlen, keys_put]
  split
  · next hk => rw [if_pos ((get?_isSome_iff key entries).2 hk), hlen]
  · next hk => rw [if_neg (mt (get?_isSome_iff key entries).1 hk), List.length_append, hlen]; rfl

theorem nodup_keys_put {key : κ} {value : α} {entries : Entries κ α} (h : (keys entries).Nodup) :
    (keys (put key value entries)).Nodup := by
  rw [keys_put]
  split
  · exact h
  · next hk =>
    rw [List.nodup_append]
    exact ⟨h, by simp, by rintro k hm l hl rfl; exact hk (List.mem_singleton.1 hl ▸ hm)⟩

theorem mem_of_get? {key : κ} {value : α} {entries : Entries κ α}
    (h : get? key entries = some value) : (key, value) ∈ entries := by
  induction entries with
  | nil => cases h
  | cons entry rest ih =>
    obtain ⟨k, a⟩ := entry
    rw [get?] at h
    split at h
    · next hk =>
      cases hk
      cases h
      exact .head _
    · exact .tail _ (ih h)

theorem eq_or_mem_of_mem_put {key : κ} {value : α} {entries : Entries κ α} {entry : κ × α}
    (h : entry ∈ put key value entries) : entry = (key, value) ∨ entry ∈ entries := by
  induction entries with
  | nil => exact .inl (List.mem_singleton.1 h)
  | cons first rest ih =>
    obtain ⟨k, a⟩ := first
    rw [put] at h
    split at h
    · exact (List.mem_cons.1 h).imp id (.tail _)
    · rcases List.mem_cons.1 h with rfl | h
      · exact .inr (.head _)
      · exact (ih h).imp id (.tail _)

end Entries

end Nut
