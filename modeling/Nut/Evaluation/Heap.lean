import Nut.Value.Basic

/-! The heap of scopes. A scope is known by its place, and its outer scope was made before it. -/

namespace Nut

structure Scope where
  bindings : Entries String Value
  outer : Option Nat

structure Heap where
  scopes : Array Scope

namespace Heap

def initial : Heap := ⟨#[⟨[], none⟩]⟩

def size (h : Heap) : Nat := h.scopes.size

def extend (h : Heap) (outer : Option Nat) : Heap := ⟨h.scopes.push ⟨[], outer⟩⟩

def declare (h : Heap) (s : Nat) (name : String) (value : Value) : Heap :=
  ⟨h.scopes.modify s fun scope => { scope with bindings := Entries.put name value scope.bindings }⟩

def local? (h : Heap) (s : Nat) (name : String) : Option Value :=
  h.scopes[s]?.bind fun scope => Entries.get? name scope.bindings

def outer? (h : Heap) (s : Nat) : Option Nat :=
  h.scopes[s]?.bind Scope.outer

/-- The first scope outward from `s` that declares `name`. Outward is backward in time, so the
search ends. -/
def nearest? (h : Heap) (s : Nat) (name : String) : Option Nat :=
  if (h.local? s name).isSome then
    some s
  else
    match h.outer? s with
    | some o => if o < s then nearest? h o name else none
    | none => none
termination_by s

def get? (h : Heap) (s : Nat) (name : String) : Option Value :=
  (h.nearest? s name).bind fun d => h.local? d name

def assign? (h : Heap) (s : Nat) (name : String) (value : Value) : Option Heap :=
  (h.nearest? s name).map fun d => h.declare d name value

def names (h : Heap) (s : Nat) : List String :=
  (h.scopes[s]?.map fun scope => Entries.keys scope.bindings).getD []

section Lemmas

variable (h : Heap) (s t : Nat) (outer : Option Nat) (name x : String) (value : Value)

@[simp] theorem size_extend : (h.extend outer).size = h.size + 1 := by
  simp [extend, size]

@[simp] theorem size_declare : (h.declare s name value).size = h.size := by
  simp [declare, size]

theorem scopes_extend (ht : t < h.size) : (h.extend outer).scopes[t]? = h.scopes[t]? := by
  rw [extend, Array.getElem?_push_lt ht, Array.getElem?_eq_getElem ht]

theorem scopes_declare (ht : t ≠ s) : (h.declare s name value).scopes[t]? = h.scopes[t]? := by
  rw [declare, Array.getElem?_modify, if_neg ht.symm]

@[simp] theorem outer?_declare : (h.declare s name value).outer? t = h.outer? t := by
  simp only [outer?, declare, Array.getElem?_modify]
  split <;> cases h.scopes[t]? <;> rfl

theorem outer?_of_size_le (hs : h.size ≤ s) : h.outer? s = none := by
  rw [outer?, Array.getElem?_eq_none hs]
  rfl

theorem local?_of_size_le (hs : h.size ≤ s) : h.local? s x = none := by
  rw [local?, Array.getElem?_eq_none hs]
  rfl

theorem outer?_extend :
    (h.extend outer).outer? t = if t = h.size then outer else h.outer? t := by
  simp only [outer?, extend, size, Array.getElem?_push]
  by_cases ht : t = h.scopes.size <;> simp [ht]

@[simp] theorem local?_extend : (h.extend outer).local? t x = h.local? t x := by
  simp only [local?, extend, Array.getElem?_push]
  split
  · subst t
    simp [Entries.get?]
  · rfl

theorem local?_declare : (h.declare s name value).local? t x =
    if t = s ∧ x = name ∧ s < h.size then some value else h.local? t x := by
  simp only [local?, declare, size, Array.getElem?_modify]
  by_cases hs : s = t
  · subst hs
    by_cases hlt : s < h.scopes.size <;> simp [hlt, Entries.get?_put]
  · simp [hs, Ne.symm hs]

@[simp] theorem names_extend : (h.extend outer).names t = h.names t := by
  simp only [names, extend, Array.getElem?_push]
  split
  · subst t
    simp [Entries.keys]
  · rfl

theorem names_declare : (h.declare s name value).names t =
    if t = s ∧ s < h.size ∧ name ∉ h.names s then h.names t ++ [name] else h.names t := by
  simp only [names, declare, size, Array.getElem?_modify]
  by_cases hs : s = t
  · subst hs
    by_cases hlt : s < h.scopes.size
    · by_cases hn : name ∈ Entries.keys h.scopes[s].bindings <;>
        simp [hlt, hn, Entries.keys_put]
    · simp [hlt]
  · simp [hs, Ne.symm hs]

theorem mem_names : name ∈ h.names s ↔ (h.local? s name).isSome := by
  simp only [names, local?]
  cases h.scopes[s]? with
  | none => simp
  | some scope => exact (Entries.get?_isSome_iff name scope.bindings).symm

theorem nearest?_isSome {d : Nat} (hd : h.nearest? s name = some d) :
    d ≤ s ∧ (h.local? d name).isSome := by
  induction s using Nat.strongRecOn with
  | ind s ih =>
    rw [nearest?] at hd
    split at hd
    · next hs =>
      cases hd
      exact ⟨Nat.le_refl d, hs⟩
    · split at hd
      · split at hd
        · next o _ ho =>
          obtain ⟨hle, hsome⟩ := ih o ho hd
          exact ⟨Nat.le_trans hle (Nat.le_of_lt ho), hsome⟩
        · cases hd
      · cases hd

end Lemmas

end Heap

end Nut
