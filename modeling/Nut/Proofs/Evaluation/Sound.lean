import Nut.Proofs.Evaluation.Reachable

/-! Values in which no hash has a key twice, at any depth. -/

namespace Nut

namespace Value

inductive PartOf : Value → Value → Prop
  | whole (v) : PartOf v v
  | element {w v vs} : v ∈ vs → PartOf w v → PartOf w (.array vs)
  | entry {w key v es} : (key, v) ∈ es → PartOf w v → PartOf w (.hash es)

def Sound (v : Value) : Prop :=
  ∀ es : Entries Key Value, (hash es).PartOf v → (Entries.keys es).Nodup

variable {v : Value} {vs : List Value} {es : Entries Key Value}

lemma sound_of_isAtom (h : v.kind.isAtom) : v.Sound := by
  intro es hes
  cases hes with
  | whole | element | entry => cases h

lemma sound_function (ps : List String) (body : List Stmt) (scope : Nat) :
    (function ps body scope).Sound := by
  intro es hes
  cases hes

lemma sound_array : (array vs).Sound ↔ ∀ v ∈ vs, v.Sound := by
  constructor
  · exact fun h v hv es hes => h es (.element hv hes)
  · intro h es hes
    cases hes with
    | element hv hes => exact h _ hv es hes

lemma sound_hash : (hash es).Sound ↔ (Entries.keys es).Nodup ∧ ∀ entry ∈ es, entry.2.Sound := by
  constructor
  · exact fun h => ⟨h es (.whole _), fun entry he fs hfs => h fs (.entry he hfs)⟩
  · rintro ⟨hnodup, hsound⟩ fs hfs
    cases hfs with
    | whole => exact hnodup
    | entry he hfs => exact hsound _ he fs hfs

lemma sound_likeness : Likeness fun v w => v = w ∧ v.Sound where
  atom h := ⟨rfl, sound_of_isAtom h⟩
  eq_of_atom _ h := h.1
  kind_eq h := h.1 ▸ rfl
  array_iff {vs ws} := by
    rw [array.injEq, sound_array, and_comm, ← List.forall₂_eq_eq_eq, ← List.forall₂_and_left]
    simp only [and_comm]
  hash_nil := ⟨rfl, sound_hash.mpr ⟨List.nodup_nil, nofun⟩⟩
  hash_put {es _ v _} key := by
    rintro ⟨hes, hsound⟩ ⟨rfl, hv⟩
    cases hes
    obtain ⟨hnodup, hentries⟩ := sound_hash.mp hsound
    refine ⟨rfl, sound_hash.mpr ⟨Entries.nodup_keys_put hnodup, fun entry he => ?_⟩⟩
    rcases Entries.eq_or_mem_of_mem_put he with rfl | he
    · exact hv
    · exact hentries entry he
  hash_get {es _} key := by
    rintro ⟨hes, hsound⟩
    cases hes
    cases hg : Entries.get? key es with
    | none => exact .none
    | some v => exact .some ⟨rfl, (sound_hash.mp hsound).2 _ (Entries.mem_of_get? hg)⟩

def Settled (n : Nat) (v : Value) : Prop := Restrict (fun v w => v = w ∧ v.Sound) (· < n) v v

lemma settled_iff {n : Nat} : v.Settled n ↔ v.Sound ∧ v.HoldsIn (· < n) := by
  rw [Settled, Restrict, and_comm, eq_self, true_and]

lemma Settled.mono {n m : Nat} (h : v.Settled n) (hn : n ≤ m) : v.Settled m :=
  ⟨h.1.mono fun _ hc => hc.trans_le hn, h.2⟩

lemma settled_function {ps : List String} {body : List Stmt} {c n : Nat} :
    (function ps body c).Settled n ↔ c < n := by
  rw [settled_iff, holdsIn_function, and_iff_right (sound_function ps body c)]

end Value

end Nut
