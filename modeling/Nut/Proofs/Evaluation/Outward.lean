import Nut.Proofs.Evaluation.Grounded

/-! The way outward from a scope, on which names are searched. -/

namespace Nut.Heap

/-- All scopes from the first one outward, to one that no scope is around. -/
inductive Outward (h : Heap) : Nat → List Nat → Prop
  | last {c} : h.outer? c = none → Outward h c [c]
  | step {c o way} : h.outer? c = some o → Outward h o way → Outward h c (c :: way)

namespace Outward

variable {h : Heap} {c : Nat} {way : List Nat}

lemma exists_way (hh : h.Grounded) (c : Nat) : ∃ way, h.Outward c way := by
  induction c using Nat.strongRecOn with
  | ind c ih =>
    cases ho : h.outer? c with
    | none => exact ⟨[c], .last ho⟩
    | some o =>
      obtain ⟨way, hway⟩ := ih o (hh.outer_lt ho)
      exact ⟨c :: way, .step ho hway⟩

lemma le_of_mem (hh : h.Grounded) (hw : h.Outward c way) : ∀ d ∈ way, d ≤ c := by
  induction hw with
  | last => simp
  | step ho _ ih =>
    intro d hd
    rcases List.mem_cons.mp hd with rfl | hd
    · exact le_rfl
    · exact (ih d hd).trans (hh.outer_lt ho).le

lemma nodup (hh : h.Grounded) (hw : h.Outward c way) : way.Nodup := by
  induction hw with
  | last => exact List.nodup_singleton _
  | step ho hw ih =>
    refine List.nodup_cons.mpr ⟨fun hmem => ?_, ih⟩
    exact absurd (hh.outer_lt ho) (hw.le_of_mem hh _ hmem).not_gt

lemma nearest?_eq (hh : h.Grounded) (hw : h.Outward c way) (x : String) :
    h.nearest? c x = way.find? fun d => (h.local? d x).isSome := by
  induction hw with
  | last ho =>
    rw [nearest?, ho, List.find?_singleton]
  | step ho _ ih =>
    rw [nearest?, ho, List.find?_cons, ← ih]
    dsimp only
    rw [if_pos (hh.outer_lt ho)]
    cases (h.local? _ x).isSome <;> rfl

lemma get?_eq (hh : h.Grounded) (hw : h.Outward c way) (x : String) :
    h.get? c x = way.findSome? fun d => h.local? d x := by
  rw [get?, hw.nearest?_eq hh x]
  clear hw
  induction way with
  | nil => rfl
  | cons d way ih =>
    rw [List.find?_cons, List.findSome?_cons, ← ih]
    cases hd : h.local? d x with
    | none => rfl
    | some v => exact hd

lemma assign?_eq (hh : h.Grounded) (hw : h.Outward c way) (x : String) (v : Value) :
    h.assign? c x v =
      (way.find? fun d => (h.local? d x).isSome).map fun d => h.declare d x v := by
  rw [assign?, hw.nearest?_eq hh x]

end Outward

end Nut.Heap
