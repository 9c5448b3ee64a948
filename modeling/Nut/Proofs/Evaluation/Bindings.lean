import Nut.Proofs.Evaluation.Reachable

/-! Which searches find a value that is assigned or declared. -/

namespace Nut.Heap

inductive Sees (h : Heap) (x : String) : Nat → Nat → Prop
  | here (c) : Sees h x c c
  | outward {c o e} : h.local? c x = none → h.outer? c = some o → Sees h x o e → Sees h x c e

/-- The second scope is the first one, outward from the first scope, that declares `x`. -/
def Near (h : Heap) (x : String) (c d : Nat) : Prop :=
  h.Sees x c d ∧ (h.local? d x).isSome

/-- Searches for which `P` holds find `v` in the second heap. The others find there what they found
before. -/
def Updated (h h' : Heap) (P : Nat → String → Prop) (v : Value) : Prop :=
  ∀ c y, (P c y → h'.get? c y = some v) ∧ (¬P c y → h'.get? c y = h.get? c y)

structure Rebinds (h h' : Heap) (d : Nat) (x : String) (v : Value) : Prop where
  size_eq : h'.size = h.size
  outer_eq (c : Nat) : h'.outer? c = h.outer? c
  names_eq (c : Nat) : h'.names c = h.names c
  scopes_eq {c : Nat} : c ≠ d → h'.scopes[c]? = h.scopes[c]?
  bound : h'.local? d x = some v
  kept {y : String} : y ≠ x → h'.local? d y = h.local? d y

variable {h : Heap} {c d e o : Nat} {x y : String} {v : Value}

lemma lt_size_of_local (hl : (h.local? c x).isSome) : c < h.size := by
  by_contra hc
  rw [h.local?_of_size_le c x (not_lt.mp hc)] at hl
  cases hl

section Searches

lemma search_induction {motive : Nat → Prop} (hh : h.Descending) (x : String)
    (found : ∀ c, (h.local? c x).isSome → motive c)
    (last : ∀ c, h.local? c x = none → h.outer? c = none → motive c)
    (outward : ∀ c o, h.local? c x = none → h.outer? c = some o → motive o → motive c) (c : Nat) :
    motive c := by
  induction c using Nat.strongRecOn with
  | ind c ih =>
    cases hl : h.local? c x with
    | some v => exact found c (by simp [hl])
    | none =>
      cases ho : h.outer? c with
      | none => exact last c hl ho
      | some o => exact outward c o hl ho (ih o (hh c o ho))

lemma nearest?_of_local (hl : (h.local? c x).isSome) : h.nearest? c x = some c := by
  rw [nearest?, if_pos hl]

lemma nearest?_of_last (hl : h.local? c x = none) (ho : h.outer? c = none) :
    h.nearest? c x = none := by
  rw [nearest?, ho]
  simp [hl]

lemma nearest?_of_outer_lt (hl : h.local? c x = none) (ho : h.outer? c = some o) (hlt : o < c) :
    h.nearest? c x = h.nearest? o x := by
  rw [nearest?, ho]
  simp [hl, hlt]

lemma nearest?_of_outer (hh : h.Descending) (hl : h.local? c x = none) (ho : h.outer? c = some o) :
    h.nearest? c x = h.nearest? o x :=
  nearest?_of_outer_lt hl ho (hh c o ho)

lemma get?_of_local (hl : (h.local? c x).isSome) : h.get? c x = h.local? c x := by
  rw [get?, nearest?_of_local hl]
  rfl

lemma get?_of_last (hl : h.local? c x = none) (ho : h.outer? c = none) : h.get? c x = none := by
  rw [get?, nearest?_of_last hl ho]
  rfl

lemma get?_of_outer (hh : h.Descending) (hl : h.local? c x = none) (ho : h.outer? c = some o) :
    h.get? c x = h.get? o x := by
  rw [get?, nearest?_of_outer hh hl ho]
  rfl

lemma nearest?_eq_some_iff (hh : h.Descending) : h.nearest? c x = some d ↔ h.Near x c d := by
  induction c using search_induction hh x with
  | found c hl =>
    rw [nearest?_of_local hl, Option.some_inj]
    constructor
    · rintro rfl
      exact ⟨.here c, hl⟩
    · rintro ⟨hs, -⟩
      cases hs with
      | here => rfl
      | outward hn => simp [hn] at hl
  | last c hl ho =>
    rw [nearest?_of_last hl ho]
    refine ⟨nofun, ?_⟩
    rintro ⟨hs, hd⟩
    cases hs with
    | here => simp [hl] at hd
    | outward _ ho' => simp [ho] at ho'
  | outward c o hl ho ih =>
    rw [nearest?_of_outer hh hl ho, ih]
    constructor
    · exact fun hn => ⟨.outward hl ho hn.1, hn.2⟩
    · rintro ⟨hs, hd⟩
      cases hs with
      | here => simp [hl] at hd
      | outward _ ho' hs =>
        obtain rfl := Option.some.inj (ho.symm.trans ho')
        exact ⟨hs, hd⟩

lemma get?_isSome (c : Nat) (x : String) : (h.get? c x).isSome = (h.nearest? c x).isSome := by
  rw [get?]
  cases hn : h.nearest? c x with
  | none => rfl
  | some d => exact (h.nearest?_isSome c x hn).2

end Searches

section Declaring

lemma local?_declare_self (he : e < h.size) (x : String) (v : Value) :
    (h.declare e x v).local? e x = some v := by
  simp [local?_declare, he]

lemma local?_declare_of_ne (hne : ¬(c = e ∧ y = x)) :
    (h.declare e x v).local? c y = h.local? c y := by
  rw [local?_declare, if_neg fun hc => hne ⟨hc.1, hc.2.1⟩]

lemma get?_declare_of_sees (hh : h.Descending) (he : e < h.size) (hs : h.Sees x c e) :
    (h.declare e x v).get? c x = some v := by
  induction hs with
  | here => rw [get?_of_local (by simp [local?_declare_self he]), local?_declare_self he]
  | @outward c o e hl ho _ ih =>
    by_cases hc : c = e
    · subst hc
      rw [get?_of_local (by simp [local?_declare_self he]), local?_declare_self he]
    · have hl' : (h.declare e x v).local? c x = none := by
        rwa [local?_declare_of_ne fun h => hc h.1]
      rw [get?_of_outer (hh.declare e x v) hl' (by rwa [outer?_declare]), ih he]

lemma get?_declare_of_not_sees (hh : h.Descending) (hno : ¬(y = x ∧ h.Sees x c e)) :
    (h.declare e x v).get? c y = h.get? c y := by
  have hkept {c : Nat} (hno : ¬(y = x ∧ h.Sees x c e)) :
      (h.declare e x v).local? c y = h.local? c y := by
    apply local?_declare_of_ne
    rintro ⟨rfl, rfl⟩
    exact hno ⟨rfl, .here c⟩
  induction c using search_induction hh y with
  | found c hl => rw [get?_of_local hl, get?_of_local (by rwa [hkept hno]), hkept hno]
  | last c hl ho =>
    rw [get?_of_last hl ho, get?_of_last (by rwa [hkept hno]) (by rwa [outer?_declare])]
  | outward c o hl ho ih =>
    have hl' : (h.declare e x v).local? c y = none := by rwa [hkept hno]
    rw [get?_of_outer hh hl ho, get?_of_outer (hh.declare e x v) hl' (by rwa [outer?_declare])]
    apply ih
    rintro ⟨rfl, hs⟩
    exact hno ⟨rfl, .outward hl ho hs⟩

lemma updated_declare (hh : h.Descending) (he : e < h.size) (x : String) (v : Value) :
    h.Updated (h.declare e x v) (fun c y => y = x ∧ h.Sees x c e) v := by
  intro c y
  refine ⟨?_, get?_declare_of_not_sees hh⟩
  rintro ⟨rfl, hs⟩
  exact get?_declare_of_sees hh he hs

lemma rebinds_declare (hl : (h.local? d x).isSome) (v : Value) : h.Rebinds (h.declare d x v) d x v where
  size_eq := h.size_declare d x v
  outer_eq c := h.outer?_declare d c x v
  names_eq c := by
    rw [names_declare, if_neg]
    rintro ⟨-, -, hn⟩
    exact hn ((h.mem_names d x).mpr hl)
  scopes_eq hc := h.scopes_declare d _ x v hc
  bound := local?_declare_self (lt_size_of_local hl) x v
  kept hy := local?_declare_of_ne fun h => hy h.2

lemma updated_assign (hh : h.Descending) (hn : h.Near x e d) (v : Value) :
    h.Updated (h.declare d x v) (fun c y => y = x ∧ h.Near x c d) v := by
  intro c y
  obtain ⟨hto, hkeep⟩ := updated_declare hh (lt_size_of_local hn.2) x v c y
  refine ⟨fun hc => hto ⟨hc.1, hc.2.1⟩, fun hno => hkeep fun hc => hno ⟨hc.1, hc.2, hn.2⟩⟩

end Declaring

section Enclosing

lemma local?_enclosed : (h.extend (some e)).local? h.size x = none := by
  rw [local?_extend, local?_of_size_le h h.size x le_rfl]

lemma outer?_enclosed : (h.extend (some e)).outer? h.size = some e := by
  rw [outer?_extend, if_pos rfl]

lemma get?_enclose (hh : h.Descending) (he : e < h.size) (hc : c < h.size) (y : String) :
    (h.extend (some e)).get? c y = h.get? c y := by
  have hh' := hh.enclose he
  have houter {c : Nat} (hc : c < h.size) : (h.extend (some e)).outer? c = h.outer? c := by
    rw [outer?_extend, if_neg hc.ne]
  induction c using search_induction hh y with
  | found c hl => rw [get?_of_local hl, get?_of_local (by simpa using hl), local?_extend]
  | last c hl ho => rw [get?_of_last hl ho, get?_of_last (by simpa using hl) ((houter hc).trans ho)]
  | outward c o hl ho ih =>
    rw [get?_of_outer hh hl ho, get?_of_outer hh' (by simpa using hl) ((houter hc).trans ho)]
    exact ih ((hh c o ho).trans hc)

lemma get?_enclosed (hh : h.Descending) (he : e < h.size) (y : String) :
    (h.extend (some e)).get? h.size y = h.get? e y := by
  rw [get?_of_outer (hh.enclose he) local?_enclosed outer?_enclosed, get?_enclose hh he he]

end Enclosing

lemma assign_eq (e : Nat) (x : String) (v : Value) (s : State) :
    Eval.assign e x v s = match s.heap.assign? e x v with
      | some h => .normal () { s with heap := h }
      | none => .unwound (.failed (.undeclared x)) s := by
  rw [Eval.assign, assign?]
  cases s.heap.nearest? e x <;> rfl

theorem searches_after {s : State} (hs : s.heap.Reachable) (he : e < s.heap.size) (x : String)
    (v : Value) :
    ((s.heap.assign? e x v).isSome ↔ (s.heap.get? e x).isSome) ∧
      (Eval.assign e x v s = match s.heap.assign? e x v with
        | some h => .normal () { s with heap := h }
        | none => .unwound (.failed (.undeclared x)) s) ∧
      (∀ h, s.heap.assign? e x v = some h → ∃ d, s.heap.Near x e d ∧ s.heap.Rebinds h d x v ∧
        s.heap.Updated h (fun c y => y = x ∧ s.heap.Near x c d) v) ∧
      s.heap.Updated (s.heap.declare e x v) (fun c y => y = x ∧ s.heap.Sees x c e) v ∧
      (s.heap.extend (some e)).size = s.heap.size + 1 ∧
      (∀ y, (s.heap.extend (some e)).get? s.heap.size y = s.heap.get? e y) ∧
      ∀ c < s.heap.size, ∀ y, (s.heap.extend (some e)).get? c y = s.heap.get? c y := by
  have hh := hs.descending
  refine ⟨?_, assign_eq e x v s, fun h ha => ?_, updated_declare hh he x v, s.heap.size_extend _,
    get?_enclosed hh he, fun c hc => get?_enclose hh he hc⟩
  · rw [get?_isSome, assign?, Option.isSome_map]
  · obtain ⟨d, hd, rfl⟩ := Option.map_eq_some_iff.mp ha
    have hn := (nearest?_eq_some_iff hh).mp hd
    exact ⟨d, hn, rebinds_declare hn.2 v, updated_assign hh hn v⟩

/-- Two scopes inside the first one. In one of them, which has a scope of its own, `x` is declared
again. -/
def sharedScopes : Heap :=
  ((((initial.declare 0 "x" (.bool true)).extend (some 0)).declare 1 "x" (.bool false)).extend
    (some 1)).extend (some 0)

theorem searches_after_sharedScopes :
    let s : State := ⟨sharedScopes, "", .seeded 0⟩
    s.heap.Reachable ∧ 2 < s.heap.size ∧ ∃ h, s.heap.assign? 2 "x" .null = some h ∧
      h.get? 1 "x" = some .null ∧ h.get? 3 "x" = s.heap.get? 3 "x" ∧
      (s.heap.declare 2 "x" .null).get? 2 "x" = some .null ∧
      (s.heap.extend (some 2)).get? 4 "x" = s.heap.get? 2 "x" := by
  intro s
  have hs : s.heap.Reachable := by
    refine .enclose (.enclose (.declare 1 "x" (.enclose (.declare 0 "x" .initial ?_) ?_) ?_) ?_) ?_
    all_goals first | exact Value.holdsIn_of_isAtom rfl | decide
  have he : 2 < s.heap.size := by decide
  obtain ⟨hsome, -, hassign, hdeclare, -, henclosed, -⟩ := searches_after hs he "x" .null
  have hnear : s.heap.Near "x" 2 1 := ⟨.outward rfl rfl (.here 1), rfl⟩
  have hnearest := (nearest?_eq_some_iff hs.descending).mpr hnear
  have hget : (s.heap.get? 2 "x").isSome := by rw [get?_isSome, hnearest]; rfl
  obtain ⟨h, ha⟩ := Option.isSome_iff_exists.mp (hsome.mpr hget)
  obtain ⟨d, hd, -, hu⟩ := hassign h ha
  obtain rfl : 1 = d :=
    Option.some.inj (hnearest.symm.trans ((nearest?_eq_some_iff hs.descending).mpr hd))
  refine ⟨hs, he, h, ha, (hu 1 "x").1 ⟨rfl, .here 1, rfl⟩, (hu 3 "x").2 ?_,
    (hdeclare 2 "x").1 ⟨rfl, .here 2⟩, henclosed "x"⟩
  rintro ⟨-, hfar, -⟩
  cases hfar with
  | outward _ ho hs =>
    obtain rfl : 0 = _ := Option.some.inj ho
    cases hs with
    | outward hl => cases hl

end Nut.Heap
