import Nut.Proofs.Evaluation.Rounds

/-! A loop ends as the list of statements does that it stands for, one round after the other. -/

namespace Nut

open Eval Filter Site

namespace Site

variable {c : Nat} {s t : State} {v : Value} {o p : Outcome Value} {e : Expr} {st : Stmt}
variable {ss : List Stmt} {signal : Signal}

lemma Ends.unique {x : Site} (h : x.Ends o) (h' : x.Ends p) (ho : o ≠ .exhausted)
    (hp : p ≠ .exhausted) : o = p := by
  obtain ⟨n, hn, hn'⟩ := ((h.eventually ho).and (h'.eventually hp)).exists
  exact hn.symm.trans hn'

lemma ends_expr : Ends ⟨.stmt (.expr e), c, s⟩ o ↔ Ends ⟨.expr e, c, s⟩ o := by
  constructor
  · rintro ⟨_ | n, h⟩
    · exact ⟨0, h⟩
    · exact ⟨n, h⟩
  · exact fun ⟨n, h⟩ => ⟨n + 1, h⟩

lemma ends_concat : Ends ⟨.body (ss ++ [st]), c, s⟩ (.normal v t) ↔
    ∃ w u, Ends ⟨.body ss, c, s⟩ (.normal w u) ∧ Ends ⟨.stmt st, c, u⟩ (.normal v t) := by
  have hlast (n : Nat) (w : Value) : evalSequence (Stmt.eval n c) w [st] = st.eval n c :=
    bind_pure _
  constructor
  · rintro ⟨n, h : evalSequence (Stmt.eval n c) .null (ss ++ [st]) s = _⟩
    rw [evalSequence_append_bind] at h
    obtain ⟨w, u, hw, hv⟩ := of_bind_normal h
    rw [hlast] at hv
    exact ⟨w, u, ⟨n, hw⟩, ⟨n, hv⟩⟩
  · rintro ⟨w, u, hw, hv⟩
    obtain ⟨n, hw, hv⟩ := ((hw.eventually nofun).and (hv.eventually nofun)).exists
    refine ⟨n, show evalSequence (Stmt.eval n c) .null (ss ++ [st]) s = _ from ?_⟩
    rw [evalSequence_append_bind]
    refine (bind_normal hw).trans ?_
    rwa [hlast]

structure UnwindsAt (ss : List Stmt) (j c : Nat) (s : State) (signal : Signal) (t : State) :
    Prop where
  before : ∃ v u, Ends ⟨.body (ss.take j), c, s⟩ (.normal v u)
  there : Ends ⟨.body (ss.take (j + 1)), c, s⟩ (.unwound signal t)
  whole : Ends ⟨.body ss, c, s⟩ (.unwound signal t)

lemma unwindsAt_iff {j : Nat} {u : State} (hb : Ends ⟨.body (ss.take j), c, s⟩ (.normal v u))
    (hst : ss.take (j + 1) = ss.take j ++ [st]) :
    UnwindsAt ss j c s signal t ↔ Ends ⟨.stmt st, c, u⟩ (.unwound signal t) := by
  constructor
  · rintro ⟨-, ⟨n, hn⟩, -⟩
    replace hn : evalSequence (Stmt.eval n c) .null (ss.take (j + 1)) s = .unwound signal t := hn
    rw [hst, evalSequence_append_bind] at hn
    obtain hn | ⟨w, u', hw, hn⟩ := of_bind_unwound hn
    · cases hb.unique ⟨n, hn⟩ nofun nofun
    · cases hb.unique ⟨n, hw⟩ nofun nofun
      obtain hn | ⟨_, _, _, hn⟩ := of_bind_unwound hn
      · exact ⟨n, hn⟩
      · cases hn
  · intro h
    obtain ⟨n, hb', h⟩ := ((hb.eventually nofun).and (h.eventually nofun)).exists
    have hthere : evalSequence (Stmt.eval n c) .null (ss.take (j + 1)) s = .unwound signal t := by
      rw [hst]
      exact evalSequence_unwound hb' h
    refine ⟨⟨v, u, hb⟩, ⟨n, hthere⟩, n, ?_⟩
    show evalSequence (Stmt.eval n c) .null ss s = .unwound signal t
    rw [← List.take_append_drop (j + 1) ss, evalSequence_append_bind]
    exact bind_unwound hthere

end Site

namespace Loop

def unrolled (l : Loop) (n : Nat) : List Stmt :=
  inRounds l.init [.expr l.condition, .block l.body, l.post] n

/-- The loop has come to begin the statement at `j` of its unrolling. -/
inductive Comes (l : Loop) (c : Nat) (s : State) : Nat → Stmt → State → Prop
  | init : Comes l c s 0 l.init s
  | condition {k t} : l.Turned c s k t → Comes l c s (3 * k + 1) (.expr l.condition) t
  | body {k t v u} : l.Turned c s k t → Ends ⟨.expr l.condition, c, t⟩ (.normal v u) → v.truthy →
      Comes l c s (3 * k + 2) (.block l.body) u
  | post {k t v u w x} : l.Turned c s k t → Ends ⟨.expr l.condition, c, t⟩ (.normal v u) →
      v.truthy → Ends ⟨.stmt (.block l.body), c, u⟩ (.normal w x) →
      Comes l c s (3 * k + 3) l.post x

lemma unrolled_zero (l : Loop) : l.unrolled 0 = [] ++ [l.init] := rfl

lemma unrolled_succ (l : Loop) (n : Nat) :
    l.unrolled (n + 1) = l.unrolled n ++ [.expr l.condition, .block l.body, l.post] :=
  inRounds_succ _ _ n

section Lists

variable {l : Loop} {c k : Nat} {s t u : State} {v : Value} {signal : Signal}

/-- In the list of `n` rounds and once more the condition, this value is the last one. -/
def Tested (l : Loop) (c : Nat) (s : State) (n : Nat) (v : Value) (t : State) : Prop :=
  Ends ⟨.body (l.unrolled n ++ [.expr l.condition]), c, s⟩ (.normal v t)

def Passes (l : Loop) (c : Nat) (s : State) (n : Nat) : Prop :=
  ∃ v t, l.Tested c s n v t ∧ v.truthy

lemma Turned.ends (h : l.Turned c s k t) : ∃ v, Ends ⟨.body (l.unrolled k), c, s⟩ (.normal v t) := by
  induction h with
  | start hi =>
    rw [unrolled_zero]
    exact ⟨_, ends_concat.mpr ⟨.null, s, ⟨0, rfl⟩, hi⟩⟩
  | @round k t u _ hr ih =>
    obtain ⟨w, hw⟩ := ih
    obtain ⟨hc, -, hb, hp⟩ := hr
    have h₁ := ends_concat.mpr ⟨_, _, hw, ends_expr.mpr hc⟩
    have h₂ := ends_concat.mpr ⟨_, _, h₁, hb⟩
    have h₃ := ends_concat.mpr ⟨_, _, h₂, hp⟩
    rw [unrolled_succ, List.append_cons, List.append_cons]
    exact ⟨_, h₃⟩

lemma Turned.tested_iff (h : l.Turned c s k t) :
    l.Tested c s k v u ↔ Ends ⟨.expr l.condition, c, t⟩ (.normal v u) := by
  obtain ⟨w, hw⟩ := h.ends
  rw [Tested, ends_concat]
  constructor
  · rintro ⟨w', t', hw', hc⟩
    cases hw.unique hw' nofun nofun
    exact ends_expr.mp hc
  · exact fun hc => ⟨w, t, hw, ends_expr.mpr hc⟩

lemma Turned.passes (h : l.Turned c s k t) : ∀ i < k, l.Passes c s i := by
  induction h with
  | start => exact fun i hi => absurd hi (Nat.not_lt_zero i)
  | round ht hr ih =>
    obtain ⟨hc, hv, -, -⟩ := hr
    exact Nat.forall_lt_succ_right.mpr ⟨ih, _, _, ht.tested_iff.mpr hc, hv⟩

lemma Turned.round_passes (h : l.Turned c s k t) (hc : Ends ⟨.expr l.condition, c, t⟩ (.normal v u))
    (hv : v.truthy) : ∀ i < k + 1, l.Passes c s i :=
  Nat.forall_lt_succ_right.mpr ⟨h.passes, v, u, h.tested_iff.mpr hc, hv⟩

lemma Turned.truthy_of_passes (h : l.Turned c s k t) (hp : l.Passes c s k)
    (hc : Ends ⟨.expr l.condition, c, t⟩ (.normal v u)) : v.truthy := by
  obtain ⟨w, x, hw, htrue⟩ := hp
  cases (h.tested_iff.mp hw).unique hc nofun nofun
  exact htrue

lemma turned_of_ends (h : Ends ⟨.body (l.unrolled k), c, s⟩ (.normal v t))
    (hp : ∀ i < k, l.Passes c s i) : l.Turned c s k t := by
  induction k generalizing v t with
  | zero =>
    rw [unrolled_zero] at h
    obtain ⟨w, u, ⟨n, hnil⟩, hi⟩ := ends_concat.mp h
    cases hnil
    exact .start hi
  | succ k ih =>
    rw [unrolled_succ, List.append_cons, List.append_cons] at h
    obtain ⟨_, _, h, hpost⟩ := ends_concat.mp h
    obtain ⟨_, _, h, hb⟩ := ends_concat.mp h
    obtain ⟨_, _, hk, hc⟩ := ends_concat.mp h
    have ht := ih hk fun i hi => hp i (Nat.lt_succ_of_lt hi)
    have hv := ht.truthy_of_passes (hp k (Nat.lt_succ_self k)) (ends_expr.mp hc)
    exact ht.round ⟨ends_expr.mp hc, hv, hb, hpost⟩

lemma length_schedule (n : Nat) : (schedule n).length = 3 * n + 1 := length_inRounds _ _ n

lemma length_unrolled (l : Loop) (n : Nat) : (l.unrolled n).length = 3 * n + 1 :=
  length_inRounds _ _ n

lemma take_schedule {i m : Nat} (hi : i < k) (hm : m ≤ 3) :
    (schedule k).take (3 * i + 1 + m) = schedule i ++ [.condition, .body, .post].take m :=
  take_inRounds LoopPart.init [.condition, .body, .post] hi hm

lemma take_unrolled {i m : Nat} (hi : i < k) (hm : m ≤ 3) : (l.unrolled k).take (3 * i + 1 + m) =
    l.unrolled i ++ [.expr l.condition, .block l.body, l.post].take m :=
  take_inRounds l.init [.expr l.condition, .block l.body, l.post] hi hm

lemma begins_unwound_iff {scope j : Nat} (hj : j < (schedule k).length) :
    l.Begins scope s ((schedule k).take (j + 1)) (.unwound signal t) ↔ ∃ st u,
      l.Comes s.heap.size (enclosed s scope) j st u ∧
        Ends ⟨.stmt st, s.heap.size, u⟩ (.unwound signal t) := by
  have hends : (Outcome.unwound signal t : Outcome Value) ≠ .exhausted := nofun
  rw [begins_iff hends]
  rw [length_schedule] at hj
  have hlen : ((schedule k).take (j + 1)).length = j + 1 := by
    rw [List.length_take, length_schedule]
    omega
  constructor
  · -- How much has been begun tells which part it was.
    rintro (⟨_, _, hi, hbegun, heq⟩ | ⟨i, u, last, ht, hl, hbegun⟩)
    · cases heq
      rw [hbegun] at hlen
      obtain rfl : j = 0 := by simpa using hlen.symm
      exact ⟨_, _, .init, hi⟩
    · rw [hbegun, List.length_append, length_schedule] at hlen
      cases hl with
      | condition hc =>
        obtain rfl : 3 * i + 1 = j := by simpa using hlen
        exact ⟨_, _, .condition ht, ends_expr.mpr hc⟩
      | body hc hv hb =>
        obtain rfl : 3 * i + 2 = j := by simpa using hlen
        exact ⟨_, _, .body ht hc hv, hb⟩
      | post hc hv hb hp =>
        obtain rfl : 3 * i + 3 = j := by simpa using hlen
        exact ⟨_, _, .post ht hc hv hb, hp⟩
  · rintro ⟨st, u, hcome, hends⟩
    cases hcome with
    | init => exact .inl ⟨signal, t, hends, rfl, rfl⟩
    | @condition i _ ht =>
      exact .inr ⟨i, _, _, ht, .condition (ends_expr.mp hends),
        take_schedule (m := 1) (by omega) (by omega)⟩
    | @body i _ _ _ ht hc hv =>
      exact .inr ⟨i, _, _, ht, .body hc hv hends, take_schedule (m := 2) (by omega) (by omega)⟩
    | @post i _ _ _ _ _ ht hc hv hb =>
      exact .inr ⟨i, _, _, ht, .post hc hv hb hends, take_schedule (m := 3) (by omega) (by omega)⟩

lemma Comes.reached {j : Nat} {st : Stmt} (h : l.Comes c s j st u)
    (hj : j < (l.unrolled k).length) :
    (∃ v, Ends ⟨.body ((l.unrolled k).take j), c, s⟩ (.normal v u)) ∧
      (l.unrolled k).take (j + 1) = (l.unrolled k).take j ++ [st] ∧
      ∀ i, 3 * i + 1 < j → l.Passes c s i := by
  rw [length_unrolled] at hj
  cases h with
  | init => exact ⟨⟨.null, 0, rfl⟩, rfl, fun i hi => absurd hi (Nat.not_lt_zero _)⟩
  | @condition i _ ht =>
    have htake (m : Nat) := @take_unrolled l k i m (by omega)
    rw [htake 1 (by omega), htake 0 (by omega), List.take_zero, List.append_nil]
    exact ⟨ht.ends, rfl, fun n hn => ht.passes n (by omega)⟩
  | @body i _ _ _ ht hc hv =>
    have htake (m : Nat) := @take_unrolled l k i m (by omega)
    obtain ⟨w, hw⟩ := ht.ends
    have hround := ht.round_passes hc hv
    rw [htake 2 (by omega), htake 1 (by omega)]
    refine ⟨⟨_, ends_concat.mpr ⟨w, _, hw, ends_expr.mpr hc⟩⟩, by simp, fun n hn => ?_⟩
    exact hround n (by omega)
  | @post i _ _ _ _ _ ht hc hv hb =>
    have htake (m : Nat) := @take_unrolled l k i m (by omega)
    obtain ⟨w, hw⟩ := ht.ends
    have hround := ht.round_passes hc hv
    have hcondition := ends_concat.mpr ⟨w, _, hw, ends_expr.mpr hc⟩
    have hbody := ends_concat.mpr ⟨_, _, hcondition, hb⟩
    rw [List.append_assoc] at hbody
    rw [htake 3 (by omega), htake 2 (by omega)]
    exact ⟨⟨_, hbody⟩, by simp, fun n hn => hround n (by omega)⟩

lemma comes_of_reached {j : Nat} (hj : j < (l.unrolled k).length)
    (h : Ends ⟨.body ((l.unrolled k).take j), c, s⟩ (.normal v u))
    (hp : ∀ i, 3 * i + 1 < j → l.Passes c s i) : ∃ st, l.Comes c s j st u := by
  rw [length_unrolled] at hj
  by_cases hz : j = 0
  · subst hz
    obtain ⟨n, h⟩ := h
    cases h
    exact ⟨_, .init⟩
  obtain ⟨i, m, hm, rfl⟩ : ∃ i m, m < 3 ∧ j = 3 * i + 1 + m :=
    ⟨(j - 1) / 3, (j - 1) % 3, by omega, by omega⟩
  rw [take_unrolled (by omega) (by omega)] at h
  -- `i` rounds are behind it, and `m` statements of the next one.
  have hbefore : ∀ n < i, l.Passes c s n := fun n hn => hp n (by omega)
  match m with
  | 0 =>
    rw [List.take_zero, List.append_nil] at h
    exact ⟨_, .condition (turned_of_ends h hbefore)⟩
  | 1 =>
    obtain ⟨w, t, hw, hc⟩ := ends_concat.mp h
    have ht := turned_of_ends hw hbefore
    exact ⟨_, .body ht (ends_expr.mp hc) (ht.truthy_of_passes (hp i (by omega)) (ends_expr.mp hc))⟩
  | 2 =>
    rw [List.take_succ_cons, List.take_succ_cons, List.take_zero, List.append_cons] at h
    obtain ⟨w, x, hw, hb⟩ := ends_concat.mp h
    obtain ⟨w, t, hw, hc⟩ := ends_concat.mp hw
    have ht := turned_of_ends hw hbefore
    exact ⟨_, .post ht (ends_expr.mp hc) (ht.truthy_of_passes (hp i (by omega)) (ends_expr.mp hc)) hb⟩

end Lists

section Ends

variable (l : Loop) (scope : Nat) (s : State)

lemma begins_normal_iff (n : Nat) (v : Value) (t : State) :
    (∃ begun, l.Begins scope s begun (.normal v t) ∧ begun.count .body = n) ↔
      v = .null ∧ (∀ i < n, l.Passes s.heap.size (enclosed s scope) i) ∧
        ∃ w, l.Tested s.heap.size (enclosed s scope) n w t ∧ ¬w.truthy := by
  have hends : (Outcome.normal v t) ≠ .exhausted := nofun
  have hcount (k : Nat) : List.count LoopPart.body (schedule k ++ [.condition]) = k := by
    simp [schedule, inRounds, List.count_flatten]
  constructor
  · rintro ⟨begun, hbegun, rfl⟩
    obtain ⟨_, _, _, _, heq⟩ | ⟨k, u, last, ht, hl, rfl⟩ := (begins_iff hends).mp hbegun
    · cases heq
    · cases hl with
      | done hc hv =>
        rw [hcount]
        exact ⟨rfl, ht.passes, _, ht.tested_iff.mpr hc, hv⟩
  · rintro ⟨rfl, hp, w, hw, hv⟩
    obtain ⟨_, _, hn, hc⟩ := ends_concat.mp hw
    have ht := turned_of_ends hn hp
    exact ⟨_, (begins_iff hends).mpr (.inr ⟨n, _, _, ht, .done (ends_expr.mp hc) hv, rfl⟩), hcount n⟩

lemma begins_unwindsAt_iff {k j : Nat} (hj : j < (schedule k).length) (signal : Signal) (t : State) :
    l.Begins scope s ((schedule k).take (j + 1)) (.unwound signal t) ↔
      UnwindsAt (l.unrolled k) j s.heap.size (enclosed s scope) signal t ∧
        ∀ i, 3 * i + 1 < j → l.Passes s.heap.size (enclosed s scope) i := by
  have hj' : j < (l.unrolled k).length := by rwa [length_schedule, ← length_unrolled l] at hj
  rw [begins_unwound_iff hj]
  constructor
  · rintro ⟨st, u, hcome, hends⟩
    obtain ⟨⟨v, hv⟩, hst, hp⟩ := hcome.reached hj'
    exact ⟨(unwindsAt_iff hv hst).mpr hends, hp⟩
  · rintro ⟨hunwinds, hp⟩
    obtain ⟨v, u, hv⟩ := hunwinds.before
    obtain ⟨st, hcome⟩ := comes_of_reached hj' hv hp
    exact ⟨st, u, hcome, (unwindsAt_iff hv (hcome.reached hj').2.1).mp hunwinds⟩

lemma Begins.scheduled {begun : List LoopPart} {o : Outcome Value}
    (h : l.Begins scope s begun o) (ho : o ≠ .exhausted) :
    (∃ n t, begun = schedule n ++ [.condition] ∧ o = .normal .null t) ∨
      ∃ k, ∃ j < (schedule k).length, ∃ signal t,
        begun = (schedule k).take (j + 1) ∧ o = .unwound signal t := by
  obtain ⟨signal, t, -, rfl, rfl⟩ | ⟨k, u, last, -, hl, rfl⟩ := (begins_iff ho).mp h
  · exact .inr ⟨0, 0, by simp [length_schedule], signal, t, rfl, rfl⟩
  have hlen : (schedule (k + 1)).length = 3 * (k + 1) + 1 := length_schedule _
  have htake (m : Nat) := @take_schedule (k + 1) k m (Nat.lt_succ_self k)
  cases hl with
  | done => exact .inl ⟨k, _, rfl, rfl⟩
  | condition => exact .inr ⟨k + 1, 3 * k + 1, by omega, _, _, (htake 1 (by omega)).symm, rfl⟩
  | body => exact .inr ⟨k + 1, 3 * k + 2, by omega, _, _, (htake 2 (by omega)).symm, rfl⟩
  | post => exact .inr ⟨k + 1, 3 * k + 3, by omega, _, _, (htake 3 (by omega)).symm, rfl⟩

end Ends

/-- A loop ends normally after `n` rounds just when the list of `n` rounds and once more the condition
does, and only the last value of the condition is not truthy. It unwinds in one of its parts just
when the list of its rounds does in the statement for that part. -/
theorem ends_with_unrolled (l : Loop) (scope : Nat) (s : State) :
    (∀ steps, (l.noted steps scope s).2 = l.stmt.eval (steps + 1) scope s) ∧
      (∀ begun o, l.Begins scope s begun o → o ≠ .exhausted →
        (∃ n t, begun = schedule n ++ [.condition] ∧ o = .normal .null t) ∨
          ∃ k, ∃ j < (schedule k).length, ∃ signal t,
            begun = (schedule k).take (j + 1) ∧ o = .unwound signal t) ∧
      (∀ n v t, (∃ begun, l.Begins scope s begun (.normal v t) ∧ begun.count .body = n) ↔
        v = .null ∧ (∀ i < n, l.Passes s.heap.size (enclosed s scope) i) ∧
          ∃ w, l.Tested s.heap.size (enclosed s scope) n w t ∧ ¬w.truthy) ∧
      ∀ k, ∀ j < (schedule k).length, ∀ signal t,
        l.Begins scope s ((schedule k).take (j + 1)) (.unwound signal t) ↔
          UnwindsAt (l.unrolled k) j s.heap.size (enclosed s scope) signal t ∧
            ∀ i, 3 * i + 1 < j → l.Passes s.heap.size (enclosed s scope) i :=
  ⟨(l.noted_snd · scope s), fun _ _ => Begins.scheduled l scope s, l.begins_normal_iff scope s,
    fun _ _ hj => l.begins_unwindsAt_iff scope s hj⟩

def once (body : List Stmt) : Loop where
  init := .declare "i" (.bool true)
  condition := .ident "i"
  post := .expr (.assign "i" (.bool false))
  body := body

theorem ends_with_unrolled_once :
    let s := State.initial 0
    (∃ w t, (once []).Tested 1 (enclosed s 0) 1 w t ∧ ¬w.truthy ∧ (once []).Passes 1 (enclosed s 0) 0) ∧
      ∃ t, UnwindsAt ((once [.result (.ident "i")]).unrolled 1) 2 1 (enclosed s 0)
        (.returned (.bool true)) t := by
  intro s
  obtain ⟨-, -, hnormal, -⟩ := ends_with_unrolled (once []) 0 s
  obtain ⟨-, -, -, hunwound⟩ := ends_with_unrolled (once [.result (.ident "i")]) 0 s
  constructor
  · have hbegun : (once []).Begins 0 s (schedule 1 ++ [.condition]) (.normal .null _) :=
      ⟨6, by cbv⟩
    obtain ⟨-, hp, w, hw, hv⟩ := (hnormal 1 _ _).mp ⟨_, hbegun, rfl⟩
    exact ⟨w, _, hw, hv, hp 0 Nat.zero_lt_one⟩
  · have hbegun : (once [.result (.ident "i")]).Begins 0 s ((schedule 1).take 3)
        (.unwound (.returned (.bool true)) _) := ⟨6, by cbv⟩
    exact ⟨_, ((hunwound 1 2 (by decide) _ _).mp hbegun).1⟩

end Loop

end Nut
