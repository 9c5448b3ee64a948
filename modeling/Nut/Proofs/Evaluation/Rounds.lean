import Nut.Proofs.Evaluation.Unwinding

/-! The parts of a loop in the order in which its evaluation begins them. -/

namespace Nut

open Eval Filter Site

section Rounds

variable {α : Type} (first : α) (round : List α)

def inRounds (n : Nat) : List α := first :: (List.replicate n round).flatten

lemma inRounds_succ (n : Nat) : inRounds first round (n + 1) = inRounds first round n ++ round := by
  simp [inRounds, List.replicate_succ']

lemma length_inRounds (n : Nat) : (inRounds first round n).length = round.length * n + 1 := by
  simp [inRounds, Nat.mul_comm]

lemma take_inRounds {i k m : Nat} (hi : i < k) (hm : m ≤ round.length) :
    (inRounds first round k).take (round.length * i + 1 + m) =
      inRounds first round i ++ round.take m := by
  have hsplit : ∃ more, inRounds first round k = inRounds first round i ++ (round ++ more) := by
    induction k, hi using Nat.le_induction with
    | base => exact ⟨[], by rw [inRounds_succ, List.append_nil]⟩
    | succ k _ ih =>
      obtain ⟨more, ih⟩ := ih
      exact ⟨more ++ round, by simp [inRounds_succ, ih]⟩
  obtain ⟨more, hsplit⟩ := hsplit
  rw [hsplit, ← length_inRounds first round i, List.take_length_add_append,
    List.take_append_of_le_length hm]

end Rounds

inductive LoopPart where
  | init
  | condition
  | body
  | post
deriving DecidableEq, Repr

/-- How an evaluation ends, and the parts of a loop that it has begun by then. -/
abbrev Noted := State → List LoopPart × Outcome Value

namespace Noted

def first (part : LoopPart) (m : Eval Value) (next : Value → Noted) : Noted := fun s =>
  match m s with
  | .normal v t => (part :: (next v t).1, (next v t).2)
  | .unwound signal t => ([part], .unwound signal t)
  | .exhausted => ([part], .exhausted)

variable {part : LoopPart} {m : Eval Value} {next : Value → Noted} {s t : State} {v : Value}
variable {signal : Signal} {parts : List LoopPart} {o : Outcome Value}

lemma first_normal (h : m s = .normal v t) (hnext : next v t = (parts, o)) :
    first part m next s = (part :: parts, o) := by
  rw [first, h]
  simp [hnext]

lemma first_unwound (h : m s = .unwound signal t) :
    first part m next s = ([part], .unwound signal t) := by
  rw [first, h]

lemma first_cases (h : first part m next s = (parts, o)) (ho : o ≠ .exhausted) :
    (∃ signal t, m s = .unwound signal t ∧ parts = [part] ∧ o = .unwound signal t) ∨
      ∃ v t rest, m s = .normal v t ∧ next v t = (rest, o) ∧ parts = part :: rest := by
  rw [first] at h
  split at h
  · next v t hm =>
    cases h
    exact .inr ⟨v, t, _, hm, rfl, rfl⟩
  · next signal t hm =>
    cases h
    exact .inl ⟨signal, t, hm, rfl, rfl⟩
  · cases h
    exact absurd rfl ho

lemma first_snd {f : Value → Eval Value} (h : ∀ v t, (next v t).2 = f v t) :
    (first part m next s).2 = (m >>= f) s := by
  show (first part m next s).2 = Eval.bind m f s
  unfold first Eval.bind
  cases m s with
  | normal v t => exact h v t
  | unwound | exhausted => rfl

end Noted

structure Loop where
  init : Stmt
  condition : Expr
  post : Stmt
  body : List Stmt

namespace Loop

def stmt (l : Loop) : Stmt := .loop l.init l.condition l.post l.body

def notedRounds (l : Loop) (steps scope : Nat) : Nat → Noted
  | 0 => fun _ => ([], .exhausted)
  | rounds + 1 =>
    .first .condition (l.condition.eval steps scope) fun v =>
      if v.truthy then
        .first .body (evalBlock (Stmt.eval steps) scope l.body) fun _ =>
          .first .post (l.post.eval steps scope) fun _ => l.notedRounds steps scope rounds
      else fun s => ([], .normal .null s)

def notedFrom (l : Loop) (steps rounds scope : Nat) : Noted :=
  .first .init (l.init.eval steps scope) fun _ => l.notedRounds steps scope rounds

def noted (l : Loop) (steps scope : Nat) : Noted := fun s =>
  l.notedFrom steps steps s.heap.size (enclosed s scope)

def Begins (l : Loop) (scope : Nat) (s : State) (begun : List LoopPart) (o : Outcome Value) : Prop :=
  ∃ steps, l.noted steps scope s = (begun, o)

/-- The parts of a loop up to the end of its round `n`. -/
def schedule (n : Nat) : List LoopPart :=
  inRounds .init [.condition, .body, .post] n

section Evaluation

variable {l : Loop} {steps scope c : Nat} {s t : State} {begun parts : List LoopPart}
variable {o : Outcome Value}

lemma notedRounds_snd (n : Nat) :
    (l.notedRounds steps c n s).2 = rounds l.condition l.post l.body c steps n s := by
  induction n generalizing s with
  | zero => rfl
  | succ n ih =>
    apply Noted.first_snd
    intro v t
    by_cases hv : v.truthy
    · rw [if_pos hv, if_pos hv, bind_assoc]
      refine Noted.first_snd fun _ u => ?_
      rw [bind_assoc]
      exact Noted.first_snd fun _ _ => ih
    · rw [if_neg hv, if_neg hv]
      rfl

lemma noted_snd (l : Loop) (steps scope : Nat) (s : State) :
    (l.noted steps scope s).2 = l.stmt.eval (steps + 1) scope s := by
  refine Eq.trans ?_ (bind_normal (enclose_eq scope s)).symm
  exact Noted.first_snd fun _ _ => notedRounds_snd steps

/-- A loop has come to where its condition is evaluated, after this many rounds. -/
inductive Turned (l : Loop) (c : Nat) (s : State) : Nat → State → Prop
  | start {v t} : Ends ⟨.stmt l.init, c, s⟩ (.normal v t) → Turned l c s 0 t
  | round {k t u} : Turned l c s k t → Round l.condition l.post l.body c t u →
      Turned l c s (k + 1) u

inductive LastRound (l : Loop) (c : Nat) (s : State) : List LoopPart → Outcome Value → Prop
  | done {v t} : Ends ⟨.expr l.condition, c, s⟩ (.normal v t) → ¬v.truthy →
      LastRound l c s [.condition] (.normal .null t)
  | condition {signal t} : Ends ⟨.expr l.condition, c, s⟩ (.unwound signal t) →
      LastRound l c s [.condition] (.unwound signal t)
  | body {v t signal u} : Ends ⟨.expr l.condition, c, s⟩ (.normal v t) → v.truthy →
      Ends ⟨.stmt (.block l.body), c, t⟩ (.unwound signal u) →
      LastRound l c s [.condition, .body] (.unwound signal u)
  | post {v t w u signal x} : Ends ⟨.expr l.condition, c, s⟩ (.normal v t) → v.truthy →
      Ends ⟨.stmt (.block l.body), c, t⟩ (.normal w u) →
      Ends ⟨.stmt l.post, c, u⟩ (.unwound signal x) →
      LastRound l c s [.condition, .body, .post] (.unwound signal x)

lemma schedule_succ (n : Nat) : schedule (n + 1) = schedule n ++ [.condition, .body, .post] :=
  inRounds_succ _ _ n

lemma notedRounds_succ {n m : Nat} {v : Value} (hc : l.condition.eval n c s = .normal v t)
    (hv : v.truthy) (h : Noted.first .body (evalBlock (Stmt.eval n) c l.body)
      (fun _ => .first .post (l.post.eval n c) fun _ => l.notedRounds n c m) t = (parts, o)) :
    l.notedRounds n c (m + 1) s = (.condition :: parts, o) := by
  apply Noted.first_normal hc
  rw [if_pos hv]
  exact h

lemma notedRounds_of_round (h : Round l.condition l.post l.body c s t) : ∀ᶠ n in atTop, ∀ m,
    l.notedRounds n c (m + 1) s = ([.condition, .body, .post] ++ (l.notedRounds n c m t).1,
      (l.notedRounds n c m t).2) := by
  obtain ⟨hc, hv, hb, hp⟩ := h
  filter_upwards [hc.eventually nofun, hb.block nofun, hp.eventually nofun] with n hc hb hp m
  exact notedRounds_succ hc hv (Noted.first_normal hb (Noted.first_normal hp rfl))

lemma LastRound.noted (h : l.LastRound c s parts o) : ∀ᶠ n in atTop, ∀ m,
    l.notedRounds n c (m + 1) s = (parts, o) := by
  cases h with
  | done hc hv =>
    filter_upwards [hc.eventually nofun] with n hc m
    exact Noted.first_normal hc (by rw [if_neg hv])
  | condition hc =>
    filter_upwards [hc.eventually nofun] with n hc m
    exact Noted.first_unwound hc
  | body hc hv hb =>
    filter_upwards [hc.eventually nofun, hb.block nofun] with n hc hb m
    exact notedRounds_succ hc hv (Noted.first_unwound hb)
  | post hc hv hb hp =>
    filter_upwards [hc.eventually nofun, hb.block nofun, hp.eventually nofun] with n hc hb hp m
    exact notedRounds_succ hc hv (Noted.first_normal hb (Noted.first_unwound hp))

lemma Turned.noted {k : Nat} (h : l.Turned c s k t) : ∀ᶠ n in atTop, ∀ m,
    l.notedFrom n (m + k) c s = (schedule k ++ (l.notedRounds n c m t).1,
      (l.notedRounds n c m t).2) := by
  induction h with
  | start hi =>
    filter_upwards [hi.eventually nofun] with n hi m
    exact Noted.first_normal hi rfl
  | @round k t u _ hr ih =>
    filter_upwards [ih, notedRounds_of_round hr] with n ih hr m
    rw [show m + (k + 1) = m + 1 + k by omega, ih, hr, schedule_succ, List.append_assoc]

lemma LastRound.of_noted {n m : Nat} (h : l.notedRounds n c (m + 1) s = (parts, o))
    (ho : o ≠ .exhausted) :
    l.LastRound c s parts o ∨ ∃ t rest, Round l.condition l.post l.body c s t ∧
      l.notedRounds n c m t = (rest, o) ∧ parts = [.condition, .body, .post] ++ rest := by
  rw [notedRounds] at h
  obtain ⟨signal, t, hc, rfl, rfl⟩ | ⟨v, t, rest, hc, h₁, rfl⟩ := Noted.first_cases h ho
  · exact .inl (.condition ⟨n, hc⟩)
  by_cases hv : v.truthy
  swap
  · rw [if_neg hv] at h₁
    cases h₁
    exact .inl (.done ⟨n, hc⟩ hv)
  rw [if_pos hv] at h₁
  obtain ⟨signal, u, hb, rfl, rfl⟩ | ⟨w, u, rest, hb, h₂, rfl⟩ := Noted.first_cases h₁ ho
  · exact .inl (.body ⟨n, hc⟩ hv ⟨n + 1, hb⟩)
  obtain ⟨signal, x, hp, rfl, rfl⟩ | ⟨y, x, rest, hp, h₃, rfl⟩ := Noted.first_cases h₂ ho
  · exact .inl (.post ⟨n, hc⟩ hv ⟨n + 1, hb⟩ ⟨n, hp⟩)
  · exact .inr ⟨x, rest, ⟨⟨n, hc⟩, hv, ⟨n + 1, hb⟩, ⟨n, hp⟩⟩, h₃, rfl⟩

lemma Turned.last {n m k : Nat} (ht : l.Turned c s k t) (h : l.notedRounds n c m t = (parts, o))
    (ho : o ≠ .exhausted) : ∃ j u last, l.Turned c s j u ∧ l.LastRound c u last o ∧
      schedule k ++ parts = schedule j ++ last := by
  induction m generalizing k t parts with
  | zero =>
    cases h
    exact absurd rfl ho
  | succ m ih =>
    obtain hl | ⟨u, rest, hr, hn, rfl⟩ := LastRound.of_noted h ho
    · exact ⟨k, t, parts, ht, hl, rfl⟩
    · obtain ⟨j, x, last, hj, hl, hparts⟩ := ih (ht.round hr) hn
      refine ⟨j, x, last, hj, hl, ?_⟩
      rw [← hparts, schedule_succ, List.append_assoc]

lemma begins_iff (ho : o ≠ .exhausted) : l.Begins scope s begun o ↔
    (∃ signal t, Ends ⟨.stmt l.init, s.heap.size, enclosed s scope⟩ (.unwound signal t) ∧
      begun = [.init] ∧ o = .unwound signal t) ∨
    ∃ k t last, l.Turned s.heap.size (enclosed s scope) k t ∧ l.LastRound s.heap.size t last o ∧
      begun = schedule k ++ last := by
  constructor
  · rintro ⟨n, h⟩
    obtain ⟨signal, t, hi, rfl, rfl⟩ | ⟨v, t, rest, hi, h₁, rfl⟩ := Noted.first_cases h ho
    · exact .inl ⟨signal, t, ⟨n, hi⟩, rfl, rfl⟩
    · exact .inr ((Turned.start ⟨n, hi⟩).last h₁ ho)
  · rintro (⟨signal, t, ⟨n, hi⟩, rfl, rfl⟩ | ⟨k, t, last, ht, hl, rfl⟩)
    · exact ⟨n, Noted.first_unwound hi⟩
    · obtain ⟨n, hn, ht, hl⟩ := ((eventually_ge_atTop (k + 1)).and (ht.noted.and hl.noted)).exists
      -- As many steps as rounds are allowed, and one more for the last.
      obtain ⟨m, rfl⟩ : ∃ m, n = m + 1 + k := ⟨n - (k + 1), by omega⟩
      refine ⟨m + 1 + k, (ht (m + 1)).trans ?_⟩
      rw [hl]

end Evaluation

end Loop

end Nut
