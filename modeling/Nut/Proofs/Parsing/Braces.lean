import Mathlib
import Nut.Proofs.Parsing.Yield
import Nut.Syntax.Program

/-! The braces of a token list. The running count of open braces is the number of those that no
later brace closes, and what the grammar yields for a tree is balanced. -/

namespace Nut

open Recovery (step depth)

/-- The brace at the head is closed nowhere in the list. -/
def StaysOpen (ts : List Token) : Prop :=
  ts.head? = some .lbrace ∧
    ∀ k < ts.length, (ts.take (k + 1)).count .rbrace < (ts.take (k + 1)).count .lbrace

instance : DecidablePred StaysOpen := fun _ =>
  inferInstanceAs (Decidable (_ ∧ _))

def unclosed (ts : List Token) : Nat :=
  ts.tails.countP StaysOpen

structure Balanced (ts : List Token) : Prop where
  even : ts.count .lbrace = ts.count .rbrace
  closed (k : Nat) : (ts.take k).count .rbrace ≤ (ts.take k).count .lbrace

/-- The closing braces that close nothing in the list. -/
def surplus : List Token → Nat
  | [] => 0
  | .lbrace :: ts => surplus ts - 1
  | .rbrace :: ts => surplus ts + 1
  | _ :: ts => surplus ts

lemma surplus_le_iff {d : Nat} {ts : List Token} :
    surplus ts ≤ d ↔ ∀ k, (ts.take k).count .rbrace ≤ d + (ts.take k).count .lbrace := by
  induction ts generalizing d with
  | nil => simp [surplus]
  | cons t ts ih =>
    rw [← Nat.and_forall_add_one]
    cases t with
    | lbrace =>
      have hd : surplus ts - 1 ≤ d ↔ surplus ts ≤ d + 1 := Nat.sub_le_iff_le_add
      simp [surplus, hd, ih, Nat.add_assoc, Nat.add_comm 1]
    | rbrace =>
      cases d with
      | zero => simpa [surplus] using ⟨0, by simp⟩
      | succ d => simp [surplus, ih, Nat.add_right_comm d 1]
    | _ => simp [surplus, ih]

lemma staysOpen_lbrace {ts : List Token} : StaysOpen (.lbrace :: ts) ↔ surplus ts = 0 := by
  have htake (k : Nat) : (ts.take k).count .rbrace < (ts.take k).count .lbrace + 1 ↔
      (ts.take k).count .rbrace ≤ 0 + (ts.take k).count .lbrace := by
    omega
  rw [← Nat.le_zero, surplus_le_iff]
  simp only [StaysOpen, List.head?_cons, List.length_cons, List.take_succ_cons, true_and,
    List.count_cons_self, List.count_cons_of_ne (show Token.lbrace ≠ .rbrace by simp), htake]
  constructor
  · intro h k
    by_cases hk : k < ts.length + 1
    · exact h k hk
    · rw [List.take_of_length_le (by omega), ← List.take_length (l := ts)]
      exact h ts.length (Nat.lt_succ_self _)
  · exact fun h k _ => h k

lemma unclosed_cons (t : Token) (ts : List Token) :
    unclosed (t :: ts) = unclosed ts + if StaysOpen (t :: ts) then 1 else 0 := by
  simp [unclosed, List.countP_cons]

lemma unclosed_lbrace (ts : List Token) :
    unclosed (.lbrace :: ts) = unclosed ts + if surplus ts = 0 then 1 else 0 := by
  simp only [unclosed_cons, staysOpen_lbrace]

lemma unclosed_of_ne {t : Token} (ht : t ≠ .lbrace) (ts : List Token) :
    unclosed (t :: ts) = unclosed ts := by
  rw [unclosed_cons, if_neg fun h => ht (Option.some.inj h.1), Nat.add_zero]

lemma foldl_step_eq (d : Nat) (ts : List Token) :
    ts.foldl step d = d - surplus ts + unclosed ts := by
  -- The surplus is what the list closes of the braces in front of it, as far as there are any.
  induction ts generalizing d with
  | nil => rfl
  | cons t ts ih =>
    rw [List.foldl_cons, ih]
    cases t with
    | lbrace =>
      rw [unclosed_lbrace]
      simp only [step, surplus]
      split <;> omega
    | rbrace =>
      rw [unclosed_of_ne (by simp)]
      simp only [step, surplus]
      omega
    | _ =>
      rw [unclosed_of_ne (by simp)]
      rfl

lemma depth_eq_unclosed (ts : List Token) : depth ts = unclosed ts := by
  rw [depth, foldl_step_eq, Nat.zero_sub, Nat.zero_add]

-- The first brace closes nothing, and of the two behind it the last one is closed.
example : unclosed [.rbrace, .lbrace, .lbrace, .rbrace] = 1 := by decide

lemma count_add_surplus (ts : List Token) :
    ts.count .lbrace + surplus ts = unclosed ts + ts.count .rbrace := by
  induction ts with
  | nil => rfl
  | cons t ts ih =>
    cases t with
    | lbrace =>
      rw [unclosed_lbrace]
      simp only [surplus, List.count_cons_self,
        List.count_cons_of_ne (show Token.lbrace ≠ .rbrace by simp)]
      split <;> omega
    | rbrace =>
      rw [unclosed_of_ne (by simp)]
      simp only [surplus, List.count_cons_self,
        List.count_cons_of_ne (show Token.rbrace ≠ .lbrace by simp)]
      omega
    | _ =>
      rw [unclosed_of_ne (by simp)]
      simpa [surplus] using ih

lemma balanced_of_level {ts : List Token} (h : ∀ d, ts.foldl step d = d) : Balanced ts := by
  simp only [foldl_step_eq] at h
  have hu : unclosed ts = 0 := by simpa using h 0
  have hs : surplus ts = 0 := by simpa [hu] using (h (surplus ts)).symm
  refine ⟨by simpa [hu, hs] using count_add_surplus ts, fun k => ?_⟩
  simpa using surplus_le_iff.mp (Nat.le_of_eq hs) k

lemma Balanced.foldl_step {ts : List Token} (h : Balanced ts) (d : Nat) : ts.foldl step d = d := by
  have hs : surplus ts = 0 := by
    rw [← Nat.le_zero, surplus_le_iff]
    simpa using h.closed
  have hc := count_add_surplus ts
  have he := h.even
  rw [foldl_step_eq]
  omega

lemma foldl_step_names (d : Nat) (names : List String) :
    (separated .comma (names.map ([.ident ·]))).foldl step d = d := by
  match names with
  | [] | [_] => rfl
  | name :: next :: names =>
    have ih := foldl_step_names d (next :: names)
    rw [List.map_cons, separated_cons]
    simpa [step] using ih

lemma Yields.balanced {phrase : Phrase} {u : List Token} (h : Yields phrase u) : Balanced u := by
  apply balanced_of_level
  induction h with (intro d)
  | ident | int | float | string | truth | falsity | noElement | noPair | nil => rfl
  | paren _ ih | array _ ih | hash _ ih | lastElement _ ih => simp [step, ih]
  | prefixOp op _ ih => cases op <;> simp [PrefixOp.token, step, ih]
  | function names _ ih => simp [step, foldl_step_names, ih]
  | infixOp _ _ _ ihl ihr | assign _ _ ihl ihr | condOnce _ _ ihl ihr | call _ _ ihl ihr
  | index _ _ ihl ihr | element _ _ _ ihl ihr | lastPair _ _ ihl ihr | cons _ _ ihl ihr =>
    simp [step, ihl, ihr]
  | condBoth _ _ _ ihc iha ihb => simp [step, ihc, iha, ihb]
  | pair _ _ _ ihk ihe ihp => simp [step, ihk, ihe, ihp]
  | declare _ _ hw ih | bind _ _ hw ih | result _ hw ih | expr _ hw ih | block _ _ hw ih =>
    obtain rfl | rfl := hw <;> simp [step, ih]
  | loop _ _ _ _ ihi ihc ihp ihb =>
    simp only [List.foldl_append, List.foldl_cons, List.foldl_nil, step] at ihi
    simp [step, ihi, ihc, ihp, ihb]

end Nut
