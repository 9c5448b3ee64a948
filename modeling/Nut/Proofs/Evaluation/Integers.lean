import Mathlib.Data.Int.Bitwise
import Nut.Proofs.Evaluation.Unwinding

/-! What the operators make of integers: the exact number, or a fault where it does not fit. -/

namespace Nut

open Eval

/-- The numbers that integers of the language can be. -/
def Fits (n : Int) : Prop := -2 ^ 63 ≤ n ∧ n < 2 ^ 63

instance (n : Int) : Decidable (Fits n) := inferInstanceAs (Decidable (_ ∧ _))

section Range

variable {n : Int} {a b : Int64}

lemma fits_toInt (a : Int64) : Fits a.toInt := ⟨a.le_toInt, a.toInt_lt⟩

lemma int64?_of_fits (h : Fits n) : ∃ m, int64? n = some m ∧ m.toInt = n := by
  cases hm : int64? n with
  | none =>
    rw [int64?_eq_none_iff] at hm
    rw [Fits] at h
    omega
  | some m => exact ⟨m, rfl, toInt_of_int64? hm⟩

lemma int64?_of_not_fits (h : ¬Fits n) : int64? n = none := by
  rw [int64?_eq_none_iff]
  rw [Fits] at h
  omega

lemma toInt_ne_zero (hb : b ≠ 0) : b.toInt ≠ 0 := fun h => hb (Int64.toInt_inj.mp h)

lemma natAbs_tmod_lt (hb : b ≠ 0) : (a.toInt.tmod b.toInt).natAbs < b.toInt.natAbs := by
  rw [Int.natAbs_tmod]
  exact Nat.mod_lt _ (Int.natAbs_pos.mpr (toInt_ne_zero hb))

lemma fits_tmod (hb : b ≠ 0) : Fits (a.toInt.tmod b.toInt) := by
  have hlt := natAbs_tmod_lt (a := a) hb
  have hfits := fits_toInt b
  rw [Fits] at hfits ⊢
  omega

lemma fits_tdiv_iff (hb : b ≠ 0) :
    Fits (a.toInt.tdiv b.toInt) ↔ ¬(a.toInt = -2 ^ 63 ∧ b.toInt = -1) := by
  have hlaw := Int.mul_tdiv_add_tmod a.toInt b.toInt
  have hlt := natAbs_tmod_lt (a := a) hb
  have hle := Int.natAbs_tdiv_le_natAbs a.toInt b.toInt
  have hfits := fits_toInt a
  rw [Fits] at hfits ⊢
  constructor
  · rintro hq ⟨ha, hb⟩
    rw [ha, hb] at hlaw hlt hq
    omega
  · intro hno
    -- A quotient is no longer than the dividend: only the number with no opposite can leave the range.
    by_contra hq
    have htop : a.toInt.tdiv b.toInt = 2 ^ 63 := by omega
    rw [htop] at hlaw
    omega

lemma sign_tmod (a b : Int) : a.tmod b = 0 ∨ (a.tmod b).sign = a.sign := by
  have hsign := Int.sign_tmod a b
  split at hsign
  · exact .inl (Int.sign_eq_zero_iff_zero.mp hsign)
  · exact .inr hsign

end Range

section Bits

lemma testBit_toInt {w : Nat} (x : BitVec w) (i : Nat) :
    x.toInt.testBit i = if i < w then x.getLsbD i else x.msb := by
  have hlt := x.isLt
  rw [BitVec.toInt_eq_msb_cond]
  cases hm : x.msb with
  | false =>
    rw [if_neg Bool.false_ne_true]
    show x.toNat.testBit i = _
    rw [BitVec.testBit_toNat]
    split
    · rfl
    · next hi => exact BitVec.getLsbD_of_ge x i (not_lt.mp hi)
  | true =>
    have hneg : (x.toNat : Int) - (2 ^ w : Nat) = Int.negSucc (~~~x).toNat := by
      rw [BitVec.toNat_not, Int.negSucc_eq]
      omega
    rw [if_pos rfl, hneg]
    show (!(~~~x).toNat.testBit i) = _
    rw [BitVec.testBit_toNat, BitVec.getLsbD_not]
    by_cases hi : i < w <;> simp [hi]

lemma and_add_or (m n : Nat) : (m &&& n) + (m ||| n) = m + n := by
  induction m using Nat.strongRecOn generalizing n with
  | ind m ih =>
    rcases m.eq_zero_or_pos with rfl | hm
    · simp
    · have hhalf := ih (m / 2) (by omega) (n / 2)
      rw [← Nat.and_div_two, ← Nat.or_div_two] at hhalf
      have hand := @Nat.and_mod_two_eq_one m n
      have hor := @Nat.or_mod_two_eq_one m n
      omega

lemma toInt_and_add_or {w : Nat} (x y : BitVec w) :
    (x &&& y).toInt + (x ||| y).toInt = x.toInt + y.toInt := by
  have hsum := and_add_or x.toNat y.toNat
  simp only [BitVec.toInt_eq_msb_cond, BitVec.msb_and, BitVec.msb_or, BitVec.toNat_and,
    BitVec.toNat_or]
  cases x.msb <;> cases y.msb <;> simp <;> omega

variable (a b : Int64) (i : Nat)

lemma testBit_and :
    (a &&& b).toInt.testBit i = (a.toInt.testBit i && b.toInt.testBit i) := by
  simp only [← Int64.toInt_toBitVec, testBit_toInt, Int64.toBitVec_and, BitVec.getLsbD_and,
    BitVec.msb_and]
  split <;> rfl

lemma testBit_or : (a ||| b).toInt.testBit i = (a.toInt.testBit i || b.toInt.testBit i) := by
  simp only [← Int64.toInt_toBitVec, testBit_toInt, Int64.toBitVec_or, BitVec.getLsbD_or,
    BitVec.msb_or]
  split <;> rfl

end Bits

namespace Site

def Fails (x : Site) (message : String) (t : State) : Prop :=
  ∃ fault, fault.message = message ∧ x.Ends (.unwound (.failed fault) t)

/-- The evaluation comes to this number where it fits, and overflows where it does not. -/
structure Exact (x : Site) (n : Int) (operation : String) (t : State) : Prop where
  value : Fits n → ∃ m : Int64, m.toInt = n ∧ x.Ends (.normal (.int m) t)
  overflow : ¬Fits n → x.Fails ("integer overflow: " ++ operation) t

end Site

def written (a : Int64) (operator : String) (b : Int64) : String :=
  Fault.operationText (integerText a) operator (integerText b)

/-- Both operands come to integers, one after the other. -/
structure IntegerOperands (l r : Expr) (c : Nat) (s : State) (a b : Int64) (t u : State) :
    Prop where
  left : Site.Ends ⟨.expr l, c, s⟩ (.normal (.int a) t)
  right : Site.Ends ⟨.expr r, c, t⟩ (.normal (.int b) u)

structure IntegerLaws (infixed : InfixOp → Site) (negated : Site) (a b : Int64) (t u : State) :
    Prop where
  sum : (infixed .add).Exact (a.toInt + b.toInt) (written a "+" b) u
  difference : (infixed .sub).Exact (a.toInt - b.toInt) (written a "-" b) u
  product : (infixed .mul).Exact (a.toInt * b.toInt) (written a "*" b) u
  opposite : negated.Exact (-a.toInt) ("-" ++ integerText a) t
  zero : b.toInt = 0 → (infixed .div).Fails ("division by zero: " ++ written a "/" b) u ∧
    (infixed .mod).Fails ("modulo by zero: " ++ written a "%" b) u
  lowest : a.toInt = -2 ^ 63 → b.toInt = -1 →
    (infixed .div).Fails ("integer overflow: " ++ written a "/" b) u ∧
      (infixed .mod).Fails ("integer overflow: " ++ written a "%" b) u
  quotient : b.toInt ≠ 0 → ¬(a.toInt = -2 ^ 63 ∧ b.toInt = -1) → ∃ q r : Int64,
    (infixed .div).Ends (.normal (.int q) u) ∧ (infixed .mod).Ends (.normal (.int r) u) ∧
      a.toInt = q.toInt * b.toInt + r.toInt ∧ |r.toInt| < |b.toInt| ∧
      (r.toInt = 0 ∨ r.toInt.sign = a.toInt.sign)
  bits : ∃ m n : Int64,
    (infixed .bitAnd).Ends (.normal (.int m) u) ∧ (infixed .bitOr).Ends (.normal (.int n) u) ∧
      (∀ i, m.toInt.testBit i = (a.toInt.testBit i && b.toInt.testBit i)) ∧
      (∀ i, n.toInt.testBit i = (a.toInt.testBit i || b.toInt.testBit i)) ∧
      m.toInt + n.toInt = a.toInt + b.toInt
  less : (infixed .lt).Ends (.normal (.bool (a.toInt < b.toInt)) u)
  lessOrEqual : (infixed .le).Ends (.normal (.bool (a.toInt ≤ b.toInt)) u)
  greater : (infixed .gt).Ends (.normal (.bool (b.toInt < a.toInt)) u)
  greaterOrEqual : (infixed .ge).Ends (.normal (.bool (b.toInt ≤ a.toInt)) u)
  equal : (infixed .eq).Ends (.normal (.bool (a.toInt = b.toInt)) u)
  different : (infixed .ne).Ends (.normal (.bool (a.toInt ≠ b.toInt)) u)

section Operators

variable {l r : Expr} {c : Nat} {s t u : State} {a b : Int64} {op : InfixOp} {n : Int}
variable {v : Value} {fault : Fault}

namespace InfixOp

lemma exact_of_fits (a : Int64) (op : InfixOp) (b : Int64) (h : Fits n) :
    ∃ m : Int64, m.toInt = n ∧ exact a op b n = .ok (.int m) := by
  obtain ⟨m, hm, hn⟩ := int64?_of_fits h
  exact ⟨m, hn, by rw [exact, hm]⟩

lemma exact_of_not_fits (h : ¬Fits n) : exact a op b n = .error (.overflow a op b) := by
  rw [exact, int64?_of_not_fits h]

lemma onIntegers_div_zero : div.onIntegers a 0 = .error (.zeroDivisor (.int a) (.int 0)) := by
  rw [onIntegers, if_pos rfl]

lemma onIntegers_mod_zero : mod.onIntegers a 0 = .error (.zeroModulus (.int a) (.int 0)) := by
  rw [onIntegers, if_pos rfl]

lemma onIntegers_div (hb : b ≠ 0) :
    div.onIntegers a b = exact a div b (a.toInt.tdiv b.toInt) := by
  rw [onIntegers, if_neg hb]

lemma onIntegers_mod_of_fits (hb : b ≠ 0) (hq : Fits (a.toInt.tdiv b.toInt)) :
    mod.onIntegers a b = exact a mod b (a.toInt.tmod b.toInt) := by
  obtain ⟨q, hq, -⟩ := int64?_of_fits hq
  rw [onIntegers, if_neg hb, hq]

lemma onIntegers_mod_of_not_fits (hb : b ≠ 0) (hq : ¬Fits (a.toInt.tdiv b.toInt)) :
    mod.onIntegers a b = .error (.overflow a mod b) := by
  rw [onIntegers, if_neg hb, int64?_of_not_fits hq]

end InfixOp

namespace IntegerOperands

variable (h : IntegerOperands l r c s a b t u)

include h

lemma ends (hop : op.onIntegers a b = .ok v) :
    Site.Ends ⟨.expr (.infixOp l op r), c, s⟩ (.normal v u) := by
  obtain ⟨n, hl, hr⟩ := ((h.left.eventually nofun).and (h.right.eventually nofun)).exists
  refine ⟨n + 1, (bind_normal hl).trans ((bind_normal hr).trans ?_)⟩
  rw [InfixOp.apply, hop]
  rfl

lemma fails (hop : op.onIntegers a b = .error fault) :
    Site.Fails ⟨.expr (.infixOp l op r), c, s⟩ fault.message u := by
  obtain ⟨n, hl, hr⟩ := ((h.left.eventually nofun).and (h.right.eventually nofun)).exists
  refine ⟨fault, rfl, n + 1, (bind_normal hl).trans ((bind_normal hr).trans ?_)⟩
  rw [InfixOp.apply, hop]
  rfl

lemma exact (hop : op.onIntegers a b = InfixOp.exact a op b n) :
    Site.Exact ⟨.expr (.infixOp l op r), c, s⟩ n (written a op.text b) u where
  value hn := by
    obtain ⟨m, hm, he⟩ := InfixOp.exact_of_fits a op b hn
    exact ⟨m, hm, h.ends (hop.trans he)⟩
  overflow hn := h.fails (hop.trans (InfixOp.exact_of_not_fits hn))

lemma opposite :
    Site.Exact ⟨.expr (.prefixOp .neg l), c, s⟩ (-a.toInt) ("-" ++ integerText a) t := by
  obtain ⟨n, hl⟩ := h.left
  have hends : Site.Ends ⟨.expr (.prefixOp .neg l), c, s⟩
      (ofExcept (PrefixOp.neg.apply (.int a)) t) := ⟨n + 1, bind_normal hl⟩
  rw [PrefixOp.apply] at hends
  constructor
  · intro hn
    obtain ⟨m, hm, hn⟩ := int64?_of_fits hn
    rw [hm] at hends
    exact ⟨m, hn, hends⟩
  · intro hn
    rw [int64?_of_not_fits hn] at hends
    exact ⟨_, rfl, hends⟩

lemma zero (hb : b = 0) :
    Site.Fails ⟨.expr (.infixOp l .div r), c, s⟩ ("division by zero: " ++ written a "/" b) u ∧
      Site.Fails ⟨.expr (.infixOp l .mod r), c, s⟩ ("modulo by zero: " ++ written a "%" b) u := by
  subst hb
  exact ⟨h.fails InfixOp.onIntegers_div_zero, h.fails InfixOp.onIntegers_mod_zero⟩

lemma lowest (hb : b ≠ 0) (hq : ¬Fits (a.toInt.tdiv b.toInt)) :
    Site.Fails ⟨.expr (.infixOp l .div r), c, s⟩ ("integer overflow: " ++ written a "/" b) u ∧
      Site.Fails ⟨.expr (.infixOp l .mod r), c, s⟩ ("integer overflow: " ++ written a "%" b) u := by
  have hdiv := (InfixOp.onIntegers_div hb).trans (InfixOp.exact_of_not_fits hq)
  exact ⟨h.fails hdiv, h.fails (InfixOp.onIntegers_mod_of_not_fits hb hq)⟩

lemma quotient (hb : b ≠ 0) (hq : Fits (a.toInt.tdiv b.toInt)) : ∃ q r' : Int64,
    Site.Ends ⟨.expr (.infixOp l .div r), c, s⟩ (.normal (.int q) u) ∧
      Site.Ends ⟨.expr (.infixOp l .mod r), c, s⟩ (.normal (.int r') u) ∧
      q.toInt = a.toInt.tdiv b.toInt ∧ r'.toInt = a.toInt.tmod b.toInt := by
  obtain ⟨q, hq', hdiv⟩ := InfixOp.exact_of_fits a .div b hq
  obtain ⟨m, hm, hmod⟩ := InfixOp.exact_of_fits a .mod b (fits_tmod hb)
  exact ⟨q, m, h.ends ((InfixOp.onIntegers_div hb).trans hdiv),
    h.ends ((InfixOp.onIntegers_mod_of_fits hb hq).trans hmod), hq', hm⟩

end IntegerOperands

theorem integers_exact (h : IntegerOperands l r c s a b t u) :
    IntegerLaws (fun op => ⟨.expr (.infixOp l op r), c, s⟩) ⟨.expr (.prefixOp .neg l), c, s⟩
      a b t u where
  sum := h.exact rfl
  difference := h.exact rfl
  product := h.exact rfl
  opposite := h.opposite
  zero hb := h.zero (Int64.toInt_inj.mp hb)
  lowest ha hb := by
    have hne : b ≠ 0 := by
      rintro rfl
      cases hb
    exact h.lowest hne fun hq => (fits_tdiv_iff hne).mp hq ⟨ha, hb⟩
  quotient hb hno := by
    have hne : b ≠ 0 := fun hz => hb (Int64.toInt_inj.mpr hz)
    obtain ⟨q, m, hq, hm, hdiv, hmod⟩ := h.quotient hne ((fits_tdiv_iff hne).mpr hno)
    refine ⟨q, m, hq, hm, ?_, ?_, ?_⟩
    · rw [hdiv, hmod, Int.tdiv_mul_add_tmod]
    · rw [hmod, Int.abs_eq_natAbs, Int.abs_eq_natAbs]
      exact Int.ofNat_lt.mpr (natAbs_tmod_lt hne)
    · rw [hmod]
      exact sign_tmod a.toInt b.toInt
  bits := ⟨a &&& b, a ||| b, h.ends rfl, h.ends rfl, testBit_and a b, testBit_or a b,
    toInt_and_add_or a.toBitVec b.toBitVec⟩
  less := h.ends (by simp only [InfixOp.onIntegers, Int64.lt_iff_toInt_lt])
  lessOrEqual := h.ends (by simp only [InfixOp.onIntegers, Int64.le_iff_toInt_le])
  greater := h.ends (by simp only [InfixOp.onIntegers, Int64.lt_iff_toInt_lt])
  greaterOrEqual := h.ends (by simp only [InfixOp.onIntegers, Int64.le_iff_toInt_le])
  equal := h.ends (by simp only [InfixOp.onIntegers, Int64.toInt_inj, beq_eq_decide])
  different := h.ends
    (by simp only [InfixOp.onIntegers, Int64.toInt_inj, bne, beq_eq_decide, decide_not, ne_eq])

end Operators

def lowestKept : State :=
  ⟨⟨#[⟨[("low", .int (-9223372036854775808))], none⟩]⟩, "", .seeded 0⟩

theorem integers_exact_lowest :
    let infixed (op : InfixOp) : Site :=
      ⟨.expr (.infixOp (.ident "low") op (.infixOp (.int 1) .sub (.int 2))), 0, lowestKept⟩
    let negated : Site := ⟨.expr (.prefixOp .neg (.ident "low")), 0, lowestKept⟩
    IntegerOperands (.ident "low") (.infixOp (.int 1) .sub (.int 2)) 0 lowestKept
        (-9223372036854775808) (-1) lowestKept lowestKept ∧
      (infixed .div).Fails "integer overflow: -9223372036854775808 / -1" lowestKept ∧
      (infixed .mod).Fails "integer overflow: -9223372036854775808 % -1" lowestKept ∧
      (infixed .add).Fails "integer overflow: -9223372036854775808 + -1" lowestKept ∧
      negated.Fails "integer overflow: --9223372036854775808" lowestKept ∧
      (∃ m : Int64, m.toInt = -9223372036854775807 ∧
        (infixed .sub).Ends (.normal (.int m) lowestKept)) ∧
      (infixed .lt).Ends (.normal (.bool true) lowestKept) := by
  intro infixed negated
  have h : IntegerOperands (.ident "low") (.infixOp (.int 1) .sub (.int 2)) 0 lowestKept
      (-9223372036854775808) (-1) lowestKept lowestKept := ⟨⟨1, by cbv⟩, ⟨2, by cbv⟩⟩
  have hlaws := integers_exact h
  obtain ⟨hdiv, hmod⟩ := hlaws.lowest rfl rfl
  exact ⟨h, hdiv, hmod, hlaws.sum.overflow (by decide), hlaws.opposite.overflow (by decide),
    hlaws.difference.value (by decide), hlaws.less⟩

end Nut
