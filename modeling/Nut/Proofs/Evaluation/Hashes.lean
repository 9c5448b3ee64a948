import Nut.Proofs.Evaluation.Sound
import Nut.Proofs.Evaluation.Unwinding

/-! Hash literals: their pairs are evaluated in order, and of equal keys the last one counts. -/

namespace Nut

open Eval Filter

lemma Key.same_value_iff (k l : Key) : k.value.same l.value = true ↔ k = l := by
  cases k <;> cases l <;> simp [value, Value.same]

namespace Entries

variable {κ α : Type} [DecidableEq κ]

def putAll (entries : Entries κ α) (pairs : List (κ × α)) : Entries κ α :=
  pairs.foldl (fun es pair => put pair.1 pair.2 es) entries

variable {entries : Entries κ α} {pairs : List (κ × α)} {k : κ} {a : α}

lemma putAll_cons (pair : κ × α) : putAll entries (pair :: pairs) =
    putAll (put pair.1 pair.2 entries) pairs := rfl

lemma get?_putAll_of_not_mem (h : ∀ a, (k, a) ∉ pairs) :
    get? k (putAll entries pairs) = get? k entries := by
  induction pairs generalizing entries with
  | nil => rfl
  | cons pair pairs ih =>
    have hne : k ≠ pair.1 := by
      rintro rfl
      exact h pair.2 (.head _)
    rw [putAll_cons, ih fun a ha => h a (.tail _ ha), get?_put, if_neg hne]

lemma get?_putAll_of_last {i : Nat} (hi : pairs[i]? = some (k, a))
    (hlast : ∀ (j : Nat) b, pairs[j]? = some (k, b) → j ≤ i) :
    get? k (putAll entries pairs) = some a := by
  induction pairs generalizing entries i with
  | nil => cases hi
  | cons pair pairs ih =>
    rw [putAll_cons]
    cases i with
    | zero =>
      obtain rfl : pair = (k, a) := Option.some.inj hi
      have hno : ∀ b, (k, b) ∉ pairs := by
        intro b hb
        obtain ⟨j, hj⟩ := List.mem_iff_getElem?.mp hb
        exact absurd (hlast (j + 1) b hj) (Nat.not_succ_le_zero j)
      rw [get?_putAll_of_not_mem hno, get?_put, if_pos rfl]
    | succ i => exact ih hi fun j b hj => Nat.le_of_succ_le_succ (hlast (j + 1) b hj)

lemma mem_keys_put {key : κ} : k ∈ keys (put key a entries) ↔ k = key ∨ k ∈ keys entries := by
  rw [← get?_isSome_iff, get?_put, ← get?_isSome_iff]
  by_cases h : k = key <;> simp [h]

lemma mem_keys_putAll : k ∈ keys (putAll entries pairs) ↔ k ∈ keys entries ∨ k ∈ keys pairs := by
  induction pairs generalizing entries with
  | nil => simp [putAll, keys]
  | cons pair pairs ih =>
    rw [putAll_cons, ih, mem_keys_put, or_comm (a := k = pair.1), or_assoc]
    exact or_congr_right List.mem_cons.symm

lemma nodup_keys_putAll (h : (keys entries).Nodup) : (keys (putAll entries pairs)).Nodup := by
  induction pairs generalizing entries with
  | nil => exact h
  | cons pair pairs ih => exact ih (nodup_keys_put h)

lemma length_putAll (pairs : List (κ × α)) :
    (putAll [] pairs).length = (keys pairs).toFinset.card := by
  have hnodup : (keys (putAll [] pairs)).Nodup := nodup_keys_putAll List.nodup_nil
  have hmem : (keys (putAll [] pairs)).toFinset = (keys pairs).toFinset := by
    ext k
    rw [List.mem_toFinset, List.mem_toFinset, mem_keys_putAll]
    exact or_iff_right List.not_mem_nil
  rw [← hmem, List.toFinset_card_of_nodup hnodup, keys, List.length_map]

end Entries

lemma Value.index_hash (entries : Entries Key Value) (k : Key) :
    (Value.hash entries).index k.value = .ok ((Entries.get? k entries).getD .null) := by
  cases k <;> rfl

namespace Site

/-- The expressions of the pairs end one after the other, each key in front of its value. -/
inductive InTurn (scope : Nat) : State → List (Expr × Expr) → List (Key × Value) → State → Prop
  | nil (s) : InTurn scope s [] [] s
  | cons {s t u w key value pairs k v kvs} : Ends ⟨.expr key, scope, s⟩ (.normal (Key.value k) t) →
      Ends ⟨.expr value, scope, t⟩ (.normal v u) → InTurn scope u pairs kvs w →
      InTurn scope s ((key, value) :: pairs) ((k, v) :: kvs) w

end Site

/-- An index expression that comes to the hash and then to the key has this value. -/
def Entries.Reads (entries : Entries Key Value) (k : Key) (v : Value) : Prop :=
  ∀ (l p : Expr) (c : Nat) (s t u : State),
    Site.Ends ⟨.expr l, c, s⟩ (.normal (.hash entries) t) →
    Site.Ends ⟨.expr p, c, t⟩ (.normal k.value u) →
    Site.Ends ⟨.expr (.index l p), c, s⟩ (.normal v u)

section Literals

variable {entries : Entries Key Value} {kvs : List (Key × Value)}
variable {pairs after after' : List (Expr × Expr)} {key value value' : Expr}
variable {c : Nat} {s t u : State} {v : Value}

lemma Entries.reads_get? (entries : Entries Key Value) (k : Key) :
    entries.Reads k ((get? k entries).getD .null) := by
  intro l p c s t u hl hp
  obtain ⟨n, hl, hp⟩ := ((hl.eventually nofun).and (hp.eventually nofun)).exists
  refine ⟨n + 1, (bind_normal hl).trans ((bind_normal hp).trans ?_)⟩
  rw [Value.index_hash]
  rfl

lemma Value.key_value (k : Key) : k.value.key = .ok k := by
  rw [Value.key, Value.key?_value]

lemma Value.key_of_unhashable (h : v.key? = none) : v.key = .error (.unhashable v.kind) := by
  rw [Value.key, h]

namespace Site

lemma InTurn.eventually (h : InTurn c s pairs kvs t) (entries : Entries Key Value) :
    ∀ᶠ n in atTop,
      evalPairs (Expr.eval n c) entries pairs s = .normal (entries.putAll kvs) t := by
  induction h generalizing entries with
  | nil s => exact .of_forall fun n => rfl
  | @cons s t u w key value pairs k v kvs hk hv _ ih =>
    filter_upwards [hk.eventually nofun, hv.eventually nofun, ih (entries.put k v)] with n hk hv ih
    have hkey : ofExcept k.value.key t = .normal k t := by
      rw [Value.key_value]
      rfl
    exact (bind_normal hk).trans ((bind_normal hkey).trans ((bind_normal hv).trans ih))

lemma InTurn.ends (h : InTurn c s pairs kvs t) :
    Ends ⟨.expr (.hash pairs), c, s⟩ (.normal (.hash (Entries.putAll [] kvs)) t) := by
  obtain ⟨n, hn⟩ := (h.eventually []).exists
  exact ⟨n + 1, bind_normal hn⟩

lemma InTurn.unique (h : InTurn c s pairs kvs t) {n : Nat} {t' : State}
    (hn : evalPairs (Expr.eval n c) [] pairs s = .normal entries t') :
    entries = Entries.putAll [] kvs ∧ t' = t := by
  have hends : PairsEnd pairs c s entries t' := ⟨n, hn⟩
  obtain ⟨m, hm, hm'⟩ := (hends.eventually.and (h.eventually [])).exists
  cases hm.symm.trans hm'
  exact ⟨rfl, rfl⟩

lemma InTurn.unhashable (h : InTurn c s pairs kvs t) (hk : Ends ⟨.expr key, c, t⟩ (.normal v u))
    (hv : v.key? = none) (value : Expr) (after : List (Expr × Expr)) :
    Ends ⟨.expr (.hash (pairs ++ (key, value) :: after)), c, s⟩
      (.unwound (.failed (.unhashable v.kind)) u) := by
  obtain ⟨n, hn, hk⟩ := ((h.eventually []).and (hk.eventually nofun)).exists
  have hkey : ofExcept v.key u = .unwound (.failed (.unhashable v.kind)) u := by
    rw [Value.key_of_unhashable hv]
    rfl
  exact ⟨n + 1, bind_unwound ((evalPairs_append hn).trans ((bind_normal hk).trans (bind_unwound hkey)))⟩

lemma InTurn.eval_unhashable (h : InTurn c s pairs kvs t)
    (hk : Ends ⟨.expr key, c, t⟩ (.normal v u)) (hv : v.key? = none) (n : Nat) :
    (Expr.hash (pairs ++ (key, value) :: after)).eval n c s =
      (Expr.hash (pairs ++ (key, value') :: after')).eval n c s := by
  cases n with
  | zero => rfl
  | succ n =>
    refine bind_congr_left ?_
    rw [evalPairs_append_bind, evalPairs_append_bind]
    refine bind_congr_normal fun entries t' hn => ?_
    obtain ⟨rfl, rfl⟩ := h.unique hn
    refine bind_congr_normal (m := key.eval n c) fun w u' hw => ?_
    have hends : Ends ⟨.expr key, c, t'⟩ (.normal w u') := ⟨n, hw⟩
    obtain ⟨m, hm, hm'⟩ := ((hends.eventually nofun).and (hk.eventually nofun)).exists
    cases hm.symm.trans hm'
    rw [Value.key_of_unhashable hv]
    rfl

theorem hash_literal (h : InTurn c s pairs kvs t) :
    (∃ entries : Entries Key Value,
      Ends ⟨.expr (.hash pairs), c, s⟩ (.normal (.hash entries) t) ∧
        (∀ (k : Key) (i : Nat) (v : Value), kvs[i]? = some (k, v) →
          (∀ (j : Nat) (w : Value), kvs[j]? = some (k, w) → j ≤ i) → entries.Reads k v) ∧
        (∀ k : Key, (∀ v, (k, v) ∉ kvs) → entries.Reads k .null) ∧
        entries.length = (kvs.map Prod.fst).toFinset.card) ∧
      (∀ k l : Key, (k.value.same l.value ↔ k = l) ∧ (k.value.kind ≠ l.value.kind → k ≠ l)) ∧
      ∀ {key : Expr} {v : Value} {u : State}, Ends ⟨.expr key, c, t⟩ (.normal v u) → v.key? = none →
        ∀ (value : Expr) (after : List (Expr × Expr)),
          Ends ⟨.expr (.hash (pairs ++ (key, value) :: after)), c, s⟩
            (.unwound (.failed (.unhashable v.kind)) u) ∧
          ∀ (value' : Expr) (after' : List (Expr × Expr)) (n : Nat),
            (Expr.hash (pairs ++ (key, value) :: after)).eval n c s =
              (Expr.hash (pairs ++ (key, value') :: after')).eval n c s := by
  refine ⟨⟨Entries.putAll [] kvs, h.ends, ?_, ?_, Entries.length_putAll kvs⟩, ?_, ?_⟩
  · intro k i v hi hlast
    have hreads := Entries.reads_get? (Entries.putAll [] kvs) k
    rwa [Entries.get?_putAll_of_last hi hlast] at hreads
  · intro k hk
    have hreads := Entries.reads_get? (Entries.putAll [] kvs) k
    rwa [Entries.get?_putAll_of_not_mem hk] at hreads
  · exact fun k l => ⟨Key.same_value_iff k l, fun hkind hkl => hkind (hkl ▸ rfl)⟩
  · intro key v u hk hv value after
    exact ⟨h.unhashable hk hv value after, fun value' after' n => h.eval_unhashable hk hv n⟩

def numbered (n : Int64) : State := ⟨⟨#[⟨[("x", .int n)], none⟩]⟩, "", .seeded 0⟩

/-- The pairs of `{x = 1: x, "1": x = 2, x - 1: x}`. -/
def rewritten : List (Expr × Expr) :=
  [(.assign "x" (.int 1), .ident "x"), (.string "1", .assign "x" (.int 2)),
    (.infixOp (.ident "x") .sub (.int 1), .ident "x")]

theorem hash_literal_rewritten :
    InTurn 0 (numbered 0) rewritten
        [(.int 1, .int 1), (.string "1", .int 2), (.int 1, .int 2)] (numbered 2) ∧
      (∃ entries : Entries Key Value,
        Ends ⟨.expr (.hash rewritten), 0, numbered 0⟩ (.normal (.hash entries) (numbered 2)) ∧
          entries.Reads (.int 1) (.int 2) ∧ entries.Reads (.string "1") (.int 2) ∧
          entries.Reads (.bool true) .null ∧ entries.length = 2) ∧
      Ends ⟨.expr (.hash (rewritten ++ [(.array [], .ident "y"), (.int 3, .assign "x" (.int 4))])), 0,
        numbered 0⟩ (.unwound (.failed (.unhashable .array)) (numbered 2)) := by
  have hlast : InTurn 0 (numbered 2) [(.infixOp (.ident "x") .sub (.int 1), .ident "x")]
      [(.int 1, .int 2)] (numbered 2) :=
    .cons ⟨2, by cbv⟩ ⟨1, by cbv⟩ (.nil _)
  have hmiddle : InTurn 0 (numbered 1) rewritten.tail [(.string "1", .int 2), (.int 1, .int 2)]
      (numbered 2) :=
    .cons ⟨1, rfl⟩ ⟨2, by cbv⟩ hlast
  have h : InTurn 0 (numbered 0) rewritten
      [(.int 1, .int 1), (.string "1", .int 2), (.int 1, .int 2)] (numbered 2) :=
    .cons (t := numbered 1) ⟨2, by cbv⟩ ⟨1, by cbv⟩ hmiddle
  obtain ⟨⟨entries, hends, hreads, hnull, hlength⟩, -, hfails⟩ := hash_literal h
  have hint : entries.Reads (.int 1) (.int 2) := by
    refine hreads _ 2 _ rfl fun j w hj => ?_
    have hlt := (List.getElem?_eq_some_iff.mp hj).1
    exact Nat.le_of_lt_succ hlt
  have hstring : entries.Reads (.string "1") (.int 2) := by
    refine hreads _ 1 _ rfl fun j w hj => ?_
    rcases j with _ | _ | _ | j
    · decide
    · decide
    · cases hj
    · cases hj
  have hbool : entries.Reads (.bool true) .null := hnull _ (by simp)
  have harray : Ends ⟨.expr (.array []), 0, numbered 2⟩ (.normal (.array []) (numbered 2)) := ⟨1, rfl⟩
  exact ⟨h, ⟨entries, hends, hint, hstring, hbool, hlength⟩, (hfails harray rfl _ _).1⟩

end Site

end Literals

end Nut
