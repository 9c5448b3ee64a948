import Nut.Proofs.Parsing.Isolation

/-! Where reading goes on in a declaration without a name: behind the first brace of its value that
leaves none open, and behind its semicolon if the value has no braces. -/

namespace Nut

open Recovery (step skip resume dropTerminator depth)

def Closes (ts : List Token) (k : Nat) : Prop :=
  ts[k]? = some .rbrace ∧ Outside ts (k + 1)

instance (ts : List Token) (k : Nat) : Decidable (Closes ts k) :=
  inferInstanceAs (Decidable (_ ∧ _))

/-- The tokens behind the first brace that leaves no brace open. -/
def beyondBraces (ts : List Token) : List Token :=
  match (List.range ts.length).find? fun k => Closes ts k with
  | some k => ts.drop (k + 1)
  | none => []

/-- What reading goes on with in a broken statement of this value and a semicolon. -/
def leftBehind (ts : List Token) : List Token :=
  if beyondBraces ts = [] then [] else beyondBraces ts ++ [.semicolon]

lemma Outside.append {us : List Token} {k : Nat} (hk : k ≤ us.length) (vs : List Token) :
    Outside (us ++ vs) k ↔ Outside us k := by
  rw [Outside, Outside, List.take_append_of_le_length hk]

lemma Closes.append {us : List Token} {k : Nat} (hk : k < us.length) (vs : List Token) :
    Closes (us ++ vs) k ↔ Closes us k := by
  rw [Closes, Closes, List.getElem?_append_left hk, Outside.append hk]

lemma beyondBraces_cases (ts : List Token) :
    (beyondBraces ts = [] ∧ ∀ k < ts.length, ¬ Closes ts k) ∨
      ∃ us, us ++ .rbrace :: beyondBraces ts = ts ∧ (∀ k < us.length, ¬ Closes us k) ∧
        Outside (us ++ [.rbrace]) (us.length + 1) := by
  unfold beyondBraces
  cases hf : (List.range ts.length).find? fun k => Closes ts k with
  | none => exact .inl ⟨rfl, by simpa using hf⟩
  | some k =>
    obtain ⟨hcl, hk, hbefore⟩ := List.find?_range_eq_some.mp hf
    have hk : k < ts.length := List.mem_range.mp hk
    have hcl : Closes ts k := of_decide_eq_true hcl
    have hget : ts[k] = .rbrace := by simpa [hk] using hcl.1
    have hlen : (ts.take k).length = k := List.length_take_of_le (Nat.le_of_lt hk)
    refine .inr ⟨ts.take k, ?_, ?_, ?_⟩
    · rw [← hget, List.getElem_cons_drop, List.take_append_drop]
    · intro j hj hcj
      rw [← Closes.append hj (ts.drop k), List.take_append_drop] at hcj
      simpa [hcj] using hbefore j (hlen ▸ hj)
    · have htake : ts.take k ++ [.rbrace] = ts.take (k + 1) := by
        rw [List.take_succ_eq_append_getElem hk, hget]
      rw [hlen, htake, Outside, List.take_take, Nat.min_self]
      exact hcl.2

namespace Fenced

lemma foldl_step {d : Nat} {us vs : List Token} (h : Fenced d (us ++ vs)) (hvs : vs ≠ []) :
    us.foldl step d + us.count .rbrace = d + us.count .lbrace := by
  induction us generalizing d with
  | nil => simp
  | cons t us ih =>
    have hne : us ++ vs ≠ [] := by simp [hvs]
    have ht : d ≠ 0 ∨ t ≠ .semicolon := by
      by_contra hn
      obtain ⟨rfl, rfl⟩ : d = 0 ∧ t = .semicolon := by simpa using hn
      exact hne h.eq_nil
    have ih := ih (h.tail ht)
    have hr : d = 0 → t ≠ .rbrace := by
      rintro rfl
      exact h.ne_of_zero.1
    rw [List.foldl_cons]
    cases t <;> simp [step] at * <;> omega

lemma outside_iff {us vs : List Token} (h : Fenced 0 (us ++ vs)) (hvs : vs ≠ []) :
    Outside us us.length ↔ depth us = 0 := by
  have hf := h.foldl_step hvs
  rw [Outside, List.take_length, depth]
  omega

lemma after {us vs : List Token} (h : Fenced 0 (us ++ vs)) (hvs : vs ≠ []) : Fenced (depth us) vs := by
  have hd := h.drop (k := us.length) (by simp [List.length_pos_iff.mpr hvs])
  rwa [List.take_left, List.drop_left] at hd

lemma skip_append {us vs : List Token} (h : Fenced 0 (us ++ vs)) (hvs : vs ≠ [])
    (hc : ∀ k < us.length, ¬ Closes us k) : skip 0 (us ++ vs) = skip (depth us) vs := by
  induction us using List.reverseRecOn generalizing vs with
  | nil => rfl
  | append_singleton us t ih =>
    have hne : t :: vs ≠ [] := List.cons_ne_nil t vs
    rw [List.append_assoc, List.singleton_append] at h ⊢
    have hlater : ∀ k < us.length, ¬ Closes us k := by
      intro k hk hcl
      exact hc k (by simp; omega) ((Closes.append hk [t]).mpr hcl)
    have hlast : ¬ Closes (us ++ [t]) us.length := hc us.length (by simp)
    have hdepth : depth (us ++ [t]) = step (depth us) t := by simp [depth]
    have hout := @outside_iff (us ++ [t]) vs (by simpa using h) hvs
    have hafter : Fenced (depth us) (t :: vs) := h.after hne
    rw [ih h hne hlater, hdepth]
    rw [hdepth, List.length_append, List.length_singleton] at hout
    cases t with
    | semicolon =>
      have hd : depth us ≠ 0 := by
        intro hd
        rw [hd] at hafter
        exact hvs hafter.eq_nil
      simp [skip, hd, step]
    | rbrace =>
      have hd : depth us - 1 ≠ 0 := fun hd => hlast ⟨by simp, hout.mpr hd⟩
      simp [skip, hd, step]
    | _ => rfl

lemma dropTerminator_append_semicolon {vs : List Token} (h : Fenced 0 (vs ++ [.semicolon])) :
    dropTerminator (vs ++ [.semicolon]) = if vs = [] then [] else vs ++ [.semicolon] := by
  cases vs with
  | nil => rfl
  | cons t vs =>
    rw [if_neg (List.cons_ne_nil t vs)]
    cases t with
    | semicolon => simpa using h.eq_nil
    | _ => rfl

lemma skip_braces {us vs : List Token} (h : Fenced 0 (us ++ .rbrace :: vs ++ [.semicolon]))
    (hbefore : ∀ k < us.length, ¬ Closes us k) (hc : Outside (us ++ [.rbrace]) (us.length + 1)) :
    skip 0 (us ++ .rbrace :: vs ++ [.semicolon]) = if vs = [] then [] else vs ++ [.semicolon] := by
  have hsplit : us ++ .rbrace :: vs ++ [.semicolon] = us ++ [.rbrace] ++ (vs ++ [.semicolon]) := by simp
  rw [hsplit] at h ⊢
  have hd : depth (us ++ [.rbrace]) = 0 := by
    apply (outside_iff h (by simp)).mp
    simpa using hc
  have hafter := h.after (by simp)
  rw [hd] at hafter
  rw [List.append_assoc] at h ⊢
  rw [h.skip_append (by simp) hbefore, ← dropTerminator_append_semicolon hafter]
  have hstep : depth us - 1 = 0 := by simpa [depth, step] using hd
  simp [skip, hstep]

lemma skip_value {ts : List Token} (h : Fenced 0 (ts ++ [.semicolon])) :
    skip 0 (ts ++ [.semicolon]) = leftBehind ts := by
  unfold leftBehind
  obtain ⟨hnone, hc⟩ | ⟨us, hsplit, hbefore, hout⟩ := beyondBraces_cases ts
  · have hafter := h.after (by simp)
    rw [hnone, if_pos rfl, h.skip_append (by simp) hc]
    cases hd : depth ts with
    | zero => simp [skip]
    | succ d =>
      rw [hd, fenced_semicolon] at hafter
      exact absurd rfl hafter.ne_nil
  · rw [← hsplit] at h
    have hskip := h.skip_braces hbefore hout
    rwa [hsplit] at hskip

end Fenced

namespace Program

open Rules (unbounded)

lemma statement_unnamed (ts : List Token) :
    unbounded.statement (.keyword .binding :: .assign :: ts) =
      .failed (.expectedIdentifier (some .assign)) ts := by
  rw [Rules.unbounded_statement]
  rfl

lemma resume_unnamed (ts : List Token) :
    resume (.keyword .binding :: .assign :: ts) ts = skip 0 ts := by
  have hbefore : (Token.keyword .binding :: .assign :: ts).length - ts.length - 1 = 1 := by
    simp only [List.length_cons]
    omega
  unfold resume
  rw [hbefore]
  rfl

lemma fenced_value {e : Expr} {ts : List Token} (h : ofTokens ts = .ok [.expr e])
    (hl : ts.getLast? ≠ some .semicolon) : Fenced 0 (ts ++ [.semicolon]) := by
  obtain ⟨rest, hs, hrest⟩ := allEntries_eq_cons.mp (ofTokens_eq_ok.mp h)
  obtain rfl := allEntries_eq_nil.mp hrest
  obtain ⟨u, rfl, hu⟩ := Rules.statement_sound hs
  rw [List.append_nil] at hl ⊢
  cases hu with
  | expr hu hw =>
    obtain rfl | rfl := hw
    · rw [List.append_nil]
      exact hu.passes 0 [.semicolon] .fence
    · exact absurd List.getLast?_concat hl

/-- A declaration without a name has one error, and besides it those of what stands behind the first
braces of the value. Reading goes on there as at the start of a statement. -/
theorem ofTokens_unnamed {e : Expr} {ts : List Token} (h : ofTokens ts = .ok [.expr e])
    (hl : ts.getLast? ≠ some .semicolon) :
    ofTokens (.keyword .binding :: .assign :: ts ++ [.semicolon]) =
      .error (.expectedIdentifier (some .assign) :: rejections (ofTokens (leftBehind ts))) := by
  have ha := allEntries_failed (statement_unnamed (ts ++ [.semicolon]))
  rw [resume_unnamed, (fenced_value h hl).skip_value] at ha
  rw [List.cons_append, List.cons_append, ofTokens_eq, ha, rejections_ofTokens]
  rfl

/-- The tokens of `[{1: 2}[1], 3]`. -/
def hashFirst : List Token :=
  [.lbracket, .lbrace, .int "1", .colon, .int "2", .rbrace, .lbracket, .int "1", .rbracket, .comma,
    .int "3", .rbracket]

theorem ofTokens_unnamed_hashFirst :
    (∃ e, ofTokens hashFirst = .ok [.expr e]) ∧ hashFirst.getLast? ≠ some .semicolon ∧
      ofTokens (.keyword .binding :: .assign :: hashFirst ++ [.semicolon]) =
        .error (.expectedIdentifier (some .assign) :: rejections (ofTokens (leftBehind hashFirst))) :=
  ⟨⟨_, rfl⟩, by decide, @ofTokens_unnamed _ hashFirst rfl (by decide)⟩

/-- The tokens of `if (x) { 1 } else { 2 }`. -/
def twoBranches : List Token :=
  [.keyword .condition, .lparen, .ident "x", .rparen, .lbrace, .int "1", .rbrace,
    .keyword .otherwise, .lbrace, .int "2", .rbrace]

theorem ofTokens_unnamed_follow_on :
    (∃ e, ofTokens twoBranches = .ok [.expr e]) ∧ twoBranches.getLast? ≠ some .semicolon ∧
      ofTokens (.keyword .binding :: .assign :: twoBranches ++ [.semicolon]) ≠
        .error [.expectedIdentifier (some .assign)] := by
  refine ⟨⟨_, rfl⟩, by decide, ?_⟩
  have htwo : ofTokens (.keyword .binding :: .assign :: twoBranches ++ [.semicolon]) =
      .error [.expectedIdentifier (some .assign), .noOperand (.keyword .otherwise)] := rfl
  rw [htwo]
  simp

end Program

end Nut
