import Nut.Proofs.Parsing.Ending
import Nut.Proofs.Parsing.Soundness

/-! A semicolon behind a program that ends in none. Every statement but a loop takes it. -/

namespace Nut

/-- What the statement, read to the end of its input, leaves over when a semicolon follows. -/
def Stmt.leftOver (s : Stmt) (more : List Token) : List Token :=
  if s.isLoop then .semicolon :: more else more

namespace Parse

variable {α : Type}

def EndedOn (p : Parse Stmt) (ts : List Token) : Prop :=
  ∀ s more, ts.getLast? ≠ some .semicolon → p ts = .done s [] →
    p (ts ++ .semicolon :: more) = .done s (s.leftOver more)

lemma getLast?_ne_of_suffix {us ts : List Token} {t : Token} (h : us <:+ ts)
    (ht : ts.getLast? ≠ some t) : us.getLast? ≠ some t := by
  obtain ⟨vs, rfl⟩ := h
  rw [List.getLast?_append] at ht
  intro hu
  rw [hu] at ht
  exact ht rfl

namespace EndedOn

variable {p q : Parse Stmt} {r : Parse α} {f : α → Parse Stmt} {ts : List Token}

lemma bind (hr : StopsOn r ts) (hs : (r ts).rest <:+ ts) (hf : ∀ a mid, EndedOn (f a) mid) :
    EndedOn (r >>= f) ts := by
  intro s more hl h
  obtain ⟨a, mid, ha, hb⟩ := bind_eq_done.mp h
  rw [ha] at hs
  rw [bind_of_done (hr a mid more ha)]
  exact hf a mid s more (getLast?_ne_of_suffix hs hl) hb

lemma bind_steady (hr : (r ts).rest ≠ [] → Steady r ts) (hs : (r ts).rest <:+ ts)
    (hn : ∀ a s rest, f a [] ≠ .done s rest) (hf : ∀ a mid, EndedOn (f a) mid) :
    EndedOn (r >>= f) ts := by
  intro s more hl h
  obtain ⟨a, mid, ha, hb⟩ := bind_eq_done.mp h
  have hmid : mid ≠ [] := by
    rintro rfl
    exact hn a s [] hb
  have hd := done_of_steady hr ha hmid (.semicolon :: more)
  rw [ha] at hs
  rw [bind_of_done hd]
  exact hf a mid s more (getLast?_ne_of_suffix hs hl) hb

lemma cons {t : Token} (hq : EndedOn q ts) (hp : ∀ us, p (t :: us) = q us) : EndedOn p (t :: ts) := by
  intro s more hl h
  rw [hp] at h
  rw [List.cons_append, hp]
  exact hq s more (getLast?_ne_of_suffix (List.suffix_cons t ts) hl) h

lemma congr (hq : EndedOn q ts) (hts : p ts = q ts)
    (hp : ∀ more, p (ts ++ .semicolon :: more) = q (ts ++ .semicolon :: more)) : EndedOn p ts := by
  intro s more hl h
  rw [hp]
  exact hq s more hl (hts ▸ h)

lemma ifPeek {wanted : Token} (hw : wanted ≠ .semicolon) (hp : EndedOn p ts) (hq : EndedOn q ts) :
    EndedOn (peek? >>= fun next => if next = some wanted then p else q) ts := by
  have hhead := head?_append_semicolon hw ts
  by_cases ht : ts.head? = some wanted
  · refine hp.congr (by rw [ifPeek_apply, if_pos ht]) fun more => ?_
    rw [ifPeek_apply, if_pos ((hhead more).mpr ht)]
  · refine hq.congr (by rw [ifPeek_apply, if_neg ht]) fun more => ?_
    rw [ifPeek_apply, if_neg (mt (hhead more).mp ht)]

lemma terminated {make : α → Stmt} (hr : StopsOn r ts) (hs : (r ts).rest <:+ ts)
    (hm : ∀ a, (make a).isLoop = false) : EndedOn (Rules.terminated (make <$> r)) ts := by
  intro s more hl h
  obtain ⟨s', mid, hmap, hend⟩ := bind_eq_done.mp h
  obtain ⟨a, mid', ha, hpure⟩ := bind_eq_done.mp hmap
  cases hpure
  rw [ha] at hs
  have hmid : mid = [] ∧ make a = s := by
    cases mid with
    | nil =>
      cases hend
      exact ⟨rfl, rfl⟩
    | cons t mid =>
      by_cases ht : t = .semicolon
      · subst ht
        cases hend
        exact absurd rfl (getLast?_ne_of_suffix hs hl)
      · have ha : Parse.terminator (t :: mid) = .done () (t :: mid) := by
          rw [Parse.terminator, bind_apply, Parse.accept, if_neg ht]
          rfl
        rw [bind_of_done ha] at hend
        cases hend
  obtain ⟨rfl, rfl⟩ := hmid
  rw [Rules.terminated_of_done (map_of_done (hr a [] more ha)), Stmt.leftOver, hm a]
  rfl

end EndedOn

end Parse

namespace Rules

open Parse (Stops StopsOn EndedOn)

lemma startsStatement_semicolon (ts more : List Token) :
    startsStatement (ts ++ .semicolon :: more) = startsStatement ts := by
  cases ts with
  | nil => rfl
  | cons t ts =>
    cases t with
    | ident name =>
      cases ts with
      | nil => rfl
      | cons t ts => cases t <;> rfl
    | keyword k => cases k <;> rfl
    | _ => rfl

namespace Stop

variable {g : Rules} (hg : g.Stop) (hc : g.Contained)

include hg hc

lemma binding (name : String) (ts : List Token) : EndedOn (g.binding name) ts :=
  .terminated (hg.whole ts) (hc.whole 0 ts).suffix fun _ => rfl

lemma declaration (ts : List Token) : EndedOn g.declaration ts := by
  cases ts with
  | nil => rintro s more - ⟨⟩
  | cons t ts =>
    cases t with
    | ident name =>
      have hb : EndedOn (Parse.expect .assign >>= fun _ => g.binding name) ts := by
        apply EndedOn.bind (Stops.expect .assign ts)
        · exact (Parse.Contained.expect (d := 0) .assign (.inr (by simp)) ts).suffix
        · exact fun _ => hg.binding hc name
      exact hb.cons fun us => rfl
    | _ => rintro s more - ⟨⟩

lemma hashStatement (pairs : List (Expr × Expr)) (ts : List Token) :
    EndedOn (g.hashStatement pairs) ts :=
  .terminated (hg.infixes _ _ ts) (hc.infixes 0 _ _ ts).suffix fun _ => rfl

lemma blockStatement (before : List Stmt) (ts : List Token) : EndedOn (g.blockStatement before) ts :=
  .terminated (hg.statements ts) (hc.statements 0 ts).suffix fun _ => rfl

lemma openStatement (ts : List Token) : EndedOn g.openStatement ts := by
  apply EndedOn.bind (hg.whole ts) (hc.whole 0 ts).suffix
  intro first mid
  apply EndedOn.ifPeek (by simp)
  · apply EndedOn.bind (hg.pairValue mid) (hc.pairValue 0 mid).suffix
    intro value mid
    apply EndedOn.bind (hg.pairs mid) (hc.pairs 0 mid).suffix
    exact fun pairs => hg.hashStatement hc _
  · have ht := Parse.Contained.terminator (d := 0) mid
    apply EndedOn.bind_steady ht.steady ht.suffix
    · intro _ s rest h
      obtain ⟨s', mid, hs, -⟩ := Parse.bind_eq_done.mp h
      obtain ⟨ss, mid', hss, -⟩ := Parse.bind_eq_done.mp hs
      exact hg.statements_nil ss mid' hss
    · exact fun _ => hg.blockStatement hc _

lemma braceStatement (ts : List Token) : EndedOn g.braceStatement ts := by
  by_cases ht : ts.head? = some .rbrace
  · obtain ⟨ts, rfl⟩ := List.head?_eq_some_iff.mp ht
    exact (hg.hashStatement hc [] ts).cons fun us => rfl
  have heq (us : List Token) (hu : us.head? ≠ some .rbrace) : g.braceStatement us =
      if startsStatement us then g.blockStatement [] us else g.openStatement us :=
    Rules.braceStatement.eq_2 g us fun vs hv => hu (hv ▸ rfl)
  have hhead (more : List Token) : (ts ++ .semicolon :: more).head? ≠ some .rbrace := by
    cases ts with
    | nil => simp
    | cons t ts => exact ht
  have hs := startsStatement_semicolon ts
  cases hst : startsStatement ts with
  | true =>
    refine (hg.blockStatement hc [] ts).congr (by rw [heq ts ht, if_pos hst]) fun more => ?_
    rw [heq _ (hhead more), if_pos ((hs more).trans hst)]
  | false =>
    refine (hg.openStatement hc ts).congr (by rw [heq ts ht, if_neg (by simp [hst])]) fun more => ?_
    rw [heq _ (hhead more), if_neg (by simp [hs, hst])]

lemma loopStatement (ts : List Token) : EndedOn g.loop ts := by
  intro s more _ h
  have hloop : s.isLoop := by
    obtain ⟨_, _, _, h⟩ := Parse.bind_eq_done.mp h
    obtain ⟨init, _, _, h⟩ := Parse.bind_eq_done.mp h
    obtain ⟨condition, _, _, h⟩ := Parse.bind_eq_done.mp h
    obtain ⟨_, _, _, h⟩ := Parse.bind_eq_done.mp h
    obtain ⟨post, _, _, h⟩ := Parse.bind_eq_done.mp h
    obtain ⟨_, _, _, h⟩ := Parse.bind_eq_done.mp h
    obtain ⟨body, _, _, h⟩ := Parse.bind_eq_done.mp h
    cases h
    rfl
  rw [hg.loop hc ts s [] more h, Stmt.leftOver, if_pos hloop]
  rfl

lemma statementRule (ts : List Token) : EndedOn g.statementRule ts := by
  have hwhole (make : Expr → Stmt) (hm : ∀ e, (make e).isLoop = false) (ts : List Token) :
      EndedOn (Rules.terminated (make <$> g.whole)) ts :=
    .terminated (hg.whole ts) (hc.whole 0 ts).suffix hm
  have hs := startsStatement_semicolon ts
  cases hst : startsStatement ts with
  | false =>
    refine (hwhole .expr (fun _ => rfl) ts).congr (statementRule_expr g hst) fun more => ?_
    exact statementRule_expr g ((hs more).trans hst)
  | true =>
    match ts, hst with
    | .keyword .binding :: ts, _ => exact (hg.declaration hc ts).cons fun us => rfl
    | .keyword .result :: ts, _ => exact (hwhole .result (fun _ => rfl) ts).cons fun us => rfl
    | .keyword .loop :: ts, _ => exact (hg.loopStatement hc ts).cons fun us => rfl
    | .lbrace :: ts, _ => exact (hg.braceStatement hc ts).cons fun us => rfl
    | .ident name :: .bind :: ts, _ =>
      have hnext : EndedOn (fun us => g.statementRule (.ident name :: us)) (.bind :: ts) :=
        (hg.binding hc name ts).cons fun us => rfl
      exact hnext.cons fun us => rfl

end Stop

lemma statement_ended {ts : List Token} {s : Stmt} (hl : ts.getLast? ≠ some .semicolon)
    (h : unbounded.statement ts = .done s []) (more : List Token) :
    unbounded.statement (ts ++ .semicolon :: more) = .done s (s.leftOver more) := by
  have hle : enough ts ≤ enough (ts ++ .semicolon :: more) := by
    simp only [enough, List.length_append]
    omega
  rw [(statement_nested ts hle).1] at h
  rw [(statement_nested (ts ++ .semicolon :: more) (Nat.le_refl _)).1]
  generalize enough (ts ++ .semicolon :: more) = n at h ⊢
  cases n with
  | zero => cases h
  | succ n => exact (stop_nested n).statementRule (contained_nested n) ts s more hl h

lemma statement_semicolon (more : List Token) :
    unbounded.statement (.semicolon :: more) = .failed (.noOperand .semicolon) more := by
  rw [unbounded_statement, statementRule_expr _ rfl, terminated, Parse.bind_apply, Parse.map_apply, whole,
    unbounded_expression]
  rfl

end Rules

namespace Program

open Rules (unbounded)

lemma allEntries_semicolon : allEntries [.semicolon] = [.error (.noOperand .semicolon)] := by
  rw [allEntries_failed (Rules.statement_semicolon [])]
  rfl

lemma allEntries_terminated {p : Program} {ts : List Token} (h : allEntries ts = p.map .ok)
    (hne : ts ≠ []) (hl : ts.getLast? ≠ some .semicolon) (more : List Token) :
    allEntries (ts ++ .semicolon :: more) =
      p.map .ok ++ allEntries (if p.getLast?.any Stmt.isLoop then .semicolon :: more else more) := by
  induction p generalizing ts with
  | nil => exact absurd (allEntries_eq_nil.mp h) hne
  | cons s p ih =>
    obtain ⟨rest, hs, hp⟩ := allEntries_eq_cons.mp h
    by_cases hr : rest = []
    · subst hr
      obtain rfl : p = [] := by simpa [allEntries_nil] using hp.symm
      exact allEntries_done (Rules.statement_ended hl hs more)
    · have hrest : (unbounded.statement ts).rest ≠ [] := by simpa [hs, Parsed.rest] using hr
      have ha := Rules.statement_append (.semicolon :: more) (.inl hrest)
      obtain ⟨u, rfl, -⟩ := Rules.statement_sound hs
      have hlast := Parse.getLast?_ne_of_suffix (List.suffix_append u rest) hl
      have hpne : p ≠ [] := by
        rintro rfl
        exact hr (allEntries_eq_nil.mp hp)
      rw [hs] at ha
      rw [allEntries_done ha, ih hp hr hlast, List.getLast?_cons_of_ne_nil hpne]
      rfl

/-- A semicolon may stand behind a program that ends in none, unless the last statement is a loop.
Loops take no semicolon, and it is no statement by itself. -/
theorem ofTokens_terminated {p : Program} {ts : List Token} (h : ofTokens ts = .ok p) (hne : ts ≠ [])
    (hl : ts.getLast? ≠ some .semicolon) :
    ofTokens (ts ++ [.semicolon]) =
      if p.getLast?.any Stmt.isLoop then .error [.noOperand .semicolon] else .ok p := by
  have ha := allEntries_terminated (ofTokens_eq_ok.mp h) hne hl []
  by_cases hloop : p.getLast?.any Stmt.isLoop
  · rw [if_pos hloop, allEntries_semicolon] at ha
    rw [if_pos hloop, ofTokens_eq, ha]
    simp [errors]
  · rw [if_neg hloop, allEntries_nil, List.append_nil] at ha
    rw [if_neg hloop, ofTokens_eq_ok, ha]

/-- The tokens of `for (i; i; i) { }`. -/
def bareLoop : List Token :=
  [.keyword .loop, .lparen, .ident "i", .semicolon, .ident "i", .semicolon, .ident "i", .rparen,
    .lbrace, .rbrace]

/-- The tokens of `{ x := 1 }`. -/
def bareBlock : List Token :=
  [.lbrace, .ident "x", .bind, .int "1", .rbrace]

theorem ofTokens_terminated_bareBlock :
    bareLoop ++ bareBlock ≠ [] ∧ (bareLoop ++ bareBlock).getLast? ≠ some .semicolon ∧
      ∃ p, ofTokens (bareLoop ++ bareBlock) = .ok p ∧
        ofTokens (bareLoop ++ bareBlock ++ [.semicolon]) = .ok p :=
  ⟨by decide, by decide, _, rfl,
    @ofTokens_terminated _ (bareLoop ++ bareBlock) rfl (by decide) (by decide)⟩

theorem ofTokens_bareLoop_semicolon :
    bareBlock ++ bareLoop ≠ [] ∧ (bareBlock ++ bareLoop).getLast? ≠ some .semicolon ∧
      (∃ p, ofTokens (bareBlock ++ bareLoop) = .ok p) ∧
      ¬ ∃ p, ofTokens (bareBlock ++ bareLoop ++ [.semicolon]) = .ok p := by
  refine ⟨by decide, by decide, ⟨_, rfl⟩, ?_⟩
  have hbroken : ofTokens (bareBlock ++ bareLoop ++ [.semicolon]) = .error [.noOperand .semicolon] :=
    rfl
  rintro ⟨p, hp⟩
  rw [hbroken] at hp
  cases hp

end Program

end Nut
