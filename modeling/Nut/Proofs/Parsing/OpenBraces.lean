import Nut.Proofs.Parsing.Braces
import Nut.Proofs.Parsing.Scanning
import Nut.Proofs.Parsing.Soundness

/-! The braces that the scanner counts, at every place of a run and at the head of every turn. -/

namespace Nut

open Recovery (step depth)

lemma Recovery.skip_over {d : Nat} {t : Token} {ts : List Token}
    (hs : ¬ (step d t ≤ 0 ∧ t = .semicolon)) (hr : ¬ (step d t ≤ 0 ∧ t = .rbrace)) :
    skip d (t :: ts) = skip (step d t) ts := by
  cases t with
  | semicolon =>
    have hd : d ≠ 0 := by simpa [step] using hs
    rw [skip, if_neg hd]
    rfl
  | rbrace =>
    have hd : d - 1 ≠ 0 := by simpa [step] using hr
    rw [skip, if_neg hd]
    rfl
  | _ => rfl

lemma Recovery.resume_nil (ts : List Token) : resume ts [] = [] := by
  by_cases hts : ts = []
  · subst hts
    rfl
  · have hpos := List.length_pos_iff.mpr hts
    have hlast : (ts.drop (ts.length - 1)).length = 1 := by
      rw [List.length_drop]
      omega
    have hne : ts.drop (ts.length - 1) ≠ [] := List.ne_nil_of_length_eq_add_one hlast
    have hlen := length_skip_lt (depth (ts.take (ts.length - 1))) hne
    rw [hlast, Nat.lt_one_iff] at hlen
    exact List.eq_nil_of_length_eq_zero hlen

/-- With `d` braces open in front of `ts`, the place is one of `ts` and its count is right. -/
def Place.Counts (d : Nat) (ts : List Token) (p : Place) : Prop :=
  ∃ u, ts = u ++ p.tokens ∧ p = Place.onto (u.foldl step d) p.tokens

namespace Place

variable {d : Nat} {ts : List Token} {p : Place}

lemma counts_of_eq (h : p = onto d p.tokens) : p.Counts d p.tokens :=
  ⟨[], rfl, h⟩

lemma Counts.depth_eq {t : Token} {after : List Token} (h : p.Counts d ts)
    (hp : p.tokens = t :: after) :
    ∃ before, ts = before ++ t :: after ∧ p.depth = (before ++ [t]).foldl step d := by
  obtain ⟨u, rfl, he⟩ := h
  rw [hp] at he ⊢
  exact ⟨u, rfl, by rw [he, List.foldl_append]; rfl⟩

lemma opening_le_depth (d : Nat) (ts : List Token) : (onto d ts).opening ≤ (onto d ts).depth := by
  unfold opening
  split
  · next h =>
    obtain ⟨us, rfl⟩ : ∃ us, ts = .lbrace :: us := by
      cases ts with
      | nil => cases h
      | cons t us => exact ⟨us, by rw [Option.some.inj h]⟩
    exact Nat.le_add_left 1 d
  · exact Nat.zero_le _

lemma base_onto (t : Token) (ts : List Token) : (onto 0 (t :: ts)).base = 0 := by
  cases t <;> rfl

end Place

namespace Scanner

variable {d base : Nat} {ts : List Token} {s s' : Scanner}

lemma next_counts (h : s.toPlace.Counts d ts) : s.next.toPlace.Counts d ts := by
  obtain ⟨⟨tokens, depth⟩, passed⟩ := s
  obtain ⟨u, rfl, he⟩ := h
  cases tokens with
  | nil =>
    obtain ⟨-, rfl⟩ := Place.mk.inj he
    exact ⟨u, rfl, rfl⟩
  | cons t rest =>
    obtain ⟨-, rfl⟩ := Place.mk.inj he
    refine ⟨u ++ [t], by simp [tokens_next], ?_⟩
    rw [tokens_next, List.foldl_append]
    rfl

lemma Reaches.counts (h : s.Reaches s') (hs : s.toPlace.Counts d ts) : s'.toPlace.Counts d ts := by
  induction h with
  | refl => exact hs
  | tail _ hn ih => exact hn ▸ next_counts ih

lemma Reaches.places (h : s.Reaches s') (hs : ∀ p ∈ s.places, p.Counts d ts) :
    ∀ p ∈ s'.places, p.Counts d ts := by
  induction h with
  | refl => exact hs
  | tail _ hn ih =>
    subst hn
    exact List.forall_mem_cons.mpr ⟨next_counts (ih _ List.mem_cons_self), ih⟩

lemma Reaches.mem_places (h : s.Reaches s') : ∀ p ∈ s.places, p ∈ s'.places := by
  induction h with
  | refl => exact fun p hp => hp
  | tail _ hn ih =>
    subst hn
    exact fun p hp => List.mem_cons_of_mem _ (ih p hp)

lemma Reaches.exists_place {t : Token} {after : List Token} (h : s.Reaches s')
    (hs : t :: after <:+ s.tokens) :
    (∃ p ∈ s'.places, p.tokens = t :: after) ∨ t :: after <:+ s'.tokens := by
  induction h with
  | refl => exact .inr hs
  | @tail s' _ _ hn ih =>
    subst hn
    obtain ⟨p, hp, he⟩ | hcome := ih
    · exact .inl ⟨p, List.mem_cons_of_mem _ hp, he⟩
    · rw [tokens_next]
      cases hts : s'.tokens with
      | nil => simp [hts] at hcome
      | cons u us =>
        rw [hts, List.suffix_cons_iff] at hcome
        obtain he | hcome := hcome
        · exact .inl ⟨_, List.mem_cons_of_mem _ List.mem_cons_self, hts.trans he.symm⟩
        · exact .inr hcome

lemma reaches_dropTerminator (s : Scanner) : s.Reaches s.dropTerminator := by
  unfold dropTerminator
  split
  · exact .next s
  · exact .refl

lemma reaches_skip (base : Nat) (s : Scanner) : s.Reaches (s.skip base) := by
  fun_induction skip base s with
  | case1 s hs => exact .refl
  | case2 => exact .refl
  | case3 => exact reaches_dropTerminator _
  | case4 s t ts hs h₁ h₂ hl ih => exact .head rfl ih

lemma skip_depth (base : Nat) (s : Scanner) :
    (s.skip base).tokens = [] ∨ (s.skip base).depth ≤ base := by
  fun_induction skip base s with
  | case1 s hs => exact .inl hs
  | case2 s t ts hs h => exact .inr h.1
  | case3 s t ts hs h₁ h₂ =>
    unfold dropTerminator
    split
    · next hp =>
      obtain ⟨us, hus⟩ := List.head?_eq_some_iff.mp hp
      right
      simpa [next, hus, Place.onto, step] using h₂.1
    · exact .inr h₂.1
  | case4 s t ts hs h₁ h₂ hl ih => exact ih

lemma tokens_dropTerminator {t : Token} (hs : s.tokens = t :: ts) :
    s.dropTerminator.next.tokens = Recovery.dropTerminator ts := by
  rw [dropTerminator, peek?, hs, List.tail_cons]
  by_cases hts : ts.head? = some .semicolon
  · rw [if_pos hts, tokens_next, tokens_next, hs, List.tail_cons]
    obtain ⟨us, rfl⟩ := List.head?_eq_some_iff.mp hts
    rfl
  · rw [if_neg hts, tokens_next, hs, List.tail_cons]
    unfold Recovery.dropTerminator
    split
    · simp at hts
    · rfl

lemma tokens_skip (hs : s.toPlace = Place.onto d s.tokens) :
    (s.skip 0).next.tokens = Recovery.skip d s.tokens := by
  have hdepth {s : Scanner} {d : Nat} {t : Token} {ts : List Token} (ht : s.tokens = t :: ts)
      (hs : s.toPlace = Place.onto d s.tokens) : s.depth = step d t := by
    rw [hs, ht]
    rfl
  fun_induction skip 0 s generalizing d with
  | case1 s h => rw [tokens_next, h]; rfl
  | case2 s t ts h hc =>
    obtain ⟨hd, rfl⟩ := hc
    have hz : d = 0 := by simpa [step, hdepth h hs] using hd
    rw [tokens_next, h, Recovery.skip, if_pos hz, List.tail_cons]
  | case3 s t ts h _ hc =>
    obtain ⟨hd, rfl⟩ := hc
    have hz : d - 1 = 0 := by simpa [step, hdepth h hs] using hd
    rw [tokens_dropTerminator h, h, Recovery.skip, if_pos hz]
  | case4 s t ts h hc₁ hc₂ hl ih =>
    rw [hdepth h hs] at hc₁ hc₂
    have hn : s.next.toPlace = Place.onto (step d t) s.next.tokens := by
      rw [tokens_next, ← hdepth h hs]
      rfl
    rw [ih hn, tokens_next, h, List.tail_cons, Recovery.skip_over hc₁ hc₂]

lemma tokens_resume (hs : s.toPlace = Place.onto 0 s.tokens) (hr : s.Reaches s') :
    (s'.skip 0).next.tokens = Recovery.resume s.tokens s'.tokens.tail := by
  obtain ⟨u, hu, he⟩ := hr.counts (Place.counts_of_eq hs)
  rw [tokens_skip he, hu]
  cases hs' : s'.tokens with
  | nil => rw [List.append_nil, List.tail_nil, Recovery.resume_nil, Recovery.skip]
  | cons t rest =>
    have hbefore : (u ++ t :: rest).length - rest.length - 1 = u.length := by
      simp only [List.length_append, List.length_cons]
      omega
    unfold Recovery.resume
    dsimp only
    rw [List.tail_cons, hbefore, List.take_left, List.drop_left]
    rfl

/-- The tokens from the one that `s` stands on to the one that `s'` stands on are balanced. -/
def BalancedTo (s s' : Scanner) : Prop :=
  ∃ before t after, s.tokens = before ++ t :: after ∧ s'.tokens = t :: after ∧
    Balanced (before ++ [t])

lemma balancedTo_of_takes {α : Type} {p : Parse α} {q : Scan α} {phrase : α → Phrase} {a : α}
    (hp : Parse.Takes p fun a u => Yields (phrase a) u) (hq : Scan.Follows Scan.At p q)
    (h : q s = .done a s') : s.BalancedTo s' := by
  have hm := hq s.tokens s rfl
  rw [h] at hm
  generalize hx : p s.tokens = x at hm
  cases hm with
  | @done _ rest _ hr hb =>
    obtain ⟨u, hu, hy⟩ := hp _ _ _ hx
    obtain ⟨t, ht⟩ := hb
    obtain ⟨before, hs⟩ := hr.suffix
    have he : u = before ++ [t] := by
      rw [← List.append_left_inj rest, ← hu, ← hs, ht, List.append_assoc, List.singleton_append]
    exact ⟨before, t, rest, by rw [← hs, ht], ht, he ▸ hy.balanced⟩

lemma balancedTo_statement {n : Nat} {st : Stmt}
    (h : (Scanning.nested n).statement s = .done st s') : s.BalancedTo s' :=
  balancedTo_of_takes (Rules.sound_nested n).statement (Rules.followed_nested n).statement h

lemma balancedTo_expression {n floor : Nat} {e : Expr}
    (h : (Scanning.nested n).expression floor s = .done e s') : s.BalancedTo s' :=
  balancedTo_of_takes ((Rules.sound_nested n).expression floor)
    ((Rules.followed_nested n).expression floor) h

lemma depth_of_balancedTo (hs : s.toPlace = Place.onto d s.tokens) (hr : s.Reaches s')
    (hb : s.BalancedTo s') : s'.depth = d := by
  obtain ⟨before, t, after, hts, ht, hbal⟩ := hb
  obtain ⟨before', hts', hd⟩ := (hr.counts (Place.counts_of_eq hs)).depth_eq ht
  obtain rfl := List.append_cancel_right (hts.symm.trans hts')
  rw [hd, hbal.foldl_step]

/-- A turn starts here: no brace is open in front of the token that is stood on. -/
def Rested (s : Scanner) : Prop :=
  s.tokens ≠ [] → s.toPlace = Place.onto 0 s.tokens

lemma tokens_start (ts : List Token) : (start ts).tokens = ts :=
  Place.tokens_onto 0 ts

lemma start_eq (ts : List Token) : (start ts).toPlace = Place.onto 0 (start ts).tokens := by
  rw [tokens_start]
  rfl

lemma rested_next (hs : s.tokens = [] ∨ s.depth = 0) : s.next.Rested := by
  intro hne
  rw [tokens_next] at hne ⊢
  obtain h | h := hs
  · simp [h] at hne
  · rw [← h]
    rfl

/-- A turn from `s` ends with this entry, and the next one starts at `s'`. -/
structure TurnsTo (s : Scanner) (entry : Program.Entry) (s' : Scanner) : Prop where
  reaches : s.Reaches s'
  rested : s'.Rested
  shorter : s'.tokens.length < s.tokens.length
  entries : Program.allEntries s.tokens = entry :: Program.allEntries s'.tokens

section Turn

variable {n : Nat} (hn : Rules.enough s.tokens ≤ n)

include hn

lemma matches_unbounded :
    Scan.Matches s (Rules.unbounded.statement s.tokens) ((Scanning.nested n).statement s) := by
  rw [(Rules.statement_nested _ hn).1]
  exact (Rules.followed_nested n).statement _ s rfl

lemma turnsTo_of_done (hs : s.Rested) (hne : s.tokens ≠ []) {st : Stmt}
    (h : (Scanning.nested n).statement s = .done st s') : s.TurnsTo (.ok st) s'.next := by
  have hm := matches_unbounded hn
  rw [h] at hm
  generalize hx : Rules.unbounded.statement s.tokens = x at hm
  cases hm with
  | @done _ rest _ hr hb =>
    obtain ⟨t, ht⟩ := hb
    have hrest : s'.next.tokens = rest := by rw [tokens_next, ht, List.tail_cons]
    refine ⟨hr.tail rfl, rested_next (.inr ?_), ?_, ?_⟩
    · exact depth_of_balancedTo (hs hne) hr (balancedTo_statement h)
    · rw [hrest]
      exact Rules.length_statement_lt hx
    · rw [hrest]
      exact Program.allEntries_done hx

lemma turnsTo_of_failed (hs : s.Rested) (hne : s.tokens ≠ []) {error : ParseError}
    (h : (Scanning.nested n).statement s = .failed error s') :
    s.TurnsTo (.error error) (s'.skip s.base).next := by
  have hbase : s.base = 0 := by
    obtain ⟨t, ts, ht⟩ := List.exists_cons_of_ne_nil hne
    rw [hs hne, ht]
    exact Place.base_onto t ts
  have hm := matches_unbounded hn
  rw [h] at hm
  generalize hx : Rules.unbounded.statement s.tokens = x at hm
  cases hm with
  | failed hr ht =>
    -- The scanner goes by its own count, the rules by one over the tokens that were taken.
    have hrest := tokens_resume (hs hne) hr
    rw [ht] at hrest
    rw [hbase]
    refine ⟨(hr.trans (reaches_skip 0 s')).tail rfl, rested_next ?_, ?_, ?_⟩
    · simpa using skip_depth 0 s'
    · rw [hrest]
      exact Recovery.length_resume_lt _ hne
    · rw [hrest]
      obtain ⟨t, ts, hts⟩ := List.exists_cons_of_ne_nil hne
      rw [hts] at hx ⊢
      exact Program.allEntries_failed hx

lemma statement_ne_exhausted : (Scanning.nested n).statement s ≠ .exhausted := by
  intro h
  have hm := matches_unbounded hn
  rw [h] at hm
  generalize hx : Rules.unbounded.statement s.tokens = x at hm
  cases hm
  exact Program.statement_ne_exhausted _ hx

end Turn

/-- What a run from `s` on comes to. -/
structure Reads (s : Scanner) (r : Run) : Prop where
  reaches : s.Reaches r.last
  ended : r.last.tokens = []
  entries : r.turns.map Turn.entry = Program.allEntries s.tokens
  heads : ∀ turn ∈ r.turns, turn.head ∈ r.last.places ∧ ∃ t ts, turn.head = Place.onto 0 (t :: ts)

lemma Reads.nil (h : s.tokens = []) : s.Reads ⟨[], s⟩ where
  reaches := .refl
  ended := h
  entries := by rw [h]; rfl
  heads := by simp

lemma Reads.behind {r : Run} {entry : Program.Entry} (h : s'.Reads r) (ht : s.TurnsTo entry s')
    (hs : s.Rested) (hne : s.tokens ≠ []) : s.Reads (r.behind ⟨s.toPlace, entry⟩) := by
  have hlast : s.Reaches r.last := ht.reaches.trans h.reaches
  refine ⟨hlast, h.ended, ?_, List.forall_mem_cons.mpr ⟨⟨?_, ?_⟩, h.heads⟩⟩
  · rw [ht.entries, ← h.entries]
    rfl
  · exact hlast.mem_places _ List.mem_cons_self
  · obtain ⟨t, ts, hts⟩ := List.exists_cons_of_ne_nil hne
    exact ⟨t, ts, hts ▸ hs hne⟩

lemma reads_run {n k : Nat} (hs : s.Rested) (hk : s.tokens.length ≤ k)
    (hn : Rules.enough s.tokens ≤ n) : s.Reads ((Scanning.nested n).run k s) := by
  -- The invariant from turn to turn is that the scanner is rested, whatever it came to before.
  induction k generalizing s with
  | zero => exact .nil (List.eq_nil_of_length_eq_zero (Nat.le_zero.mp hk))
  | succ k ih =>
    by_cases hne : s.tokens = []
    · rw [Scanning.run, if_pos hne]
      exact .nil hne
    have hturn {s' : Scanner} {entry : Program.Entry} (ht : s.TurnsTo entry s') :
        s.Reads (((Scanning.nested n).run k s').behind ⟨s.toPlace, entry⟩) := by
      have hlen := ht.shorter
      refine (ih ht.rested (by omega) ?_).behind ht hs hne
      unfold Rules.enough at hn ⊢
      omega
    rw [Scanning.run, if_neg hne]
    cases h : (Scanning.nested n).statement s with
    | done st s' => exact hturn (turnsTo_of_done hn hs hne h)
    | failed error s' => exact hturn (turnsTo_of_failed hn hs hne h)
    | exhausted => exact absurd h (statement_ne_exhausted hn)

end Scanner

namespace Program

open Scanner (tokens_start start_eq)

lemma reads_scan (ts : List Token) : (Scanner.start ts).Reads (scan ts) := by
  apply Scanner.reads_run fun _ => start_eq ts
  · rw [tokens_start]
  · rw [tokens_start]
    rfl

lemma exists_place_scan (before : List Token) (t : Token) (after : List Token) :
    ∃ p ∈ (scan (before ++ t :: after)).last.places, p.tokens = t :: after := by
  have h := reads_scan (before ++ t :: after)
  apply (h.reaches.exists_place _).resolve_right
  · simp [h.ended]
  · rw [tokens_start]
    exact List.suffix_append before _

lemma counts_scan (ts : List Token) : ∀ p ∈ (scan ts).last.places, p.Counts 0 ts := by
  apply (reads_scan ts).reaches.places
  intro p hp
  obtain rfl := List.mem_singleton.mp hp
  exact ⟨[], (tokens_start ts).symm, start_eq ts⟩

lemma outcome_scan (ts : List Token) : (scan ts).outcome = ofTokens ts := by
  rw [Scanner.Run.outcome, (reads_scan ts).entries, tokens_start, ofTokens_eq]

end Program

theorem braces_counted_and_balanced (ts : List Token) :
    (∀ before t after, ts = before ++ t :: after →
      ∃ p ∈ (Program.scan ts).last.places, p.tokens = t :: after) ∧
    (∀ p ∈ (Program.scan ts).last.places, ∀ t after, p.tokens = t :: after →
      ∃ before, ts = before ++ t :: after ∧ p.depth = depth (before ++ [t]) ∧
        p.depth = unclosed (before ++ [t]) ∧ (t = .lbrace → 1 ≤ p.depth)) ∧
    (∀ turn ∈ (Program.scan ts).turns, turn.head ∈ (Program.scan ts).last.places ∧
      turn.head.opening ≤ turn.head.depth ∧ turn.head.base = 0) ∧
    (∀ n s st s', (Scanning.nested n).statement s = .done st s' → s.BalancedTo s') ∧
    (∀ n floor s e s', (Scanning.nested n).expression floor s = .done e s' → s.BalancedTo s') ∧
    (∀ n, (Rules.nested n).Followed (Scanning.nested n)) ∧
    (Program.scan ts).last.tokens = [] ∧ (Program.scan ts).outcome = Program.ofTokens ts := by
  refine ⟨?_, fun p hp t after hpt => ?_, fun turn hturn => ?_,
    fun _ _ _ _ => Scanner.balancedTo_statement, fun _ _ _ _ _ => Scanner.balancedTo_expression,
    Rules.followed_nested, (Program.reads_scan ts).ended, Program.outcome_scan ts⟩
  · rintro before t after rfl
    exact Program.exists_place_scan before t after
  · obtain ⟨before, hts, hdepth⟩ := (Program.counts_scan ts p hp).depth_eq hpt
    refine ⟨before, hts, hdepth, hdepth.trans (depth_eq_unclosed _), ?_⟩
    rintro rfl
    rw [hdepth, List.foldl_append]
    exact Nat.le_add_left 1 _
  · obtain ⟨hplace, t, rest, hhead⟩ := (Program.reads_scan ts).heads turn hturn
    rw [hhead] at hplace ⊢
    exact ⟨hplace, Place.opening_le_depth 0 _, Place.base_onto t rest⟩

end Nut
