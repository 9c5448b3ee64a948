import Nut.Proofs.Parsing.Contained
import Nut.Proofs.Parsing.Soundness

/-! Statements that end in a semicolon are read apart from those around them, broken or not. -/

namespace Nut

open Recovery (step)

section Fences

variable {d : Nat} {ts : List Token}

@[simp] lemma fenced_solid {t : Token} (hs : t ≠ .semicolon) (hl : t ≠ .lbrace) (hr : t ≠ .rbrace)
    (hf : t ≠ .keyword .loop) : Fenced d (t :: ts) ↔ Fenced d ts := by
  have hstep : step d t = d := by cases t <;> first | rfl | contradiction
  exact ⟨fun h => hstep ▸ h.tail (.inr hs), fun h => .cons (fun _ => ⟨hs, hr, hf⟩) (hstep.symm ▸ h)⟩

@[simp] lemma fenced_lbrace : Fenced d (.lbrace :: ts) ↔ Fenced (d + 1) ts :=
  ⟨fun h => h.tail (.inr (by simp)), fun h => .cons (by simp) h⟩

@[simp] lemma fenced_rbrace : Fenced (d + 1) (.rbrace :: ts) ↔ Fenced d ts :=
  ⟨fun h => h.tail (.inl (by simp)), fun h => .cons (by simp) h⟩

@[simp] lemma fenced_semicolon : Fenced (d + 1) (.semicolon :: ts) ↔ Fenced (d + 1) ts :=
  ⟨fun h => h.tail (.inl (by simp)), fun h => .cons (by simp) h⟩

@[simp] lemma fenced_loop : Fenced (d + 1) (.keyword .loop :: ts) ↔ Fenced (d + 1) ts :=
  ⟨fun h => h.tail (.inl (by simp)), fun h => .cons (by simp) h⟩

@[simp] lemma fenced_names (names : List String) :
    Fenced d (separated .comma (names.map ([.ident ·])) ++ ts) ↔ Fenced d ts := by
  match names with
  | [] => rfl
  | [name] => simp [separated]
  | name :: next :: names =>
    have ih := fenced_names (next :: names)
    rw [List.map_cons, separated_cons]
    simpa using ih

@[simp] lemma fenced_token (op : PrefixOp) : Fenced d (op.token :: ts) ↔ Fenced d ts := by
  cases op <;> simp [PrefixOp.token]

lemma Terminator.fenced {w : List Token} (hw : Terminator w) (h : Fenced (d + 1) ts) :
    Fenced (d + 1) (w ++ ts) := by
  obtain rfl | rfl := hw
  · exact h
  · simpa using h

end Fences

/-- In front of a fenced list the tokens of a phrase leave it fenced; those of statements do so in
braces only, where their semicolons are no fences. -/
def Phrase.Passes (u : List Token) : Phrase → Prop
  | .expr _ | .elements _ | .pairs _ => ∀ d ts, Fenced d ts → Fenced d (u ++ ts)
  | .stmt _ | .body _ => ∀ d ts, Fenced (d + 1) ts → Fenced (d + 1) (u ++ ts)

lemma Yields.passes {phrase : Phrase} {u : List Token} (h : Yields phrase u) : phrase.Passes u := by
  induction h with (simp only [Phrase.Passes] at *; intro d ts hts)
  | ident | int | float | string | truth | falsity => simpa using hts
  | noElement | noPair | nil => exact hts
  | paren _ ih | array _ ih | hash _ ih | prefixOp _ _ ih | function _ _ ih | lastElement _ ih =>
    simp [ih, hts]
  | infixOp _ _ _ ihl ihr | assign _ _ ihl ihr | condOnce _ _ ihl ihr | element _ _ _ ihl ihr
  | lastPair _ _ ihl ihr | cons _ _ ihl ihr => simp [ihl, ihr, hts]
  | call _ _ ihl ihr =>
    have hv := ihr d (.rparen :: ts) (by simpa using hts)
    simp [ihl, hv]
  | index _ _ ihl ihr =>
    have hv := ihr d (.rbracket :: ts) (by simpa using hts)
    simp [ihl, hv]
  | @condBoth _ _ _ _ _ w _ _ _ ihc iha ihb =>
    have hw : Fenced d (.keyword .otherwise :: .lbrace :: (w ++ .rbrace :: ts)) := by simp [ihb, hts]
    simp [ihc, iha, hw]
  | pair _ _ _ ihk ihe ihp =>
    have hv := ihe d (.comma :: _) (by simpa using ihp d ts hts)
    simp [ihk, hv]
  | declare _ _ hw ih | bind _ _ hw ih | result _ hw ih | expr _ hw ih | block _ _ hw ih =>
    simp [ih, hw.fenced hts]
  | @loop _ _ _ _ _ _ w x _ _ _ _ ihi ihc ihp ihb =>
    have hx : Fenced (d + 1) (.rparen :: .lbrace :: (x ++ .rbrace :: ts)) := by simp [ihb, hts]
    have hv := ihc (d + 1) (.semicolon :: (w ++ .rparen :: .lbrace :: (x ++ .rbrace :: ts)))
      (by simpa using ihp d _ hx)
    simpa using ihi d _ hv

lemma not_fenced_two {d : Nat} (us : List Token) : ¬ Fenced d (us ++ [.semicolon, .semicolon]) := by
  intro h
  have hd := h.drop (k := us.length) (by simp)
  rw [List.take_left, List.drop_left] at hd
  generalize us.foldl step d = e at hd
  cases e with
  | zero => cases hd.eq_nil
  | succ e =>
    simp only [fenced_semicolon] at hd
    cases hd

lemma Yields.getLast?_ne {e : Expr} {u : List Token} (h : Yields (.expr e) u) (before : List Token)
    (hb : before.getLast? ≠ some .semicolon) : (before ++ u).getLast? ≠ some .semicolon := by
  rw [List.getLast?_append]
  cases hl : u.getLast? with
  | none => simpa using hb
  | some t =>
    rintro ⟨⟩
    obtain ⟨v, rfl⟩ := List.getLast?_eq_some_iff.mp hl
    exact not_fenced_two v (by simpa using h.passes 0 [.semicolon] .fence)

lemma Terminator.eq_semicolon {u w : List Token} (hw : Terminator w)
    (hl : (u ++ w).getLast? = some .semicolon) (hu : u.getLast? ≠ some .semicolon) :
    w = [.semicolon] := by
  apply hw.resolve_left
  rintro rfl
  exact hu (by simpa using hl)

lemma Yields.fenced {s : Stmt} {u : List Token} (h : Yields (.stmt s) u)
    (hl : u.getLast? = some .semicolon) : Fenced 0 u := by
  cases h with
  | declare name hu hw =>
    obtain rfl := hw.eq_semicolon hl
      (hu.getLast?_ne [.keyword .binding, .ident name, .assign] (by simp))
    simpa using hu.passes 0 [.semicolon] .fence
  | bind name hu hw =>
    obtain rfl := hw.eq_semicolon hl (hu.getLast?_ne [.ident name, .bind] (by simp))
    simpa using hu.passes 0 [.semicolon] .fence
  | result hu hw =>
    obtain rfl := hw.eq_semicolon hl (hu.getLast?_ne [.keyword .result] (by simp))
    simpa using hu.passes 0 [.semicolon] .fence
  | expr hu hw =>
    obtain rfl := hw.eq_semicolon hl (hu.getLast?_ne [] (by simp))
    exact hu.passes 0 [.semicolon] .fence
  | @block ss u w _ hu hw =>
    obtain rfl := hw.eq_semicolon (u := .lbrace :: u ++ [.rbrace]) (by simpa using hl)
      (by rw [List.getLast?_concat]; simp)
    simpa using hu.passes 0 [.rbrace, .semicolon] (by simp [Fenced.fence])
  | loop =>
    rw [List.getLast?_concat] at hl
    cases hl

namespace Program

open Rules (unbounded)

lemma allEntries_append_landed {ts : List Token} (h : Landed 0 ts) (more : List Token) :
    allEntries (ts ++ more) = allEntries ts ++ allEntries more := by
  obtain hf | ⟨-, rfl⟩ := h
  swap
  · rfl
  obtain ⟨t, us, rfl⟩ := List.exists_cons_of_ne_nil hf.ne_nil
  have hs := Rules.statement_append more (.inr hf)
  cases hd : unbounded.statement (t :: us) with
  | done s rest =>
    have hlen := Rules.length_statement_lt hd
    rw [hd] at hs
    rw [allEntries_done hs, allEntries_done hd,
      allEntries_append_landed (Rules.landed_of_fenced hf hd) more]
    rfl
  | failed error rest =>
    have hlen := Recovery.length_resume_lt rest (List.cons_ne_nil t us)
    obtain ⟨hr, hland⟩ := Recovery.resume_fenced hf rest more
    rw [hd] at hs
    rw [List.cons_append] at hs hr ⊢
    rw [allEntries_failed hs, allEntries_failed hd, hr, allEntries_append_landed hland more]
    rfl
  | exhausted => exact absurd hd (statement_ne_exhausted _)
termination_by ts.length

lemma allEntries_append_accepted {p : Program} {ts : List Token} (h : allEntries ts = p.map .ok)
    (hl : ts.getLast? = some .semicolon) (more : List Token) :
    allEntries (ts ++ more) = allEntries ts ++ allEntries more := by
  induction p generalizing ts with
  | nil =>
    obtain rfl := allEntries_eq_nil.mp h
    rfl
  | cons s p ih =>
    obtain ⟨rest, hs, hp⟩ := allEntries_eq_cons.mp h
    by_cases hr : rest = []
    · subst hr
      obtain ⟨u, hu, hy⟩ := Rules.statement_sound hs
      rw [List.append_nil] at hu
      subst hu
      exact allEntries_append_landed (.inl (hy.fenced hl)) more
    · have hrest : (unbounded.statement ts).rest ≠ [] := by simpa [hs, Parsed.rest] using hr
      have ha := Rules.statement_append more (.inl hrest)
      obtain ⟨u, rfl, -⟩ := Rules.statement_sound hs
      have hlast : rest.getLast? = some .semicolon := by
        rw [← hl]
        exact (List.getLast?_append_of_ne_nil u hr).symm
      rw [hs] at ha
      rw [allEntries_done ha, allEntries_done hs, ih hp hlast]
      rfl

/-- A list that is accepted and ends in a semicolon, or one that is sealed. -/
def Segment (ts : List Token) : Prop :=
  (∃ p, ofTokens ts = .ok p) ∧ ts.getLast? = some .semicolon ∨ Sealed ts

lemma Segment.allEntries_append {ts : List Token} (h : Segment ts) (more : List Token) :
    allEntries (ts ++ more) = allEntries ts ++ allEntries more := by
  obtain ⟨⟨p, hp⟩, hl⟩ | hs := h
  · exact allEntries_append_accepted (ofTokens_eq_ok.mp hp) hl more
  · exact allEntries_append_landed (.inl hs.fenced) more

lemma allEntries_flatten {segments : List (List Token)} (h : ∀ ts ∈ segments, Segment ts) :
    allEntries segments.flatten = segments.flatMap allEntries := by
  induction segments with
  | nil => rfl
  | cons ts segments ih =>
    obtain ⟨hts, hrest⟩ := List.forall_mem_cons.mp h
    rw [List.flatten_cons, List.flatMap_cons, hts.allEntries_append, ih hrest]

def accepted : Except (List ParseError) Program → Program
  | .ok p => p
  | .error _ => []

def rejections : Except (List ParseError) Program → List ParseError
  | .ok _ => []
  | .error es => es

/-- The programs one after the other, unless there is an error in one of them. -/
def joined (outcomes : List (Except (List ParseError) Program)) :
    Except (List ParseError) Program :=
  if outcomes.all Except.isOk then .ok (outcomes.flatMap accepted)
  else .error (outcomes.flatMap rejections)

lemma isOk_ofTokens (ts : List Token) : (ofTokens ts).isOk = (errors (allEntries ts)).isEmpty := by
  rw [ofTokens_eq]
  cases (errors (allEntries ts)).isEmpty <;> rfl

lemma rejections_ofTokens (ts : List Token) :
    rejections (ofTokens ts) = errors (allEntries ts) := by
  rw [ofTokens_eq]
  split
  · next h => exact (List.isEmpty_iff.mp h).symm
  · rfl

lemma accepted_ofTokens {ts : List Token} (h : (ofTokens ts).isOk) :
    accepted (ofTokens ts) = statements (allEntries ts) := by
  rw [isOk_ofTokens] at h
  rw [ofTokens_eq, if_pos h]
  rfl

theorem ofTokens_flatten {segments : List (List Token)} (h : ∀ ts ∈ segments, Segment ts) :
    ofTokens segments.flatten = joined (segments.map ofTokens) := by
  have herrors : errors (segments.flatMap allEntries) =
      (segments.map ofTokens).flatMap rejections := by
    simp [errors, List.filterMap_flatMap, List.flatMap_map, rejections_ofTokens]
  have hok : (errors (segments.flatMap allEntries)).isEmpty =
      (segments.map ofTokens).all Except.isOk := by
    rw [herrors, Bool.eq_iff_iff]
    simp [isOk_ofTokens, rejections_ofTokens]
  rw [ofTokens_eq, allEntries_flatten h, hok, joined]
  split
  · next hall =>
    have hall' : ∀ ts ∈ segments, (ofTokens ts).isOk := by simpa using hall
    have hstatements : statements (segments.flatMap allEntries) =
        segments.flatMap fun ts => accepted (ofTokens ts) := by
      simp only [statements, List.filterMap_flatMap]
      exact List.flatMap_congr fun ts hts => (accepted_ofTokens (hall' ts hts)).symm
    rw [hstatements, List.flatMap_map]
  · rw [herrors]

/-- The tokens of `x := 1; let y = (2 { for ; } ; 5 + ;`. -/
def brokenSegments : List (List Token) :=
  [[.ident "x", .bind, .int "1", .semicolon],
    [.keyword .binding, .ident "y", .assign, .lparen, .int "2", .lbrace, .keyword .loop, .semicolon,
      .rbrace, .semicolon],
    [.int "5", .op .add, .semicolon]]

lemma segment_brokenSegments : ∀ ts ∈ brokenSegments, Segment ts := by
  simp only [brokenSegments, List.forall_mem_cons, List.not_mem_nil, false_imp_iff, implies_true,
    and_true]
  exact ⟨.inl ⟨⟨_, rfl⟩, rfl⟩, .inr ⟨by decide, by decide, rfl, by decide, by decide⟩,
    .inr ⟨by decide, by decide, rfl, by decide, by decide⟩⟩

theorem ofTokens_flatten_brokenSegments :
    (∀ ts ∈ brokenSegments, Segment ts) ∧
      ofTokens brokenSegments.flatten = joined (brokenSegments.map ofTokens) :=
  ⟨segment_brokenSegments, ofTokens_flatten segment_brokenSegments⟩

end Program

end Nut
