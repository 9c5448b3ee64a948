import Nut.Proofs.Evaluation.Alike
import Nut.Proofs.Evaluation.Reachable

/-! An evaluation sees of the heap only what can be reached from its scope. -/

namespace Nut

/-- An evaluation that would call `rand`, or print a hash of two or more entries, does not come to
its end. -/
def Operations.quiet : Operations where
  call
    | .rand, _ => Eval.exhausted
    | .puts, vs => if Value.allOrderFree vs then Builtin.call .puts vs else Eval.exhausted
    | b, vs => Builtin.call b vs
  assign := Eval.assign

/-- The heaps have the same scopes as far as `S` says, hashes compared as maps. -/
structure Heap.Agree (S : Nat → Prop) (h g : Heap) : Prop where
  size_eq : h.size = g.size
  outer_eq {c : Nat} : S c → h.outer? c = g.outer? c
  locals {c : Nat} (x : String) : S c → Option.Rel Value.Alike (h.local? c x) (g.local? c x)

def SamePrinted (s t s' t' : State) : Prop :=
  ∃ text, s'.output = s.output ++ text ∧ t'.output = t.output ++ text

inductive Outcome.Alike (P : State → State → Prop) : Outcome Value → Outcome Value → Prop
  | normal {v w s t} : v.Alike w → P s t → Alike P (.normal v s) (.normal w t)
  | returned {v w s t} : v.Alike w → P s t →
      Alike P (.unwound (.returned v) s) (.unwound (.returned w) t)
  | failed {s t} (fault : Fault) : P s t →
      Alike P (.unwound (.failed fault) s) (.unwound (.failed fault) t)
  | exhausted : Alike P .exhausted .exhausted

namespace Coupling

variable {V : Value → Value → Prop} {n k : Nat} {W : Nat → Prop} {s₀ t₀ : State}

lemma ambient_samePrinted : Ambient V n W (SamePrinted s₀ t₀) where
  extend _ _ h := h
  declare _ _ _ h := h

def printing (n : Nat) (W : Nat → Prop) (s₀ t₀ : State) : Coupling :=
  linked Value.Alike n W (SamePrinted s₀ t₀)

lemma printLine_same {v w : Value} (h : ∀ a b, v.text a = w.text b) :
    (printing n W s₀ t₀).Runs k (fun _ _ _ => True) (Eval.printLine v) (Eval.printLine w) := by
  rintro l s t - ⟨hn, hs, H, printed, hsout, htout⟩
  refine .normal le_rfl trivial
    ⟨hn, hs, H, printed ++ (v.text s.host.arrangement ++ "\n"), ?_, ?_⟩
  · simp only [hsout, String.append_assoc]
  · simp only [htout, String.append_assoc, h s.host.arrangement t.host.arrangement]

lemma quiet_call {vs ws : List Value} (b : Builtin)
    (hvs : List.Forall₂ (Restrict Value.Alike (Visible n W k)) vs ws) :
    (printing n W s₀ t₀).Runs k (printing n W s₀ t₀).value (Operations.quiet.call b vs)
      (Operations.quiet.call b ws) := by
  have hL (l : Nat) : Likeness ((printing n W s₀ t₀).value l) :=
    Value.Alike.relation.toLikeness.restrict _
  cases b with
  | rand => exact .exhausted fun _ => rfl
  | puts =>
    have hsame : List.Forall₂ Value.SameText vs ws := hvs.imp fun _ _ h => h.2.sameText
    obtain ⟨hfree, htext⟩ := Value.sameText_all hsame
    simp only [Operations.quiet, ← hfree]
    split
    · next hall =>
      exact Runs.printAll (fun _ _ => printLine_same) (fun l => (hL l).atom rfl) (htext hall)
    · exact .exhausted fun _ => rfl
  | _ =>
    exact .ofExcept fun l hl => Builtin.result_agree (hL l) _ (hvs.imp fun _ _ => restrict_later hl)

lemma lawful_quiet : (printing n W s₀ t₀).Lawful .quiet .quiet :=
  lawful_linked Value.Alike.relation ambient_samePrinted rfl rfl fun _ _ _ b => quiet_call b

end Coupling

structure StillAgree (roots : Nat → Prop) (s t s' t' : State) : Prop where
  printed : SamePrinted s t s' t'
  heap : s'.heap.Agree (fun c => s.heap.size ≤ c ∨ s.heap.Reaches roots c) t'.heap

def Term.Quiet (t : Term) (steps e : Nat) (s : State) : Prop :=
  t.evalWith .quiet steps e s = t.eval steps e s

def Value.applyWith (ops : Operations) (steps : Nat) (callee : Value) (vs : List Value) :
    Eval Value :=
  evalCall ops (Stmt.evalWith ops steps) callee vs

section Runs

variable {roots : Nat → Prop} {s t : State}

lemma Heap.Agree.like {h g : Heap} (hh : h.Linked) (hg : h.Agree (h.Reaches roots) g) :
    h.Like Value.Alike (Visible h.size (h.Reaches roots) h.size) g where
  size_eq := hg.size_eq
  closed ha hl := ⟨hh _ _ hl, fun _ => .link (ha.2 ha.1) hl⟩
  outer_eq ha := hg.outer_eq (ha.2 ha.1)
  locals x ha := hg.locals x (ha.2 ha.1)

lemma Heap.Like.agree {h g : Heap} {n : Nat} {W : Nat → Prop}
    (H : h.Like Value.Alike (Visible n W h.size) g) : h.Agree (fun c => n ≤ c ∨ W c) g := by
  have hvisible {c : Nat} (hc : n ≤ c ∨ W c) (hlt : c < h.size) : Visible n W h.size c :=
    ⟨hlt, fun hn => hc.resolve_left (not_le.mpr hn)⟩
  refine ⟨H.size_eq, fun {c} hc => ?_, fun {c} x hc => ?_⟩
  · rcases lt_or_ge c h.size with hlt | hge
    · exact H.outer_eq (hvisible hc hlt)
    · rw [outer?_of_size_le h c hge, outer?_of_size_le g c (H.size_eq ▸ hge)]
  · rcases lt_or_ge c h.size with hlt | hge
    · exact H.locals x (hvisible hc hlt)
    · rw [local?_of_size_le h c x hge, local?_of_size_le g c x (H.size_eq ▸ hge)]
      exact .none

lemma Coupling.Meet.alike {o p : Outcome Value} {k : Nat}
    (h : (printing s.heap.size (s.heap.Reaches roots) s t).Meet k
      (printing s.heap.size (s.heap.Reaches roots) s t).value o p) :
    Outcome.Alike (StillAgree roots s t) o p := by
  have hstate {l : Nat} {s' t' : State}
      (hst : (printing s.heap.size (s.heap.Reaches roots) s t).state l s' t') :
      StillAgree roots s t s' t' := by
    obtain ⟨-, rfl, H, hprinted⟩ := hst
    exact ⟨hprinted, H.agree⟩
  cases h with
  | normal _ hv hst => exact .normal hv.2 (hstate hst)
  | returned _ hv hst => exact .returned hv.2 (hstate hst)
  | failed fault _ hst => exact .failed fault (hstate hst)
  | exhausted ho =>
    obtain rfl := ho trivial
    exact .exhausted

lemma Coupling.Runs.alike {m n : Eval Value} (hs : s.heap.Linked)
    (hst : s.heap.Agree (s.heap.Reaches roots) t.heap)
    (h : (printing s.heap.size (s.heap.Reaches roots) s t).Runs s.heap.size
      (printing s.heap.size (s.heap.Reaches roots) s t).value m n) :
    Outcome.Alike (StillAgree roots s t) (m s) (n t) :=
  (h _ s t le_rfl ⟨le_rfl, rfl, hst.like hs, "", by simp, by simp⟩).alike

/-- Heaps that agree on what can be reached make no difference to a program, and none to a call:
there it is the called function and the arguments that decide, wherever the call stands. -/
theorem alike_of_agree (hs : s.heap.Reachable) :
    (∀ (term : Term) (steps e : Nat), e < s.heap.size →
      s.heap.Agree (s.heap.Reaches (· = e)) t.heap → term.Quiet steps e s → term.Quiet steps e t →
      Outcome.Alike (StillAgree (· = e) s t) (term.eval steps e s) (term.eval steps e t)) ∧
    ∀ (steps : Nat) (f g : Value) (vs ws : List Value), f.Alike g → List.Forall₂ Value.Alike vs ws →
      let roots := fun c => f.Holds c ∨ ∃ v ∈ vs, v.Holds c
      (∀ c, roots c → c < s.heap.size) → s.heap.Agree (s.heap.Reaches roots) t.heap →
      f.applyWith .quiet steps vs s = f.applyWith .all steps vs s →
      g.applyWith .quiet steps ws t = g.applyWith .all steps ws t →
      Outcome.Alike (StillAgree roots s t) (f.applyWith .all steps vs s)
        (g.applyWith .all steps ws t) := by
  constructor
  · intro term steps e he hst hq hq'
    rw [← hq, ← hq']
    have hvisible : Visible s.heap.size (s.heap.Reaches (· = e)) s.heap.size e :=
      ⟨he, fun _ => .root rfl⟩
    refine Coupling.Runs.alike hs.linked hst ?_
    exact Coupling.lawful_quiet.term le_rfl (fun _ => rfl) term ⟨rfl, hvisible⟩ fun _ _ =>
      ⟨rfl, hvisible⟩
  · intro steps f g vs ws hfg hvs roots hroots hst hq hq'
    rw [← hq, ← hq']
    have hvisible {c : Nat} (hc : roots c) :
        Visible s.heap.size (s.heap.Reaches roots) s.heap.size c := ⟨hroots c hc, fun _ => .root hc⟩
    refine Coupling.Runs.alike hs.linked hst (Coupling.lawful_quiet.evalCall ?_ ?_ ?_)
    · intro l a b _ hab hown st
      exact (Coupling.lawful_quiet.eval le_rfl fun _ => rfl).2 l a b st hab fun name _ => hown name
    · exact ⟨fun c hc => hvisible (.inl hc), hfg⟩
    · exact (List.forall₂_and_left vs ws).mpr
        ⟨fun v hv c hc => hvisible (.inr ⟨v, hv, hc⟩), hvs⟩

end Runs

def getBody : List Stmt := [.expr (.index (.ident "h") (.ident "key"))]

/-- A closure looks up what it is asked for, this is printed, and the whole hash is the result. -/
def lookUp : List Stmt :=
  [.declare "get" (.function ["key"] getBody),
    .expr (.call (.ident "puts") [.call (.ident "get") [.string "a"]]), .expr (.ident "h")]

def filled : Value := .hash [(.string "a", .bool true), (.string "b", .null)]

def filledBackwards : Value := .hash [(.string "b", .null), (.string "a", .bool true)]

lemma filled_alike : filled.Alike filledBackwards := by
  refine Value.Alike.hash_iff.mpr ⟨rfl, fun key => ?_⟩
  simp only [Entries.get?]
  by_cases ha : key = .string "a"
  · subst ha
    exact .some (.atom rfl)
  · by_cases hb : key = .string "b"
    · subst hb
      exact .some (.atom rfl)
    · rw [if_neg ha, if_neg hb, if_neg hb, if_neg ha]
      exact .none

lemma filled_holdsIn (S : Nat → Prop) : filled.HoldsIn S := by
  refine Value.holdsIn_hash.mpr fun key v hv => ?_
  simp only [Entries.get?] at hv
  split_ifs at hv <;> cases hv <;> exact Value.holdsIn_of_isAtom rfl

def twoScopes : Heap := ((Heap.initial.extend none).declare 0 "h" filled).declare 1 "x" .null

def otherScopes : Heap :=
  ⟨#[⟨[("h", filledBackwards)], none⟩, ⟨[("y", filledBackwards)], some 0⟩]⟩

lemma twoScopes_agree {roots : Nat → Prop} (hroots : ∀ c, roots c → c = 0) :
    twoScopes.Agree (twoScopes.Reaches roots) otherScopes := by
  have hno : ∀ a b, ¬twoScopes.Links a b := by
    intro a b hl
    rcases hl.of_declare with hl | ⟨-, hb⟩
    · rcases hl.of_declare with hl | ⟨-, hb⟩
      · rcases hl.of_extend with hl | ⟨-, hb⟩
        · exact Heap.not_links_initial a b hl
        · cases hb
      · exact filled_holdsIn (fun _ => False) b hb
    · cases hb
  have hzero {c : Nat} (hc : twoScopes.Reaches roots c) : c = 0 := by
    cases hc with
    | root hc => exact hroots c hc
    | link _ hl => exact absurd hl (hno _ _)
  refine ⟨rfl, fun hc => ?_, fun x hc => ?_⟩
  · obtain rfl := hzero hc
    rfl
  · obtain rfl := hzero hc
    show Option.Rel _ (if x = "h" then some filled else none)
      (if x = "h" then some filledBackwards else none)
    split
    · exact .some filled_alike
    · exact .none

theorem alike_of_agree_lookUp :
    let s : State := ⟨twoScopes, "", .seeded 0⟩
    let t : State := ⟨otherScopes, "before\n", .seeded 1⟩
    let get : Value := .function ["key"] getBody 0
    let roots := fun c => get.Holds c ∨ ∃ v ∈ [Value.string "a"], v.Holds c
    Outcome.Alike (StillAgree (· = 0) s t) ((Term.body lookUp).eval 9 0 s)
        ((Term.body lookUp).eval 9 0 t) ∧
      ((Term.body lookUp).eval 9 0 s).carried = some filled ∧
      Outcome.Alike (StillAgree roots s t) (get.applyWith .all 9 [.string "a"] s)
        (get.applyWith .all 9 [.string "a"] t) := by
  intro s t get roots
  have hs : s.heap.Reachable :=
    .declare 1 "x" (.declare 0 "h" (.top .initial) (filled_holdsIn _)) (Value.holdsIn_of_isAtom rfl)
  have hroots : ∀ c, roots c → c = 0 := by
    rintro c (hc | ⟨v, hv, hc⟩)
    · exact (Value.holdsIn_function (S := (· = 0))).mpr rfl c hc
    · obtain rfl := List.mem_singleton.mp hv
      cases hc
  obtain ⟨hrun, hcall⟩ := alike_of_agree (t := t) hs
  refine ⟨?_, by cbv, ?_⟩
  · exact hrun _ 9 0 (by decide) (twoScopes_agree fun _ hc => hc) (by cbv) (by cbv)
  · refine hcall 9 get get _ _ (.function _ _ _) (.cons (.atom rfl) .nil) ?_
      (twoScopes_agree hroots) (by dsimp only [s, get]; cbv) (by dsimp only [t, get]; cbv)
    intro c hc
    rw [hroots c hc]
    decide

end Nut
