import Nut.Proofs.Evaluation.Bindings
import Nut.Proofs.Evaluation.Integers
import Nut.Proofs.Session.Runs

/-! Counters that are made by one function: each keeps the number of its own calls. -/

namespace Nut

open Eval

namespace Counter

/-- The body of a counter, which adds one to the `n` around it. -/
def tick : List Stmt :=
  [.expr (.assign "n" (.infixOp (.ident "n") .add (.int 1))), .result (.ident "n")]

def maker : List Stmt := [.declare "n" (.int 0), .result (.function [] tick)]

def called (name : String) : Expr := .call (.ident name) []

/-- A statement of the texts that make counters and call them. -/
inductive Move where
  | define
  | create (name : String)
  | call (name : String)
  deriving DecidableEq

def Move.stmt : Move → Stmt
  | define => .declare "make" (.function [] maker)
  | create name => .declare name (called "make")
  | call name => .expr (called name)

/-- Counters have names of their own, and one is called after it is made, and as often as there are
positive numbers. -/
def Legal (past : List Move) : Move → Prop
  | .define => True
  | .create name => .define ∈ past ∧ name ≠ "make" ∧ .create name ∉ past
  | .call name => .create name ∈ past ∧ past.count (.call name) + 1 < 2 ^ 63

instance (past : List Move) : (move : Move) → Decidable (Legal past move)
  | .define => inferInstanceAs (Decidable True)
  | .create _ | .call _ => inferInstanceAs (Decidable (_ ∧ _))

def Orderly (moves : List Move) : Prop :=
  ∀ i, (h : i < moves.length) → Legal (moves.take i) moves[i]

instance (moves : List Move) : Decidable (Orderly moves) :=
  inferInstanceAs (Decidable (∀ i, (h : i < moves.length) → Legal (moves.take i) moves[i]))

/-- In the scope `g` the name `x` is bound to a counter, whose number is in the scope `d`. -/
structure Keeps (h : Heap) (g : Nat) (x : String) (d : Nat) (n : Int64) : Prop where
  bound : h.local? g x = some (.function [] tick d)
  ne : d ≠ g
  number : h.local? d "n" = some (.int n)

/-- After these moves every counter keeps the number of its calls, in a scope of its own. -/
structure Counting (h : Heap) (g : Nat) (past : List Move) : Prop where
  scope_lt : g < h.size
  maker_bound : .define ∈ past → h.local? g "make" = some (.function [] maker g)
  created {x : String} : .call x ∈ past → .create x ∈ past
  name_ne {x : String} : .create x ∈ past → x ≠ "make"
  keeps {x : String} : .create x ∈ past → ∃ d n, Keeps h g x d n ∧ n.toInt = past.count (.call x)
  apart {x y : String} {d : Nat} : .create x ∈ past → .create y ∈ past →
    h.local? g x = some (.function [] tick d) → h.local? g y = some (.function [] tick d) → x = y

section Calls

variable {s : State} {h : Heap} {g d k : Nat} {x : String} {v : Value} {n m : Int64}

lemma evalName_of_get? (h : s.heap.get? g x = some v) : evalName g x s = .normal v s := by
  have hlookup : lookup g x s = .normal (some v) s := by rw [lookup, h]
  exact bind_normal hlookup

lemma evalName_of_local? (h : s.heap.local? g x = some v) : evalName g x s = .normal v s := by
  apply evalName_of_get?
  rw [Heap.get?_of_local (by simp [h]), h]

lemma called_eval {body : List Stmt} {t : State}
    (hx : s.heap.local? g x = some (.function [] body d))
    (hbody : evalSequence (Stmt.eval (k + 1) s.heap.size) .null body (Site.enclosed s d) =
      .unwound (.returned v) t) :
    (called x).eval (k + 2) g s = .normal v t := by
  have hname : (Expr.ident x).eval (k + 1) g s = .normal (.function [] body d) s :=
    evalName_of_local? hx
  refine (bind_normal hname).trans ((bind_normal rfl).trans ?_)
  refine (bind_normal (Site.enclose_eq d s)).trans ((bind_normal rfl).trans ?_)
  exact catchReturn_unwound hbody

/-- The heap behind a call of a counter. -/
def ticked (h : Heap) (d : Nat) (m : Int64) : Heap := (h.extend (some d)).declare d "n" (.int m)

@[simp] lemma size_ticked : (ticked h d m).size = h.size + 1 := by
  rw [ticked, Heap.size_declare, Heap.size_extend]

lemma local?_ticked (hd : d < h.size) (c : Nat) (y : String) : (ticked h d m).local? c y =
    if c = d ∧ y = "n" then some (.int m) else h.local? c y := by
  have hsize : d < (h.extend (some d)).size := by
    rw [Heap.size_extend]
    omega
  simp only [ticked, Heap.local?_declare, Heap.local?_extend, hsize, and_true]

lemma lt_size_of_local? (hv : h.local? d x = some v) : d < h.size :=
  Heap.lt_size_of_local (x := x) (by simp [hv])

lemma get?_of_next {o : Nat} (hl : h.local? g x = none) (ho : h.outer? g = some o) (hlt : o < g)
    (hv : h.local? o x = some v) : h.nearest? g x = some o ∧ h.get? g x = some v := by
  have hnearest : h.nearest? g x = some o :=
    (Heap.nearest?_of_outer_lt hl ho hlt).trans (Heap.nearest?_of_local (by simp [hv]))
  exact ⟨hnearest, by rw [Heap.get?, hnearest]; exact hv⟩

lemma get?_enclosed (hd : h.local? d x = some v) :
    (h.extend (some d)).nearest? h.size x = some d ∧
      (h.extend (some d)).get? h.size x = some v :=
  get?_of_next Heap.local?_enclosed Heap.outer?_enclosed (lt_size_of_local? hd) (by simpa using hd)

lemma get?_ticked (hd : h.local? d "n" = some v) :
    (ticked h d m).get? h.size "n" = some (.int m) := by
  have hlt := lt_size_of_local? hd
  refine (get?_of_next ?_ ?_ hlt ?_).2
  · rw [ticked, Heap.local?_declare_of_ne fun hc => hlt.ne' hc.1, Heap.local?_enclosed]
  · rw [ticked, Heap.outer?_declare, Heap.outer?_enclosed]
  · exact Heap.local?_declare_self (by simpa using hlt.trans (Nat.lt_add_one _)) "n" _

lemma add_one (hm : m.toInt = n.toInt + 1) :
    InfixOp.add.apply (.int n) (.int 1) = .ok (.int m) := by
  show InfixOp.exact n .add 1 (n.toInt + 1) = _
  rw [InfixOp.exact, ← hm, int64?_toInt]

lemma tick_eval (hd : s.heap.local? d "n" = some (.int n)) (hm : m.toInt = n.toInt + 1) :
    evalSequence (Stmt.eval (k + 4) s.heap.size) .null tick (Site.enclosed s d) =
      .unwound (.returned (.int m)) { s with heap := ticked s.heap d m } := by
  obtain ⟨hnearest, hget⟩ := get?_enclosed hd
  have hsum : (Expr.infixOp (.ident "n") .add (.int 1)).eval (k + 2) s.heap.size
      (Site.enclosed s d) = .normal (.int m) (Site.enclosed s d) := by
    have hn := evalName_of_get? (s := Site.enclosed s d) hget
    refine (bind_normal hn).trans ((bind_normal rfl).trans ?_)
    rw [add_one hm]
    rfl
  have hassign : assign s.heap.size "n" (.int m) (Site.enclosed s d) =
      .normal () { s with heap := ticked s.heap d m } := by
    rw [assign, show (Site.enclosed s d).heap.nearest? s.heap.size "n" = some d from hnearest]
    rfl
  have hread : (Expr.ident "n").eval (k + 3) s.heap.size { s with heap := ticked s.heap d m } =
      .normal (.int m) { s with heap := ticked s.heap d m } :=
    evalName_of_get? (get?_ticked hd)
  have hfirst : (Stmt.expr (.assign "n" (.infixOp (.ident "n") .add (.int 1)))).eval (k + 4)
      s.heap.size (Site.enclosed s d) = .normal (.int m) { s with heap := ticked s.heap d m } :=
    (bind_normal hsum).trans (bind_normal hassign)
  exact (bind_normal hfirst).trans (bind_unwound (bind_normal hread))

/-- The heap behind a call that makes a counter. -/
def made (h : Heap) (g : Nat) : Heap := (h.extend (some g)).declare h.size "n" (.int 0)

lemma maker_eval :
    evalSequence (Stmt.eval (k + 2) s.heap.size) .null maker (Site.enclosed s g) =
      .unwound (.returned (.function [] tick s.heap.size)) { s with heap := made s.heap g } :=
  rfl

/-- The heap behind a statement that binds a counter that it makes to the name. -/
def born (h : Heap) (g : Nat) (x : String) : Heap :=
  (made h g).declare g x (.function [] tick h.size)

@[simp] lemma size_born : (born h g x).size = h.size + 1 := by
  rw [born, made, Heap.size_declare, Heap.size_declare, Heap.size_extend]

lemma local?_born_self (hg : g < h.size) :
    (born h g x).local? g x = some (.function [] tick h.size) := by
  refine Heap.local?_declare_self ?_ x _
  rw [made, Heap.size_declare, Heap.size_extend]
  exact hg.trans (Nat.lt_add_one _)

lemma number_born (hg : g < h.size) : (born h g x).local? h.size "n" = some (.int 0) := by
  rw [born, Heap.local?_declare_of_ne fun hm => hg.ne' hm.1, made]
  exact Heap.local?_declare_self (by simp) "n" _

lemma local?_born_of_lt {c : Nat} {y : String} (hc : c < h.size) (hn : ¬(c = g ∧ y = x)) :
    (born h g x).local? c y = h.local? c y := by
  rw [born, Heap.local?_declare_of_ne hn, made, Heap.local?_declare_of_ne fun hm => hc.ne hm.1,
    Heap.local?_extend]

end Calls

namespace Keeps

variable {h h' : Heap} {g d : Nat} {x : String} {n : Int64}

lemma lt_size (hx : Keeps h g x d n) : d < h.size := lt_size_of_local? hx.number

lemma congr (hx : Keeps h g x d n) (hbound : h'.local? g x = h.local? g x)
    (hnumber : h'.local? d "n" = h.local? d "n") : Keeps h' g x d n :=
  ⟨hbound.trans hx.bound, hx.ne, hnumber.trans hx.number⟩

end Keeps

namespace Counting

variable {h : Heap} {g d : Nat} {past : List Move} {x : String} {n m : Int64}

lemma define (hc : Counting h g past) :
    Counting (h.declare g "make" (.function [] maker g)) g (past ++ [.define]) := by
  have hkept {c : Nat} {y : String} (hy : ¬(c = g ∧ y = "make")) :
      (h.declare g "make" (.function [] maker g)).local? c y = h.local? c y :=
    Heap.local?_declare_of_ne hy
  have hg {y : String} (hy : .create y ∈ past) :
      (h.declare g "make" (.function [] maker g)).local? g y = h.local? g y :=
    hkept fun hm => hc.name_ne hy hm.2
  constructor
  case scope_lt => simpa using hc.scope_lt
  case maker_bound => exact fun _ => Heap.local?_declare_self hc.scope_lt _ _
  all_goals simp only [List.mem_append, List.mem_singleton, reduceCtorEq, or_false]
  case created => exact hc.created
  case name_ne => exact hc.name_ne
  case keeps =>
    intro y hy
    obtain ⟨d, n, hd, hn⟩ := hc.keeps hy
    exact ⟨d, n, hd.congr (hg hy) (hkept fun hm => hd.ne hm.1), by simpa using hn⟩
  case apart =>
    intro y z d hy hz
    rw [hg hy, hg hz]
    exact hc.apart hy hz

lemma call (hc : Counting h g past) (hx : .create x ∈ past) (hd : Keeps h g x d n)
    (hm : m.toInt = past.count (.call x) + 1) :
    Counting (ticked h d m) g (past ++ [.call x]) := by
  have hkept {c : Nat} {y : String} (hy : c ≠ d) : (ticked h d m).local? c y = h.local? c y := by
    rw [local?_ticked hd.lt_size, if_neg fun hm => hy hm.1]
  have hg {y : String} : (ticked h d m).local? g y = h.local? g y := hkept hd.ne.symm
  have hmem {y : String} : .create y ∈ past ++ [.call x] ↔ .create y ∈ past := by simp
  constructor
  case scope_lt => simpa using hc.scope_lt.trans (Nat.lt_add_one _)
  case maker_bound => exact fun hdef => hg.trans (hc.maker_bound (by simpa using hdef))
  all_goals simp only [hmem]
  case created =>
    intro y hy
    obtain hy | rfl : .call y ∈ past ∨ y = x := by simpa using hy
    · exact hc.created hy
    · exact hx
  case name_ne => exact hc.name_ne
  case keeps =>
    intro y hy
    by_cases hxy : x = y
    · subst hxy
      refine ⟨d, m, ⟨hg.trans hd.bound, hd.ne, ?_⟩, by simpa using hm⟩
      rw [local?_ticked hd.lt_size, if_pos ⟨rfl, rfl⟩]
    · obtain ⟨e, k, he, hk⟩ := hc.keeps hy
      have hne : e ≠ d := by
        rintro rfl
        exact hxy (hc.apart hx hy hd.bound he.bound)
      exact ⟨e, k, he.congr hg (hkept hne), by simpa [hxy] using hk⟩
  case apart =>
    intro y z e hy hz
    rw [hg, hg]
    exact hc.apart hy hz

lemma create (hc : Counting h g past) (hx : .create x ∉ past) (hne : x ≠ "make") :
    Counting (born h g x) g (past ++ [.create x]) := by
  have hself := local?_born_self (x := x) hc.scope_lt
  have hg {y : String} (hy : .create y ∈ past) : (born h g x).local? g y = h.local? g y := by
    refine local?_born_of_lt hc.scope_lt fun hm => hx ?_
    rwa [← hm.2]
  -- An older counter has its number in an older scope.
  have holder {y : String} (hy : .create y ∈ past) :
      h.local? g y ≠ some (.function [] tick h.size) := by
    intro hbound
    obtain ⟨d, n, hd, -⟩ := hc.keeps hy
    rw [hd.bound] at hbound
    cases hbound
    exact hd.lt_size.ne rfl
  have hmem {y : String} : .create y ∈ past ++ [.create x] ↔ .create y ∈ past ∨ y = x := by simp
  constructor
  case scope_lt => simpa using hc.scope_lt.trans (Nat.lt_add_one _)
  case maker_bound =>
    intro hdef
    rw [local?_born_of_lt hc.scope_lt fun hm => hne hm.2.symm]
    exact hc.maker_bound (by simpa using hdef)
  all_goals simp only [hmem]
  case created =>
    intro y hy
    exact .inl (hc.created (by simpa using hy))
  case name_ne =>
    rintro y (hy | rfl)
    · exact hc.name_ne hy
    · exact hne
  case keeps =>
    rintro y (hy | rfl)
    · obtain ⟨d, n, hd, hn⟩ := hc.keeps hy
      have hkept := hd.congr (hg hy) (local?_born_of_lt hd.lt_size fun hm => hd.ne hm.1)
      exact ⟨d, n, hkept, by simpa using hn⟩
    · have hzero : past.count (.call y) = 0 := List.count_eq_zero.mpr fun hm => hx (hc.created hm)
      exact ⟨h.size, 0, ⟨hself, hc.scope_lt.ne', number_born hc.scope_lt⟩, by simp [hzero]⟩
  case apart =>
    rintro y z d (hy | rfl) (hz | rfl)
    · rw [hg hy, hg hz]
      exact hc.apart hy hz
    · rw [hg hy, hself]
      rintro hbound ⟨⟩
      exact absurd hbound (holder hy)
    · rw [hg hz, hself]
      rintro ⟨⟩ hbound
      exact absurd hbound (holder hz)
    · exact fun _ _ => rfl

end Counting

def Reads (source : String) (moves : List Move) : Prop :=
  Program.ofText source = .ok (moves.map Move.stmt)

def runIn (steps g : Nat) (sources : List String) (s : State) : State :=
  sources.foldl (fun s source => (run steps g source s).2) s

/-- The evaluation of all the moves from `s` comes to the call behind `pre`, which ends with `v`. -/
def Answers (g : Nat) (s : State) (pre : List Move) (x : String) (post : List Move) (v : Value) :
    Prop :=
  ∃ w t t', Site.Ends ⟨.body (pre.map Move.stmt), g, s⟩ (.normal w t) ∧
    Site.Visits ⟨.body ((pre ++ .call x :: post).map Move.stmt), g, s⟩ ⟨.expr (called x), g, t⟩ ∧
    Site.Ends ⟨.expr (called x), g, t⟩ (.normal v t')

section Runs

variable {g k steps : Nat} {s : State} {past moves pre post : List Move} {move : Move}
variable {source x : String} {sources : List String} {batches : List (List Move)}

lemma Orderly.legal (h : Orderly (past ++ move :: moves)) : Legal past move := by
  simpa using h past.length (by simp)

lemma Orderly.left (h : Orderly (past ++ moves)) : Orderly past := by
  intro i hi
  have hlegal := h i (by simp; omega)
  rwa [List.take_append_of_le_length hi.le, List.getElem_append_left hi] at hlegal

lemma Counting.answer (hc : Counting s.heap g past) (hx : Legal past (.call x)) :
    ∃ (j : Int64) (t : State), j.toInt = past.count (.call x) + 1 ∧
      (called x).eval (k + 5) g s = .normal (.int j) t ∧
      Counting t.heap g (past ++ [.call x]) := by
  obtain ⟨hcreated, hlt⟩ := hx
  obtain ⟨d, n, hd, hn⟩ := hc.keeps hcreated
  obtain ⟨j, -, hj⟩ := int64?_of_fits (n := past.count (.call x) + 1) ⟨by omega, by omega⟩
  have heval := called_eval hd.bound (tick_eval (k := k) hd.number (by rw [hj, hn]))
  exact ⟨j, _, hj, heval, hc.call hcreated hd hj⟩

lemma Counting.step (hc : Counting s.heap g past) (hm : Legal past move) :
    ∃ v t, move.stmt.eval (k + 6) g s = .normal v t ∧ Counting t.heap g (past ++ [move]) := by
  cases move with
  | define => exact ⟨.null, _, rfl, hc.define⟩
  | create x =>
    obtain ⟨hdefined, hne, hnew⟩ := hm
    have hmade := called_eval (hc.maker_bound hdefined) (maker_eval (k := k + 2))
    exact ⟨.null, _, bind_normal hmade, hc.create hnew hne⟩
  | call x =>
    obtain ⟨j, t, -, heval, ht⟩ := hc.answer hm
    exact ⟨.int j, t, heval, ht⟩

lemma Counting.sequence (hc : Counting s.heap g past) (hm : Orderly (past ++ moves)) (v : Value) :
    ∃ w t, evalSequence (Stmt.eval (k + 6) g) v (moves.map Move.stmt) s = .normal w t ∧
      Counting t.heap g (past ++ moves) := by
  induction moves generalizing s past v with
  | nil => exact ⟨v, s, rfl, by simpa using hc⟩
  | cons move moves ih =>
    obtain ⟨w, t, hstep, ht⟩ := hc.step (k := k) hm.legal
    obtain ⟨last, u, hrest, hu⟩ := ih ht (by simpa using hm) w
    exact ⟨last, u, (bind_normal hstep).trans hrest, by simpa using hu⟩

lemma Counting.run (hc : Counting s.heap g past) (hsource : Reads source moves)
    (hm : Orderly (past ++ moves)) :
    Counting (run (k + 6) g source s).2.heap g (past ++ moves) := by
  obtain ⟨w, t, heval, ht⟩ := hc.sequence (k := k) hm .null
  rwa [run_of_ok hsource, Program.eval, catchReturn, heval]

lemma Counting.runIn (hc : Counting s.heap g past) (h : List.Forall₂ Reads sources batches)
    (hm : Orderly (past ++ batches.flatten)) :
    Counting (runIn (k + 6) g sources s).heap g (past ++ batches.flatten) := by
  induction h generalizing s past with
  | nil => simpa [Counter.runIn] using hc
  | cons hsource _ ih =>
    rw [List.flatten_cons, ← List.append_assoc] at hm ⊢
    exact ih (hc.run hsource hm.left) hm

lemma counting_nil (hg : g < s.heap.size) : Counting s.heap g [] := by
  constructor
  case scope_lt => exact hg
  all_goals simp

lemma Counting.answers (hc : Counting s.heap g past)
    (hm : Orderly (past ++ (pre ++ .call x :: post))) :
    ∃ (j : Int64) (last : Value) (t : State), j.toInt = (past ++ pre).count (.call x) + 1 ∧
      Answers g s pre x post (.int j) ∧ (post = [] → last = .int j) ∧
      evalSequence (Stmt.eval (k + 6) g) .null ((pre ++ .call x :: post).map Move.stmt) s =
        .normal last t := by
  rw [← List.append_assoc] at hm
  obtain ⟨w, t, hpre, ht⟩ := hc.sequence (k := k) hm.left .null
  obtain ⟨j, u, hj, hcall, hu⟩ := ht.answer (k := k) hm.legal
  obtain ⟨last, v, hpost, -⟩ := hu.sequence (k := k) (by simpa using hm) (.int j)
  have hends : Site.Ends ⟨.body (pre.map Move.stmt), g, s⟩ (.normal w t) := ⟨k + 6, hpre⟩
  rw [List.map_append, List.map_cons]
  refine ⟨j, last, v, hj, ⟨w, t, u, hends, ?_, ⟨k + 5, hcall⟩⟩, ?_, ?_⟩
  · rw [List.map_append, List.map_cons]
    exact .tail (.single (.inl (.statement hends))) (.inl (.expr _ _ _))
  · rintro rfl
    cases hpost
    rfl
  · rw [evalSequence_append_bind]
    exact (bind_normal hpre).trans ((bind_normal hcall).trans hpost)

theorem calls_counted (hsteps : 6 ≤ steps) (hg : g < s.heap.size)
    (hsources : List.Forall₂ Reads sources batches)
    (hsource : Reads source (pre ++ .call x :: post))
    (hm : Orderly (batches.flatten ++ (pre ++ .call x :: post))) :
    let u := runIn steps g sources s
    ∃ j : Int64, j.toInt = (batches.flatten ++ pre).count (.call x) + 1 ∧
      Answers g u pre x post (.int j) ∧
      ∃ last t, run steps g source u = (.value last, t) ∧ (post = [] → last = .int j) := by
  intro u
  obtain ⟨k, rfl⟩ : ∃ k, steps = k + 6 := ⟨steps - 6, by omega⟩
  have hu : Counting u.heap g batches.flatten := (counting_nil hg).runIn hsources hm.left
  obtain ⟨j, last, t, hj, hanswers, hlast, heval⟩ := hu.answers (k := k) hm
  refine ⟨j, hj, hanswers, last, t, ?_, hlast⟩
  rw [run_of_ok hsource, Program.eval, catchReturn, heval]
  rfl

end Runs

def interleaved : List String :=
  ["make := fn() \x7b let n = 0; return fn() \x7b n = n + 1; return n; \x7d; \x7d;",
    "a := make(); b := make(); a();", "b(); a();"]

def interleavedMoves : List (List Move) :=
  [[.define], [.create "a", .create "b", .call "a"], [.call "b", .call "a"]]

theorem calls_counted_interleaved :
    let s := runIn 9 0 interleaved (State.initial 0)
    List.Forall₂ Reads interleaved interleavedMoves ∧
      (run 9 0 "b(); a()" s).1 = .value (.int 3) ∧
      Answers 0 s [] "b" [.call "a"] (.int 2) := by
  intro s
  have hinterleaved : List.Forall₂ Reads interleaved interleavedMoves := by
    refine .cons ?_ (.cons ?_ (.cons ?_ .nil))
    all_goals cbv
  have hsource : Reads "b(); a()" [.call "b", .call "a"] := by cbv
  have hm : Orderly (interleavedMoves.flatten ++ [.call "b", .call "a"]) := by decide
  have hzero : 0 < (State.initial 0).heap.size := Nat.zero_lt_one
  have hsteps : 6 ≤ 9 := by decide
  have hsecond : Reads "b(); a()" ([.call "b"] ++ .call "a" :: []) := hsource
  have hfirst : Reads "b(); a()" ([] ++ .call "b" :: [.call "a"]) := hsource
  obtain ⟨j, hj, -, last, t, hrun, hlast⟩ := calls_counted hsteps hzero hinterleaved hsecond hm
  obtain ⟨k, hk, hanswers, -⟩ := calls_counted hsteps hzero hinterleaved hfirst hm
  obtain rfl : j = 3 := Int64.toInt_inj.mp hj
  obtain rfl : k = 2 := Int64.toInt_inj.mp hk
  exact ⟨hinterleaved, by rw [hrun, hlast rfl], hanswers⟩

end Counter

end Nut
