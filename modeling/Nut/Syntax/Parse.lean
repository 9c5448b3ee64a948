import Nut.Syntax.ParseError

/-! Reading from the front of a token list. A failure keeps the tokens that were not yet looked
at, so that reading can go on behind it. -/

namespace Nut

inductive Parsed (α : Type) where
  | done (value : α) (rest : List Token)
  | failed (error : ParseError) (rest : List Token)
  | exhausted

def Parse (α : Type) : Type := List Token → Parsed α

namespace Parse

variable {α β : Type}

@[always_inline]
protected def pure (a : α) : Parse α := fun ts => .done a ts

@[always_inline]
protected def bind (p : Parse α) (f : α → Parse β) : Parse β := fun ts =>
  match p ts with
  | .done a rest => f a rest
  | .failed error rest => .failed error rest
  | .exhausted => .exhausted

instance : Monad Parse where
  pure := Parse.pure
  bind := Parse.bind

def exhausted : Parse α := fun _ => .exhausted

def fail (error : ParseError) : Parse α := fun ts => .failed error ts

def peek? : Parse (Option Token) := fun ts => .done ts.head? ts

def take? : Parse (Option Token)
  | [] => .done none []
  | t :: ts => .done (some t) ts

def accept (wanted : Token) : Parse Bool
  | [] => .done false []
  | t :: ts => if t = wanted then .done true ts else .done false (t :: ts)

/-- A token other than the wanted one is looked at but not taken. -/
def expect (wanted : Token) : Parse Unit
  | [] => .failed (.expectedToken wanted none) []
  | t :: ts => if t = wanted then .done () ts else .failed (.expectedToken wanted t) (t :: ts)

def terminator : Parse Unit := do
  let _ ← accept .semicolon

def consumed (ts rest : List Token) : List Token :=
  ts.take (ts.length - rest.length)

def withLast (p : Parse α) : Parse (α × Option Token) := fun ts =>
  match p ts with
  | .done a rest => .done (a, (consumed ts rest).getLast?) rest
  | .failed error rest => .failed error rest
  | .exhausted => .exhausted

theorem bind_apply (p : Parse α) (f : α → Parse β) (ts : List Token) :
    (p >>= f) ts =
      match p ts with
      | .done a rest => f a rest
      | .failed error rest => .failed error rest
      | .exhausted => .exhausted :=
  rfl

theorem map_apply (f : α → β) (p : Parse α) (ts : List Token) :
    (f <$> p) ts =
      match p ts with
      | .done a rest => .done (f a) rest
      | .failed error rest => .failed error rest
      | .exhausted => .exhausted :=
  rfl

theorem bind_of_done {p : Parse α} {f : α → Parse β} {ts rest : List Token} {a : α}
    (h : p ts = .done a rest) : (p >>= f) ts = f a rest := by
  rw [bind_apply, h]

theorem map_of_done {f : α → β} {p : Parse α} {ts rest : List Token} {a : α}
    (h : p ts = .done a rest) : (f <$> p) ts = .done (f a) rest := by
  rw [map_apply, h]

theorem bind_eq_done {p : Parse α} {f : α → Parse β} {ts rest : List Token} {b : β} :
    (p >>= f) ts = .done b rest ↔ ∃ a mid, p ts = .done a mid ∧ f a mid = .done b rest := by
  rw [bind_apply]
  cases p ts with
  | done a mid =>
    refine ⟨fun h => ⟨a, mid, rfl, h⟩, ?_⟩
    rintro ⟨_, _, ⟨⟩, h⟩
    exact h
  | failed error rest => simp
  | exhausted => simp

end Parse

end Nut
