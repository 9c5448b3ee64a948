import Nut.Value.Text

/-! What the machine decides, and no program: the numbers that are drawn and the order in which the
entries of a hash are shown. -/

namespace Nut

/-- A source of random numbers, of which it is known only that they are below the bound. -/
structure Generator where
  seed : Nat
  draw (bound seed : Nat) : Nat × Nat
  draw_lt {bound : Nat} (seed : Nat) : 0 < bound → (draw bound seed).1 < bound

namespace Generator

def next (g : Generator) (bound : Nat) : Nat × Generator :=
  let (n, seed) := g.draw bound g.seed
  (n, { g with seed })

def seeded (seed : Nat) : Generator where
  seed
  draw bound seed :=
    let (n, random) := randNat (mkStdGen seed) 0 (bound - 1)
    (n, (stdNext random).1)
  draw_lt {bound} seed hbound := by
    show (randNat (mkStdGen seed) 0 (bound - 1)).1 < bound
    have hspan : bound - 1 - 0 + 1 = bound := by omega
    unfold randNat
    simp only [Nat.not_lt_zero, gt_iff_lt, if_false, hspan, Nat.zero_add]
    exact Nat.mod_lt _ hbound

end Generator

structure Host where
  random : Generator
  arrangement : Arrangement

def Host.seeded (seed : Nat) : Host := ⟨.seeded seed, .asPut⟩

end Nut
