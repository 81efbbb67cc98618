/-
Iterated ciphers: rounds of layers, each of which can be taken back.

# The shape

A round scrambles the state, mixes it and adds a key; the last round does
not mix, and a key is added before the first.  `Layers` names the layers
together with what undoes each.  Nothing is assumed about the keys: adding
the same one twice has to be the identity, and that is all.

# The inverse

`Layers.decrypt` walks the rounds back, with the inverse layers in the
reverse order.  The last round has no mixing layer, so the walk back
starts in the middle of a round: `back_scramble_after` is the induction,
on the number of full rounds that have been made.
-/
import Mathlib.Logic.Function.Basic

namespace LibOsdp.Lib

/-- The layers of a round, and the layers that take them back. -/
structure Layers (σ : Type) where
  addKey : Nat → σ → σ
  scramble : σ → σ
  unscramble : σ → σ
  mix : σ → σ
  unmix : σ → σ
  addKey_addKey : ∀ round, Function.Involutive (addKey round)
  unscramble_scramble : Function.LeftInverse unscramble scramble
  unmix_mix : Function.LeftInverse unmix mix

namespace Layers

variable {σ : Type} (l : Layers σ)

/-- The state after the first key and `n` full rounds. -/
def after : Nat → σ → σ
  | 0, s => l.addKey 0 s
  | n + 1, s => l.addKey (n + 1) (l.mix (l.scramble (after n s)))

/-- `n` full rounds and the last one, which does not mix. -/
def encrypt (n : Nat) (s : σ) : σ :=
  l.addKey (n + 1) (l.scramble (l.after n s))

/-- The rounds `n`, `n - 1`, ... taken back, from behind a scrambling
layer. -/
def back : Nat → σ → σ
  | 0, s => l.addKey 0 (l.unscramble s)
  | n + 1, s => back n (l.unmix (l.addKey (n + 1) (l.unscramble s)))

/-- The way back through `encrypt`. -/
def decrypt (n : Nat) (s : σ) : σ := l.back n (l.addKey (n + 1) s)

/-- Walking back from behind the scrambling layer of round `n + 1`. -/
theorem back_scramble_after (n : Nat) (s : σ) :
    l.back n (l.scramble (l.after n s)) = s := by
  induction n with
  | zero =>
    show l.addKey 0 (l.unscramble (l.scramble (l.addKey 0 s))) = s
    rw [l.unscramble_scramble, l.addKey_addKey]
  | succ n ih =>
    show l.back n (l.unmix (l.addKey (n + 1) (l.unscramble
      (l.scramble (l.after (n + 1) s))))) = s
    rw [l.unscramble_scramble]
    show l.back n (l.unmix (l.addKey (n + 1) (l.addKey (n + 1)
      (l.mix (l.scramble (l.after n s)))))) = s
    rw [l.addKey_addKey, l.unmix_mix]
    exact ih

/-- Decryption takes encryption back, whatever the keys. -/
theorem decrypt_encrypt (n : Nat) :
    Function.LeftInverse (l.decrypt n) (l.encrypt n) := by
  intro s
  show l.back n (l.addKey (n + 1) (l.addKey (n + 1)
    (l.scramble (l.after n s)))) = s
  rw [l.addKey_addKey]
  exact l.back_scramble_after n s

end Layers

end LibOsdp.Lib
