/-!
# Random numbers

A generator of 32-bit random numbers whose state moves by a fixed step, so that a saved state
continues the same sequence.

- `Generator.step` is the distance between two states,
- `Generator.mix` scrambles a state into a number,
- `Generator.next` is a draw: a number and the next state.
-/

namespace StoryPlayer
namespace Generator

def step : UInt32 := 0x6d2b79f5

def mix (state : UInt32) : UInt32 :=
  let a := (state ^^^ (state >>> 15)) * (state ||| 1)
  let b := a ^^^ (a + (a ^^^ (a >>> 7)) * (a ||| 61))
  b ^^^ (b >>> 14)

def next (state : UInt32) : UInt32 × UInt32 :=
  (mix (state + step), state + step)

/-- The results of several draws: each number with the state after it. -/
def draws : Nat → UInt32 → List (UInt32 × UInt32)
  | 0, _ => []
  | count + 1, state => next state :: draws count (next state).2

end Generator
end StoryPlayer
